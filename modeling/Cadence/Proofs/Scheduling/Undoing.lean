import Cadence.Proofs.Scheduling.Standing

/-!
A schedule is in force as a whole or not at all. Up to the first refusal every call goes through, and
the machine is what these calls make of it. After a refusal only what was read at the beginning is
asked for again; once that is granted, nothing of the schedule is left.
-/

namespace Cadence

def KernelCall.Restores (thread : KernelId) (before : Standing) (c : KernelCall) : Prop :=
  c = .setAffinity thread before.affinity ∨ c = .setPolicy thread before.word before.priority

namespace Machine

variable {thread : KernelId} {m w m' : Machine} {stuck : List (SchedulePart × Fault)}

/-- All that was asked since `m` has been granted, and has led to what `w` looks like. -/
structure Reached (m w m' : Machine) : Prop where
  asked : ∃ granted, m'.asked = granted ++ m.asked ∧ ∀ a ∈ granted, a.refusal = none
  standing : m'.standing = w.standing
  memory : m'.memoryLocked = w.memoryLocked

/-- After calls that were granted one was refused. What has been asked since would restore the
standing of `m`; if it was granted, nothing is stuck, and it has led to what `w` looks like. -/
structure Halted (thread : KernelId) (m w : Machine) (stuck : List (SchedulePart × Fault))
    (m' : Machine) : Prop where
  course : ∃ undoing refused granted, m'.asked = undoing ++ refused :: (granted ++ m.asked) ∧
    refused.refusal ≠ none ∧ (∀ a ∈ granted, a.refusal = none) ∧
    (∀ a ∈ undoing, a.call.Restores thread m.standing) ∧
    (stuck = [] ↔ ∀ a ∈ undoing, a.refusal = none) ∧
    ((∀ a ∈ undoing, a.refusal = none) → m'.standing = w.standing)
  memory : m'.memoryLocked = w.memoryLocked

theorem Reached.refl (m : Machine) : m.Reached m m := ⟨⟨[], rfl, by simp⟩, rfl, rfl⟩

/-- The next call is the first to be refused, or goes through like the others. -/
theorem Reached.call (hm : m.Reached w m') (h : Host) (thread : KernelId) (c : KernelCall) :
    (∃ m₁ e, h.call c m' = (m₁, .error e) ∧ Halted thread m w [] m₁) ∨
      ∃ m₁, h.call c m' = (m₁, .ok ()) ∧ m.Reached (w.grant c) m₁ := by
  obtain ⟨granted, hasked, hgranted⟩ := hm.asked
  have hcall := h.outcome_call c m'
  generalize h.call c m' = result at hcall
  cases hcall with
  | refused e =>
    refine .inl ⟨_, _, rfl, ⟨[], ⟨c, some e⟩, granted, ?_, nofun, hgranted, ?_⟩, hm.memory⟩
    · simp [note, hasked]
    · simpa [note] using hm.standing
  | granted =>
    refine .inr ⟨_, rfl, ⟨⟨c, none⟩ :: granted, ?_, ?_⟩, ?_, ?_⟩
    · simp [note, hasked]
    · simpa using hgranted
    · exact standing_grant (m := m'.note _) hm.standing c
    · exact memoryLocked_grant (m := m'.note _) hm.memory c

theorem Halted.congr {w' : Machine} (hm : Halted thread m w stuck m')
    (hstanding : w.standing = w'.standing) (hmemory : w.memoryLocked = w'.memoryLocked) :
    Halted thread m w' stuck m' := by
  obtain ⟨hcourse, hm⟩ := hm
  rw [hstanding] at hcourse
  exact ⟨hcourse, hm.trans hmemory⟩

theorem memoryLocked_of_restores {c : KernelCall} (hc : c.Restores thread m.standing) :
    (w.grant c).memoryLocked = w.memoryLocked := by
  rcases hc with rfl | rfl <;> rfl

/-- One more call restores something, or is stuck. -/
theorem Halted.call (hm : Halted thread m w stuck m') (h : Host) (part : SchedulePart)
    {c : KernelCall} (hc : c.Restores thread m.standing) :
    (∃ m₁ e, h.call c m' = (m₁, .error e) ∧
      Halted thread m (w.grant c) (stuck ++ [(part, e)]) m₁) ∨
    ∃ m₁, h.call c m' = (m₁, .ok ()) ∧ Halted thread m (w.grant c) stuck m₁ := by
  obtain ⟨undoing, refused, granted, hasked, hrefused, hgranted, hundoing, hstuck, hstanding⟩ :=
    hm.course
  have hcall := h.outcome_call c m'
  generalize h.call c m' = result at hcall
  cases hcall with
  | refused e =>
    refine .inl ⟨_, _, rfl,
      ⟨⟨c, some e⟩ :: undoing, refused, granted, ?_, hrefused, hgranted, ?_, ?_, ?_⟩, ?_⟩
    · simp [note, hasked]
    · simpa using ⟨hc, hundoing⟩
    · simp
    · intro hall
      exact nomatch hall _ (.head _)
    · rw [memoryLocked_of_restores hc]
      exact hm.memory
  | granted =>
    refine .inr ⟨_, rfl,
      ⟨⟨c, none⟩ :: undoing, refused, granted, ?_, hrefused, hgranted, ?_, ?_, ?_⟩, ?_⟩
    · simp [note, hasked]
    · simpa using ⟨hc, hundoing⟩
    · simpa using hstuck
    · intro hall
      exact standing_grant (m := m'.note _) (hstanding fun a ha => hall a (.tail _ ha)) c
    · exact memoryLocked_grant (m := m'.note _) hm.memory c

end Machine

namespace Snapshot

open Machine

variable {thread : KernelId} {m w m' : Machine} {stuck : List (SchedulePart × Fault)}

theorem take_cases (h : Host) (thread : KernelId) (m : Machine) :
    (∃ m₁ e, take h thread m = (m₁, .error e) ∧ Halted thread m m [] m₁) ∨
      ∃ m₁, take h thread m = (m₁, .ok (ofStanding m.standing)) ∧ m.Reached m m₁ := by
  unfold take
  rcases (Reached.refl m).call h thread (.getAffinity thread) with
    ⟨m₁, e, hcall, hhalt⟩ | ⟨m₁, hcall, h₁⟩
  · exact .inl ⟨m₁, e, by rw [hcall], hhalt⟩
  rcases h₁.call h thread (.getPolicy thread) with ⟨m₂, e, hcall₂, hhalt⟩ | ⟨m₂, hcall₂, h₂⟩
  · exact .inl ⟨m₂, e, by simp only [hcall, hcall₂], hhalt⟩
  rcases h₂.call h thread (.getPriority thread) with ⟨m₃, e, hcall₃, hhalt⟩ | ⟨m₃, hcall₃, h₃⟩
  · exact .inl ⟨m₃, e, by simp only [hcall, hcall₂, hcall₃], hhalt⟩
  have hstanding : m₃.standing = m.standing := h₃.standing
  exact .inr ⟨m₃, by simp only [hcall, hcall₂, hcall₃, hstanding], h₃⟩

theorem halted_restoreAffinity (hm : Halted thread m w stuck m') (h : Host) :
    Halted thread m (w.grant (.setAffinity thread m.standing.affinity))
      (stuck ++ ((ofStanding m.standing).restore h thread .affinity m').2)
      ((ofStanding m.standing).restore h thread .affinity m').1 := by
  simp only [restore, ofStanding]
  rcases hm.call h .affinity (.inl rfl) with ⟨m₁, e, hcall, hm₁⟩ | ⟨m₁, hcall, hm₁⟩
  · simpa only [hcall] using hm₁
  · simpa only [hcall, List.append_nil] using hm₁

theorem halted_restorePolicy (hm : Halted thread m w stuck m') (h : Host) :
    Halted thread m (w.grant (.setPolicy thread m.standing.word m.standing.priority))
      (stuck ++ ((ofStanding m.standing).restore h thread .policy m').2)
      ((ofStanding m.standing).restore h thread .policy m').1 := by
  simp only [restore, word_ofStanding]
  rcases hm.call h .policy (.inr rfl) with ⟨m₁, e, hcall, hm₁⟩ | ⟨m₁, hcall, hm₁⟩
  · simpa only [ofStanding, hcall] using hm₁
  · simpa only [ofStanding, hcall, List.append_nil] using hm₁

end Snapshot

namespace Schedule

open Machine

variable {s : Schedule} {h : Host} {thread : KernelId} {m m' : Machine}

def pinned (s : Schedule) (thread : KernelId) (m : Machine) : Machine :=
  if s.cpus.isEmpty then m else m.grant (.setAffinity thread (.ofList s.cpus.indices))

/-- The machine with all that a schedule asks for of a thread. -/
def scheduled (s : Schedule) (thread : KernelId) (m : Machine) : Machine :=
  (s.pinned thread m).grant (.setPolicy thread (.ofPolicy s.policy) s.priority)

theorem pin_cases (hm : m.Reached m m') (s : Schedule) (h : Host) (thread : KernelId) :
    (∃ m₁ e, s.pin h thread m' = (m₁, .error e) ∧ Halted thread m m [] m₁) ∨
      ∃ m₁, s.pin h thread m' = (m₁, .ok ()) ∧ m.Reached (s.pinned thread m) m₁ := by
  unfold pin pinned
  split
  · exact .inr ⟨m', rfl, hm⟩
  · exact hm.call h thread (.setAffinity thread (.ofList s.cpus.indices))

theorem memoryLocked_pinned (s : Schedule) (thread : KernelId) (m : Machine) :
    (s.pinned thread m).memoryLocked = m.memoryLocked := by
  unfold pinned
  split <;> rfl

theorem standing_pinned_undone (s : Schedule) (thread : KernelId) (m : Machine) :
    ((s.pinned thread m).grant (.setAffinity thread m.standing.affinity)).standing =
      m.standing := by
  unfold pinned
  split <;> rfl

theorem standing_scheduled_undone (s : Schedule) (thread : KernelId) (m : Machine) :
    (((s.scheduled thread m).grant
      (.setPolicy thread m.standing.word m.standing.priority)).grant
        (.setAffinity thread m.standing.affinity)).standing = m.standing := by
  unfold scheduled pinned
  split <;> rfl

theorem apply_cases (thread : KernelId) (m : Machine)
    (hcheck : (s.validate >>= fun _ => s.checkHost h) = .ok ()) :
    (∃ m' refusal, s.apply h thread m = (m', .error refusal) ∧
      Halted thread m m refusal.stuck m') ∨
    ∃ m', s.apply h thread m = (m', .ok ()) ∧ m.Reached
      (if s.lockMemory then (s.scheduled thread m).grant .lockMemory else s.scheduled thread m)
      m' := by
  unfold apply
  rw [hcheck]
  rcases Snapshot.take_cases h thread m with ⟨m₁, e, htake, hhalt⟩ | ⟨m₁, htake, h₁⟩
  · exact .inl ⟨m₁, ⟨.request, e, []⟩, by simp only [htake], hhalt⟩
  rcases pin_cases h₁ s h thread with ⟨m₂, e, hpin, hhalt⟩ | ⟨m₂, hpin, h₂⟩
  · exact .inl ⟨m₂, ⟨.affinity, e, []⟩, by simp only [htake, hpin], hhalt⟩
  rcases h₂.call h thread (.setPolicy thread (.ofPolicy s.policy) s.priority) with
    ⟨m₃, e, hpolicy, hhalt⟩ | ⟨m₃, hpolicy, h₃⟩
  · -- the affinity goes back to what it was, also when no CPU was asked for
    have hundone := (Snapshot.halted_restoreAffinity hhalt h).congr
      (standing_pinned_undone s thread m) (memoryLocked_pinned s thread m)
    exact .inl ⟨_, ⟨.policy, e, _⟩, by simp [htake, hpin, hpolicy], hundone⟩
  cases hlock : s.lockMemory with
  | false => exact .inr ⟨m₃, by simp [htake, hpin, hpolicy], h₃⟩
  | true =>
    rcases h₃.call h thread .lockMemory with ⟨m₄, e, hmemory, hhalt⟩ | ⟨m₄, hmemory, h₄⟩
    · have hundone := (Snapshot.halted_restoreAffinity (Snapshot.halted_restorePolicy hhalt h)
        h).congr (standing_scheduled_undone s thread m) (memoryLocked_pinned s thread m)
      exact .inl ⟨_, ⟨.memory, e, _⟩, by simp [htake, hpin, hpolicy, hmemory], hundone⟩
    · exact .inr ⟨m₄, by simp [htake, hpin, hpolicy, hmemory], h₄⟩

/-- What holds of a machine on which a schedule has come into force. -/
structure InForce (s : Schedule) (m m' : Machine) : Prop where
  policy : m'.standing.word = .ofPolicy s.policy
  priority : m'.standing.priority = s.priority
  affinity : if s.cpus.isEmpty then m'.standing.affinity = m.standing.affinity
    else ∀ k, m'.standing.affinity.has k = true ↔ ∃ cpu ∈ s.cpus.indices, cpu.toNat = k
  memory : m'.memoryLocked = (s.lockMemory || m.memoryLocked)

theorem inForce_of_reached (hvalid : s.validate = .ok ())
    (hm : m.Reached
      (if s.lockMemory then (s.scheduled thread m).grant .lockMemory else s.scheduled thread m)
      m') : s.InForce m m' := by
  have hstanding : m'.standing = (s.scheduled thread m).standing := by
    rw [hm.standing]
    split <;> rfl
  refine ⟨by rw [hstanding]; rfl, by rw [hstanding]; rfl, ?_, ?_⟩
  · have haffinity : m'.standing.affinity = (s.pinned thread m).standing.affinity := by
      rw [hstanding]
      rfl
    rw [haffinity]
    unfold pinned
    split
    · rfl
    · exact CpuSet.has_ofList (validate_eq_ok.1 hvalid).2.1
  · rw [hm.memory]
    cases s.lockMemory with
    | true => rfl
    | false => exact memoryLocked_pinned s thread m

def idleThread : Machine :=
  { own := 7, standing := { affinity := .first 4, word := .idle ||| .resetOnFork } }

def onCpus (cpus : CpuList) (lockMemory : Bool) : Schedule := { fifo 20 with cpus, lockMemory }

end Schedule

end Cadence
