import Cadence.Proofs.Scheduling.Undoing
import Cadence.Scheduling.Linux
import Mathlib.Data.Finset.Card

/-!
A schedule that is in force and what is read of its thread. Policy and priority come back as they
were asked for, and CPUs come back in ascending order, or not at all if they are all there are. What
is read is a schedule again, and asking for the first one once more changes nothing.
-/

namespace Cadence

def Host.Keeps (h : Host) (P : Machine → Prop) : Prop :=
  ∀ c m, P m → P (h.call c m).1

namespace Host.Keeps

variable {h : Host} {P : Machine → Prop} {thread : KernelId} {m m' : Machine}

theorem call (keeps : h.Keeps P) {c : KernelCall} {answer : Except Fault Unit} (hm : P m)
    (called : h.call c m = (m', answer)) : P m' := by
  have hnext := keeps c m hm
  rwa [called] at hnext

theorem take (keeps : h.Keeps P) (hm : P m) (thread : KernelId) :
    P (Snapshot.take h thread m).1 := by
  unfold Snapshot.take
  split
  · rename_i h₁
    exact keeps.call hm h₁
  rename_i h₁
  split
  · rename_i h₂
    exact keeps.call (keeps.call hm h₁) h₂
  rename_i h₂
  split
  all_goals
    rename_i h₃
    exact keeps.call (keeps.call (keeps.call hm h₁) h₂) h₃

theorem restore (keeps : h.Keeps P) (hm : P m) (before : Snapshot) (part : SchedulePart) :
    P (before.restore h thread part m).1 := by
  unfold Snapshot.restore
  dsimp only
  split
  all_goals
    rename_i hcall
    exact keeps.call hm hcall

theorem pin (keeps : h.Keeps P) (hm : P m) (s : Schedule) (thread : KernelId) :
    P (s.pin h thread m).1 := by
  unfold Schedule.pin
  split
  · exact hm
  · exact keeps _ _ hm

theorem apply (keeps : h.Keeps P) (hm : P m) (s : Schedule) : P (s.apply h thread m).1 := by
  unfold Schedule.apply
  split
  · exact hm
  have htake := keeps.take hm thread
  split
  · rename_i h₁
    rwa [h₁] at htake
  rename_i before h₁
  rw [h₁] at htake
  have hpin := keeps.pin htake s thread
  split
  · rename_i h₂
    rwa [h₂] at hpin
  rename_i h₂
  rw [h₂] at hpin
  split
  · rename_i h₃
    exact keeps.restore (keeps.call hpin h₃) before .affinity
  rename_i h₃
  have hpolicy := keeps.call hpin h₃
  split
  · exact hpolicy
  split
  · rename_i h₄
    exact keeps.restore (keeps.restore (keeps.call hpolicy h₄) before .policy) before .affinity
  · rename_i h₄
    exact keeps.call hpolicy h₄

end Host.Keeps

theorem Host.own_call (h : Host) (c : KernelCall) (m : Machine) : (h.call c m).1.own = m.own := by
  unfold call
  dsimp only
  split
  · cases c <;> rfl
  · rfl

theorem Schedule.own_apply (s : Schedule) (h : Host) (thread : KernelId) (m : Machine) :
    (s.apply h thread m).1.own = m.own := by
  have keeps : h.Keeps fun w => w.own = m.own := by
    intro c w hw
    rw [h.own_call, hw]
  exact keeps.apply rfl s

/-- What `thread` has can be read by `own`, whatever was asked before. -/
def Host.Answers (h : Host) (thread own : KernelId) : Prop :=
  ∀ m c, m.own = own → c.isChange = false → c.thread? = some thread → h.refuses m c = none

def Machine.reported (m : Machine) (h : Host) : CpuList := (Snapshot.ofStanding m.standing).cpus h

section

variable {h : Host} {thread : KernelId} {m : Machine} {c : KernelCall}

theorem Machine.grant_of_reads (reads : c.isChange = false) (m : Machine) : m.grant c = m := by
  cases c with
  | getAffinity | getPolicy | getPriority => rfl
  | setAffinity | setPolicy | lockMemory | unlockMemory => cases reads

theorem Host.Answers.call (answers : h.Answers thread m.own) (reads : c.isChange = false)
    (asks : c.thread? = some thread) : h.call c m = (m.note ⟨c, none⟩, .ok ()) := by
  unfold Host.call
  rw [answers m c rfl reads asks]
  dsimp only
  rw [Machine.grant_of_reads reads]
  rfl

theorem Snapshot.take_of_answers (answers : h.Answers thread m.own) :
    take h thread m = (((m.note ⟨.getAffinity thread, none⟩).note ⟨.getPolicy thread, none⟩).note
      ⟨.getPriority thread, none⟩, .ok (ofStanding m.standing)) := by
  unfold take
  -- what is noted leaves the thread who it is
  rw [answers.call (c := .getAffinity thread) rfl rfl]
  dsimp only
  rw [Host.Answers.call (c := .getPolicy thread) (m := m.note _) answers rfl rfl]
  dsimp only
  rw [Host.Answers.call (c := .getPriority thread) (m := (m.note _).note _) answers rfl rfl]
  rfl

theorem Schedule.current_of_answers (answers : h.Answers thread m.own) :
    (current h thread m).2 = (Snapshot.ofStanding m.standing).policy.map fun policy =>
      { policy, priority := m.standing.priority, cpus := m.reported h,
        lockMemory := m.memoryLocked } := by
  unfold current
  rw [Snapshot.take_of_answers answers]
  rfl

end

/-! A list of CPUs against those that are online. -/

section

variable {online : Finset Nat} {list : List UInt64}

theorem nodup_map_toNat (nodup : list.Nodup) : (list.map UInt64.toNat).Nodup :=
  nodup.map fun _ _ h => UInt64.toNat_inj.1 h

theorem length_lt_of_missing (nodup : list.Nodup)
    (available : ∀ cpu ∈ list, cpu.toNat ∈ online) {k : Nat} (hk : k ∈ online)
    (missing : ∀ cpu ∈ list, cpu.toNat ≠ k) : list.length < online.card := by
  rw [← List.length_map UInt64.toNat, ← List.toFinset_card_of_nodup (nodup_map_toNat nodup)]
  refine Finset.card_lt_card (Finset.ssubset_iff_of_subset ?_ |>.2 ⟨k, hk, ?_⟩)
  · intro j hj
    obtain ⟨cpu, hcpu, rfl⟩ := List.mem_map.1 (List.mem_toFinset.1 hj)
    exact available cpu hcpu
  · intro hmem
    obtain ⟨cpu, hcpu, hcpuk⟩ := List.mem_map.1 (List.mem_toFinset.1 hmem)
    exact missing cpu hcpu hcpuk

theorem card_le_length {online : Finset Nat} {list : List UInt64}
    (covers : ∀ k ∈ online, ∃ cpu ∈ list, cpu.toNat = k) : online.card ≤ list.length := by
  have hsubset : online ⊆ (list.map UInt64.toNat).toFinset := by
    intro k hk
    rw [List.mem_toFinset, List.mem_map]
    exact covers k hk
  have hcard := Finset.card_le_card hsubset
  have hlength := List.toFinset_card_le (list.map UInt64.toNat)
  rw [List.length_map] at hlength
  omega

end

namespace Snapshot

variable {h : Host} {s : Snapshot}

/-- The CPUs that a thread may run on and that can be named. -/
def allowed (s : Snapshot) (h : Host) : List Nat :=
  (List.range h.nameableCpus).filter s.affinity.has

theorem le_of_allowed {k : Nat} (hk : k ∈ s.allowed h) : k ≤ Limits.cpuIndex := by
  have hrange := List.mem_range.1 (List.mem_filter.1 hk).1
  have hle : h.nameableCpus ≤ Limits.cpuIndex + 1 := Nat.min_le_right ..
  omega

theorem toNat_of_allowed {k : Nat} (hk : k ∈ s.allowed h) : (UInt64.ofNat k).toNat = k := by
  have hindex : Limits.cpuIndex < UInt64.size := by decide
  exact UInt64.toNat_ofNat_of_lt' (Nat.lt_of_le_of_lt (le_of_allowed hk) hindex)

theorem sorted_allowed : ((s.allowed h).map UInt64.ofNat).Pairwise (· < ·) := by
  refine List.pairwise_map.2 ((List.pairwise_lt_range.filter _).imp_of_mem ?_)
  intro j k hj hk hlt
  rw [UInt64.lt_iff_toNat_lt, toNat_of_allowed hj, toNat_of_allowed hk]
  exact hlt

theorem sublist_cpus : (s.cpus h).indices.Sublist ((s.allowed h).map UInt64.ofNat) := by
  unfold cpus
  dsimp only
  split
  · exact List.nil_sublist _
  · exact List.take_sublist ..

theorem sorted_cpus : (s.cpus h).indices.Pairwise (· < ·) :=
  sorted_allowed.sublist sublist_cpus

theorem le_of_cpus {cpu : UInt64} (hcpu : cpu ∈ (s.cpus h).indices) :
    cpu.toNat ≤ Limits.cpuIndex := by
  obtain ⟨k, hk, rfl⟩ := List.mem_map.1 (sublist_cpus.subset hcpu)
  rw [toNat_of_allowed hk]
  exact le_of_allowed hk

/-! An affinity that is exactly some list. -/

section

variable {list : List UInt64}

theorem perm_allowed (hhas : ∀ k, s.affinity.has k = true ↔ ∃ cpu ∈ list, cpu.toNat = k)
    (hlt : ∀ cpu ∈ list, cpu.toNat < h.nameableCpus) (hnodup : list.Nodup) :
    ((s.allowed h).map UInt64.ofNat).Perm list := by
  have hnat : (s.allowed h).Perm (list.map UInt64.toNat) := by
    refine (List.perm_ext_iff_of_nodup (List.nodup_range.filter _)
      (nodup_map_toNat hnodup)).2 fun k => ?_
    rw [List.mem_filter, hhas, List.mem_range, List.mem_map, and_iff_right_iff_imp]
    rintro ⟨cpu, hcpu, rfl⟩
    exact hlt cpu hcpu
  have hback : UInt64.ofNat ∘ UInt64.toNat = id := funext fun _ => UInt64.ofNat_toNat
  have hwords := hnat.map UInt64.ofNat
  rwa [List.map_map, hback, List.map_id] at hwords

theorem cpus_of_all (hperm : ((s.allowed h).map UInt64.ofNat).Perm list)
    (hall : h.onlineCpus ≤ list.length) : s.cpus h = .none := by
  have hlength := hperm.length_eq
  rw [List.length_map] at hlength
  unfold cpus
  exact if_pos (hlength ▸ hall)

theorem cpus_of_some (hperm : ((s.allowed h).map UInt64.ofNat).Perm list)
    (hsome : list.length < h.onlineCpus) (hle : list.length ≤ Limits.cpus) :
    (s.cpus h).indices.Perm list := by
  have hlength := hperm.length_eq
  rw [List.length_map] at hlength
  have htake : ((s.allowed h).map UInt64.ofNat).take Limits.cpus =
      (s.allowed h).map UInt64.ofNat := by
    refine List.take_of_length_le ?_
    rwa [List.length_map, hlength]
  have hfew : ¬ h.onlineCpus ≤ (s.allowed h).length := by omega
  unfold allowed at hfew
  unfold cpus
  rw [if_neg hfew]
  change (((s.allowed h).map UInt64.ofNat).take Limits.cpus).Perm list
  rwa [htake]

end

end Snapshot

namespace Schedule

variable {s now : Schedule} {h : Host} {thread : KernelId} {m m' : Machine}

theorem checks_of_apply (applied : s.apply h thread m = (m', .ok ())) :
    s.validate = .ok () ∧ s.checkHost h = .ok () := by
  unfold apply at applied
  cases hvalid : s.validate with
  | error e =>
    rw [hvalid] at applied
    cases applied
  | ok =>
    refine ⟨rfl, ?_⟩
    cases hhost : s.checkHost h with
    | error e =>
      rw [hvalid, hhost] at applied
      cases applied
    | ok => rfl

theorem inForce_of_apply (applied : s.apply h thread m = (m', .ok ())) : s.InForce m m' := by
  obtain ⟨hvalid, hhost⟩ := checks_of_apply applied
  have hchecks : (s.validate >>= fun _ => s.checkHost h) = .ok () := by
    rw [hvalid]
    exact hhost
  rcases apply_cases thread m hchecks with ⟨m₁, refusal, hcase, -⟩ | ⟨m₁, hcase, hreached⟩
  · cases hcase.symm.trans applied
  · obtain ⟨⟩ := hcase.symm.trans applied
    exact inForce_of_reached hvalid hreached

theorem lt_of_checkHost (hhost : s.checkHost h = .ok ()) :
    ∀ cpu ∈ s.cpus.indices, cpu.toNat < h.nameableCpus := by
  unfold checkHost at hhost
  split at hhost
  · cases hhost
  · split at hhost
    · cases hhost
    · rename_i hnone
      simpa using hnone

/-- What a thread is read to have, once a schedule has come into force on it. -/
structure ReadsBack (s : Schedule) (h : Host) (online : Finset Nat) (m : Machine) (now : Schedule) :
    Prop where
  policy : now.policy = s.policy
  priority : now.priority = s.priority
  lockMemory : now.lockMemory = (s.lockMemory || m.memoryLocked)
  valid : now.validate = .ok ()
  /-- No CPU was asked for, and the report is that of before. -/
  unpinned : s.cpus.indices = [] → now.cpus = m.reported h
  whole : s.cpus.indices ≠ [] → (∀ k ∈ online, ∃ cpu ∈ s.cpus.indices, cpu.toNat = k) →
    now.cpus = .none
  pinned : s.cpus.indices ≠ [] → (∃ k ∈ online, ∀ cpu ∈ s.cpus.indices, cpu.toNat ≠ k) →
    now.cpus.indices.Perm s.cpus.indices ∧ now.cpus.indices.Pairwise (· < ·)

theorem policy_ofStanding {w : Standing} {p : Policy} (word : w.word = .ofPolicy p) :
    (Snapshot.ofStanding w).policy = .ok p := by
  unfold Snapshot.policy Snapshot.ofStanding
  rw [word]
  cases p <;> rfl

/-- What is read of a thread that a schedule is in force on. -/
theorem current_of_inForce (answers : h.Answers thread m'.own) (force : s.InForce m m') :
    (current h thread m').2 = .ok
      { policy := s.policy, priority := s.priority, cpus := m'.reported h,
        lockMemory := s.lockMemory || m.memoryLocked } := by
  rw [current_of_answers answers, policy_ofStanding force.policy, force.priority, force.memory]
  rfl

theorem readsBack_of_inForce {online : Finset Nat} (count : online.card = h.onlineCpus)
    (available : ∀ cpu ∈ s.cpus.indices, cpu.toNat ∈ online) (hvalid : s.validate = .ok ())
    (hhost : s.checkHost h = .ok ()) (force : s.InForce m m') :
    s.ReadsBack h online m
      { policy := s.policy, priority := s.priority, cpus := m'.reported h,
        lockMemory := s.lockMemory || m.memoryLocked } := by
  obtain ⟨hallows, -, hnodup⟩ := validate_eq_ok.1 hvalid
  have haffinity := force.affinity
  have hperm (hcpus : s.cpus.indices ≠ []) :
      (((Snapshot.ofStanding m'.standing).allowed h).map UInt64.ofNat).Perm s.cpus.indices := by
    rw [CpuList.isEmpty, if_neg (by simpa using hcpus)] at haffinity
    exact Snapshot.perm_allowed haffinity (lt_of_checkHost hhost) hnodup
  refine ⟨rfl, rfl, rfl, ?_, ?_, ?_, ?_⟩
  · refine validate_eq_ok.2 ⟨hallows, fun cpu hcpu => Snapshot.le_of_cpus hcpu, ?_⟩
    exact Snapshot.sorted_cpus.imp fun hlt => UInt64.ne_of_lt hlt
  · intro hcpus
    rw [CpuList.isEmpty, if_pos (by simpa using hcpus)] at haffinity
    unfold Machine.reported Snapshot.cpus Snapshot.ofStanding
    rw [haffinity]
  · intro hcpus covers
    exact Snapshot.cpus_of_all (hperm hcpus) (count ▸ card_le_length covers)
  · rintro hcpus ⟨k, hk, missing⟩
    have hsome := length_lt_of_missing hnodup available hk missing
    rw [count] at hsome
    exact ⟨Snapshot.cpus_of_some (hperm hcpus) hsome s.cpus.length_le, Snapshot.sorted_cpus⟩

/-- A thread on which a schedule is in force looks the same when it comes into force once more. -/
theorem standing_of_inForce {m₂ : Machine} (force : s.InForce m m') (again : s.InForce m' m₂) :
    m₂.standing = m'.standing ∧ m₂.memoryLocked = m'.memoryLocked := by
  have haffinity : m₂.standing.affinity = m'.standing.affinity := by
    have hafter := force.affinity
    have hagain := again.affinity
    split at hagain
    · exact hagain
    · rename_i hcpus
      rw [if_neg hcpus] at hafter
      exact BitVec.eq_of_getLsbD_eq fun k _ => Bool.eq_iff_iff.2 ((hagain k).trans (hafter k).symm)
  refine ⟨?_, ?_⟩
  · rcases hs : m₂.standing with ⟨affinity, word, priority⟩
    rcases hs' : m'.standing with ⟨affinity', word', priority'⟩
    have hword := again.policy.trans force.policy.symm
    have hpriority := again.priority.trans force.priority.symm
    rw [hs, hs'] at haffinity hword hpriority
    cases haffinity
    cases hword
    cases hpriority
    rfl
  · rw [again.memory, force.memory, ← Bool.or_assoc, Bool.or_self]

/-- Of the CPUs that are online a schedule asked for some, for all, or for none in particular. Once it
has come into force it is what is read, and coming into force once more changes nothing. -/
theorem readsBack_apply {online : Finset Nat} (answers : h.Answers thread m.own)
    (count : online.card = h.onlineCpus) (available : ∀ cpu ∈ s.cpus.indices, cpu.toNat ∈ online)
    (applied : s.apply h thread m = (m', .ok ())) :
    ∃ now, (current h thread m').2 = .ok now ∧ s.ReadsBack h online m now ∧
      ∀ m₂, s.apply h thread m' = (m₂, .ok ()) → m₂.standing = m'.standing ∧
        m₂.memoryLocked = m'.memoryLocked ∧ (current h thread m₂).2 = .ok now := by
  obtain ⟨hvalid, hhost⟩ := checks_of_apply applied
  have force := inForce_of_apply applied
  have hown : m'.own = m.own := by rw [← own_apply s h thread m, applied]
  have hread := current_of_inForce (hown ▸ answers) force
  refine ⟨_, hread, readsBack_of_inForce count available hvalid hhost force, ?_⟩
  intro m₂ again
  obtain ⟨hstanding, hmemory⟩ := standing_of_inForce force (inForce_of_apply again)
  have hown₂ : m₂.own = m'.own := by rw [← own_apply s h thread m', again]
  refine ⟨hstanding, hmemory, ?_⟩
  -- what is read depends on nothing but the standing and the memory
  rw [← hread, current_of_answers (hown₂ ▸ hown ▸ answers), current_of_answers (hown ▸ answers),
    Machine.reported, hstanding, hmemory]
  rfl

/-- A thread of a Linux machine can ask about itself, and be asked about. -/
theorem answers_linux {own : KernelId} (hthread : thread = .caller ∨ thread = own) (cpus : Nat)
    (privileged small : Bool) : (Host.linux cpus privileged small).Answers thread own := by
  rintro m c rfl reads asks
  have hfound : (thread = .caller || thread = m.own : Bool) = true := by simpa using hthread
  simp only [Host.linux, asks, Option.all_some, hfound, if_true]
  cases c with
  | getAffinity | getPolicy | getPriority => rfl
  | setAffinity | setPolicy | lockMemory | unlockMemory => cases reads

/-- Asks for two CPUs of a small machine, the later one first, and for locked memory. -/
def descending : Schedule := onCpus ⟨[2, 1], by decide⟩ true

/-- The two CPUs come back in ascending order, and come back so again. -/
theorem readsBack_apply_descending :
    ∃ m' m₂ now, descending.apply (.linux 4 true) 7 idleThread = (m', .ok ()) ∧
      descending.apply (.linux 4 true) 7 m' = (m₂, .ok ()) ∧
      (current (.linux 4 true) 7 m').2 = .ok now ∧ (current (.linux 4 true) 7 m₂).2 = .ok now ∧
      now.policy = .fifo ∧ now.priority = 20 ∧ now.lockMemory = true ∧
      now.cpus.indices.Perm [2, 1] ∧ now.cpus.indices.Pairwise (· < ·) := by
  have hfirst : (descending.apply (.linux 4 true) 7 idleThread).2 = .ok () := by decide +kernel
  have hsecond : (descending.apply (.linux 4 true) 7
      (descending.apply (.linux 4 true) 7 idleThread).1).2 = .ok () := by decide +kernel
  generalize happlied : descending.apply (.linux 4 true) 7 idleThread = first at hfirst hsecond
  obtain ⟨m', answer⟩ := first
  cases hfirst
  dsimp only at hsecond
  generalize hagain : descending.apply (.linux 4 true) 7 m' = second at hsecond
  obtain ⟨m₂, answer⟩ := second
  cases hsecond
  have hown : (Host.linux 4 true).Answers 7 idleThread.own := answers_linux (.inr rfl) 4 true false
  have hlist : ∀ cpu ∈ descending.cpus.indices, cpu.toNat ∈ Finset.range 4 := by
    simp [descending, onCpus]
  obtain ⟨now, hread, hback, hsame⟩ := readsBack_apply hown rfl hlist happlied
  obtain ⟨hcpus, hsorted⟩ := hback.pinned (by decide) ⟨0, by decide, by simp [descending, onCpus]⟩
  exact ⟨m', m₂, now, rfl, hagain, hread, (hsame m₂ hagain).2.2, hback.policy, hback.priority,
    hback.lockMemory, hcpus, hsorted⟩

end Schedule

end Cadence
