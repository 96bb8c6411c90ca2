import Cadence.Scheduling.Apply

/-!
What a thread's standing says, and what is read of it and written to it. A call either goes through
and is carried out, or it is refused and only noted. The word that a snapshot puts back is the one it
was taken from, and the affinity that a valid schedule asks for is exactly its list.
-/

namespace Cadence

namespace PolicyWord

theorem resets_eq (w : PolicyWord) : w.resets = w.getLsbD 30 := by
  unfold resets resetOnFork
  rw [BitVec.and_twoPow]
  cases w.getLsbD 30 <;> rfl

theorem getLsbD_number (w : PolicyWord) {i : Nat} (h : i < 31) :
    w.number.getLsbD i = (w.getLsbD i && decide (i ≠ 30)) := by
  unfold number resetOnFork
  simp only [BitVec.getLsbD_and, BitVec.getLsbD_not, BitVec.getLsbD_twoPow, h]
  by_cases hi : i = 30
  · simp [hi]
  · simp [hi, Ne.symm hi]

end PolicyWord

/-- Number and flag come apart and together again. -/
theorem Snapshot.word_ofStanding (s : Standing) : (ofStanding s).word = s.word := by
  unfold word ofStanding
  dsimp only
  apply BitVec.eq_of_getLsbD_eq
  intro i hi
  rw [PolicyWord.resets_eq]
  cases hflag : s.word.getLsbD 30 with
  | true =>
    rw [if_pos rfl, BitVec.getLsbD_or, PolicyWord.getLsbD_number s.word hi]
    unfold PolicyWord.resetOnFork
    rw [BitVec.getLsbD_twoPow]
    by_cases h30 : i = 30
    · simp [h30, hflag]
    · simp [h30, Ne.symm h30]
  | false =>
    rw [if_neg Bool.false_ne_true, PolicyWord.getLsbD_number s.word hi]
    by_cases h30 : i = 30
    · rw [h30, hflag, Bool.false_and]
    · simp [h30]

theorem CpuSet.has_ofList {cpus : List UInt64} (h : ∀ cpu ∈ cpus, cpu.toNat ≤ Limits.cpuIndex)
    (k : Nat) : (ofList cpus).has k = true ↔ ∃ cpu ∈ cpus, cpu.toNat = k := by
  induction cpus with
  | nil => simp [ofList, has]
  | cons cpu cpus ih =>
    have hcpu : cpu.toNat < Limits.cpuIndex + 1 := Nat.lt_succ_of_le (h cpu (.head _))
    have hrest := ih fun c hc => h c (.tail _ hc)
    unfold has ofList at hrest ⊢
    rw [List.foldr_cons, BitVec.getLsbD_or, BitVec.getLsbD_twoPow, Bool.or_eq_true, hrest]
    simp [hcpu]

namespace Schedule

theorem checkCpus_eq_ok {before cpus : List UInt64} : checkCpus before cpus = .ok () ↔
    (∀ cpu ∈ cpus, cpu.toNat ≤ Limits.cpuIndex ∧ cpu ∉ before) ∧ cpus.Nodup := by
  induction cpus generalizing before with
  | nil => simp [checkCpus]
  | cons cpu cpus ih =>
    unfold checkCpus
    rw [List.forall_mem_cons, List.nodup_cons]
    split
    · rename_i high
      refine iff_of_false nofun ?_
      rintro ⟨⟨⟨hle, -⟩, -⟩, -⟩
      omega
    · rename_i low
      split
      · rename_i repeated
        refine iff_of_false nofun ?_
        rintro ⟨⟨⟨-, hnew⟩, -⟩, -⟩
        exact hnew repeated
      · rename_i new
        rw [ih]
        refine ⟨?_, ?_⟩
        · rintro ⟨hrest, hnodup⟩
          have hcpu : cpu ∉ cpus := fun h => (hrest cpu h).2 (.head _)
          exact ⟨⟨⟨by omega, new⟩, fun c hc => ⟨(hrest c hc).1, fun h => (hrest c hc).2 (.tail _ h)⟩⟩,
            hcpu, hnodup⟩
        · rintro ⟨⟨-, hrest⟩, hcpu, hnodup⟩
          refine ⟨fun c hc => ⟨(hrest c hc).1, fun h => ?_⟩, hnodup⟩
          rcases List.mem_cons.1 h with rfl | h
          · exact hcpu hc
          · exact (hrest c hc).2 h

theorem validate_eq_ok {s : Schedule} : s.validate = .ok () ↔ s.policy.allows s.priority = true ∧
    (∀ cpu ∈ s.cpus.indices, cpu.toNat ≤ Limits.cpuIndex) ∧ s.cpus.indices.Nodup := by
  have hcpus : checkCpus [] s.cpus.indices = .ok () ↔
      (∀ cpu ∈ s.cpus.indices, cpu.toNat ≤ Limits.cpuIndex) ∧ s.cpus.indices.Nodup := by
    rw [checkCpus_eq_ok]
    simp
  unfold validate checkPriority
  by_cases hallows : s.policy.allows s.priority = true
  · rw [if_pos hallows, and_iff_right hallows, ← hcpus]
    rfl
  · rw [if_neg hallows]
    refine iff_of_false ?_ fun h => hallows h.1
    split <;> exact nofun

end Schedule

namespace Machine

def note (m : Machine) (a : Asked) : Machine := { m with asked := a :: m.asked }

variable {m m' : Machine}

theorem standing_grant (h : m.standing = m'.standing) (c : KernelCall) :
    (m.grant c).standing = (m'.grant c).standing := by
  cases c <;> simp [grant, h]

theorem memoryLocked_grant (h : m.memoryLocked = m'.memoryLocked) (c : KernelCall) :
    (m.grant c).memoryLocked = (m'.grant c).memoryLocked := by
  cases c <;> simp [grant, h]

@[simp] theorem asked_grant (m : Machine) (c : KernelCall) : (m.grant c).asked = m.asked := by
  cases c <;> rfl

end Machine

namespace Host

inductive Outcome (h : Host) (c : KernelCall) (m : Machine) :
    Machine × Except Fault Unit → Prop where
  | granted (agrees : h.refuses m c = none) :
      Outcome h c m ((m.note ⟨c, none⟩).grant c, .ok ())
  | refused (e : Errno) (refuses : h.refuses m c = some e) :
      Outcome h c m (m.note ⟨c, some e⟩, .error (c.fault e))

theorem outcome_call (h : Host) (c : KernelCall) (m : Machine) : h.Outcome c m (h.call c m) := by
  unfold call
  cases hrefuses : h.refuses m c with
  | none => exact .granted hrefuses
  | some e => exact .refused e hrefuses

end Host

end Cadence
