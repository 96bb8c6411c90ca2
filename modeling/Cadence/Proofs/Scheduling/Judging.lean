import Cadence.Config.Basic
import Cadence.Proofs.Scheduling.Standing

/-!
When a schedule is valid, and what is said of one that is not. A priority that does not suit the policy
comes before any CPU, and of the CPUs that are at fault the one furthest in front counts; whether there
is one does not depend on their order. A configuration fails for want of a name, and otherwise as its
schedule does.
-/

namespace Cadence

namespace Policy

def Suits : Policy → Int → Prop
  | normal, priority => priority = 0
  | fifo, priority | roundRobin, priority => 1 ≤ priority ∧ priority ≤ 99

def misfit : Policy → Fault
  | normal => .invalidArgument "normal policy requires priority 0"
  | fifo | roundRobin => .invalidArgument "real-time priority must be within 1..=99"

theorem allows_iff (p : Policy) (priority : Int32) :
    p.allows priority = true ↔ p.Suits priority.toInt := by
  rw [allows, Bool.and_eq_true, decide_eq_true_iff, decide_eq_true_iff]
  cases p with
  | normal =>
    refine ⟨fun ⟨hge, hle⟩ => Int.le_antisymm hle hge, fun h => ?_⟩
    exact ⟨Int.le_of_eq h.symm, Int.le_of_eq h⟩
  | fifo | roundRobin => exact Iff.rfl

end Policy

namespace CpuList

variable {cpus : List UInt64} {i j : Nat} {e e' : Fault}

/-- What is wrong with the CPU at one place of a list. -/
inductive FaultAt (cpus : List UInt64) (i : Nat) : Fault → Prop
  | outOfRange (cpu : UInt64) (here : cpus[i]? = some cpu) (high : 1023 < cpu.toNat) :
      FaultAt cpus i (.invalidArgument "CPU index out of range")
  | repeated (cpu : UInt64) (here : cpus[i]? = some cpu) (low : cpu.toNat ≤ 1023) (j : Nat)
      (earlier : j < i) (same : cpus[j]? = some cpu) :
      FaultAt cpus i (.invalidArgument "duplicate CPU index in affinity list")

/-- What is wrong at the least place that has something wrong with it. -/
structure FirstFault (cpus : List UInt64) (i : Nat) (e : Fault) : Prop where
  here : FaultAt cpus i e
  least : ∀ j, j < i → ∀ e', ¬FaultAt cpus j e'

theorem FaultAt.lt_length (h : FaultAt cpus i e) : i < cpus.length := by
  cases h with
  | outOfRange cpu here | repeated cpu here => exact (List.getElem?_eq_some_iff.1 here).1

theorem FaultAt.unique (h : FaultAt cpus i e) (h' : FaultAt cpus i e') : e = e' := by
  cases h with
  | outOfRange cpu here high =>
    cases h' with
    | outOfRange => rfl
    | repeated cpu' here' low =>
      obtain rfl := Option.some.inj (here.symm.trans here')
      omega
  | repeated cpu here low =>
    cases h' with
    | outOfRange cpu' here' high =>
      obtain rfl := Option.some.inj (here.symm.trans here')
      omega
    | repeated => rfl

theorem FirstFault.unique (h : FirstFault cpus i e) (h' : FirstFault cpus j e') : e = e' := by
  rcases Nat.lt_trichotomy i j with hlt | rfl | hlt
  · exact absurd h.here (h'.least i hlt e)
  · exact h.here.unique h'.here
  · exact absurd h'.here (h.least j hlt e')

/-- A CPU is judged by its number and by those in front of it. -/
theorem faultAt_length {before rest : List UInt64} {cpu : UInt64} :
    FaultAt (before.reverse ++ cpu :: rest) before.length e ↔
      (1023 < cpu.toNat ∧ e = .invalidArgument "CPU index out of range") ∨
        (cpu.toNat ≤ 1023 ∧ cpu ∈ before ∧
          e = .invalidArgument "duplicate CPU index in affinity list") := by
  have hhere : (before.reverse ++ cpu :: rest)[before.length]? = some cpu := by
    rw [List.getElem?_append_right (by simp), List.length_reverse, Nat.sub_self]
    rfl
  have hfront : ∀ j, j < before.length →
      (before.reverse ++ cpu :: rest)[j]? = before.reverse[j]? := fun j hj =>
    List.getElem?_append_left (by rwa [List.length_reverse])
  refine ⟨fun h => ?_, ?_⟩
  · cases h with
    | outOfRange cpu' here high =>
      obtain rfl := Option.some.inj (hhere.symm.trans here)
      exact .inl ⟨high, rfl⟩
    | repeated cpu' here low j earlier same =>
      obtain rfl := Option.some.inj (hhere.symm.trans here)
      rw [hfront j earlier] at same
      exact .inr ⟨low, List.mem_reverse.1 (List.mem_of_getElem? same), rfl⟩
  · rintro (⟨high, rfl⟩ | ⟨low, hmem, rfl⟩)
    · exact .outOfRange cpu hhere high
    · obtain ⟨j, hj⟩ := List.mem_iff_getElem?.1 (List.mem_reverse.2 hmem)
      have hlt := (List.getElem?_eq_some_iff.1 hj).1
      rw [List.length_reverse] at hlt
      exact .repeated cpu hhere low j hlt ((hfront j hlt).trans hj)

end CpuList

namespace Schedule

open CpuList

variable {s : Schedule} {e : Fault}

/-- The walk through a list has the CPUs that it has passed, the last one first, and nothing was wrong
with them. -/
theorem checkCpus_eq_error {before rest : List UInt64}
    (clear : ∀ j, j < before.length → ∀ e, ¬FaultAt (before.reverse ++ rest) j e) :
    checkCpus before rest = .error e ↔ ∃ i, FirstFault (before.reverse ++ rest) i e := by
  induction rest generalizing before with
  | nil =>
    refine iff_of_false nofun ?_
    rintro ⟨i, hi⟩
    have hlt := hi.here.lt_length
    rw [List.append_nil, List.length_reverse] at hlt
    exact clear i hlt e hi.here
  | cons cpu rest ih =>
    have hstop : ∀ e', FaultAt (before.reverse ++ cpu :: rest) before.length e' →
        ((.error e' : Except Fault Unit) = .error e ↔
          ∃ i, FirstFault (before.reverse ++ cpu :: rest) i e) := by
      intro e' hfault
      rw [Except.error.injEq]
      refine ⟨?_, fun ⟨i, hi⟩ => FirstFault.unique ⟨hfault, clear⟩ hi⟩
      rintro rfl
      exact ⟨_, hfault, clear⟩
    rw [checkCpus]
    split
    · rename_i high
      exact hstop _ (faultAt_length.2 (.inl ⟨high, rfl⟩))
    rename_i low
    split
    · rename_i repeated
      exact hstop _ (faultAt_length.2 (.inr ⟨Nat.le_of_not_lt low, repeated, rfl⟩))
    rename_i new
    have hclear : ∀ e', ¬FaultAt (before.reverse ++ cpu :: rest) before.length e' := fun e' h => by
      rcases faultAt_length.1 h with ⟨high, -⟩ | ⟨-, repeated, -⟩
      · exact low high
      · exact new repeated
    have hwhole : before.reverse ++ cpu :: rest = (cpu :: before).reverse ++ rest := by
      rw [List.reverse_cons, List.append_assoc, List.singleton_append]
    rw [hwhole] at clear hclear ⊢
    refine ih fun j hj => ?_
    rcases Nat.lt_or_eq_of_le (Nat.le_of_lt_succ hj) with hlt | rfl
    · exact clear j hlt
    · exact hclear

theorem checkPriority_eq (s : Schedule) : s.checkPriority =
    if s.policy.allows s.priority then .ok () else .error s.policy.misfit := by
  rw [checkPriority]
  cases s.policy <;> rfl

theorem validate_eq_error : s.validate = .error e ↔
    (¬s.policy.Suits s.priority.toInt ∧ e = s.policy.misfit) ∨
      s.policy.Suits s.priority.toInt ∧ ∃ i, FirstFault s.cpus.indices i e := by
  have hcpus : checkCpus [] s.cpus.indices = .error e ↔ ∃ i, FirstFault s.cpus.indices i e :=
    checkCpus_eq_error fun j hj => absurd hj (Nat.not_lt_zero j)
  rw [validate, checkPriority_eq, ← hcpus, ← s.policy.allows_iff s.priority]
  by_cases suits : s.policy.allows s.priority = true
  · rw [if_pos suits, and_iff_right suits, or_iff_right fun h => h.1 suits]
    rfl
  · rw [if_neg suits, and_iff_right suits, or_iff_left fun h => suits h.1]
    exact (Except.error.injEq ..).to_iff.trans eq_comm

structure Judged (s : Schedule) : Prop where
  accepted : s.validate = .ok () ↔ s.policy.Suits s.priority.toInt ∧
    (∀ cpu ∈ s.cpus.indices, cpu.toNat ≤ 1023) ∧ s.cpus.indices.Nodup
  refused : ∀ e, s.validate = .error e ↔
    (¬s.policy.Suits s.priority.toInt ∧ e = s.policy.misfit) ∨
      s.policy.Suits s.priority.toInt ∧ ∃ i, FirstFault s.cpus.indices i e
  unordered : ∀ cpus : CpuList, cpus.indices.Perm s.cpus.indices →
    ({ s with cpus }.validate = .ok () ↔ s.validate = .ok ())
  distinct : s.validate = .ok () → ∀ (i j : Nat) (cpu : UInt64), s.cpus.indices[i]? = some cpu →
    s.cpus.indices[j]? = some cpu → i = j

theorem judged (s : Schedule) : s.Judged where
  accepted := by
    rw [validate_eq_ok, Policy.allows_iff]
    exact Iff.rfl
  refused e := validate_eq_error
  unordered cpus same := by
    rw [validate_eq_ok, validate_eq_ok]
    simp only [same.mem_iff, same.nodup_iff]
  distinct valid i j cpu hi hj := by
    obtain ⟨-, -, hnodup⟩ := validate_eq_ok.1 valid
    have hlt : i < s.cpus.indices.length := (List.getElem?_eq_some_iff.1 hi).1
    exact (List.getElem?_inj hlt hnodup).1 (hi.trans hj.symm)

end Schedule

namespace RunnerConfig

variable {c : RunnerConfig} {e : ConfigFault}

theorem validate_of_unnamed (h : c.shared.serviceName = "") :
    c.validate = .error .unnamedService := by
  have hshared : c.shared.validate = .error .unnamedService := if_pos (String.isEmpty_iff.2 h)
  rw [validate, hshared]
  rfl

theorem validate_of_named (h : c.shared.serviceName ≠ "") :
    c.validate = c.schedule.validate.mapError .badSchedule := by
  have hshared : c.shared.validate = .ok () := if_neg fun hempty => h (String.isEmpty_iff.1 hempty)
  rw [validate, hshared]
  rfl

theorem validate_eq_error : c.validate = .error e ↔
    (c.shared.serviceName = "" ∧ e = .unnamedService) ∨
      c.shared.serviceName ≠ "" ∧ ∃ why, c.schedule.validate = .error why ∧ e = .badSchedule why := by
  by_cases hname : c.shared.serviceName = ""
  · rw [validate_of_unnamed hname, and_iff_right hname, or_iff_left fun h => h.1 hname]
    exact (Except.error.injEq ..).to_iff.trans eq_comm
  · rw [validate_of_named hname, and_iff_right hname, or_iff_right fun h => hname h.1]
    cases c.schedule.validate with
    | ok => exact iff_of_false nofun fun ⟨_, h, _⟩ => nomatch h
    | error why =>
      refine ⟨?_, ?_⟩
      · rintro ⟨⟩
        exact ⟨why, rfl, rfl⟩
      · rintro ⟨_, ⟨⟩, rfl⟩
        rfl

/-- How a configuration is judged. A bad schedule is reported in its own words. -/
structure Judged (c : RunnerConfig) : Prop where
  failed : (∃ e, c.validate = .error e) ↔
    c.shared.serviceName = "" ∨ ∃ why, c.schedule.validate = .error why
  refused : ∀ e, c.validate = .error e ↔
    (c.shared.serviceName = "" ∧ e = .unnamedService) ∨
      c.shared.serviceName ≠ "" ∧ ∃ why, c.schedule.validate = .error why ∧ e = .badSchedule why
  worded : ∀ why, c.validate = .error (.badSchedule why) →
    (ConfigFault.badSchedule why).message = "Configuration validation failed: " ++ why.message

theorem judged (c : RunnerConfig) : c.Judged where
  failed := by
    simp only [validate_eq_error]
    by_cases hname : c.shared.serviceName = ""
    · exact iff_of_true ⟨_, .inl ⟨hname, rfl⟩⟩ (.inl hname)
    · rw [or_iff_right hname]
      refine ⟨?_, fun ⟨why, h⟩ => ⟨_, .inr ⟨hname, why, h, rfl⟩⟩⟩
      rintro ⟨e, ⟨h, -⟩ | ⟨-, why, h, -⟩⟩
      · exact absurd h hname
      · exact ⟨why, h⟩
  refused e := validate_eq_error
  worded why _ := rfl

end RunnerConfig

/-- Schedules and configurations are judged so, all of them. -/
theorem validate_judges : (∀ s : Schedule, s.Judged) ∧ ∀ c : RunnerConfig, c.Judged :=
  ⟨Schedule.judged, RunnerConfig.judged⟩

/-- Of two CPUs at fault the one in front counts, though the other is further out. -/
example : Schedule.validate { policy := .fifo, priority := 1, cpus := ⟨[2, 2, 1024], by decide⟩ } =
    .error (.invalidArgument "duplicate CPU index in affinity list") := rfl

end Cadence
