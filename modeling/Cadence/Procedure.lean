/-!
Calls that take several atomic steps. Between two steps of one call, steps of other calls may
happen, so a call is given as what a single step does to the shared state and where it stands
afterwards. A rank that falls with every step bounds the call, so running it alone always ends.
-/

namespace Cadence

/-- Where a call stands after a step: before another step, or back with its answer. -/
inductive Next (π ρ : Type) where
  | more (pc : π)
  | back (answer : ρ)

structure Procedure (σ π ρ : Type) where
  step : σ → π → σ × Next π ρ
  rank : π → Nat
  rank_lt : ∀ s p s' p', step s p = (s', .more p') → rank p' < rank p

namespace Procedure

variable {σ π ρ : Type}

/-- All steps of a call in a row, with nothing in between. -/
def run (call : Procedure σ π ρ) (s : σ) (pc : π) : σ × ρ :=
  match _h : call.step s pc with
  | (s', .back answer) => (s', answer)
  | (s', .more pc') => call.run s' pc'
termination_by call.rank pc
decreasing_by exact call.rank_lt _ _ _ _ _h

variable {call : Procedure σ π ρ} {s s' : σ} {pc pc' : π} {answer : ρ}

theorem run_of_back (h : call.step s pc = (s', .back answer)) : call.run s pc = (s', answer) := by
  rw [run]
  split
  · rename_i h'
    cases h.symm.trans h'
    rfl
  · rename_i h'
    cases h.symm.trans h'

theorem run_of_more (h : call.step s pc = (s', .more pc')) : call.run s pc = call.run s' pc' := by
  rw [run]
  split
  · rename_i h'
    cases h.symm.trans h'
  · rename_i h'
    cases h.symm.trans h'
    rfl

end Procedure

end Cadence
