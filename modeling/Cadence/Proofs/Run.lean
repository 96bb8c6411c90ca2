/-!
Runs. A system is a function that says what a move does to a state and when it is possible; a run is
a list of moves that are possible in turn, so whatever every move keeps, every run keeps.
-/

namespace Cadence

/-- What comes out at the end of two steps has come through both. -/
theorem bind_eq_ok {ε α β : Type} {step : Except ε α} {next : α → Except ε β} {b : β} :
    step >>= next = .ok b ↔ ∃ a, step = .ok a ∧ next a = .ok b := by
  cases step with
  | error e => exact iff_of_false nofun fun ⟨_, h, _⟩ => nomatch h
  | ok a =>
    refine ⟨fun h => ⟨a, rfl, h⟩, ?_⟩
    rintro ⟨_, ⟨⟩, h⟩
    exact h

variable {σ μ : Type} {fire : σ → μ → Option σ}

theorem foldlM_cons_eq_some {m : μ} {moves : List μ} {s s' : σ} :
    (m :: moves).foldlM fire s = some s' ↔
      ∃ s₁, fire s m = some s₁ ∧ moves.foldlM fire s₁ = some s' := by
  rw [List.foldlM_cons]
  exact Option.bind_eq_some_iff

theorem foldlM_append_eq_some {earlier later : List μ} {s s' : σ} :
    (earlier ++ later).foldlM fire s = some s' ↔
      ∃ s₁, earlier.foldlM fire s = some s₁ ∧ later.foldlM fire s₁ = some s' := by
  rw [List.foldlM_append]
  exact Option.bind_eq_some_iff

/-- What the moves of a run keep, whether others would or not. -/
theorem run_keeps_of_mem {P : σ → Prop} {moves : List μ}
    (hstep : ∀ m ∈ moves, ∀ s s', P s → fire s m = some s' → P s') {s s' : σ} (hs : P s)
    (hrun : moves.foldlM fire s = some s') : P s' := by
  induction moves generalizing s with
  | nil =>
    obtain rfl : s = s' := Option.some.inj hrun
    exact hs
  | cons m moves ih =>
    obtain ⟨s₁, hm, hrun⟩ := foldlM_cons_eq_some.1 hrun
    exact ih (fun m' hm' => hstep m' (.tail _ hm')) (hstep m (.head _) s s₁ hs hm) hrun

theorem run_keeps {P : σ → Prop} (hstep : ∀ s m s', P s → fire s m = some s' → P s')
    {moves : List μ} {s s' : σ} (hs : P s) (hrun : moves.foldlM fire s = some s') : P s' :=
  run_keeps_of_mem (fun m _ s s' => hstep s m s') hs hrun

/-- Writing things down beside a system stops no move of it and allows none. -/
theorem map_run {τ : Type} {fire' : τ → μ → Option τ} {view : τ → σ}
    (hfire : ∀ t m, (fire' t m).map view = fire (view t) m) (t : τ) (moves : List μ) :
    (moves.foldlM fire' t).map view = moves.foldlM fire (view t) := by
  induction moves generalizing t with
  | nil => rfl
  | cons m moves ih =>
    rw [List.foldlM_cons, List.foldlM_cons, ← hfire]
    cases fire' t m with
    | none => rfl
    | some t' => exact ih t'

end Cadence
