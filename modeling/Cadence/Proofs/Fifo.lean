import Cadence.Fault

/-!
What a bounded queue is to those who use it: a list that takes new items at its end while there is
room and gives the oldest away. Whoever represents such a list, and keeps representing it from one
request to the next, cannot be told from it by any sequence of requests.
-/

namespace Cadence

/-- The replies to requests that are made one after the other. -/
def replies {σ κ ρ : Type} (answer : σ → κ → σ × ρ) (s : σ) : List κ → List ρ
  | [] => []
  | request :: requests =>
    (answer s request).2 :: replies answer (answer s request).1 requests

def after {σ κ ρ : Type} (answer : σ → κ → σ × ρ) (s : σ) (requests : List κ) : σ :=
  requests.foldl (fun s request => (answer s request).1) s

theorem after_cons {σ κ ρ : Type} (answer : σ → κ → σ × ρ) (s : σ) (request : κ)
    (requests : List κ) :
    after answer s (request :: requests) = after answer (answer s request).1 requests := rfl

theorem after_append {σ κ ρ : Type} (answer : σ → κ → σ × ρ) (s : σ) (earlier later : List κ) :
    after answer s (earlier ++ later) = after answer (after answer s earlier) later :=
  List.foldl_append

theorem after_concat {σ κ ρ : Type} (answer : σ → κ → σ × ρ) (s : σ) (requests : List κ)
    (request : κ) :
    after answer s (requests ++ [request]) = (answer (after answer s requests) request).1 :=
  after_append answer s requests [request]

theorem replies_append {σ κ ρ : Type} (answer : σ → κ → σ × ρ) (s : σ) (earlier later : List κ) :
    replies answer s (earlier ++ later) =
      replies answer s earlier ++ replies answer (after answer s earlier) later := by
  induction earlier generalizing s with
  | nil => rfl
  | cons request earlier ih =>
    rw [List.cons_append, replies, ih, replies, List.cons_append]
    rfl

theorem replies_concat {σ κ ρ : Type} (answer : σ → κ → σ × ρ) (s : σ) (requests : List κ)
    (request : κ) : replies answer s (requests ++ [request]) =
      replies answer s requests ++ [(answer (after answer s requests) request).2] :=
  replies_append answer s requests [request]

theorem replies_eq_of_simulation {σ τ κ ρ : Type} {answer : σ → κ → σ × ρ}
    {answer' : τ → κ → τ × ρ} {R : σ → τ → Prop}
    (h : ∀ s t request, R s t → R (answer s request).1 (answer' t request).1 ∧
      (answer s request).2 = (answer' t request).2)
    {s : σ} {t : τ} (hst : R s t) (requests : List κ) :
    replies answer s requests = replies answer' t requests := by
  induction requests generalizing s t with
  | nil => rfl
  | cons request requests ih =>
    obtain ⟨hnext, hreply⟩ := h s t request hst
    rw [replies, replies, hreply, ih hnext]

theorem after_of_simulation {σ τ κ ρ : Type} {answer : σ → κ → σ × ρ} {answer' : τ → κ → τ × ρ}
    {R : σ → τ → Prop}
    (h : ∀ s t request, R s t → R (answer s request).1 (answer' t request).1)
    {s : σ} {t : τ} (hst : R s t) (requests : List κ) :
    R (after answer s requests) (after answer' t requests) := by
  induction requests generalizing s t with
  | nil => exact hst
  | cons request requests ih => exact ih (h s t request hst)

namespace Fifo

inductive Request (α : Type) where
  | push (item : α)
  | pop
  | len
  | isEmpty

inductive Reply (α : Type) where
  | accepted
  | refused (item : α)
  | popped (item : α)
  | empty
  | length (n : Nat)
  | truth (b : Bool)
  | broken

variable {α : Type}

namespace Reply

def ofPush {reason : Fault} : Except (Rejected reason α) Unit → Reply α
  | .ok _ => .accepted
  | .error rejected => .refused rejected.item

def ofPop : Except Fault α → Reply α
  | .ok item => .popped item
  | .error .empty => .empty
  | .error _ => .broken

end Reply

def answer (capacity : Nat) (xs : List α) : Request α → List α × Reply α
  | .push item => if xs.length < capacity then (xs ++ [item], .accepted) else (xs, .refused item)
  | .pop =>
    match xs with
    | [] => ([], .empty)
    | x :: xs => (xs, .popped x)
  | .len => (xs, .length xs.length)
  | .isEmpty => (xs, .truth xs.isEmpty)

abbrev Call (α : Type) := Request α × Reply α

def accepted? : Call α → Option α
  | (.push item, .accepted) => some item
  | _ => none

def popped? : Call α → Option α
  | (_, .popped item) => some item
  | _ => none

def pushed (log : List (Call α)) : List α := log.filterMap accepted?

def popped (log : List (Call α)) : List α := log.filterMap popped?

theorem pushed_concat (log : List (Call α)) (call : Call α) :
    pushed (log ++ [call]) = pushed log ++ (accepted? call).toList := by
  rw [pushed, List.filterMap_append, ← pushed]
  cases h : accepted? call <;> simp only [List.filterMap_cons, List.filterMap_nil, h] <;> rfl

theorem popped_concat (log : List (Call α)) (call : Call α) :
    popped (log ++ [call]) = popped log ++ (popped? call).toList := by
  rw [popped, List.filterMap_append, ← popped]
  cases h : popped? call <;> simp only [List.filterMap_cons, List.filterMap_nil, h] <;> rfl

theorem pushed_concat_of_none {log : List (Call α)} {call : Call α} (h : accepted? call = none) :
    pushed (log ++ [call]) = pushed log := by
  rw [pushed_concat, h, Option.toList_none, List.append_nil]

theorem popped_concat_of_none {log : List (Call α)} {call : Call α} (h : popped? call = none) :
    popped (log ++ [call]) = popped log := by
  rw [popped_concat, h, Option.toList_none, List.append_nil]

/-- Requests and replies of a list that was empty at first, oldest first, and what it holds now. -/
inductive History (capacity : Nat) : List (Call α) → List α → Prop where
  | start : History capacity [] []
  | next {log : List (Call α)} {xs : List α} (h : History capacity log xs)
      (request : Request α) :
      History capacity (log ++ [(request, (answer capacity xs request).2)])
        (answer capacity xs request).1

namespace History

variable {capacity : Nat} {log : List (Call α)} {xs : List α}

theorem accept (h : History capacity log xs) (hroom : xs.length < capacity) (item : α) :
    History capacity (log ++ [(.push item, .accepted)]) (xs ++ [item]) := by
  have h := h.next (.push item)
  rwa [answer, if_pos hroom] at h

theorem refuse (h : History capacity log xs) (hfull : xs.length = capacity) (item : α) :
    History capacity (log ++ [(.push item, .refused item)]) xs := by
  have h := h.next (.push item)
  rwa [answer, if_neg (Nat.not_lt.2 (Nat.le_of_eq hfull.symm))] at h

theorem pop {x : α} (h : History capacity log (x :: xs)) :
    History capacity (log ++ [(.pop, .popped x)]) xs :=
  h.next .pop

theorem miss (h : History capacity log []) : History capacity (log ++ [(.pop, .empty)]) [] :=
  h.next .pop

/-- What is popped is what was pushed first, and the rest is still there. -/
theorem pushed_eq (h : History capacity log xs) : pushed log = popped log ++ xs := by
  induction h with
  | start => rfl
  | @next log xs h request ih =>
    rw [pushed_concat, popped_concat, ih]
    cases request with
    | push item =>
      by_cases hroom : xs.length < capacity
      · simp [answer, hroom, accepted?, popped?]
      · simp [answer, hroom, accepted?, popped?]
    | pop =>
      cases xs with
      | nil => simp [answer, accepted?, popped?]
      | cons x xs => simp [answer, accepted?, popped?]
    | len | isEmpty => simp [answer, accepted?, popped?]

end History

end Fifo

end Cadence
