import Cadence.TicketQueue

/-!
Any number of producers and one consumer around a ticket queue. A move begins a call or takes the
next atomic step of one, so every interleaving is a list of moves. Beside the queue the state keeps
what its users could write down: who drew each ticket and for which item, what every offer came back
with, and what was taken.
-/

namespace Cadence.TicketQueue

structure Producer (α : Type) where
  /-- The item on offer and how far the call with it has come. -/
  call : Option (α × Enqueue α) := none
  answers : List (α × Enqueued α) := []

structure Traffic (α : Type) (c : Capacity) (n : Nat) where
  queue : TicketQueue α c
  producers : Vector (Producer α) n
  consumer : Option (Dequeue α) := none
  /-- Who drew each ticket and for which item, in the order of the tickets. -/
  drawn : List (Fin n × α) := []
  taken : List α := []

namespace Traffic

variable {α : Type} {c : Capacity} {n : Nat}

def start (n : Nat) (queue : TicketQueue α c) : Traffic α c n :=
  { queue, producers := Vector.replicate n {} }

inductive Move (α : Type) (n : Nat) where
  | offer (p : Fin n) (item : α)
  | push (p : Fin n)
  | ask
  | pull

def producer (t : Traffic α c n) (p : Fin n) : Producer α := t.producers.get p

def set (t : Traffic α c n) (p : Fin n) (producer : Producer α) : Traffic α c n :=
  { t with producers := replaceAt t.producers p producer }

def goOn (t : Traffic α c n) (p : Fin n) (item : α) (pc : Enqueue α) : Traffic α c n :=
  t.set p { t.producer p with call := some (item, pc) }

def comeBack (t : Traffic α c n) (p : Fin n) (item : α) (answer : Enqueued α) : Traffic α c n :=
  t.set p { call := none, answers := (t.producer p).answers ++ [(item, answer)] }

section

variable (t : Traffic α c n) (p : Fin n) (item : α) (pc : Enqueue α) (answer : Enqueued α)

@[simp] theorem goOn_drawn : (t.goOn p item pc).drawn = t.drawn := rfl

@[simp] theorem goOn_taken : (t.goOn p item pc).taken = t.taken := rfl

@[simp] theorem comeBack_drawn : (t.comeBack p item answer).drawn = t.drawn := rfl

@[simp] theorem comeBack_taken : (t.comeBack p item answer).taken = t.taken := rfl

end

/-- The head moves on in the step that draws a ticket. -/
def drawBy (t : Traffic α c n) (p : Fin n) : Enqueue α → List (Fin n × α)
  | .reserved item => t.drawn ++ [(p, item)]
  | _ => t.drawn

def fire (t : Traffic α c n) : Move α n → Option (Traffic α c n)
  | .offer p item =>
    match (t.producer p).call with
    | some _ => none
    | none => some (t.goOn p item (.start item))
  | .push p =>
    match (t.producer p).call with
    | none => none
    | some (item, pc) =>
      let (queue, next) := pc.step t.queue
      let drawn := t.drawBy p pc
      match next with
      | .more pc => some { t.goOn p item pc with queue, drawn }
      | .back answer => some { t.comeBack p item answer with queue, drawn }
  | .ask =>
    match t.consumer with
    | some _ => none
    | none => some { t with consumer := some .start }
  | .pull =>
    match t.consumer with
    | none => none
    | some pc =>
      let (queue, next) := pc.step t.queue
      match next with
      | .more pc => some { t with queue, consumer := some pc }
      | .back (.ok item) => some { t with queue, consumer := none, taken := t.taken ++ [item] }
      | .back (.error _) => some { t with queue, consumer := none }

def run (t : Traffic α c n) (moves : List (Move α n)) : Option (Traffic α c n) :=
  moves.foldlM fire t

inductive Turn (t : Traffic α c n) : Traffic α c n → Prop where
  | offer (p : Fin n) (item : α) (idle : (t.producer p).call = none) :
      Turn t (t.goOn p item (.start item))
  | refuse (p : Fin n) (item i : α) (here : (t.producer p).call = some (item, .start i))
      (full : c.size ≤ t.queue.count.toNat) :
      Turn t { t.goOn p item (.refused i) with
        queue := { t.queue with count := t.queue.count + 1 } }
  | reserve (p : Fin n) (item i : α) (here : (t.producer p).call = some (item, .start i))
      (room : t.queue.count.toNat < c.size) :
      Turn t { t.goOn p item (.reserved i) with
        queue := { t.queue with count := t.queue.count + 1 } }
  | reject (p : Fin n) (item i : α) (here : (t.producer p).call = some (item, .refused i)) :
      Turn t { t.comeBack p item (.rejected ⟨i⟩) with
        queue := { t.queue with count := t.queue.count - 1 } }
  | draw (p : Fin n) (item i : α) (here : (t.producer p).call = some (item, .reserved i)) :
      Turn t { t.goOn p item (.ticketed i t.queue.head) with
        queue := { t.queue with head := t.queue.head + 1 }
        drawn := t.drawn ++ [(p, i)] }
  | clear (p : Fin n) (item i : α) (ticket : UInt64)
      (here : (t.producer p).call = some (item, .ticketed i ticket))
      (free : t.queue.sequence (c.slot ticket) = ticket) :
      Turn t (t.goOn p item (.cleared i ticket))
  | clash (p : Fin n) (item i : α) (ticket : UInt64)
      (here : (t.producer p).call = some (item, .ticketed i ticket))
      (taken : t.queue.sequence (c.slot ticket) ≠ ticket) :
      Turn t (t.comeBack p item (.clash (t.queue.sequence (c.slot ticket)) ticket))
  | fill (p : Fin n) (item i : α) (ticket : UInt64)
      (here : (t.producer p).call = some (item, .cleared i ticket)) :
      Turn t { t.goOn p item (.filled ticket) with
        queue := t.queue.setItem (c.slot ticket) i }
  | publish (p : Fin n) (item : α) (ticket : UInt64)
      (here : (t.producer p).call = some (item, .filled ticket)) :
      Turn t { t.comeBack p item .accepted with
        queue := t.queue.setSequence (c.slot ticket) (ticket + 1) }
  | ask (idle : t.consumer = none) : Turn t { t with consumer := some .start }
  | locate (here : t.consumer = some .start) :
      Turn t { t with consumer := some (.positioned t.queue.tail) }
  | enter (ticket : UInt64) (here : t.consumer = some (.positioned ticket))
      (full : t.queue.sequence (c.slot ticket) = ticket + 1) :
      Turn t { t with consumer := some (.admitted ticket) }
  | dismiss (ticket : UInt64) (here : t.consumer = some (.positioned ticket))
      (empty : t.queue.sequence (c.slot ticket) ≠ ticket + 1) :
      Turn t { t with consumer := none }
  | copy (ticket : UInt64) (here : t.consumer = some (.admitted ticket)) :
      Turn t { t with
        consumer := some (.copied ticket (t.queue.slots.get (c.slot ticket)).item) }
  | release (ticket : UInt64) (item : α) (here : t.consumer = some (.copied ticket item)) :
      Turn t { t with
        queue := t.queue.setSequence (c.slot ticket) (ticket + c.word)
        consumer := some (.released ticket item) }
  | advance (ticket : UInt64) (item : α) (here : t.consumer = some (.released ticket item)) :
      Turn t { t with
        queue := { t.queue with tail := ticket + 1 }
        consumer := some (.advanced item) }
  | leave (item : α) (here : t.consumer = some (.advanced item)) :
      Turn t { t with
        queue := { t.queue with count := t.queue.count - 1 }
        consumer := none
        taken := t.taken ++ [item] }

theorem turn_of_push {t t' : Traffic α c n} {p : Fin n} (h : t.fire (.push p) = some t') :
    Turn t t' := by
  simp only [fire] at h
  split at h
  · cases h
  · rename_i item pc hpc
    cases pc with
    | start i =>
      by_cases hfull : t.queue.count.toNat ≥ c.size
      · simp only [Enqueue.step, hfull, ↓reduceIte, Option.some.injEq] at h
        exact h ▸ .refuse p item i hpc hfull
      · simp only [Enqueue.step, hfull, ↓reduceIte, Option.some.injEq] at h
        exact h ▸ .reserve p item i hpc (Nat.lt_of_not_le hfull)
    | refused i => cases h; exact .reject p item i hpc
    | reserved i => cases h; exact .draw p item i hpc
    | ticketed i ticket =>
      by_cases hfree : t.queue.sequence (c.slot ticket) = ticket
      · simp only [Enqueue.step, hfree, ↓reduceIte, Option.some.injEq] at h
        exact h ▸ .clear p item i ticket hpc hfree
      · simp only [Enqueue.step, hfree, ↓reduceIte, Option.some.injEq] at h
        exact h ▸ .clash p item i ticket hpc hfree
    | cleared i ticket => cases h; exact .fill p item i ticket hpc
    | filled ticket => cases h; exact .publish p item ticket hpc

theorem turn_of_pull {t t' : Traffic α c n} (h : t.fire .pull = some t') : Turn t t' := by
  simp only [fire] at h
  split at h
  · cases h
  · rename_i pc hpc
    cases pc with
    | start => cases h; exact .locate hpc
    | positioned ticket =>
      by_cases hfull : t.queue.sequence (c.slot ticket) = ticket + 1
      · simp only [Dequeue.step, hfull, ↓reduceIte, Option.some.injEq] at h
        exact h ▸ .enter ticket hpc hfull
      · simp only [Dequeue.step, hfull, ↓reduceIte, Option.some.injEq] at h
        exact h ▸ .dismiss ticket hpc hfull
    | admitted ticket => cases h; exact .copy ticket hpc
    | copied ticket item => cases h; exact .release ticket item hpc
    | released ticket item => cases h; exact .advance ticket item hpc
    | advanced item => cases h; exact .leave item hpc

theorem turn_of_fire {t t' : Traffic α c n} {m : Move α n} (h : t.fire m = some t') :
    Turn t t' := by
  cases m with
  | offer p item =>
    simp only [fire] at h
    split at h
    · cases h
    · rename_i hp
      cases h
      exact .offer p item hp
  | push p => exact turn_of_push h
  | ask =>
    simp only [fire] at h
    split at h
    · cases h
    · rename_i hc
      cases h
      exact .ask hc
  | pull => exact turn_of_pull h

end Traffic

end Cadence.TicketQueue
