import Cadence.Proofs.Fifo
import Cadence.Proofs.Run
import Cadence.Ring

/-!
One producer, one consumer, and any number of others who only count, around a ring. A move begins a
call or takes the next load or store of one, so every interleaving is a list of moves. A push or pop
is written into the log by the step with which it is back, so that the log has the calls in an order
in which each stands between its beginning and its end.
-/

namespace Cadence.Ring

/-- What one side is busy with: a call of its own, or a count. -/
inductive Task (π : Type) where
  | work (pc : π)
  | count (pc : Count)

namespace Task

variable {π : Type}

def count? : Task π → Option Count
  | count pc => some pc
  | work _ => none

end Task

inductive Party (n : Nat) where
  | producer
  | consumer
  | other (i : Fin n)
  deriving DecidableEq

structure Traffic (α : Type) (c : Capacity) (n : Nat) where
  ring : Ring α c
  /-- The item on offer and how far the push has come. -/
  producer : Option (Task (α × Push α)) := none
  consumer : Option (Task (Pop α)) := none
  others : Vector (Option Count) n
  log : List (Fifo.Call α) := []
  counts : List (Party n × Nat) := []

namespace Traffic

variable {α : Type} {c : Capacity} {n : Nat}

def start (n : Nat) (ring : Ring α c) : Traffic α c n :=
  { ring, others := Vector.replicate n none }

inductive Move (α : Type) (n : Nat) where
  | offer (item : α)
  | push
  | ask
  | pull
  | look (who : Party n)
  | load (who : Party n)

def counting (t : Traffic α c n) : Party n → Option Count
  | .producer => t.producer.bind Task.count?
  | .consumer => t.consumer.bind Task.count?
  | .other i => t.others.get i

def setCounting (t : Traffic α c n) (count : Option Count) : Party n → Traffic α c n
  | .producer => { t with producer := count.map .count }
  | .consumer => { t with consumer := count.map .count }
  | .other i => { t with others := replaceAt t.others i count }

def isIdle (t : Traffic α c n) : Party n → Bool
  | .producer => t.producer.isNone
  | .consumer => t.consumer.isNone
  | .other i => (t.others.get i).isNone

def fire (t : Traffic α c n) : Move α n → Option (Traffic α c n)
  | .offer item =>
    if t.isIdle .producer then some { t with producer := some (.work (item, .start item)) }
    else none
  | .push =>
    match t.producer with
    | some (.work (item, pc)) =>
      let (ring, next) := pc.step t.ring
      match next with
      | .more pc => some { t with ring, producer := some (.work (item, pc)) }
      | .back answer =>
        some { t with ring, producer := none, log := t.log ++ [(.push item, .ofPush answer)] }
    | _ => none
  | .ask => if t.isIdle .consumer then some { t with consumer := some (.work .start) } else none
  | .pull =>
    match t.consumer with
    | some (.work pc) =>
      let (ring, next) := pc.step t.ring
      match next with
      | .more pc => some { t with ring, consumer := some (.work pc) }
      | .back answer =>
        some { t with ring, consumer := none, log := t.log ++ [(.pop, .ofPop answer)] }
    | _ => none
  | .look who => if t.isIdle who then some (t.setCounting (some .start) who) else none
  | .load who =>
    match t.counting who with
    | some pc =>
      let (ring, next) := pc.step t.ring
      match next with
      | .more pc => some ({ t with ring }.setCounting (some pc) who)
      | .back answer =>
        some ({ t with ring, counts := t.counts ++ [(who, answer)] }.setCounting none who)
    | none => none

def run (t : Traffic α c n) (moves : List (Move α n)) : Option (Traffic α c n) :=
  moves.foldlM fire t

inductive Turn (t : Traffic α c n) : Move α n → Traffic α c n → Prop where
  | offer (item : α) (idle : t.producer = none) :
      Turn t (.offer item) { t with producer := some (.work (item, .start item)) }
  | seek (item i : α) (here : t.producer = some (.work (item, .start i))) :
      Turn t .push { t with producer := some (.work (item, .positioned i t.ring.write)) }
  | refuse (item i : α) (write : UInt64)
      (here : t.producer = some (.work (item, .positioned i write)))
      (full : c.size ≤ (write - t.ring.read).toNat) :
      Turn t .push { t with producer := none, log := t.log ++ [(.push item, .refused i)] }
  | permit (item i : α) (write : UInt64)
      (here : t.producer = some (.work (item, .positioned i write)))
      (room : (write - t.ring.read).toNat < c.size) :
      Turn t .push { t with producer := some (.work (item, .admitted i write)) }
  | fill (item i : α) (write : UInt64)
      (here : t.producer = some (.work (item, .admitted i write))) :
      Turn t .push { t with
        ring := { t.ring with slots := replaceAt t.ring.slots (c.slot write) i }
        producer := some (.work (item, .filled write)) }
  | publish (item : α) (write : UInt64)
      (here : t.producer = some (.work (item, .filled write))) :
      Turn t .push { t with
        ring := { t.ring with write := write + 1 }
        producer := none
        log := t.log ++ [(.push item, .accepted)] }
  | ask (idle : t.consumer = none) : Turn t .ask { t with consumer := some (.work .start) }
  | locate (here : t.consumer = some (.work .start)) :
      Turn t .pull { t with consumer := some (.work (.positioned t.ring.read)) }
  | miss (read : UInt64) (here : t.consumer = some (.work (.positioned read)))
      (empty : t.ring.write = read) :
      Turn t .pull { t with consumer := none, log := t.log ++ [(.pop, .empty)] }
  | enter (read : UInt64) (here : t.consumer = some (.work (.positioned read)))
      (stored : t.ring.write ≠ read) :
      Turn t .pull { t with consumer := some (.work (.admitted read)) }
  | copy (read : UInt64) (here : t.consumer = some (.work (.admitted read))) :
      Turn t .pull { t with
        consumer := some (.work (.copied read (t.ring.slots.get (c.slot read)))) }
  | release (read : UInt64) (item : α) (here : t.consumer = some (.work (.copied read item))) :
      Turn t .pull { t with
        ring := { t.ring with read := read + 1 }
        consumer := none
        log := t.log ++ [(.pop, .popped item)] }
  | look (who : Party n) (idle : t.isIdle who = true) :
      Turn t (.look who) (t.setCounting (some .start) who)
  | first (who : Party n) (here : t.counting who = some .start) :
      Turn t (.load who) (t.setCounting (some (.positioned t.ring.read)) who)
  | second (who : Party n) (read : UInt64) (here : t.counting who = some (.positioned read)) :
      Turn t (.load who)
        ({ t with counts := t.counts ++ [(who, min (t.ring.write - read).toNat c.size)]
          }.setCounting none who)

section

variable (t : Traffic α c n) (x : Option Count) (who : Party n)

@[simp] theorem setCounting_ring : (t.setCounting x who).ring = t.ring := by cases who <;> rfl

@[simp] theorem setCounting_log : (t.setCounting x who).log = t.log := by cases who <;> rfl

@[simp] theorem setCounting_counts : (t.setCounting x who).counts = t.counts := by cases who <;> rfl

end

variable {t t' : Traffic α c n}

theorem turn_of_push (h : t.fire .push = some t') : Turn t .push t' := by
  simp only [fire] at h
  split at h
  · rename_i item pc here
    cases pc with
    | start i => cases h; exact .seek item i here
    | positioned i write =>
      by_cases hfull : (write - t.ring.read).toNat ≥ c.size
      · simp only [Push.step, hfull, ↓reduceIte, Option.some.injEq] at h
        exact h ▸ .refuse item i write here hfull
      · simp only [Push.step, hfull, ↓reduceIte, Option.some.injEq] at h
        exact h ▸ .permit item i write here (Nat.lt_of_not_le hfull)
    | admitted i write => cases h; exact .fill item i write here
    | filled write => cases h; exact .publish item write here
  · cases h

theorem turn_of_pull (h : t.fire .pull = some t') : Turn t .pull t' := by
  simp only [fire] at h
  split at h
  · rename_i pc here
    cases pc with
    | start => cases h; exact .locate here
    | positioned read =>
      by_cases hempty : t.ring.write = read
      · simp only [Pop.step, hempty, ↓reduceIte, Option.some.injEq] at h
        exact h ▸ .miss read here hempty
      · simp only [Pop.step, hempty, ↓reduceIte, Option.some.injEq] at h
        exact h ▸ .enter read here hempty
    | admitted read => cases h; exact .copy read here
    | copied read item => cases h; exact .release read item here
  · cases h

theorem turn_of_load {who : Party n} (h : t.fire (.load who) = some t') :
    Turn t (.load who) t' := by
  simp only [fire] at h
  split at h
  · rename_i pc here
    cases pc with
    | start => cases h; exact .first who here
    | positioned read => cases h; exact .second who read here
  · cases h

theorem turn_of_fire {m : Move α n} (h : t.fire m = some t') : Turn t m t' := by
  cases m with
  | offer item =>
    simp only [fire] at h
    split at h
    · rename_i hidle
      cases h
      exact .offer item (Option.isNone_iff_eq_none.1 hidle)
    · cases h
  | push => exact turn_of_push h
  | ask =>
    simp only [fire] at h
    split at h
    · rename_i hidle
      cases h
      exact .ask (Option.isNone_iff_eq_none.1 hidle)
    · cases h
  | pull => exact turn_of_pull h
  | look who =>
    simp only [fire] at h
    split at h
    · rename_i hidle
      cases h
      exact .look who hidle
    · cases h
  | load who => exact turn_of_load h

end Traffic

end Cadence.Ring
