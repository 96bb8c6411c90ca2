import Cadence.Errno
import Cadence.Memory.Block

/-!
The operating system's side of shared objects: a name leads to an object, and an object lives on
without a name as long as somebody has it mapped. Besides segments, names may lead to what other
programs put there.
-/

namespace Cadence

theorem lookup_cons_fst {α β : Type} [DecidableEq α] (l : List (α × β)) (p : α × β) (a : α) :
    (p :: l).lookup a = if a = p.1 then some p.2 else l.lookup a := by
  rw [List.lookup_cons]
  by_cases h : a = p.1
  · rw [if_pos h, beq_iff_eq.2 h]
  · rw [if_neg h, beq_eq_false_iff_ne.2 h]

/-- What a key leads to once a key is crossed out. -/
theorem lookup_filter_fst {α β : Type} [DecidableEq α] (l : List (α × β)) (a b : α) :
    (l.filter (·.1 != a)).lookup b = if b = a then none else l.lookup b := by
  induction l with
  | nil => exact (ite_self none).symm
  | cons p l ih =>
    by_cases hp : p.1 = a
    · rw [List.filter_cons_of_neg (by simp [hp]), ih, lookup_cons_fst, hp]
      split <;> rfl
    · rw [List.filter_cons_of_pos (by simp [hp]), lookup_cons_fst, lookup_cons_fst, ih]
      by_cases hb : b = p.1
      · rw [if_pos hb, if_neg (hb ▸ hp), if_pos hb]
      · rw [if_neg hb, if_neg hb]

inductive Shared where
  | segment (size : Nat) (memory : Memory)
  | symlink
  | directory

/-- The bytes of an object; there are none but a segment's. -/
def Shared.memory : Shared → Memory
  | .segment _ memory => memory
  | _ => .zero

/-- An object's place in the list of all that were ever made. -/
abbrev ObjectId := Nat

structure SharedSpace where
  objects : Array Shared := #[]
  names : List (String × ObjectId) := []

namespace SharedSpace

inductive Mode where
  | readOnly
  | readWrite
  deriving DecidableEq

/-- The directory itself and its parent are always there. -/
def isDot (name : String) : Bool := name == "/." || name == "/.."

def find? (s : SharedSpace) (name : String) : Option ObjectId := s.names.lookup name

def object? (s : SharedSpace) (id : ObjectId) : Option Shared := s.objects[id]?

def memory (s : SharedSpace) (id : ObjectId) : Memory :=
  match s.object? id with
  | some (.segment _ memory) => memory
  | _ => .zero

def isTaken (s : SharedSpace) (name : String) : Bool := isDot name || (s.find? name).isSome

/-- Makes an object under a new name. -/
def add (s : SharedSpace) (name : String) (object : Shared) : SharedSpace × ObjectId :=
  ({ objects := s.objects.push object, names := (name, s.objects.size) :: s.names },
    s.objects.size)

/-- Makes a segment of no size, unless the name is taken. -/
def create (s : SharedSpace) (name : String) : Except Errno (SharedSpace × ObjectId) :=
  if s.isTaken name then .error .nameTaken else .ok (s.add name (.segment 0 .zero))

/-- What reaching a name gives: a segment, or a directory that can be opened but not mapped. -/
inductive Reached where
  | segment (id : ObjectId) (size : Nat)
  | directory
  deriving DecidableEq

def openDirectory : Mode → Except Errno Reached
  | .readOnly => .ok .directory
  | .readWrite => .error .invalid

def reach (s : SharedSpace) (name : String) (mode : Mode) : Except Errno Reached :=
  if isDot name then openDirectory mode
  else match s.find? name with
    | none => .error .noEntry
    | some id =>
      match s.object? id with
      | some (.segment size _) => .ok (.segment id size)
      | some .symlink => .error .symlinkLoop
      | some .directory => openDirectory mode
      | none => .error .noEntry

/-- Takes a name away; the object stays. -/
def unlink (s : SharedSpace) (name : String) : Except Errno SharedSpace :=
  if isDot name then .error .isDirectory
  else match s.find? name with
    | none => .error .noEntry
    | some id =>
      match s.object? id with
      | some .directory => .error .isDirectory
      | _ => .ok { s with names := s.names.filter (·.1 != name) }

/-- The space after an unlink that may fail unheard. -/
def unlinked (s : SharedSpace) (name : String) : SharedSpace :=
  match s.unlink name with
  | .ok s => s
  | .error _ => s

def resize (s : SharedSpace) (id : ObjectId) (size : Nat) : SharedSpace :=
  { s with objects := s.objects.modify id fun
      | .segment _ memory => .segment size memory
      | other => other }

def store (s : SharedSpace) (id : ObjectId) (memory : Memory) : SharedSpace :=
  { s with objects := s.objects.modify id fun
      | .segment size _ => .segment size memory
      | other => other }

/-- The space once nothing leads to the name any more. -/
def without (s : SharedSpace) (name : String) : SharedSpace :=
  { s with names := s.names.filter (·.1 != name) }

section

variable {s s' : SharedSpace} {name n : String} {object : Shared} {id i : ObjectId} {size : Nat}

theorem isTaken_eq_false : s.isTaken name = false ↔ isDot name = false ∧ s.find? name = none := by
  rw [isTaken, Bool.or_eq_false_iff, Option.isSome_eq_false_iff, Option.isNone_iff_eq_none]

theorem isTaken_of_isDot (h : isDot name = true) : s.isTaken name = true := by
  rw [isTaken, h, Bool.true_or]

theorem isTaken_of_find? (h : s.find? name = some id) : s.isTaken name = true := by
  rw [isTaken, h, Option.isSome_some, Bool.or_true]

theorem find?_add :
    (s.add name object).1.find? n = if n = name then some s.objects.size else s.find? n :=
  lookup_cons_fst ..

theorem object?_add : (s.add name object).1.object? i =
    if i = s.objects.size then some object else s.object? i :=
  Array.getElem?_push

theorem find?_without : (s.without name).find? n = if n = name then none else s.find? n :=
  lookup_filter_fst ..

theorem lt_of_object? (h : s.object? id = some object) : id < s.objects.size :=
  (Array.getElem?_eq_some_iff.1 h).1

theorem object?_eq_none : s.object? id = none ↔ s.objects.size ≤ id := Array.getElem?_eq_none_iff

/-- A fresh object is as long as it is made. -/
theorem resize_add {old : Nat} {memory : Memory} :
    (s.add name (.segment old memory)).1.resize s.objects.size size =
      (s.add name (.segment size memory)).1 := by
  rw [resize, add, add, SharedSpace.mk.injEq]
  refine ⟨Array.ext_getElem? fun i => ?_, rfl⟩
  rw [Array.getElem?_modify, Array.getElem?_push, Array.getElem?_push]
  by_cases h : i = s.objects.size
  · rw [if_pos h.symm, if_pos h, if_pos h]
    rfl
  · rw [if_neg fun e => h e.symm, if_neg h, if_neg h]

/-- A name that has just been given is taken back without a trace, and the object stays. -/
theorem without_add (h : s.find? name = none) :
    (s.add name object).1.without name = { s with objects := s.objects.push object } := by
  rw [without, add, SharedSpace.mk.injEq]
  refine ⟨rfl, ?_⟩
  rw [List.filter_cons_of_neg (by simp), List.filter_eq_self]
  intro p hp
  have hne := List.lookup_eq_none_iff.1 h p hp
  rwa [bne_comm]

theorem unlink_eq_ok (h : s.unlink name = .ok s') :
    ∃ id, isDot name = false ∧ s.find? name = some id ∧ s.object? id ≠ some .directory ∧
      s' = s.without name := by
  rw [unlink] at h
  split at h
  · cases h
  · split at h
    · cases h
    · split at h
      · cases h
      · rename_i hdot _ id hfind _ hobject
        cases h
        exact ⟨id, Bool.eq_false_iff.2 hdot, hfind, hobject, rfl⟩

theorem unlink_of_segment {memory : Memory} (hdot : isDot name = false)
    (hfind : s.find? name = some id) (hobject : s.object? id = some (.segment size memory)) :
    s.unlink name = .ok (s.without name) := by
  simp only [unlink, hdot, hfind, hobject, Bool.false_eq_true, ↓reduceIte]
  rfl

theorem unlinked_eq (s : SharedSpace) (name : String) :
    s.unlinked name = s ∨ s.unlinked name = s.without name := by
  rw [unlinked]
  split
  · rename_i h
    obtain ⟨-, -, -, -, rfl⟩ := unlink_eq_ok h
    exact .inr rfl
  · exact .inl rfl

theorem unlinked_of_segment {memory : Memory} (hdot : isDot name = false)
    (hfind : s.find? name = some id) (hobject : s.object? id = some (.segment size memory)) :
    s.unlinked name = s.without name := by
  rw [unlinked, unlink_of_segment hdot hfind hobject]

theorem object?_unlinked : (s.unlinked name).object? i = s.object? i := by
  rcases unlinked_eq s name with h | h <;> rw [h] <;> rfl

theorem memory_push {objects : Array Shared} (h : objects = s.objects.push object) :
    { s with objects }.memory i = if i = s.objects.size then object.memory else s.memory i := by
  rw [SharedSpace.memory, object?, h, Array.getElem?_push]
  by_cases hi : i = s.objects.size
  · rw [if_pos hi, if_pos hi]
    cases object <;> rfl
  · rw [if_neg hi, if_neg hi]
    rfl

theorem memory_add : (s.add name object).1.memory i =
    if i = s.objects.size then object.memory else s.memory i :=
  memory_push rfl

/-- No object is there yet, so no byte of it is set. -/
theorem memory_fresh : s.memory s.objects.size = .zero := by
  rw [SharedSpace.memory, object?_eq_none.2 (Nat.le_refl _)]

theorem memory_eq {memory : Memory} (h : s.object? id = some (.segment size memory)) :
    s.memory id = memory := by
  rw [SharedSpace.memory, h]

theorem object?_store {memory old : Memory} (h : s.object? id = some (.segment size old)) :
    (s.store id memory).object? i =
      if i = id then some (.segment size memory) else s.object? i := by
  rw [object?, store, Array.getElem?_modify]
  by_cases hi : i = id
  · rw [if_pos hi.symm, if_pos hi, hi, ← object?, h]
    rfl
  · rw [if_neg fun e => hi e.symm, if_neg hi, object?]

theorem memory_store {memory old : Memory} (h : s.object? id = some (.segment size old)) :
    (s.store id memory).memory i = if i = id then memory else s.memory i := by
  rw [SharedSpace.memory, object?_store h]
  by_cases hi : i = id
  · rw [if_pos hi, if_pos hi]
  · rw [if_neg hi, if_neg hi, SharedSpace.memory]

end

end SharedSpace

end Cadence
