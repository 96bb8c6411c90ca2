/-!
Texts as bytes. `encode` writes characters as UTF-8, `decode` reads as many whole characters as the
bytes start with, and `fitting` cuts a text to a byte count without splitting a character. Bounded
texts are built from these three.
-/

namespace Cadence.Text

def encode (cs : List Char) : List UInt8 :=
  cs.flatMap String.utf8EncodeChar

/-- The character the bytes start with, if they start with a whole one. -/
def firstChar? (bytes : List UInt8) : Option Char :=
  (bytes.take 4).toByteArray.utf8DecodeChar? 0

/-- The characters before the first byte that starts no whole character. -/
def decode : List UInt8 → List Char
  | [] => []
  | b :: bs =>
    match firstChar? (b :: bs) with
    | none => []
    | some c => c :: decode ((b :: bs).drop c.utf8Size)
termination_by bytes => bytes.length
decreasing_by
  have := c.utf8Size_pos
  simp only [List.length_drop, List.length_cons]
  omega

/-- How many bytes follow the first one of a character, and what the second one lies between. -/
def continuation (b : UInt8) : Nat × UInt8 × UInt8 :=
  if b < 0xC2 then (0, 0, 0)
  else if b < 0xE0 then (1, 0x80, 0xBF)
  else if b < 0xF0 then (2, if b = 0xE0 then 0xA0 else 0x80, if b = 0xED then 0x9F else 0xBF)
  else if b < 0xF5 then (3, if b = 0xF0 then 0x90 else 0x80, if b = 0xF4 then 0x8F else 0xBF)
  else (0, 0, 0)

/-- How many of the bytes belong to a character that has begun with the given one. -/
def begun (b : UInt8) (bs : List UInt8) : Nat :=
  match continuation b, bs with
  | (0, _), _ | _, [] => 0
  | (n + 1, low, high), c :: cs =>
    if low ≤ c ∧ c ≤ high then 1 + ((cs.take n).takeWhile fun c => 0x80 ≤ c && c ≤ 0xBF).length
    else 0

/-- All bytes as characters. What begins a character and does not end it is one replacement
character. -/
def decodeAll : List UInt8 → List Char
  | [] => []
  | b :: bs =>
    match firstChar? (b :: bs) with
    | none => '\ufffd' :: decodeAll (bs.drop (begun b bs))
    | some c => c :: decodeAll ((b :: bs).drop c.utf8Size)
termination_by bytes => bytes.length
decreasing_by
  · simp only [List.length_drop, List.length_cons]
    omega
  · have := c.utf8Size_pos
    simp only [List.length_drop, List.length_cons]
    omega

/-- Bytes that are whole characters from end to end. -/
def IsWhole (bytes : List UInt8) : Prop :=
  encode (decode bytes) = bytes

instance (bytes : List UInt8) : Decidable (IsWhole bytes) :=
  inferInstanceAs (Decidable (_ = _))

/-- The longest run of leading characters that takes at most `room` bytes. -/
def fitting (room : Nat) : List Char → List Char
  | [] => []
  | c :: cs => if c.utf8Size ≤ room then c :: fitting (room - c.utf8Size) cs else []

/-- Where `needle` first occurs in the text, counted in bytes. -/
def find? (needle : List Char) : List Char → Option Nat
  | [] => if needle.isEmpty then some 0 else none
  | c :: cs =>
    if needle.isPrefixOf (c :: cs) then some 0
    else (find? needle cs).map (· + c.utf8Size)

@[simp] theorem encode_nil : encode [] = [] := rfl

@[simp] theorem encode_cons (c : Char) (cs : List Char) :
    encode (c :: cs) = String.utf8EncodeChar c ++ encode cs := rfl

theorem encode_append (as bs : List Char) : encode (as ++ bs) = encode as ++ encode bs := by
  simp [encode]

theorem length_encode_fitting_le (room : Nat) (cs : List Char) :
    (encode (fitting room cs)).length ≤ room := by
  induction cs generalizing room with
  | nil => simp [fitting]
  | cons c cs ih =>
    unfold fitting
    split
    · have := ih (room - c.utf8Size)
      simp only [encode_cons, List.length_append, String.length_utf8EncodeChar]
      omega
    · simp

theorem fitting_eq_self {room : Nat} {cs : List Char} (h : (encode cs).length ≤ room) :
    fitting room cs = cs := by
  induction cs generalizing room with
  | nil => rfl
  | cons c cs ih =>
    rw [encode_cons, List.length_append, String.length_utf8EncodeChar] at h
    rw [fitting, if_pos (by omega), ih (by omega)]

theorem firstChar?_encodeChar (c : Char) (bytes : List UInt8) :
    firstChar? (String.utf8EncodeChar c ++ bytes) = some c := by
  have hsize : (String.utf8EncodeChar c).length ≤ 4 := by
    rw [String.length_utf8EncodeChar]
    exact c.utf8Size_le_four
  rw [firstChar?, List.take_append, List.take_of_length_le hsize, List.toByteArray_append]
  exact ByteArray.utf8DecodeChar?_utf8EncodeChar_append

theorem decode_of_firstChar? {bytes : List UInt8} {c : Char} (h : firstChar? bytes = some c) :
    decode bytes = c :: decode (bytes.drop c.utf8Size) := by
  cases bytes with
  | nil => cases h
  | cons b bs => rw [decode, h]

/-- What is encoded is read back, whatever follows. -/
theorem decode_encode_append (cs : List Char) (bytes : List UInt8) :
    decode (encode cs ++ bytes) = cs ++ decode bytes := by
  induction cs with
  | nil => rfl
  | cons c cs ih =>
    have hfirst := firstChar?_encodeChar c (encode cs ++ bytes)
    rw [encode_cons, List.append_assoc, decode_of_firstChar? hfirst, ← String.length_utf8EncodeChar,
      List.drop_left, ih, List.cons_append]

@[simp] theorem decode_encode (cs : List Char) : decode (encode cs) = cs := by
  have h := decode_encode_append cs []
  rwa [List.append_nil, show decode [] = [] by rw [decode], List.append_nil] at h

end Cadence.Text
