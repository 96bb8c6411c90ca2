import Cadence.Shell.Arithmetic

/-!
Conditions on texts, numbers and files, as they are tested word by word. A word counts as an operator
where one can stand, and otherwise as the text that it is.
-/

namespace Cadence.Shell

namespace Condition

def unaries : List String :=
  ["-n", "-z", "-e", "-f", "-d", "-r", "-w", "-x", "-s", "-h", "-L", "-p", "-S", "-b", "-c", "-t", "-u",
    "-g", "-k", "-O", "-G"]

def binaries : List String :=
  ["=", "!=", "<", ">", "-eq", "-ne", "-lt", "-le", "-gt", "-ge", "-nt", "-ot", "-ef"]

def ofFile (s : State) (op path : String) : Bool :=
  if op = "-h" ∨ op = "-L" then Files.isLink s.places s.directory path
  else match s.find path with
  | .error _ => false
  | .ok (p, .directory) =>
    op ∈ ["-d", "-e", "-r", "-w", "-x", "-s", "-O", "-G"] ∨ (op = "-k" ∧ p = ["tmp"])
  | .ok (p, .file) =>
    if p.head? = some "dev" then op ∈ ["-e", "-r", "-w", "-c", "-O", "-G"]
    else match op with
      | "-x" => p.take 2 = ["usr", "bin"]
      | "-s" => (s.written.lookup p).all (· != "")
      | _ => op ∈ ["-e", "-f", "-r", "-w", "-O", "-G"]

def unary (s : State) (op a : String) : Bool :=
  match op with
  | "-n" => a != ""
  | "-z" => a == ""
  | "-t" => false
  | _ => ofFile s op a

def number (w : String) : Except String Int :=
  let cs := w.toList.dropWhile Sum.isBlank
  let (isNegative, body) := match cs with
    | '-' :: r => (true, r)
    | '+' :: r => (false, r)
    | r => (false, r)
  let digits := body.takeWhile Char.isDigit
  if digits.isEmpty || !(body.dropWhile Char.isDigit).all Sum.isBlank then
    .error ("Illegal number: " ++ w)
  else
    let n : Int := digits.foldl (fun n c => n * 10 + (c.toNat - '0'.toNat)) 0
    let n := if isNegative then -n else n
    if (Sum.clamp n).toInt = n then .ok n else .error ("Illegal number: " ++ w)

def binary (s : State) (op a b : String) : Except String Bool := do
  match op with
  | "=" => return a == b
  | "!=" => return a != b
  | "<" => return a < b
  | ">" => return b < a
  | "-nt" => return (s.find a).isOk && !(s.find b).isOk
  | "-ot" => return !(s.find a).isOk && (s.find b).isOk
  | "-ef" => return match s.find a, s.find b with
      | .ok (p, _), .ok (q, _) => p == q
      | _, _ => false
  | _ =>
    let a ← number a
    let b ← number b
    return match op with
      | "-eq" => a == b
      | "-ne" => a != b
      | "-lt" => a < b
      | "-le" => a ≤ b
      | "-gt" => b < a
      | _ => b ≤ a

abbrev Parser := StateT (List String) (Except String)

mutual

def disjunction (s : State) : Nat → Parser Bool
  | 0 => throw "expression too long"
  | fuel + 1 => do
    let a ← conjunction s fuel
    if (← get).head? = some "-o" then
      modify (·.drop 1)
      let b ← disjunction s fuel
      return a || b
    return a

def conjunction (s : State) : Nat → Parser Bool
  | 0 => throw "expression too long"
  | fuel + 1 => do
    let a ← negation s fuel
    if (← get).head? = some "-a" then
      modify (·.drop 1)
      let b ← conjunction s fuel
      return a && b
    return a

def negation (s : State) : Nat → Parser Bool
  | 0 => throw "expression too long"
  | fuel + 1 => do
    match ← get with
    | "!" :: rest@(_ :: _) =>
      if (rest.head?.any (binaries.contains ·)) ∧ rest.length = 2 then primary s fuel
      else
        set rest
        return !(← negation s fuel)
    | _ => primary s fuel

def primary (s : State) : Nat → Parser Bool
  | 0 => throw "expression too long"
  | fuel + 1 => do
    match ← get with
    | [] => throw "argument expected"
    | a :: op :: b :: rest =>
      if binaries.contains op then
        set rest
        return ← binary s op a b
      other fuel a (op :: b :: rest)
    | a :: rest => other fuel a rest
where
  other (fuel : Nat) (a : String) (rest : List String) : Parser Bool := do
    match a, rest with
    | "(", rest@(_ :: _) =>
      set rest
      let r ← disjunction s fuel
      if (← get).head? ≠ some ")" then throw "closing paren expected"
      modify (·.drop 1)
      return r
    | a, b :: more =>
      if unaries.contains a then
        set more
        return unary s a b
      else
        set rest
        return a != ""
    | a, [] =>
      set rest
      return a != ""

end

/-- Whether the words hold, or what is wrong with them. -/
def eval (s : State) (words : List String) : Except String Bool := do
  if words.isEmpty then return false
  let (r, rest) ← (disjunction s (words.length * 4 + 8)).run words
  match rest with
  | [] => return r
  | w :: _ => throw (w ++ ": unexpected operator")

end Condition

end Cadence.Shell
