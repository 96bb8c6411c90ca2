import Cadence.Shell.Edit
import Cadence.Shell.Filter
import Cadence.Shell.Reckon

/-!
A few small programs, which are files and know nothing of the shell that runs them but its input and
what it has written.
-/

namespace Cadence.Shell

namespace Program

open Builtin (done)
open Cadence.Shell.Filter (isOption split unlines)

def cat : Builtin := fun s words =>
  let (s, said) := (if words.isEmpty then ["-"] else words).foldl (fun (s, said) w =>
    if w = "-" then ({ s with input := "" }, { said with out := said.out ++ s.input })
    else match s.contents? w with
      | some text => (s, { said with out := said.out ++ text })
      | none =>
        (s.ends 1, { said with err := said.err ++ "cat: " ++ w ++ ": No such file or directory\n" }))
    (s.ends 0, ({} : Said))
  (s, said)

def seq : Builtin := fun s words =>
  let numbers := words.filterMap fun w => (Condition.number w).toOption
  let (first, step, last) : Int × Int × Int := match numbers with
    | [n] => (1, 1, n)
    | [a, b] => (a, 1, b)
    | a :: step :: b :: _ => (a, step, b)
    | [] => (1, 1, 0)
  let n := if step = 0 then 0 else ((last - first) / step + 1).toNat
  done s 0 (String.join ((List.range n).map fun (i : Nat) =>
    toString (first + step * (i : Int)) ++ "\n"))

/-- The last name of a path, less an ending. -/
def basename : Builtin := fun s words =>
  let parts := ((words.headD "").splitOn "/").filter (· != "")
  let name := parts.getLastD (if words.headD "" = "" then "" else "/")
  let ending := words.getD 1 ""
  let isCut := ending != "" && name.endsWith ending && name != ending
  done s 0 ((if isCut then (name.dropEnd ending.length).toString else name) ++ "\n")

def dirname : Builtin := fun s words =>
  let path := words.headD ""
  let parts := (path.splitOn "/").filter (· != "")
  let front := "/".intercalate parts.dropLast
  done s 0 ((if path.startsWith "/" then "/" ++ front else if front = "" then "." else front) ++ "\n")

/-- A program's way of printing words, which knows no escapes. -/
def plainEcho : Builtin := fun s words =>
  if words.head? = some "-n" then done s 0 (" ".intercalate (words.drop 1))
  else done s 0 (" ".intercalate words ++ "\n")

/-- Whatever is a directory is shown as if it were empty. -/
def ls : Builtin := fun s words =>
  let names := words.filter (!·.startsWith "-")
  let isThere (name : String) : Bool := (s.find name).isOk
  let files := names.filter fun name => match s.find name with
    | .ok (_, .file) => true
    | _ => false
  (s.ends (if names.all isThere then 0 else 2),
    { out := unlines files
      err := unlines ((names.filter (!isThere ·)).map fun name =>
        "ls: cannot access " ++ Format.quoted name ++ ": No such file or directory") })

def tee : Builtin := fun s words =>
  let (letters, paths) := split words
  let t := paths.foldl (fun (t : State) path =>
    match t.target? path with
    | some (.file p) => t.write p (letters.contains 'a') s.input
    | _ => t) { s with input := "" }
  done t 0 s.input

def rm : Builtin := fun s words =>
  let (letters, paths) := split words
  paths.foldl (fun (s, said) path =>
    let gone := match s.find path with
      | .ok (p, .file) => (s.written.lookup p).map fun _ => p
      | _ => none
    match gone with
    | some p => ({ s with written := s.written.filter (·.1 != p) }, said)
    | none =>
      if letters.contains 'f' && !(s.find path).isOk then (s, said)
      else
        (s.ends 1, { said with err := said.err ++ "rm: cannot remove " ++ Format.quoted path ++ "\n" }))
    (s.ends 0, ({} : Said))

def touch : Builtin := fun s words =>
  (words.filter (!isOption ·)).foldl (fun (s, said) path =>
    if (s.find path).isOk then (s, said)
    else match s.target? path with
      | some (.file p) => (s.write p true "", said)
      | _ => (s.ends 1, { said with err := said.err ++ "touch: cannot touch " ++ path ++ "\n" }))
    (s.ends 0, ({} : Said))

def id : Builtin := fun s words =>
  let letters := (split words).1
  done s 0 (if letters.contains 'n' then "root\n"
    else if letters.isEmpty then "uid=0(root) gid=0(root) groups=0(root)\n"
    else "0\n")

/-- The settings in front of a command, made, and the words of the command. -/
def environment (s : State) : List String → State × List String
  | [] => (s, [])
  | w :: ws =>
    if w = "-i" then environment { s with exported := [] } ws
    else match Builtin.assignment w with
      | (x, some v) => environment { s.put x v with exported := x :: s.exported } ws
      | (_, none) => (s, w :: ws)

/-- The program of this name, if it runs no other. -/
def named? (name : String) : Option Builtin :=
  match name with
  | "true" | "sleep" => some fun s _ => done s 0
  | "false" => some fun s _ => done s 1
  | "echo" => some plainEcho
  | "printf" => some Builtin.printf
  | "test" => some Builtin.test
  | "pwd" => some fun s _ => done s 0 (Builtin.pathOf s.directory ++ "\n")
  | "cat" => some cat
  | "ls" => some ls
  | "seq" => some seq
  | "head" => some Filter.head
  | "tail" => some Filter.tail
  | "sort" => some Filter.sort
  | "uniq" => some Filter.uniq
  | "wc" => some Filter.wc
  | "tr" => some Filter.tr
  | "cut" => some Filter.cut
  | "grep" => some (Filter.grep false false)
  | "egrep" => some (Filter.grep true false)
  | "fgrep" => some (Filter.grep false true)
  | "tac" => some Filter.tac
  | "rev" => some Filter.rev
  | "sed" => some Edit.sed
  | "expr" => some Reckon.expr
  | "tee" => some tee
  | "rm" => some rm
  | "touch" => some touch
  | "uname" => some fun s _ => done s 0 "Linux\n"
  | "whoami" => some fun s _ => done s 0 "root\n"
  | "id" => some id
  | "basename" => some basename
  | "dirname" => some dirname
  | _ => none

/-- A path's program, by the name that it has in the directory where programs are. -/
def nameOf? (path : String) : Option String :=
  let bare := ["/bin/", "/usr/bin/"].findSome? fun d =>
    if path.startsWith d then some (path.drop d.length).toString else none
  (if path.contains '/' then bare else some path).filter fun name =>
    (named? name).isSome || ["env", "sh", "dash"].contains name

end Program

end Cadence.Shell
