/-!
The file names of a plain Linux system, as far as it matters whether something is there and whether it
is a directory. What the files hold is not kept: none of them is a configuration.
-/

namespace Cadence.Files

abbrev Place := List String

inductive Kind where
  | directory
  | file
  deriving DecidableEq

inductive Obstacle where
  | missing
  /-- A name that is too long, or one below something that is no directory. -/
  | blocked
  deriving DecidableEq

def place (path : String) : Place := (path.splitOn "/").filter (· != "")

def directories : List Place := ["", "boot", "dev", "dev/fd", "dev/pts", "dev/shm", "etc", "etc/apt",
  "etc/default", "etc/init.d", "etc/ssl", "home", "media", "mnt", "opt", "proc", "proc/self",
  "proc/self/fd", "proc/sys", "root", "run", "run/lock", "srv", "sys", "sys/kernel", "tmp", "usr",
  "usr/bin", "usr/include", "usr/lib", "usr/lib64", "usr/local", "usr/local/bin", "usr/local/lib",
  "usr/sbin", "usr/share", "usr/src", "var", "var/cache", "var/lib", "var/log", "var/spool",
  "var/tmp"].map place

/-- Names in the directory of the programs. -/
def programs : List String := ["[", "awk", "basename", "bash", "cat", "chmod", "cp", "cut", "dash",
  "date", "dirname", "echo", "egrep", "env", "expr", "false", "fgrep", "find", "grep", "head",
  "hostname", "id", "kill", "ln", "ls", "mkdir", "mv", "nice", "nproc", "printf", "ps", "pwd",
  "rev", "rm", "rmdir", "sed", "seq", "sh", "sleep", "sort", "stat", "tac", "tail", "tee", "test",
  "timeout", "touch", "tr", "true", "tty", "uname", "uniq", "wc", "whoami", "xargs", "yes"]

def files : List Place := ["dev/full", "dev/null", "dev/random", "dev/tty", "dev/urandom", "dev/zero",
  "etc/fstab", "etc/group", "etc/hostname", "etc/hosts", "etc/issue", "etc/nsswitch.conf",
  "etc/os-release", "etc/passwd", "etc/profile", "etc/resolv.conf", "etc/shadow", "proc/cpuinfo",
  "proc/meminfo", "proc/mounts", "proc/self/cmdline", "proc/self/environ", "proc/self/exe",
  "proc/self/fd/0", "proc/self/fd/1", "proc/self/fd/2", "proc/self/maps", "proc/self/stat",
  "proc/self/status", "proc/stat", "proc/uptime", "proc/version"].map place ++
  programs.map fun name => ["usr", "bin", name]

def links : List (Place × Place) := [("bin", "usr/bin"), ("sbin", "usr/sbin"), ("lib", "usr/lib"),
  ("lib64", "usr/lib64"), ("var/run", "run"), ("var/lock", "run/lock"),
  ("dev/stdin", "proc/self/fd/0"), ("dev/stdout", "proc/self/fd/1"),
  ("dev/stderr", "proc/self/fd/2"), ("dev/fd/0", "proc/self/fd/0")].map fun (a, b) =>
    (place a, place b)

/-- What stands at a place, with files beside those of the system. -/
def kind? (more : List Place) (p : Place) : Option Kind :=
  if p ∈ directories then some .directory
  else if p ∈ files ∨ p ∈ more then some .file
  else none

def walk (more : List Place) : Place → List String → Except Obstacle (Place × Kind)
  | here, [] =>
    match kind? more here with
    | some kind => .ok (here, kind)
    | none => .error .missing
  | here, name :: rest =>
    match kind? more here with
    | none => .error .missing
    | some .file => .error .blocked
    | some .directory =>
      if name = "" ∨ name = "." then walk more here rest
      else if name = ".." then walk more here.dropLast rest
      else if 255 < name.utf8ByteSize then .error .blocked
      else walk more ((links.lookup (here ++ [name])).getD (here ++ [name])) rest

/-- Names less those that only say where to go. -/
def straighten (names : List String) : Place :=
  names.foldl (fun p name =>
    if name = "" ∨ name = "." then p
    else if name = ".." then p.dropLast
    else p ++ [name]) []

/-- Follows a path from a directory, or from the root. -/
def find (more : List Place) (here : Place) (path : String) : Except Obstacle (Place × Kind) :=
  if path = "" then .error .missing
  else if 4096 ≤ path.utf8ByteSize then .error .blocked
  else if path.startsWith "/" then walk more [] (path.splitOn "/")
  else walk more here (path.splitOn "/")

/-- Whether the last name of a path is that of a link. -/
def isLink (more : List Place) (here : Place) (path : String) : Bool :=
  let names := path.splitOn "/"
  let start := if path.startsWith "/" then [] else here
  match walk more start names.dropLast, names.getLast? with
  | .ok (p, .directory), some name => (links.lookup (p ++ [name])).isSome
  | _, _ => false

/-- The names in a directory, in their order. -/
def entries (more : List Place) (here : Place) : List String :=
  let places := directories ++ files ++ links.map (·.1) ++ more
  (places.filterMap fun p => if p.dropLast = here then p.getLast? else none).eraseDups.mergeSort
    fun a b => a ≤ b

end Cadence.Files
