import Cadence.Errno
import Cadence.Limits
import Cadence.Text.Bounded
import Cadence.Text.Quoted

/-!
What can go wrong. A fault is a cause, not a message: the wording is one function, and the way a
system call's code becomes a fault is another. Only the opaque system failure keeps its code.
-/

namespace Cadence

/-- A name as carried by a fault: cut to a few bytes, so that a fault needs no heap. -/
abbrev FaultName := BoundedText Limits.faultNameBytes

inductive Fault where
  | overflow
  | empty
  | full
  | timeout
  | notFound (name : FaultName)
  | alreadyExists (name : FaultName)
  | permissionDenied (operation : String)
  | invalidArgument (reason : String)
  | systemFailure (call : String) (errno : Errno)
  deriving DecidableEq

namespace Fault

def notFoundAs (name : String) : Fault := .notFound (.ofString name)

def alreadyExistsAs (name : String) : Fault := .alreadyExists (.ofString name)

/-- Privilege and argument codes have faults of their own; codes about names are for callers who
know the name. -/
def ofErrno (call : String) (e : Errno) : Fault :=
  if e = .notPermitted ∨ e = .noAccess then .permissionDenied call
  else if e = .invalid then .invalidArgument call
  else if e = .timedOut then .timeout
  else .systemFailure call e

/-- A call that failed with or without a code. -/
def ofCall (call : String) : Option Int → Fault
  | some raw => ofErrno call (.ofRaw raw)
  | none => .systemFailure call .unknown

def code? : Fault → Option Nat
  | systemFailure _ e => some e.code
  | _ => none

def message : Fault → String
  | overflow => "buffer overflow"
  | empty => "buffer empty"
  | full => "queue full"
  | timeout => "timed out"
  | notFound name => "shared object not found: " ++ name.text
  | alreadyExists name => "shared object already exists: " ++ name.text
  | permissionDenied operation => "permission denied: " ++ operation
  | invalidArgument reason => "invalid argument: " ++ reason
  | systemFailure call e => call ++ " failed: " ++ e.name ++ ": " ++ e.wording

def kind : Fault → String
  | overflow => "Overflow"
  | empty => "Empty"
  | full => "Full"
  | timeout => "Timeout"
  | notFound _ => "NotFound"
  | alreadyExists _ => "AlreadyExists"
  | permissionDenied _ => "PermissionDenied"
  | invalidArgument _ => "InvalidArgument"
  | systemFailure _ _ => "SystemFailure"

/-- The fault with its context spelled out, for logs. -/
def describe (f : Fault) : String :=
  let fields := match f with
    | notFound name | alreadyExists name => ["name: " ++ Text.quoted name.text]
    | permissionDenied operation => ["operation: " ++ Text.quoted operation]
    | invalidArgument reason => ["reason: " ++ Text.quoted reason]
    | systemFailure call e => ["call: " ++ Text.quoted call, "errno: " ++ e.name]
    | _ => []
  if fields.isEmpty then f.kind else f.kind ++ " \x7b " ++ ", ".intercalate fields ++ " \x7d"

end Fault

/-- A refused item, handed back to whoever offered it. -/
structure Rejected (reason : Fault) (α : Type) where
  item : α
  deriving DecidableEq

namespace Rejected

variable {reason : Fault} {α : Type}

def message (_ : Rejected reason α) : String := reason.message

/-- The item stays out of sight: it need not be printable. -/
def describe (_ : Rejected reason α) : String := reason.kind ++ "(..)"

def toFault (_ : Rejected reason α) : Fault := reason

end Rejected

end Cadence
