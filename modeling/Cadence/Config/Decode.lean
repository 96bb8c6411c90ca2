import Cadence.Config.Basic
import Cadence.Toml.Document

/-!
Configurations from tables. What is left out has a default, the service's name apart; what is not
known is passed over, except in a schedule, where a misspelled key would silently change nothing.

A record may also be an array of its fields in order, and a name a table with that one key. Items
beyond the last field are not looked at; all other values have to be sound, known or not.
-/

namespace Cadence

open Toml (Value Table)

namespace Config

/-- The fields of a record by name. -/
def fields? (names : List String) : Value → Option (String → Option Value)
  | .table t => if Toml.Table.isSound t then some fun name => t.lookup name else none
  | .array items => some fun name => (names.zip items).lookup name
  | _ => none

def name? : Value → Option String
  | .text s => some s
  | .table [(name, .table [])] => some name
  | .table [(name, .array [])] => some name
  | _ => none

/-- A field that may be left out, but not be wrong. -/
def optional {α : Type} (default : α) (decode : Value → Option α) : Option Value → Option α
  | none => some default
  | some v => decode v

def boolean? : Value → Option Bool
  | .boolean b => some b
  | _ => none

def priority? : Value → Option Int32
  | .integer n => if Int32.minValue.toInt ≤ n ∧ n ≤ Int32.maxValue.toInt then some (.ofInt n) else none
  | _ => none

def cpu? : Value → Option UInt64
  | .integer n => if 0 ≤ n ∧ n < UInt64.size then some (.ofNat n.toNat) else none
  | _ => none

def cpus? : Value → Option CpuList
  | .array items => do CpuList.ofList? (← items.mapM cpu?)
  | _ => none

end Config

open Config

namespace Schedule

def fieldNames : List String := ["policy", "priority", "cpus", "lock_memory"]

def decode? (v : Value) : Option Schedule := do
  let field ← fields? fieldNames v
  if let .table t := v then
    if !t.all (·.1 ∈ fieldNames) then none
  return {
    policy := ← optional .normal (fun v => name? v >>= Policy.ofName?) (field "policy")
    priority := ← optional 0 priority? (field "priority")
    cpus := ← optional .none cpus? (field "cpus")
    lockMemory := ← optional false boolean? (field "lock_memory") }

end Schedule

namespace SharedConfig

def fieldNames : List String := ["log_level", "service_name"]

def decode? (v : Value) : Option SharedConfig := do
  let field ← fields? fieldNames v
  let logLevel ← optional default (fun v => name? v >>= LogLevel.ofName?) (field "log_level")
  match ← field "service_name" with
  | .text serviceName => return { logLevel, serviceName }
  | _ => none

end SharedConfig

namespace RunnerConfig

def fieldNames : List String := ["shared", "schedule"]

def decode? (t : Table) : Option RunnerConfig := do
  if !Toml.Table.isSound (t.filter fun (name, _) => name ∉ fieldNames) then none
  return {
    shared := ← SharedConfig.decode? (← t.lookup "shared")
    schedule := ← optional {} Schedule.decode? (t.lookup "schedule") }

end RunnerConfig

namespace Config

/-- Reads a configuration of any kind from a text. -/
def parse {α : Type} (decode : Table → Option α) (text : String) : Except ConfigFault α :=
  match Toml.parse? text >>= decode with
  | some config => .ok config
  | none => .error .malformed

inductive Source where
  | missing
  /-- Something that has no bytes to read, such as a directory. -/
  | unreadable
  | bytes (content : List UInt8)

def load {α : Type} (decode : Table → Option α) : Source → Except ConfigFault α
  | .missing => .error .notFound
  | .unreadable => .error .malformed
  | .bytes content =>
    if Text.IsWhole content then parse decode (.ofList (Text.decode content))
    else .error .malformed

end Config

end Cadence
