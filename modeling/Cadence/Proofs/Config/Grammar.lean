import Cadence.Proofs.Config.Fields
import Mathlib

/-!
Which tables are configurations, and of what. A table that names a service is one, with a level of
logging among the known ones or none; so is its schedule, as long as it has no field but the four.
Nothing else in the table matters. What is written for a configuration is read as that
configuration.

Spellings of a record as an array and of a name as a table are left aside.
-/

namespace Cadence

open Toml (Value Table)
open Config

/-! The rules of the tables, and what a table that keeps to them says. -/

structure Schedule.Grammar (t : Table) : Prop where
  known : ∀ entry ∈ t, entry.1 ∈ ["policy", "priority", "cpus", "lock_memory"]
  policy : ∀ v, t.lookup "policy" = some v →
    ∃ word ∈ ["normal", "fifo", "round_robin"], v = .text word
  priority : ∀ v, t.lookup "priority" = some v →
    ∃ n : Int, v = .integer n ∧ -2147483648 ≤ n ∧ n ≤ 2147483647
  cpus : ∀ v, t.lookup "cpus" = some v → ∃ items, v = .array items ∧ items.length ≤ 64 ∧
    ∀ item ∈ items, ∃ n : Int, item = .integer n ∧ 0 ≤ n ∧ n ≤ 18446744073709551615
  lockMemory : ∀ v, t.lookup "lock_memory" = some v → ∃ b, v = .boolean b

structure Schedule.Told (t : Table) (s : Schedule) : Prop where
  policy : Holds .normal (fun p => .text p.name) (t.lookup "policy") s.policy
  priority : Holds 0 (fun n => .integer n.toInt) (t.lookup "priority") s.priority
  cpus : Holds .none cpusValue (t.lookup "cpus") s.cpus
  lockMemory : Holds false .boolean (t.lookup "lock_memory") s.lockMemory

structure SharedConfig.Grammar (t : Table) : Prop where
  logLevel : ∀ v, t.lookup "log_level" = some v →
    ∃ word ∈ ["trace", "debug", "info", "warn", "error"], v = .text word
  serviceName : ∃ name, t.lookup "service_name" = some (.text name)

structure SharedConfig.Told (t : Table) (c : SharedConfig) : Prop where
  logLevel : Holds .info (fun l => .text l.name) (t.lookup "log_level") c.logLevel
  serviceName : t.lookup "service_name" = some (.text c.serviceName)

structure RunnerConfig.Grammar (t : Table) : Prop where
  shared : ∃ inner, t.lookup "shared" = some (.table inner) ∧ SharedConfig.Grammar inner
  schedule : ∀ v, t.lookup "schedule" = some v → ∃ inner, v = .table inner ∧ Schedule.Grammar inner

structure RunnerConfig.Told (t : Table) (c : RunnerConfig) : Prop where
  shared : ∃ inner, t.lookup "shared" = some (.table inner) ∧ SharedConfig.Told inner c.shared
  schedule : (t.lookup "schedule" = none ∧ c.schedule = .normal) ∨
    ∃ inner, t.lookup "schedule" = some (.table inner) ∧ Schedule.Told inner c.schedule

/-- No record is spelled as an array and no name as a table. -/
structure RunnerConfig.Plain (t : Table) : Prop where
  shared : ∀ items, t.lookup "shared" ≠ some (.array items)
  schedule : ∀ items, t.lookup "schedule" ≠ some (.array items)
  logLevel : ∀ inner entries, t.lookup "shared" = some (.table inner) →
    inner.lookup "log_level" ≠ some (.table entries)
  policy : ∀ inner entries, t.lookup "schedule" = some (.table inner) →
    inner.lookup "policy" ≠ some (.table entries)

namespace Schedule

variable {t : Table} {s : Schedule}

def fields? (t : Table) : Option Schedule := do
  return {
    policy := ← optional .normal (fun v => name? v >>= Policy.ofName?) (t.lookup "policy")
    priority := ← optional 0 priority? (t.lookup "priority")
    cpus := ← optional .none cpus? (t.lookup "cpus")
    lockMemory := ← optional false boolean? (t.lookup "lock_memory") }

theorem decode?_table_eq (sound : Table.isSound t = true) : decode? (.table t) = some s ↔
    (∀ entry ∈ t, entry.1 ∈ fieldNames) ∧ fields? t = some s := by
  have hall : (t.all fun entry => entry.1 ∈ fieldNames) = true ↔
      ∀ entry ∈ t, entry.1 ∈ fieldNames := by
    simp only [List.all_eq_true, decide_eq_true_eq]
  rw [← hall, decode?, Config.fields?, if_pos sound]
  cases h : t.all fun entry => entry.1 ∈ fieldNames with
  | false =>
    simp only [Option.bind_eq_bind, Option.bind_some, h]
    exact iff_of_false nofun nofun
  | true =>
    simp only [Option.bind_eq_bind, Option.bind_some, h]
    rw [true_and]
    rfl

theorem fields?_eq_some (plain : ∀ entries, t.lookup "policy" ≠ some (.table entries)) :
    fields? t = some s ↔ Told t s := by
  have hpolicy (p : Policy) :
      optional .normal (fun v => name? v >>= Policy.ofName?) (t.lookup "policy") = some p ↔
        Holds .normal (fun p => .text p.name) (t.lookup "policy") p :=
    optional_eq_some fun v hv => named_eq_some (fun _ => Policy.ofName?_eq_some)
      fun entries hentries => plain entries (hentries ▸ hv)
  have hpriority (n : Int32) : optional 0 priority? (t.lookup "priority") = some n ↔
      Holds 0 (fun n => .integer n.toInt) (t.lookup "priority") n :=
    optional_eq_some fun _ _ => priority?_eq_some
  have hcpus (l : CpuList) : optional .none cpus? (t.lookup "cpus") = some l ↔
      Holds .none cpusValue (t.lookup "cpus") l :=
    optional_eq_some fun _ _ => cpus?_eq_some
  have hlock (b : Bool) : optional false boolean? (t.lookup "lock_memory") = some b ↔
      Holds false .boolean (t.lookup "lock_memory") b :=
    optional_eq_some fun _ _ => boolean?_eq_some
  simp only [fields?, Option.bind_eq_bind, Option.bind_eq_some_iff, Option.pure_def,
    Option.some.injEq]
  refine ⟨?_, fun h => ⟨_, (hpolicy _).2 h.policy, _, (hpriority _).2 h.priority, _,
    (hcpus _).2 h.cpus, _, (hlock _).2 h.lockMemory, rfl⟩⟩
  rintro ⟨p, hp, n, hn, l, hl, b, hb, rfl⟩
  exact ⟨(hpolicy p).1 hp, (hpriority n).1 hn, (hcpus l).1 hl, (hlock b).1 hb⟩

theorem grammar_iff : Grammar t ↔ (∀ entry ∈ t, entry.1 ∈ fieldNames) ∧ ∃ s, Told t s := by
  have hname {v : Value} := exists_name_iff Policy.name (v := v)
    (show ∀ p, p ∈ Policy.all by intro p; cases p <;> decide)
  refine ⟨fun h => ⟨h.known, ?_⟩, ?_⟩
  · obtain ⟨policy, hpolicy⟩ := exists_holds.2 fun v hv => hname.1 (h.policy v hv)
    obtain ⟨priority, hpriority⟩ := exists_holds.2 fun v hv =>
      exists_priority_iff.2 (h.priority v hv)
    obtain ⟨cpus, hcpus⟩ := exists_holds.2 fun v hv => exists_cpus_iff.2 (h.cpus v hv)
    obtain ⟨lockMemory, hlock⟩ := exists_holds.2 h.lockMemory
    exact ⟨⟨policy, priority, cpus, lockMemory⟩, hpolicy, hpriority, hcpus, hlock⟩
  · rintro ⟨known, s, h⟩
    exact ⟨known, fun v hv => hname.2 (exists_holds.1 ⟨_, h.policy⟩ v hv),
      fun v hv => exists_priority_iff.1 (exists_holds.1 ⟨_, h.priority⟩ v hv),
      fun v hv => exists_cpus_iff.1 (exists_holds.1 ⟨_, h.cpus⟩ v hv),
      exists_holds.1 ⟨_, h.lockMemory⟩⟩

theorem decode?_table (sound : Table.isSound t = true)
    (plain : ∀ entries, t.lookup "policy" ≠ some (.table entries)) :
    decode? (.table t) = some s ↔ Grammar t ∧ Told t s := by
  rw [decode?_table_eq sound, fields?_eq_some plain, grammar_iff]
  exact ⟨fun ⟨known, told⟩ => ⟨⟨known, s, told⟩, told⟩, fun ⟨⟨known, _⟩, told⟩ => ⟨known, told⟩⟩

/-- A value that is no table is no schedule, an array apart. -/
theorem decode?_eq_some {v : Value} (sound : v.isSound = true)
    (noArray : ∀ items, v ≠ .array items)
    (plain : ∀ inner entries, v = .table inner → inner.lookup "policy" ≠ some (.table entries)) :
    decode? v = some s ↔ ∃ inner, v = .table inner ∧ Grammar inner ∧ Told inner s := by
  cases v with
  | table inner =>
    rw [decode?_table sound fun entries => plain inner entries rfl]
    refine ⟨fun h => ⟨inner, rfl, h⟩, ?_⟩
    rintro ⟨_, ⟨⟩, h⟩
    exact h
  | array items => exact absurd rfl (noArray items)
  | text | integer | boolean | float | moment | misspelled =>
    exact iff_of_false nofun nofun

theorem encode_known (s : Schedule) :
    ∀ entry ∈ s.encode, entry.1 ∈ ["policy", "priority", "cpus", "lock_memory"] := by
  simp [encode]

theorem told_encode (s : Schedule) : Told s.encode s := ⟨rfl, rfl, rfl, rfl⟩

theorem grammar_encode (s : Schedule) : Grammar s.encode :=
  grammar_iff.2 ⟨s.encode_known, s, s.told_encode⟩

end Schedule

namespace SharedConfig

variable {t : Table} {c : SharedConfig}

theorem decode?_table (sound : Table.isSound t = true)
    (plain : ∀ entries, t.lookup "log_level" ≠ some (.table entries)) :
    decode? (.table t) = some c ↔ Told t c := by
  have hlevel (l : LogLevel) :
      optional default (fun v => name? v >>= LogLevel.ofName?) (t.lookup "log_level") = some l ↔
        Holds .info (fun l => .text l.name) (t.lookup "log_level") l :=
    optional_eq_some fun v hv => named_eq_some (fun _ => LogLevel.ofName?_eq_some)
      fun entries hentries => plain entries (hentries ▸ hv)
  rw [decode?, Config.fields?, if_pos sound]
  simp only [Option.bind_eq_bind, Option.bind_some, Option.bind_eq_some_iff, Option.pure_def]
  refine ⟨?_, fun h => ⟨c.logLevel, (hlevel _).2 h.logLevel, _, h.serviceName, rfl⟩⟩
  rintro ⟨l, hl, v, hv, hc⟩
  split at hc
  · cases hc
    exact ⟨(hlevel l).1 hl, hv⟩
  · cases hc

theorem grammar_iff : Grammar t ↔ ∃ c, Told t c := by
  have hname {v : Value} := exists_name_iff LogLevel.name (v := v)
    (show ∀ l, l ∈ LogLevel.all by intro l; cases l <;> decide)
  refine ⟨fun h => ?_, ?_⟩
  · obtain ⟨logLevel, hlevel⟩ := exists_holds.2 fun v hv => hname.1 (h.logLevel v hv)
    obtain ⟨serviceName, hservice⟩ := h.serviceName
    exact ⟨⟨logLevel, serviceName⟩, hlevel, hservice⟩
  · rintro ⟨c, h⟩
    exact ⟨fun v hv => hname.2 (exists_holds.1 ⟨_, h.logLevel⟩ v hv), _, h.serviceName⟩

theorem decode?_eq_some {v : Value} (sound : v.isSound = true)
    (noArray : ∀ items, v ≠ .array items)
    (plain : ∀ inner entries, v = .table inner → inner.lookup "log_level" ≠ some (.table entries)) :
    decode? v = some c ↔ ∃ inner, v = .table inner ∧ Told inner c := by
  cases v with
  | table inner =>
    rw [decode?_table sound fun entries => plain inner entries rfl]
    refine ⟨fun h => ⟨inner, rfl, h⟩, ?_⟩
    rintro ⟨_, ⟨⟩, h⟩
    exact h
  | array items => exact absurd rfl (noArray items)
  | text | integer | boolean | float | moment | misspelled =>
    exact iff_of_false nofun nofun

theorem told_encode (c : SharedConfig) : Told c.encode c := ⟨rfl, rfl⟩

/-- Only the two fields are looked at. -/
theorem Told.congr {t' : Table} (h : Told t c)
    (logLevel : t'.lookup "log_level" = t.lookup "log_level")
    (serviceName : t'.lookup "service_name" = t.lookup "service_name") : Told t' c :=
  ⟨logLevel ▸ h.logLevel, serviceName ▸ h.serviceName⟩

end SharedConfig

namespace RunnerConfig

variable {t t' : Table} {c : RunnerConfig}

theorem shared_eq_some (sound : Table.isSound t = true) (plain : Plain t) {d : SharedConfig} :
    (∃ v, t.lookup "shared" = some v ∧ SharedConfig.decode? v = some d) ↔
      ∃ inner, t.lookup "shared" = some (.table inner) ∧ SharedConfig.Told inner d := by
  have hdecode {v : Value} (hv : t.lookup "shared" = some v) :
      SharedConfig.decode? v = some d ↔ ∃ inner, v = .table inner ∧ SharedConfig.Told inner d :=
    SharedConfig.decode?_eq_some (Toml.isSound_of_lookup sound hv)
      (fun items hitems => plain.shared items (hitems ▸ hv))
      fun inner entries hinner => plain.logLevel inner entries (hinner ▸ hv)
  refine ⟨?_, fun ⟨inner, hv, told⟩ => ⟨_, hv, (hdecode hv).2 ⟨inner, rfl, told⟩⟩⟩
  rintro ⟨v, hv, hd⟩
  obtain ⟨inner, rfl, told⟩ := (hdecode hv).1 hd
  exact ⟨inner, hv, told⟩

theorem schedule_eq_some (sound : Table.isSound t = true) (plain : Plain t) {s : Schedule} :
    Config.optional {} Schedule.decode? (t.lookup "schedule") = some s ↔
      (t.lookup "schedule" = none ∧ s = .normal) ∨ ∃ inner,
        t.lookup "schedule" = some (.table inner) ∧ Schedule.Grammar inner ∧
          Schedule.Told inner s := by
  cases hv : t.lookup "schedule" with
  | none =>
    rw [Config.optional, Option.some.injEq]
    refine ⟨fun h => .inl ⟨rfl, h.symm⟩, ?_⟩
    rintro (⟨-, hs⟩ | ⟨_, hsome, -⟩)
    · exact hs.symm
    · cases hsome
  | some v =>
    rw [Config.optional, Schedule.decode?_eq_some (Toml.isSound_of_lookup sound hv)
      (fun items hitems => plain.schedule items (hitems ▸ hv))
      fun inner entries hinner => plain.policy inner entries (hinner ▸ hv)]
    simp

theorem decode?_eq_some (sound : Table.isSound t = true) (plain : Plain t) :
    decode? t = some c ↔ Grammar t ∧ Told t c := by
  have hothers := Toml.isSound_filter (fun entry => entry.1 ∉ fieldNames) sound
  have hdecode : decode? t = some c ↔
      (∃ v, t.lookup "shared" = some v ∧ SharedConfig.decode? v = some c.shared) ∧
        Config.optional {} Schedule.decode? (t.lookup "schedule") = some c.schedule := by
    simp only [decode?, hothers, Bool.not_true, Bool.false_eq_true, ↓reduceIte,
      Option.bind_eq_bind, Option.bind_eq_some_iff, Option.pure_def, Option.some.injEq]
    refine ⟨?_, fun ⟨⟨v, hv, hd⟩, hs⟩ => ⟨v, hv, _, hd, _, hs, rfl⟩⟩
    rintro ⟨v, hv, d, hd, s, hs, rfl⟩
    exact ⟨⟨v, hv, hd⟩, hs⟩
  rw [hdecode, shared_eq_some sound plain, schedule_eq_some sound plain]
  refine ⟨?_, ?_⟩
  · rintro ⟨⟨inner, hv, told⟩, hschedule⟩
    refine ⟨⟨⟨inner, hv, SharedConfig.grammar_iff.2 ⟨_, told⟩⟩, fun v hv' => ?_⟩,
      ⟨inner, hv, told⟩, hschedule.imp_right fun ⟨inner', hv', _, told'⟩ => ⟨inner', hv', told'⟩⟩
    obtain ⟨hnone, -⟩ | ⟨inner', hv'', grammar, -⟩ := hschedule
    · cases hnone.symm.trans hv'
    · cases hv''.symm.trans hv'
      exact ⟨inner', rfl, grammar⟩
  · rintro ⟨grammar, ⟨shared, hschedule⟩⟩
    refine ⟨shared, hschedule.imp_right ?_⟩
    rintro ⟨inner, hv, told⟩
    obtain ⟨_, ⟨⟩, hgrammar⟩ := grammar.schedule _ hv
    exact ⟨inner, hv, hgrammar, told⟩

theorem exists_told (h : Grammar t) : ∃ c, Told t c := by
  obtain ⟨inner, hv, grammar⟩ := h.shared
  obtain ⟨shared, told⟩ := SharedConfig.grammar_iff.1 grammar
  cases hschedule : t.lookup "schedule" with
  | none => exact ⟨⟨shared, .normal⟩, ⟨inner, hv, told⟩, .inl ⟨hschedule, rfl⟩⟩
  | some v =>
    obtain ⟨inner', rfl, grammar'⟩ := h.schedule v hschedule
    obtain ⟨-, schedule, told'⟩ := Schedule.grammar_iff.1 grammar'
    exact ⟨⟨shared, schedule⟩, ⟨inner, hv, told⟩, .inr ⟨inner', hschedule, told'⟩⟩

structure Alike (t t' : Table) : Prop where
  shared : t'.lookup "shared" = t.lookup "shared" ∨ ∃ inner inner',
    t.lookup "shared" = some (.table inner) ∧ t'.lookup "shared" = some (.table inner') ∧
      inner'.lookup "log_level" = inner.lookup "log_level" ∧
      inner'.lookup "service_name" = inner.lookup "service_name"
  schedule : t'.lookup "schedule" = t.lookup "schedule"

theorem Alike.symm (h : Alike t t') : Alike t' t := by
  refine ⟨h.shared.imp Eq.symm ?_, h.schedule.symm⟩
  rintro ⟨inner, inner', hv, hv', level, service⟩
  exact ⟨inner', inner, hv', hv, level.symm, service.symm⟩

theorem Alike.told (h : Alike t t') {d : SharedConfig}
    (told : ∃ inner, t.lookup "shared" = some (.table inner) ∧ SharedConfig.Told inner d) :
    ∃ inner, t'.lookup "shared" = some (.table inner) ∧ SharedConfig.Told inner d := by
  obtain ⟨inner, hv, told⟩ := told
  obtain hsame | ⟨inner₁, inner', hv₁, hv', level, service⟩ := h.shared
  · exact ⟨inner, hsame.trans hv, told⟩
  · cases hv.symm.trans hv₁
    exact ⟨inner', hv', told.congr level service⟩

theorem Plain.congr (plain : Plain t) (h : Alike t t') : Plain t' := by
  refine ⟨fun items hitems => ?_, fun items => h.schedule ▸ plain.schedule items,
    fun inner₂ entries hv₂ => ?_, fun inner entries => h.schedule ▸ plain.policy inner entries⟩
  · obtain hsame | ⟨_, _, -, hv', -⟩ := h.shared
    · exact plain.shared items (hsame ▸ hitems)
    · cases hv'.symm.trans hitems
  · obtain hsame | ⟨inner, inner', hv, hv', level, -⟩ := h.shared
    · exact plain.logLevel inner₂ entries (hsame ▸ hv₂)
    · cases hv'.symm.trans hv₂
      exact level ▸ plain.logLevel inner entries hv

theorem Told.congr (told : Told t c) (h : Alike t t') : Told t' c :=
  ⟨h.told told.shared, h.schedule ▸ told.schedule⟩

theorem Grammar.congr (grammar : Grammar t) (h : Alike t t') : Grammar t' := by
  refine ⟨?_, h.schedule ▸ grammar.schedule⟩
  obtain ⟨inner, hv, hgrammar⟩ := grammar.shared
  obtain ⟨d, told⟩ := SharedConfig.grammar_iff.1 hgrammar
  obtain ⟨inner', hv', told'⟩ := h.told ⟨inner, hv, told⟩
  exact ⟨inner', hv', SharedConfig.grammar_iff.2 ⟨d, told'⟩⟩

theorem decode?_congr (sound : Table.isSound t = true) (sound' : Table.isSound t' = true)
    (plain : Plain t) (h : Alike t t') : decode? t' = decode? t := by
  refine Option.ext fun c => ?_
  rw [decode?_eq_some sound plain, decode?_eq_some sound' (plain.congr h)]
  exact ⟨fun ⟨grammar, told⟩ => ⟨grammar.congr h.symm, told.congr h.symm⟩,
    fun ⟨grammar, told⟩ => ⟨grammar.congr h, told.congr h⟩⟩

end RunnerConfig

/-! Documents, and what is written for a configuration. -/

/-- The table that a document spells; one with a misspelled number spells none. -/
structure Toml.Spells (text : String) (t : Table) : Prop where
  read : parse? text = some t
  sound : Table.isSound t = true

namespace Toml

theorem areWritable_iff {items : List Value} :
    areWritable items = true ↔ ∀ item ∈ items, item.isWritable = true := by
  induction items with
  | nil => exact iff_of_true rfl nofun
  | cons item items ih => rw [areWritable, Bool.and_eq_true, ih, List.forall_mem_cons]

end Toml

theorem Config.parse_eq_ok {α : Type} {decode : Table → Option α} {text : String} {t : Table}
    {config : α} (read : Toml.parse? text = some t) :
    parse decode text = .ok config ↔ decode t = some config := by
  rw [parse, read, Option.bind_eq_bind, Option.bind_some]
  cases decode t with
  | none => exact iff_of_false nofun nofun
  | some config' => rw [Except.ok.injEq, Option.some.injEq]

theorem Config.parse_eq_malformed {α : Type} {decode : Table → Option α} {text : String} {t : Table}
    (read : Toml.parse? text = some t) (h : decode t = none) :
    parse decode text = .error .malformed := by
  rw [parse, read, Option.bind_eq_bind, Option.bind_some, h]

namespace RunnerConfig

variable {t t' : Table} {c : RunnerConfig} {text : String}

theorem isWritable_encode : Toml.Table.isWritable c.encode = true ↔
    ∀ cpu ∈ c.schedule.cpus.indices, cpu.toNat ≤ 9223372036854775807 := by
  have hlow : -9223372036854775808 ≤ c.schedule.priority.toInt :=
    Int.le_trans (by decide) c.schedule.priority.minValue_le_toInt
  have hhigh : c.schedule.priority.toInt ≤ 9223372036854775807 :=
    Int.le_trans c.schedule.priority.toInt_le (by decide)
  have hcpus :
      Toml.areWritable (c.schedule.cpus.indices.map fun cpu => .integer cpu.toNat) = true ↔
        ∀ cpu ∈ c.schedule.cpus.indices, cpu.toNat ≤ 9223372036854775807 := by
    rw [Toml.areWritable_iff, List.forall_mem_map]
    refine forall₂_congr fun cpu _ => ?_
    rw [Toml.Value.isWritable, Bool.and_eq_true, decide_eq_true_eq, decide_eq_true_eq]
    omega
  simp only [encode, SharedConfig.encode, Schedule.encode, Toml.Table.isWritable,
    Toml.Value.isWritable, hlow, hhigh, decide_true, Bool.true_and, Bool.and_true]
  exact hcpus

theorem isSound_encode (c : RunnerConfig) : Toml.Table.isSound c.encode = true := by
  have hcpus : Toml.areSound (c.schedule.cpus.indices.map fun cpu => .integer cpu.toNat) =
      true :=
    Toml.areSound_iff.2 (List.forall_mem_map.2 fun _ _ => rfl)
  simp only [encode, SharedConfig.encode, Schedule.encode, Toml.Table.isSound, Toml.Value.isSound,
    hcpus, Bool.and_self]

theorem Plain.of_tables {shared schedule : Table}
    (hshared : t.lookup "shared" = some (.table shared))
    (hschedule : t.lookup "schedule" = some (.table schedule))
    (level : ∀ entries, shared.lookup "log_level" ≠ some (.table entries))
    (policy : ∀ entries, schedule.lookup "policy" ≠ some (.table entries)) : Plain t := by
  refine ⟨?_, ?_, ?_, ?_⟩
  · intro items hitems
    cases hshared.symm.trans hitems
  · intro items hitems
    cases hschedule.symm.trans hitems
  · intro inner entries hinner
    cases hshared.symm.trans hinner
    exact level entries
  · intro inner entries hinner
    cases hschedule.symm.trans hinner
    exact policy entries

theorem plain_encode (c : RunnerConfig) : Plain c.encode :=
  .of_tables rfl rfl nofun nofun

theorem decode?_encode (c : RunnerConfig) : decode? c.encode = some c := by
  have told : Told c.encode c :=
    ⟨⟨c.shared.encode, rfl, c.shared.told_encode⟩,
      .inr ⟨c.schedule.encode, rfl, c.schedule.told_encode⟩⟩
  refine (decode?_eq_some c.isSound_encode c.plain_encode).2 ⟨⟨?_, ?_⟩, told⟩
  · exact ⟨c.shared.encode, rfl, SharedConfig.grammar_iff.2 ⟨_, c.shared.told_encode⟩⟩
  · rintro _ ⟨⟩
    exact ⟨c.schedule.encode, rfl, c.schedule.grammar_encode⟩

structure Understood (text : String) (t : Table) : Prop where
  accepted : (∃ c, Config.parse decode? text = .ok c) ↔ Grammar t
  told : ∀ c, Config.parse decode? text = .ok c → Told t c
  refused : ¬ Grammar t → Config.parse decode? text = .error .malformed
  /-- Other keys beside the records, or in the shared one, do not matter. -/
  alike : ∀ text' t', Toml.Spells text' t' → Alike t t' →
    Config.parse decode? text' = Config.parse decode? text
  strict : ∀ inner entry, t.lookup "schedule" = some (.table inner) → entry ∈ inner →
    entry.1 ∉ ["policy", "priority", "cpus", "lock_memory"] →
    Config.parse decode? text = .error .malformed

theorem understood (spells : Toml.Spells text t) (plain : Plain t) : Understood text t := by
  have hparse (c : RunnerConfig) : Config.parse decode? text = .ok c ↔ Grammar t ∧ Told t c :=
    (Config.parse_eq_ok spells.read).trans (decode?_eq_some spells.sound plain)
  have refused (h : ¬ Grammar t) : Config.parse decode? text = .error .malformed := by
    have hnone : decode? t = none := Option.eq_none_iff_forall_ne_some.2 fun c hc =>
      h ((decode?_eq_some spells.sound plain).1 hc).1
    exact Config.parse_eq_malformed spells.read hnone
  refine ⟨⟨fun ⟨c, hc⟩ => ((hparse c).1 hc).1, fun grammar => ?_⟩,
    fun c hc => ((hparse c).1 hc).2, refused, fun text' t' spells' alike => ?_,
    fun inner entry hschedule hentry unknown => refused fun grammar => ?_⟩
  · obtain ⟨c, told⟩ := exists_told grammar
    exact ⟨c, (hparse c).2 ⟨grammar, told⟩⟩
  · have hdecode := decode?_congr spells.sound spells'.sound plain alike
    simp only [Config.parse, spells.read, spells'.read, Option.bind_eq_bind, Option.bind_some,
      hdecode]
  · obtain ⟨_, ⟨⟩, hgrammar⟩ := grammar.schedule _ hschedule
    exact unknown (hgrammar.known entry hentry)

/-- What a configuration is written as, and whether it can be. -/
structure Restored (c : RunnerConfig) : Prop where
  written : (∃ t, c.written? = some t) ↔
    ∀ cpu ∈ c.schedule.cpus.indices, cpu.toNat ≤ 9223372036854775807
  restored : ∀ t, c.written? = some t → decode? t = some c

theorem written?_eq_some : c.written? = some t ↔
    (∀ cpu ∈ c.schedule.cpus.indices, cpu.toNat ≤ 9223372036854775807) ∧ c.encode = t := by
  rw [written?, ← isWritable_encode]
  split
  · rename_i writable
    rw [Option.some.injEq, and_iff_right writable]
  · rename_i unwritable
    exact iff_of_false nofun fun h => unwritable h.1

theorem restored (c : RunnerConfig) : Restored c where
  written := by simp only [written?_eq_some, exists_and_left, exists_eq', and_true]
  restored t h := by
    obtain ⟨-, rfl⟩ := written?_eq_some.1 h
    exact decode?_encode c

/-- Configurations are read by their grammar, and written so that they are read back. -/
theorem parse_byGrammar :
    (∀ text t, Toml.Spells text t → Plain t → Understood text t) ∧
      ∀ c : RunnerConfig, Restored c :=
  ⟨fun _ _ => understood, restored⟩

/-- A document with a key that is not known beside the service's name. -/
def document : String := "[shared]\nservice_name = \"x\"\nport = 1\n[schedule]\ncpus = [2]\n"

def documentTable : Table :=
  [("shared", .table [("service_name", .text "x"), ("port", .integer 1)]),
    ("schedule", .table [("cpus", .array [.integer 2])])]

theorem parse?_document : Toml.parse? document = some documentTable := by
  cbv

theorem plain_documentTable : Plain documentTable :=
  .of_tables rfl rfl nofun nofun

theorem parse_byGrammar_unknownKey : Toml.Spells document documentTable ∧ Plain documentTable ∧
    Understood document documentTable :=
  have spells : Toml.Spells document documentTable := ⟨parse?_document, rfl⟩
  ⟨spells, plain_documentTable,
    parse_byGrammar.1 document documentTable spells plain_documentTable⟩

end RunnerConfig

end Cadence
