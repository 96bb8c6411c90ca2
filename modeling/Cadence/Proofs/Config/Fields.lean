import Cadence.Config.Decode
import Cadence.Config.Encode

/-!
What the fields of a configuration are read as. Each decoder takes exactly what is written for some
value, and says that value; a field that is left out is taken for its default.
-/

namespace Cadence

open Toml (Value Table)

namespace Toml

theorem isSound_iff {t : Table} : Table.isSound t = true ↔ ∀ entry ∈ t, entry.2.isSound = true := by
  induction t with
  | nil => exact iff_of_true rfl nofun
  | cons entry t ih => rw [Table.isSound, Bool.and_eq_true, ih, List.forall_mem_cons]

theorem areSound_iff {items : List Value} :
    areSound items = true ↔ ∀ item ∈ items, item.isSound = true := by
  induction items with
  | nil => exact iff_of_true rfl nofun
  | cons item items ih => rw [areSound, Bool.and_eq_true, ih, List.forall_mem_cons]

theorem isSound_of_lookup {t : Table} {name : String} {v : Value} (sound : Table.isSound t = true)
    (h : t.lookup name = some v) : v.isSound = true := by
  obtain ⟨before, after, rfl, -⟩ := List.lookup_eq_some_iff.1 h
  exact isSound_iff.1 sound (name, v) (List.mem_append_right _ (.head _))

theorem isSound_filter {t : Table} (keep : String × Value → Bool) (sound : Table.isSound t = true) :
    Table.isSound (t.filter keep) = true :=
  isSound_iff.2 fun entry h => isSound_iff.1 sound entry (List.mem_filter.1 h).1

end Toml

namespace Config

section

variable {α : Type} {write : α → Value} {decode : Value → Option α} {default a : α}
  {v : Value} {v? : Option Value}

/-- A field holds what is written for it, or its default if nothing is. -/
def Holds (default : α) (write : α → Value) (v? : Option Value) (a : α) : Prop :=
  v?.elim (a = default) (· = write a)

theorem optional_eq_some (h : ∀ v, v? = some v → (decode v = some a ↔ v = write a)) :
    optional default decode v? = some a ↔ Holds default write v? a := by
  cases v? with
  | none =>
    rw [optional, Option.some.injEq]
    exact eq_comm
  | some v => exact h v rfl

theorem exists_holds :
    (∃ a, Holds default write v? a) ↔ ∀ v, v? = some v → ∃ a, v = write a := by
  cases v? with
  | none => exact iff_of_true ⟨default, rfl⟩ nofun
  | some v =>
    refine ⟨fun h v' hv' => ?_, fun h => h v rfl⟩
    cases hv'
    exact h

end

section

variable {α : Type} {all : List α} {name : α → String} {s : String} {a : α} {v : Value}

theorem find?_name_eq_some (h : ∀ a, all.find? (name · == name a) = some a) :
    all.find? (name · == s) = some a ↔ s = name a := by
  refine ⟨fun hfind => ?_, ?_⟩
  · have hname := List.find?_some hfind
    exact (beq_iff_eq.1 hname).symm
  rintro rfl
  exact h a

/-- A name is a text, unless it is the one key of a table. -/
theorem named_eq_some {ofName? : String → Option α} (h : ∀ s, ofName? s = some a ↔ s = name a)
    (plain : ∀ entries, v ≠ .table entries) :
    (name? v >>= ofName?) = some a ↔ v = .text (name a) := by
  cases v with
  | text s => exact (h s).trans (Value.text.injEq .. ▸ Iff.rfl)
  | table entries => exact absurd rfl (plain entries)
  | integer | boolean | float | moment | misspelled | array =>
    exact iff_of_false nofun nofun

end

theorem boolean?_eq_some {v : Value} {b : Bool} : boolean? v = some b ↔ v = .boolean b := by
  cases v with
  | boolean b' => rw [boolean?, Option.some.injEq, Value.boolean.injEq]
  | text | integer | float | moment | misspelled | array | table => exact iff_of_false nofun nofun

theorem priority?_eq_some {v : Value} {n : Int32} :
    priority? v = some n ↔ v = .integer n.toInt := by
  cases v with
  | integer m =>
    rw [priority?, Value.integer.injEq]
    split
    · rename_i fits
      rw [Option.some.injEq, ← Int32.toInt_inj,
        Int32.toInt_ofInt_of_le fits.1 (Int.lt_add_one_of_le fits.2)]
    · rename_i outside
      refine iff_of_false nofun ?_
      rintro rfl
      exact outside ⟨n.minValue_le_toInt, n.toInt_le⟩
  | text | boolean | float | moment | misspelled | array | table =>
    exact iff_of_false nofun nofun

theorem cpu?_eq_some {v : Value} {cpu : UInt64} :
    cpu? v = some cpu ↔ v = .integer cpu.toNat := by
  cases v with
  | integer m =>
    rw [cpu?, Value.integer.injEq]
    split
    · rename_i fits
      have hlt : m.toNat < UInt64.size := by omega
      rw [Option.some.injEq, ← UInt64.toNat_inj, UInt64.toNat_ofNat_of_lt' hlt]
      omega
    · rename_i outside
      refine iff_of_false nofun ?_
      rintro rfl
      exact outside ⟨Int.natCast_nonneg _, Int.ofNat_lt.2 cpu.toNat_lt⟩
  | text | boolean | float | moment | misspelled | array | table =>
    exact iff_of_false nofun nofun

theorem mapM_eq_some {α : Type} {decode : Value → Option α} {write : α → Value}
    (h : ∀ v a, decode v = some a ↔ v = write a) {items : List Value} {as : List α} :
    items.mapM decode = some as ↔ items = as.map write := by
  induction items generalizing as with
  | nil => cases as <;> simp
  | cons item items ih =>
    simp only [List.mapM_cons, Option.bind_eq_bind, Option.bind_eq_some_iff, Option.pure_def,
      Option.some.injEq, h, ih]
    cases as with
    | nil => simp
    | cons a as => simp

def cpusValue (l : CpuList) : Value := .array (l.indices.map fun cpu => .integer cpu.toNat)

theorem cpus?_eq_some {v : Value} {l : CpuList} : cpus? v = some l ↔ v = cpusValue l := by
  cases v with
  | array items =>
    rw [cpus?, cpusValue, Value.array.injEq, Option.bind_eq_bind, Option.bind_eq_some_iff,
      ← mapM_eq_some fun _ _ => cpu?_eq_some]
    simp only [CpuList.ofList?_eq_some]
    exact ⟨fun ⟨_, h, e⟩ => e ▸ h, fun h => ⟨_, h, rfl⟩⟩
  | text | integer | boolean | float | moment | misspelled | table =>
    exact iff_of_false nofun nofun

/-! The values that something is read from, in numbers and words. -/

theorem exists_name_iff {α : Type} {all : List α} (name : α → String) (h : ∀ a, a ∈ all)
    {v : Value} : (∃ word ∈ all.map name, v = .text word) ↔ ∃ a, v = .text (name a) := by
  refine ⟨?_, fun ⟨a, ha⟩ => ⟨_, List.mem_map_of_mem (h a), ha⟩⟩
  rintro ⟨_, hword, hv⟩
  obtain ⟨a, -, rfl⟩ := List.mem_map.1 hword
  exact ⟨a, hv⟩

theorem exists_priority_iff {v : Value} : (∃ n : Int32, v = .integer n.toInt) ↔
    ∃ n : Int, v = .integer n ∧ -2147483648 ≤ n ∧ n ≤ 2147483647 := by
  refine ⟨fun ⟨n, hn⟩ => ⟨n.toInt, hn, n.minValue_le_toInt, n.toInt_le⟩, ?_⟩
  rintro ⟨n, rfl, low, high⟩
  exact ⟨.ofInt n, by rw [Int32.toInt_ofInt_of_le low (Int.lt_add_one_of_le high)]⟩

theorem exists_cpu_iff {v : Value} : (∃ cpu : UInt64, v = .integer cpu.toNat) ↔
    ∃ n : Int, v = .integer n ∧ 0 ≤ n ∧ n ≤ 18446744073709551615 := by
  refine ⟨fun ⟨cpu, hcpu⟩ => ⟨cpu.toNat, hcpu, Int.natCast_nonneg _,
    Int.le_of_lt_add_one (Int.ofNat_lt.2 cpu.toNat_lt)⟩, ?_⟩
  rintro ⟨n, rfl, low, high⟩
  have hlt : n.toNat < UInt64.size := by
    change n.toNat < 18446744073709551616
    omega
  exact ⟨.ofNat n.toNat, by rw [UInt64.toNat_ofNat_of_lt' hlt, Int.toNat_of_nonneg low]⟩

theorem exists_map_iff {α β : Type} {write : α → β} {items : List β} :
    (∃ as : List α, items = as.map write) ↔ ∀ item ∈ items, ∃ a, item = write a := by
  refine ⟨?_, fun h => ?_⟩
  · rintro ⟨as, rfl⟩ item hitem
    obtain ⟨a, -, rfl⟩ := List.mem_map.1 hitem
    exact ⟨a, rfl⟩
  · induction items with
    | nil => exact ⟨[], rfl⟩
    | cons item items ih =>
      rw [List.forall_mem_cons] at h
      obtain ⟨⟨a, rfl⟩, hrest⟩ := h
      obtain ⟨as, rfl⟩ := ih hrest
      exact ⟨a :: as, rfl⟩

theorem exists_cpus_iff {v : Value} : (∃ l, v = cpusValue l) ↔
    ∃ items, v = .array items ∧ items.length ≤ 64 ∧
      ∀ item ∈ items, ∃ n : Int, item = .integer n ∧ 0 ≤ n ∧ n ≤ 18446744073709551615 := by
  simp only [← exists_cpu_iff, ← exists_map_iff]
  refine ⟨?_, ?_⟩
  · rintro ⟨l, rfl⟩
    refine ⟨_, rfl, ?_, l.indices, rfl⟩
    rw [List.length_map]
    exact l.length_le
  · rintro ⟨_, rfl, short, cpus, rfl⟩
    rw [List.length_map] at short
    exact ⟨⟨cpus, short⟩, rfl⟩

end Config

namespace Policy

theorem ofName?_eq_some {s : String} {p : Policy} : ofName? s = some p ↔ s = p.name :=
  Config.find?_name_eq_some fun p => by cases p <;> rfl

end Policy

namespace LogLevel

theorem ofName?_eq_some {s : String} {l : LogLevel} : ofName? s = some l ↔ s = l.name :=
  Config.find?_name_eq_some fun l => by cases l <;> rfl

end LogLevel

end Cadence
