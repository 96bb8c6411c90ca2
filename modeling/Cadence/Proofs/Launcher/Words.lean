import Cadence.Launcher.Request
import Cadence.Proofs.Text.Numerals
import Mathlib.Data.List.TakeWhile

/-!
Single words of a command line: what a name means alone and with a value attached, and what the text of
a value is read as. The parts of a list come apart at the commas that joined them, since no number has
one.
-/

namespace Cadence.Launcher

/-! What one word means. -/

section

variable {w : String} {cs : List Char}

theorem bne_of_notMem (h : '=' ∉ cs) : ∀ c ∈ cs, (c != '=') = true := by
  intro c hc
  rw [bne_iff_ne]
  rintro rfl
  exact h hc

theorem splitAssignment_of_notMem (h : '=' ∉ cs) : splitAssignment cs = (.ofList cs, none) := by
  unfold splitAssignment
  rw [List.dropWhile_eq_nil_iff.2 (bne_of_notMem h)]

theorem splitAssignment_append (h : '=' ∉ cs) (value : List Char) :
    splitAssignment (cs ++ '=' :: value) = (.ofList cs, some (.ofList value)) := by
  unfold splitAssignment
  rw [List.dropWhile_append_of_pos (bne_of_notMem h),
    List.takeWhile_append_of_pos (bne_of_notMem h)]
  simp

namespace Setting

theorem find_name (s : Setting) : all.find? (·.name == s.name) = some s := by
  cases s <;> rfl

theorem notMem_name (s : Setting) : '=' ∉ s.name.toList := by
  cases s <;> decide

theorem name_ne_nil (s : Setting) : s.name.toList ≠ [] := by
  cases s <;> decide

end Setting

namespace Switch

theorem find_name (s : Switch) : all.find? (·.name == s.name) = some s := by
  cases s <;> rfl

/-- No switch has the name of a setting. -/
theorem find_setting (s : Switch) : Setting.all.find? (·.name == s.name) = none := by
  cases s <;> rfl

theorem notMem_name (s : Switch) : '=' ∉ s.name.toList := by
  cases s <;> decide

theorem name_ne_nil (s : Switch) : s.name.toList ≠ [] := by
  cases s <;> decide

end Switch

namespace Word

/-- With something behind them, two dashes begin a name. -/
theorem of_dashes (h : w.toList ≠ []) : of ("--" ++ w) = ofLong w.toList := by
  have hw : ("--" ++ w).toList = '-' :: '-' :: w.toList := String.toList_append
  unfold of
  rw [hw]
  cases hlist : w.toList with
  | nil => exact absurd hlist h
  | cons => rfl

theorem of_name (s : Setting) : of ("--" ++ s.name) = .setting s none := by
  rw [of_dashes s.name_ne_nil]
  unfold ofLong
  simp only [splitAssignment_of_notMem s.notMem_name, String.ofList_toList, s.find_name]

theorem of_switch (s : Switch) : of ("--" ++ s.name) = .switches [s] := by
  rw [of_dashes s.name_ne_nil]
  unfold ofLong
  simp only [splitAssignment_of_notMem s.notMem_name, String.ofList_toList, s.find_name,
    s.find_setting]

theorem of_assigned (s : Setting) (value : String) :
    of ("--" ++ s.name ++ "=" ++ value) = .setting s (some value) := by
  have hlist : (s.name ++ "=" ++ value).toList = s.name.toList ++ '=' :: value.toList := by
    simp [String.toList_append]
  have hassoc : "--" ++ s.name ++ "=" ++ value = "--" ++ (s.name ++ "=" ++ value) := by
    simp only [String.append_assoc]
  rw [hassoc, of_dashes (by simp [hlist]), hlist]
  unfold ofLong
  simp only [splitAssignment_append s.notMem_name, String.ofList_toList, s.find_name]

theorem of_verbose : of "-v" = .switches [.verbose] := by
  have hw : "-v".toList = ['-', 'v'] := rfl
  unfold of
  rw [hw]
  rfl

theorem of_other (h : w.toList.head? ≠ some '-') : of w = .other := by
  unfold of
  split
  · rename_i hw
    exact absurd (congrArg List.head? hw) h
  · rename_i hw
    exact absurd (congrArg List.head? hw) h
  · rename_i hw
    exact absurd (congrArg List.head? hw) h
  · rfl

end Word

end

/-! What one value is read as. -/

namespace Request

def policyText : Policy → String
  | .normal => "normal"
  | .fifo => "fifo"
  | .roundRobin => "round-robin"

theorem lookup_policyText (p : Policy) : policyNames.lookup (policyText p) = some p := by
  cases p <;> rfl

theorem priority?_toString (n : Int32) : priority? (toString n) = some n := by
  have hread : Text.integer? (toString n).toList = some n.toInt := Text.integer?_toString n.toInt
  have hlow : Int32.minValue.toInt ≤ n.toInt := n.minValue_le_toInt
  have hhigh : n.toInt ≤ Int32.maxValue.toInt := n.toInt_le
  unfold priority?
  rw [hread, Option.bind_eq_bind, Option.bind_some, if_pos ⟨hlow, hhigh⟩, Int32.ofInt_toInt]

theorem cpu?_toString (n : UInt64) : cpu? (toString n).toList = some n := by
  have hread : Text.count? (toString n).toList = some n.toNat := Text.count?_toString n.toNat
  unfold cpu?
  rw [hread]
  simp [n.toNat_lt]

theorem splitList_append {part : List Char} (h : ',' ∉ part) (cs : List Char) :
    splitList (part ++ ',' :: cs) = part :: splitList cs := by
  induction part with
  | nil => simp [splitList]
  | cons c part ih =>
    rw [List.mem_cons, not_or] at h
    obtain ⟨hc, hpart⟩ := h
    simp [splitList, ih hpart, Ne.symm hc]

theorem splitList_of_notMem {part : List Char} (h : ',' ∉ part) : splitList part = [part] := by
  induction part with
  | nil => rfl
  | cons c part ih =>
    rw [List.mem_cons, not_or] at h
    obtain ⟨hc, hpart⟩ := h
    simp [splitList, ih hpart, Ne.symm hc]

theorem splitList_intercalate {parts : List (List Char)} (hne : parts ≠ [])
    (h : ∀ part ∈ parts, ',' ∉ part) : splitList ([','].intercalate parts) = parts := by
  induction parts with
  | nil => exact absurd rfl hne
  | cons part parts ih =>
    have hpart := h part (.head _)
    cases parts with
    | nil => simpa [List.intercalate] using splitList_of_notMem hpart
    | cons next parts =>
      have hrest := ih (List.cons_ne_nil _ _) fun p hp => h p (.tail _ hp)
      rw [List.intercalate_cons_cons, List.append_assoc, List.singleton_append,
        splitList_append hpart, hrest]

theorem mapM_cpu?_toString (cpus : List UInt64) :
    (cpus.map fun n => (toString n).toList).mapM cpu? = some cpus := by
  induction cpus with
  | nil => rfl
  | cons n cpus ih => simp [List.mapM_cons, cpu?_toString, ih]

def cpusText (cpus : List UInt64) : String := ",".intercalate (cpus.map toString)

theorem mapM_cpusText {cpus : List UInt64} (hne : cpus ≠ []) :
    (splitList (cpusText cpus).toList).mapM cpu? = some cpus := by
  have hcomma : ∀ part ∈ (cpus.map toString).map String.toList, ',' ∉ part := by
    intro part hpart hmem
    obtain ⟨text, htext, rfl⟩ := List.mem_map.1 hpart
    obtain ⟨n, -, rfl⟩ := List.mem_map.1 htext
    have hdigit := Text.isDigit_of_mem_repr (n := n.toNat) hmem
    cases hdigit
  unfold cpusText
  rw [String.toList_intercalate]
  change (splitList ([','].intercalate _)).mapM cpu? = some cpus
  rw [splitList_intercalate (by simpa using hne) hcomma, List.map_map]
  exact mapM_cpu?_toString cpus

end Request

end Cadence.Launcher
