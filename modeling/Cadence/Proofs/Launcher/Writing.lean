import Cadence.Proofs.Launcher.Words

/-!
Command lines as they are written for a request. Its options stand in any order and either spelling,
its CPUs behind one name or behind several, and the command behind a lone double dash. Reading the
words gives the request back, and no word behind the dashes is taken for an option.
-/

namespace Cadence.Launcher

inductive Value where
  | config (path : String)
  | policy (p : Policy)
  | priority (n : Int32)
  | cpus (part : List UInt64)

namespace Value

def setting : Value → Setting
  | config _ => .config
  | policy _ => .policy
  | priority _ => .priority
  | cpus _ => .cpus

def text : Value → String
  | config path => path
  | policy p => Request.policyText p
  | priority n => toString n
  | cpus part => Request.cpusText part

def Given : Value → Prop
  | config path => path ≠ ""
  | cpus part => part ≠ []
  | policy _ | priority _ => True

end Value

inductive Flag where
  | setting (v : Value) (apart : Bool)
  | lockMemory
  | verbose (short : Bool)
  | json

namespace Flag

def words : Flag → List String
  | setting v false => ["--" ++ v.setting.name ++ "=" ++ v.text]
  | setting v true => ["--" ++ v.setting.name, v.text]
  | lockMemory => ["--" ++ Switch.lockMemory.name]
  | verbose false => ["--" ++ Switch.verbose.name]
  | verbose true => ["-v"]
  | json => ["--" ++ Switch.json.name]

/-- A word of its own does not begin like an option. -/
def Legible : Flag → Prop
  | setting v apart => v.Given ∧ (apart = true → v.text.toList.head? ≠ some '-')
  | lockMemory | verbose _ | json => True

def path? : Flag → Option String
  | setting (.config path) _ => some path
  | _ => none

def policy? : Flag → Option Policy
  | setting (.policy p) _ => some p
  | _ => none

def priority? : Flag → Option Int32
  | setting (.priority n) _ => some n
  | _ => none

def cpus? : Flag → Option (List UInt64)
  | setting (.cpus part) _ => some part
  | _ => none

def switch? : Flag → Option Switch
  | setting .. => none
  | lockMemory => some .lockMemory
  | verbose _ => some .verbose
  | json => some .json

def put (r : Request) : Flag → Except UsageFault Request
  | setting v _ => r.set v.setting v.text
  | lockMemory => r.turnOn .lockMemory
  | verbose _ => r.turnOn .verbose
  | json => r.turnOn .json

end Flag

namespace Request

/-- The options say what `r` has and `sofar` has not, and nothing else. -/
structure Rest (flags : List Flag) (sofar r : Request) : Prop where
  config : sofar.config.toList ++ flags.filterMap Flag.path? = r.config.toList
  policy : sofar.policy.toList ++ flags.filterMap Flag.policy? = r.policy.toList
  priority : sofar.priority.toList ++ flags.filterMap Flag.priority? = r.priority.toList
  cpus : sofar.cpus.getD [] ++ (flags.filterMap Flag.cpus?).flatten = r.cpus.getD []
  lockMemory : sofar.lockMemory.toNat + (flags.filterMap Flag.switch?).count .lockMemory =
    r.lockMemory.toNat
  verbose : sofar.verbose.toNat + (flags.filterMap Flag.switch?).count .verbose = r.verbose.toNat
  json : sofar.json.toNat + (flags.filterMap Flag.switch?).count .json = r.json.toNat
  started : sofar.cpus ≠ some []

variable {flags : List Flag} {f : Flag} {sofar r : Request} {w : String}

theorem toList_append_cons {α : Type} {a b : Option α} {x : α} {xs : List α}
    (h : a.toList ++ x :: xs = b.toList) : a = none ∧ b = some x ∧ xs = [] := by
  cases a <;> cases b <;> simp_all

theorem toNat_add_count_cons {a b : Bool} {s : Switch} {more : List Switch}
    (h : a.toNat + (s :: more).count s = b.toNat) : a = false ∧ b = true ∧ more.count s = 0 := by
  rw [List.count_cons_self] at h
  cases a <;> cases b <;> simp_all

/-- The next option can be taken, and what is left to say is what the others say. -/
theorem Rest.put (h : Rest (f :: flags) sofar r) (legible : f.Legible) :
    ∃ next, f.put sofar = .ok next ∧ Rest flags next r := by
  cases f with
  | setting v apart =>
    have hgiven : v.Given := legible.1
    cases v with
    | config path =>
      obtain ⟨hnone, hsome, hlast⟩ := toList_append_cons h.config
      have hpath : path.isEmpty = false := by simpa [Value.Given] using hgiven
      refine ⟨{ sofar with config := path }, ?_, { h with config := ?_ }⟩
      · simp [Flag.put, Value.setting, Value.text, set, hnone, hpath]
      · rw [hlast, hsome]
        rfl
    | policy p =>
      obtain ⟨hnone, hsome, hlast⟩ := toList_append_cons h.policy
      refine ⟨{ sofar with policy := p }, ?_, { h with policy := ?_ }⟩
      · simp [Flag.put, Value.setting, Value.text, set, hnone, lookup_policyText]
      · rw [hlast, hsome]
        rfl
    | priority n =>
      obtain ⟨hnone, hsome, hlast⟩ := toList_append_cons h.priority
      refine ⟨{ sofar with priority := n }, ?_, { h with priority := ?_ }⟩
      · simp [Flag.put, Value.setting, Value.text, set, hnone, priority?_toString]
      · rw [hlast, hsome]
        rfl
    | cpus part =>
      have hpart : part ≠ [] := hgiven
      have hstarted : some (sofar.cpus.getD [] ++ part) ≠ some [] := by simp [hpart]
      refine ⟨{ sofar with cpus := sofar.cpus.getD [] ++ part }, ?_,
        { h with cpus := ?_, started := hstarted }⟩
      · simp [Flag.put, Value.setting, Value.text, set, mapM_cpusText hpart]
      · rw [← h.cpus, Option.getD_some, List.append_assoc]
        rfl
  | lockMemory =>
    obtain ⟨hoff, hon, hlast⟩ := toNat_add_count_cons h.lockMemory
    refine ⟨{ sofar with lockMemory := true }, ?_, { h with lockMemory := ?_ }⟩
    · simp [Flag.put, turnOn, hoff]
    · rw [hlast, hon]
      rfl
  | verbose short =>
    obtain ⟨hoff, hon, hlast⟩ := toNat_add_count_cons h.verbose
    refine ⟨{ sofar with verbose := true }, ?_, { h with verbose := ?_ }⟩
    · simp [Flag.put, turnOn, hoff]
    · rw [hlast, hon]
      rfl
  | json =>
    obtain ⟨hoff, hon, hlast⟩ := toNat_add_count_cons h.json
    refine ⟨{ sofar with json := true }, ?_, { h with json := ?_ }⟩
    · simp [Flag.put, turnOn, hoff]
    · rw [hlast, hon]
      rfl

theorem eq_of_toList {α : Type} {a b : Option α} (h : a.toList = b.toList) : a = b := by
  cases a <;> cases b <;> simp_all

theorem eq_of_toNat {a b : Bool} (h : a.toNat = b.toNat) : a = b := by
  cases a <;> cases b <;> simp_all

theorem Rest.eq_of_nil (h : Rest [] sofar r) (hlisted : r.cpus ≠ some []) :
    { sofar with command := r.command } = r := by
  have hconfig : sofar.config = r.config := eq_of_toList (by simpa using h.config)
  have hpolicy : sofar.policy = r.policy := eq_of_toList (by simpa using h.policy)
  have hpriority : sofar.priority = r.priority := eq_of_toList (by simpa using h.priority)
  have hcpus : sofar.cpus = r.cpus := by
    have hlists := h.cpus
    have hstarted := h.started
    cases hs : sofar.cpus <;> cases hr : r.cpus <;> simp_all
  have hlock : sofar.lockMemory = r.lockMemory := eq_of_toNat (by simpa using h.lockMemory)
  have hverbose : sofar.verbose = r.verbose := eq_of_toNat (by simpa using h.verbose)
  have hjson : sofar.json = r.json := eq_of_toNat (by simpa using h.json)
  rw [hconfig, hpolicy, hpriority, hcpus, hlock, hverbose, hjson]

/-! Reading what is written. -/

def Settling : Word → Prop
  | .setting .. | .switches _ | .separator => True
  | .attached | .other => False

theorem scan_of_settling (hw : Settling (.of w)) (r : Request) (named : Open) (ws : List String) :
    r.scan named (w :: ws) = r.settle named >>= fun r => r.scan none (w :: ws) := by
  unfold scan
  generalize Word.of w = word at hw ⊢
  cases word with
  | setting s value => cases value <;> cases r.settle named <;> rfl
  | switches | separator => cases r.settle named <;> rfl
  | attached | other => cases hw

theorem scan_switch {s : Switch} (hw : Word.of w = .switches [s]) (r : Request)
    (ws : List String) : r.scan none (w :: ws) = r.turnOn s >>= fun next => next.scan none ws := by
  simp only [scan, hw]
  change ((r.turnOn s >>= pure) >>= fun next => next.scan none ws) = _
  rw [bind_pure]

/-- An option has been taken in when the word behind it is read. -/
theorem scan_words (legible : f.Legible) (hw : Settling (.of w)) (r : Request) (ws : List String) :
    r.scan none (f.words ++ w :: ws) = f.put r >>= fun next => next.scan none (w :: ws) := by
  cases f with
  | setting v apart =>
    cases apart with
    | false =>
      change r.scan none (("--" ++ v.setting.name ++ "=" ++ v.text) :: w :: ws) = _
      simp only [scan, Word.of_assigned]
      rfl
    | true =>
      change r.scan none (("--" ++ v.setting.name) :: v.text :: w :: ws) = _
      simp only [scan, Word.of_name]
      change r.scan (some (v.setting, none)) (v.text :: w :: ws) = _
      simp only [scan, Word.of_other (legible.2 rfl)]
      exact scan_of_settling hw r _ ws
  | lockMemory => exact scan_switch (Word.of_switch .lockMemory) r _
  | verbose short =>
    cases short with
    | false => exact scan_switch (Word.of_switch .verbose) r _
    | true => exact scan_switch Word.of_verbose r _
  | json => exact scan_switch (Word.of_switch .json) r _

/-- The words of a command line: options, a double dash, and a command. -/
def written (flags : List Flag) (command : List String) : List String :=
  flags.flatMap Flag.words ++ "--" :: command

theorem settling_words (f : Flag) : ∃ w ws, f.words = w :: ws ∧ Settling (.of w) := by
  cases f with
  | setting v apart =>
    cases apart with
    | false => exact ⟨_, [], rfl, by rw [Word.of_assigned]; trivial⟩
    | true => exact ⟨_, [v.text], rfl, by rw [Word.of_name]; trivial⟩
  | lockMemory => exact ⟨_, [], rfl, by rw [Word.of_switch]; trivial⟩
  | verbose short =>
    cases short with
    | false => exact ⟨_, [], rfl, by rw [Word.of_switch]; trivial⟩
    | true => exact ⟨_, [], rfl, by rw [Word.of_verbose]; trivial⟩
  | json => exact ⟨_, [], rfl, by rw [Word.of_switch]; trivial⟩

theorem settling_written (flags : List Flag) (command : List String) :
    ∃ w ws, written flags command = w :: ws ∧ Settling (.of w) := by
  cases flags with
  | nil => exact ⟨"--", command, rfl, trivial⟩
  | cons f flags =>
    obtain ⟨w, ws, hwords, hw⟩ := settling_words f
    refine ⟨w, ws ++ written flags command, ?_, hw⟩
    simp [written, hwords]

/-- Behind any options that were taken in, those that are left lead to the request. -/
theorem scan_written (h : Rest flags sofar r) (legible : ∀ f ∈ flags, f.Legible)
    (hlisted : r.cpus ≠ some []) (hcommand : r.command ≠ []) :
    sofar.scan none (written flags r.command) = .ok r := by
  induction flags generalizing sofar with
  | nil =>
    have hsome : r.command.isEmpty = false := by simpa using hcommand
    change sofar.withCommand r.command = .ok r
    rw [withCommand, hsome, if_neg Bool.false_ne_true, h.eq_of_nil hlisted]
  | cons f flags ih =>
    obtain ⟨next, hput, hnext⟩ := h.put (legible f (.head _))
    obtain ⟨w, ws, hrest, hw⟩ := settling_written flags r.command
    have hwritten : written (f :: flags) r.command = f.words ++ w :: ws := by
      rw [← hrest]
      simp [written]
    rw [hwritten, scan_words (legible f (.head _)) hw, hput, ← hrest]
    exact ih hnext fun g hg => legible g (.tail _ hg)

def asFlags (r : Request) : List Flag :=
  (r.config.map fun path => .setting (.config path) false).toList ++
  (r.policy.map fun p => .setting (.policy p) false).toList ++
  (r.priority.map fun n => .setting (.priority n) false).toList ++
  (r.cpus.map fun cpus => .setting (.cpus cpus) false).toList ++
  (if r.lockMemory then some .lockMemory else none).toList ++
  (if r.verbose then some (.verbose false) else none).toList ++
  (if r.json then some .json else none).toList

/-- What is picked from the flags of a request, field by field. -/
theorem filterMap_asFlags {β : Type} (r : Request) (g : Flag → Option β) : r.asFlags.filterMap g =
    (r.config.bind fun path => g (.setting (.config path) false)).toList ++
    (r.policy.bind fun p => g (.setting (.policy p) false)).toList ++
    (r.priority.bind fun n => g (.setting (.priority n) false)).toList ++
    (r.cpus.bind fun cpus => g (.setting (.cpus cpus) false)).toList ++
    (if r.lockMemory then g .lockMemory else none).toList ++
    (if r.verbose then g (.verbose false) else none).toList ++
    (if r.json then g .json else none).toList := by
  have htoList (a : Option Flag) : a.toList.filterMap g = (a.bind g).toList := by
    cases a with
    | none => rfl
    | some f => cases h : g f <;> simp [h]
  have hite (b : Bool) (f : Flag) :
      (if b then some f else none : Option Flag).bind g = if b then g f else none := by
    cases b <;> rfl
  simp only [asFlags, List.filterMap_append, htoList, hite, Option.bind_map, Function.comp_def]

theorem rest_asFlags (r : Request) : Rest r.asFlags {} r where
  config := by simp [filterMap_asFlags, Flag.path?]
  policy := by simp [filterMap_asFlags, Flag.policy?]
  priority := by simp [filterMap_asFlags, Flag.priority?]
  cpus := by cases h : r.cpus <;> simp [filterMap_asFlags, Flag.cpus?, h]
  lockMemory := by
    rw [filterMap_asFlags]
    cases r.lockMemory <;> cases r.verbose <;> cases r.json <;> simp [Flag.switch?]
  verbose := by
    rw [filterMap_asFlags]
    cases r.lockMemory <;> cases r.verbose <;> cases r.json <;> simp [Flag.switch?]
  json := by
    rw [filterMap_asFlags]
    cases r.lockMemory <;> cases r.verbose <;> cases r.json <;> simp [Flag.switch?]
  started := nofun

theorem legible_asFlags (path : r.config ≠ some "") (listed : r.cpus ≠ some []) :
    ∀ f ∈ r.asFlags, f.Legible := by
  intro f hf
  simp only [asFlags, List.mem_append, Option.mem_toList, Option.map_eq_some_iff,
    Option.ite_none_right_eq_some, Option.some.injEq] at hf
  rcases hf with (((((⟨text, hconfig, rfl⟩ | ⟨p, -, rfl⟩) | ⟨n, -, rfl⟩) | ⟨cpus, hcpus, rfl⟩) |
    ⟨-, rfl⟩) | ⟨-, rfl⟩) | ⟨-, rfl⟩
  · exact ⟨fun h => path (h ▸ hconfig), nofun⟩
  · exact ⟨trivial, nofun⟩
  · exact ⟨trivial, nofun⟩
  · exact ⟨fun h => listed (h ▸ hcpus), nofun⟩
  all_goals exact trivial

/-- A request whose path and list are not empty can be written, and whichever way it is written, it is
what is read. The command may hold any words at all. -/
theorem parse_written (path : r.config ≠ some "") (listed : r.cpus ≠ some [])
    (command : r.command ≠ []) :
    (∃ flags, Rest flags {} r ∧ ∀ f ∈ flags, f.Legible) ∧
      ∀ flags, Rest flags {} r → (∀ f ∈ flags, f.Legible) →
        parse (written flags r.command) = .ok r :=
  ⟨⟨r.asFlags, rest_asFlags r, legible_asFlags path listed⟩,
    fun _ spells legible => scan_written spells legible listed command⟩

/-- A request for a command whose words all look like options. -/
def outspoken : Request where
  config := "rt=1.toml"
  policy := some .roundRobin
  priority := some (-5)
  cpus := some [3, 1, 2]
  lockMemory := true
  verbose := true
  command := ["--json", "--", "--cpus=9", "-v"]

/-- Its options out of order, in both spellings, and its CPUs in two parts. -/
def outspokenFlags : List Flag :=
  [.setting (.cpus [3]) true, .verbose true, .setting (.priority (-5)) false,
    .setting (.config "rt=1.toml") true, .lockMemory, .setting (.cpus [1, 2]) false,
    .setting (.policy .roundRobin) true]

theorem parse_written_outspoken :
    written outspokenFlags outspoken.command = ["--cpus", "3", "-v", "--priority=-5", "--config",
      "rt=1.toml", "--lock-memory", "--cpus=1,2", "--policy", "round-robin", "--", "--json", "--",
      "--cpus=9", "-v"] ∧
    parse (written outspokenFlags outspoken.command) = .ok outspoken := by
  have spells : Rest outspokenFlags {} outspoken :=
    ⟨rfl, rfl, rfl, rfl, rfl, rfl, rfl, nofun⟩
  have legible : ∀ f ∈ outspokenFlags, f.Legible := by
    have hcpus : (cpusText [3]).toList.head? ≠ some '-' := by decide +kernel
    have hpolicy : (policyText .roundRobin).toList.head? ≠ some '-' := by decide +kernel
    simp [outspokenFlags, Flag.Legible, Value.Given, Value.text, hcpus, hpolicy]
  refine ⟨by decide +kernel, ?_⟩
  exact (parse_written (by decide) (by decide) (by decide)).2 outspokenFlags spells legible

end Request

end Cadence.Launcher
