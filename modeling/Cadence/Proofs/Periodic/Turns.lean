import Cadence.Periodic.Lifecycle
import Cadence.Proofs.Periodic.Order
import Cadence.Proofs.Run

/-!
A periodic thread in the hands of its owner and its worker. Each move is one of ten turns; what holds
of a thread between any two of them says where the running flag, the report and the counts stand.
-/

namespace Cadence.PeriodicThread

variable {h : Host} {born : Machine} {met : Host → Machine → Prop} {t t' : PeriodicThread}
  {move : Move}

def FailedWith (w : Worker) (why : Fault) : Prop :=
  w.report = some (.error why) ∨
    w.report = none ∧ w.exit?.isSome = true ∧ why = .systemFailure "thread start" .unknown

theorem unset_of_failedWith {a : Assignment} {w : Worker} {why : Fault} (hs : w.Sound a met)
    (hgone : w.exit?.isSome = true) (hfailed : FailedWith w why) : .setup .returns ∉ w.events := by
  obtain ⟨exit, hexit⟩ := Option.isSome_iff_exists.1 hgone
  refine (hs.ended hexit).unset_of_report ?_
  rcases hfailed with hreport | ⟨hreport, -⟩
  · rw [hreport]
    exact nofun
  · rw [hreport]
    exact nofun

inductive Turn (h : Host) (born : Machine) (t : PeriodicThread) : Move → PeriodicThread → Prop
  | reject (duty : Duty) (unborn : Option (Option Int)) (e : Fault) (idle : t.owner = .idle)
      (refused : t.checkStart = .error e) :
      Turn h born t (.start duty unborn) { t with answer := some (.error e) }
  | unborn (duty : Duty) (raw? : Option Int) (idle : t.owner = .idle)
      (allowed : t.checkStart = .ok ()) :
      Turn h born t (.start duty (some raw?))
        { t.setRunning false with answer := some (.error (.ofCall "pthread_create" raw?)) }
  | spawn (duty : Duty) (idle : t.owner = .idle) (allowed : t.checkStart = .ok ()) :
      Turn h born t (.start duty none)
        { t.setRunning true with owner := .starting, worker := some { duty } }
  | halt (w : Worker) (idle : t.owner = .idle) (attached : t.worker = some w) :
      Turn h born t .stop { t.setRunning false with owner := .stopping }
  | rest (idle : t.owner = .idle) (free : t.worker = none) :
      Turn h born t .stop { t.setRunning false with answer := some (.ok ()) }
  | ready (w : Worker) (owner : t.owner = .starting) (attached : t.worker = some w)
      (report : w.report = some (.ok ())) :
      Turn h born t .resume { t with owner := .idle, answer := some (.ok ()) }
  | giveUp (w : Worker) (why : Fault) (owner : t.owner = .starting) (attached : t.worker = some w)
      (failed : FailedWith w why) : Turn h born t .resume (t.giveUp why)
  | failed (w : Worker) (why : Fault) (exit : Worker.Exit) (owner : t.owner = .failing why)
      (attached : t.worker = some w) (gone : w.exit? = some exit) :
      Turn h born t .resume (t.join w (.error why))
  | stopped (w : Worker) (exit : Worker.Exit) (owner : t.owner = .stopping)
      (attached : t.worker = some w) (gone : w.exit? = some exit) :
      Turn h born t .resume (t.join w exit.joined)
  | work (m : Moment) (w w' : Worker) (g : Gauges) (attached : t.worker = some w)
      (turn : w.Turn t.assignment h born m t.gauges g w') :
      Turn h born t (.work m) { t with gauges := g, worker := some w' }

theorem turn_of_resume (hresume : t.resume = some t') : t.Turn h born .resume t' := by
  unfold resume at hresume
  obtain ⟨w, attached, hresume⟩ := Option.bind_eq_some_iff.1 hresume
  split at hresume
  case h_1 => cases hresume
  case h_2 owner =>
    split at hresume
    case h_1 report => cases hresume; exact .ready w owner attached report
    case h_2 why report => cases hresume; exact .giveUp w why owner attached (.inl report)
    case h_3 exit report gone =>
      cases hresume
      exact .giveUp w _ owner attached (.inr ⟨report, by rw [gone]; rfl, rfl⟩)
    case h_4 => cases hresume
  case h_3 why owner =>
    obtain ⟨exit, gone, rfl⟩ := Option.map_eq_some_iff.1 hresume
    exact .failed w why exit owner attached gone
  case h_4 owner =>
    obtain ⟨exit, gone, rfl⟩ := Option.map_eq_some_iff.1 hresume
    exact .stopped w exit owner attached gone

theorem turn_of_fire (hfire : t.fire h born move = some t') : t.Turn h born move t' := by
  unfold fire at hfire
  cases move with
  | start duty unborn =>
    dsimp only at hfire
    split at hfire
    case isFalse => cases hfire
    case isTrue idle =>
      cases hfire
      unfold beginStart
      split
      case h_1 e refused => exact .reject duty _ e idle refused
      case h_2 raw? allowed => exact .unborn duty raw? idle allowed
      case h_3 allowed => exact .spawn duty idle allowed
  | stop =>
    dsimp only at hfire
    split at hfire
    case isFalse => cases hfire
    case isTrue idle =>
      cases hfire
      unfold beginStop
      dsimp only
      cases attached : t.worker with
      | none =>
        rw [if_neg (by simp [setRunning, attached])]
        exact .rest idle attached
      | some w =>
        rw [if_pos (by simp [setRunning, attached])]
        exact .halt w idle attached
  | resume => exact turn_of_resume hfire
  | work m =>
    obtain ⟨w, attached, hfire⟩ := Option.bind_eq_some_iff.1 hfire
    obtain ⟨⟨g, w'⟩, hstep, hfire⟩ := Option.bind_eq_some_iff.1 hfire
    cases hfire
    exact .work m w w' g attached (Worker.turn_of_step hstep)

/-- A thread with a worker starts no other. -/
theorem worker_of_checkStart (allowed : t.checkStart = .ok ()) : t.worker = none := by
  cases attached : t.worker with
  | none => rfl
  | some w =>
    have hrefused : ∃ e, t.checkStart = .error e := by
      unfold checkStart
      rw [attached]
      by_cases hzero : t.assignment.interval = 0
      · rw [if_pos hzero]
        exact ⟨_, rfl⟩
      · rw [if_neg hzero]
        cases Pacer.intervalOf t.assignment.interval with
        | error e => exact ⟨e, rfl⟩
        | ok =>
          by_cases hnul : '\x00' ∈ t.name.chars
          · simp only [hnul]
            exact ⟨_, rfl⟩
          · simp only [hnul]
            exact ⟨_, rfl⟩
    obtain ⟨e, he⟩ := hrefused
    rw [he] at allowed
    cases allowed

def completed (t : PeriodicThread) : Nat :=
  (t.workers.flatMap Worker.events).count (.process .returns)

/-- What the attached worker, if there is one, still owes to a count. -/
def owed (debt : Worker.Stage → Nat) (t : PeriodicThread) : Nat :=
  match t.worker with
  | some w => debt w.stage
  | none => 0

/-- The words count, modulo their size, what has come back so far, over all starts. -/
structure Reckoned (t : PeriodicThread) (done late : Nat) : Prop where
  cycles : t.gauges.cycles = .ofNat done
  overruns : t.gauges.overruns = .ofNat late
  done_add : done + owed Worker.Stage.owesCycle t = t.completed
  late_add : late + owed Worker.Stage.owesOverrun t ≤ done

/-- The flag stands as long as the owner wants its worker to run and the worker has not left. -/
def Wanted (t : PeriodicThread) : Prop :=
  ∃ w, t.worker = some w ∧ w.exit? = none ∧ (t.owner = .idle ∨ t.owner = .starting)

/-- What holds between any two moves of a thread that was described as `fresh`. -/
structure Orderly (met : Host → Machine → Prop) (fresh t : PeriodicThread) : Prop where
  assignment : t.assignment = fresh.assignment
  name : t.name = fresh.name
  sound : ∀ w ∈ t.workers, w.Sound t.assignment met
  truthful : ∀ w ∈ t.workers, w.Truthful
  gone : ∀ w ∈ t.joined, w.exit?.isSome = true
  attached : t.owner ≠ .idle → t.worker.isSome = true
  running : t.isRunning = true ↔ t.Wanted
  ready : t.owner = .idle ∨ t.owner = .stopping → ∀ w, t.worker = some w → w.report = some (.ok ())
  failing : ∀ why w, t.owner = .failing why → t.worker = some w → FailedWith w why
  reckoned : ∃ done late, t.Reckoned done late

variable {fresh : PeriodicThread}

theorem mem_workers {w : Worker} : w ∈ t.workers ↔ t.worker = some w ∨ w ∈ t.joined := by
  unfold workers
  rw [List.mem_append, Option.mem_toList]

theorem workers_join {w : Worker} (attached : t.worker = some w) (answer : Except Fault Unit) :
    (t.join w answer).workers = t.workers := by
  simp [workers, join, attached]

theorem completed_of_attached {w : Worker} (attached : t.worker = some w) :
    t.completed = w.completed + (t.joined.flatMap Worker.events).count (.process .returns) := by
  simp [completed, workers, attached, Worker.completed, List.count_append]

theorem same_turn (turn : t.Turn h born move t') :
    t'.assignment = t.assignment ∧ t'.name = t.name := by
  cases turn <;> exact ⟨rfl, rfl⟩

/-- What holds of new workers and is kept by their steps holds of all. -/
theorem workers_turn {P : Worker → Prop} (hp : ∀ w ∈ t.workers, P w)
    (hnew : ∀ duty : Duty, P { duty })
    (hstep : ∀ w m g w', P w → w.Turn t.assignment h born m t.gauges g w' → P w')
    (turn : t.Turn h born move t') : ∀ w ∈ t'.workers, P w := by
  cases turn with
  | spawn duty =>
    intro w hmem
    rcases mem_workers.1 hmem with hw | hmem
    · cases hw
      exact hnew duty
    · exact hp w (mem_workers.2 (.inr hmem))
  | failed w _ _ _ attached | stopped w _ _ attached =>
    rw [workers_join attached]
    exact hp
  | work m w w' g attached turn =>
    intro w'' hmem
    rcases mem_workers.1 hmem with hw | hmem
    · cases hw
      exact hstep w m g w' (hp w (mem_workers.2 (.inl attached))) turn
    · exact hp w'' (mem_workers.2 (.inr hmem))
  | _ => exact hp

theorem sound_turn (hsound : ∀ w ∈ t.workers, w.Sound t.assignment met) (hmet : met h born)
    (turn : t.Turn h born move t') : ∀ w ∈ t'.workers, w.Sound t'.assignment met := by
  rw [(same_turn turn).1]
  exact workers_turn hsound (fun _ => .fresh)
    (fun _ _ _ _ hs turn => Worker.sound_turn hs hmet turn) turn

theorem truthful_turn (htruthful : ∀ w ∈ t.workers, w.Truthful)
    (turn : t.Turn h born move t') : ∀ w ∈ t'.workers, w.Truthful :=
  workers_turn htruthful (fun _ => ⟨rfl, trivial⟩)
    (fun _ _ _ _ hw turn => Worker.truthful_turn hw turn) turn

theorem gone_turn (hgone : ∀ w ∈ t.joined, w.exit?.isSome = true) (turn : t.Turn h born move t') :
    ∀ w ∈ t'.joined, w.exit?.isSome = true := by
  cases turn with
  | failed w _ _ _ _ gone | stopped w _ _ _ gone =>
    intro w' hmem
    rcases List.mem_cons.1 hmem with rfl | hmem
    · rw [gone]
      rfl
    · exact hgone w' hmem
  | _ => exact hgone

theorem attached_turn (hattached : t.owner ≠ .idle → t.worker.isSome = true)
    (turn : t.Turn h born move t') : t'.owner ≠ .idle → t'.worker.isSome = true := by
  intro hbusy
  cases turn with
  | reject | unborn | rest => exact hattached hbusy
  | spawn | work => rfl
  | halt w _ attached | giveUp w _ _ attached =>
    change t.worker.isSome = true
    rw [attached]
    rfl
  | ready | failed | stopped => exact absurd rfl hbusy

theorem running_turn (hrunning : t.isRunning = true ↔ t.Wanted) (turn : t.Turn h born move t') :
    t'.isRunning = true ↔ t'.Wanted := by
  cases turn with
  | reject => exact hrunning
  | unborn _ _ _ allowed =>
    refine ⟨nofun, ?_⟩
    rintro ⟨w, hw, -⟩
    exact nomatch (worker_of_checkStart allowed).symm.trans hw
  | spawn => exact ⟨fun _ => ⟨_, rfl, rfl, .inr rfl⟩, fun _ => rfl⟩
  | halt | giveUp =>
    refine ⟨nofun, ?_⟩
    rintro ⟨w, -, -, howner | howner⟩ <;> cases howner
  | rest _ free =>
    refine ⟨nofun, ?_⟩
    rintro ⟨w, hw, -⟩
    exact nomatch free.symm.trans hw
  | ready w owner =>
    refine hrunning.trans ⟨?_, ?_⟩
    · rintro ⟨w, hw, halive, -⟩
      exact ⟨w, hw, halive, .inl rfl⟩
    · rintro ⟨w, hw, halive, -⟩
      exact ⟨w, hw, halive, .inr owner⟩
  | failed w why exit owner | stopped w exit owner =>
    refine ⟨fun hr => ?_, ?_⟩
    · obtain ⟨_, -, -, howner⟩ := hrunning.1 hr
      rw [owner] at howner
      rcases howner with howner | howner <;> cases howner
    · rintro ⟨w, hw, -⟩
      cases hw
  | work m w w' g attached turn =>
    have halive := Worker.exit?_of_turn turn
    rcases Worker.running_turn turn with ⟨hsame, halive'⟩ | ⟨hoff, hgone⟩
    · change g.running = true ↔ _
      rw [hsame]
      refine hrunning.trans ⟨?_, ?_⟩
      · rintro ⟨_, -, -, howner⟩
        exact ⟨w', rfl, halive', howner⟩
      · rintro ⟨_, -, -, howner⟩
        exact ⟨w, attached, halive, howner⟩
    · change g.running = true ↔ _
      rw [hoff]
      refine ⟨nofun, ?_⟩
      rintro ⟨_, hw, halive', -⟩
      cases hw
      rw [halive'] at hgone
      cases hgone

theorem ready_turn (hsound : ∀ w ∈ t.workers, w.Sound t.assignment met)
    (hready : t.owner = .idle ∨ t.owner = .stopping →
      ∀ w, t.worker = some w → w.report = some (.ok ()))
    (turn : t.Turn h born move t') : t'.owner = .idle ∨ t'.owner = .stopping →
      ∀ w, t'.worker = some w → w.report = some (.ok ()) := by
  intro howner w' hw'
  cases turn with
  | reject _ _ _ idle | unborn _ _ idle | halt _ idle | rest idle => exact hready (.inl idle) w' hw'
  | spawn | giveUp => rcases howner with howner | howner <;> cases howner
  | ready w _ attached report =>
    cases attached.symm.trans hw'
    exact report
  | failed | stopped => cases hw'
  | work m w _ g attached turn =>
    cases hw'
    exact Worker.report_turn (hsound w (mem_workers.2 (.inl attached))) turn
      (hready howner w attached)

theorem failing_turn (hsound : ∀ w ∈ t.workers, w.Sound t.assignment met)
    (hfailing : ∀ why w, t.owner = .failing why → t.worker = some w → FailedWith w why)
    (turn : t.Turn h born move t') :
    ∀ why w, t'.owner = .failing why → t'.worker = some w → FailedWith w why := by
  intro why w' howner hw'
  cases turn with
  | reject | unborn | rest => exact hfailing why w' howner hw'
  | spawn | halt | ready | failed | stopped => cases howner
  | giveUp w why' _ attached failed =>
    cases howner
    cases attached.symm.trans hw'
    exact failed
  | work m w _ g attached turn =>
    cases hw'
    rcases hfailing why w howner attached with hreport | ⟨-, hgone, -⟩
    · exact .inl (Worker.report_turn (hsound w (mem_workers.2 (.inl attached))) turn hreport)
    · rw [Worker.exit?_of_turn turn] at hgone
      cases hgone

theorem owed_eq_zero_of_gone {w : Worker} (attached : t.worker = some w) {exit : Worker.Exit}
    (hgone : w.exit? = some exit) :
    owed Worker.Stage.owesCycle t = 0 ∧ owed Worker.Stage.owesOverrun t = 0 := by
  unfold owed
  rw [attached]
  dsimp only
  rw [Worker.gone_of_exit? hgone]
  exact ⟨rfl, rfl⟩

theorem reckoned_turn {done late : Nat} (hr : t.Reckoned done late)
    (turn : t.Turn h born move t') : ∃ done late, t'.Reckoned done late := by
  obtain ⟨hcycles, hoverruns, hdone, hlate⟩ := hr
  cases turn with
  | reject | unborn | halt | rest | ready | giveUp =>
    exact ⟨done, late, hcycles, hoverruns, hdone, hlate⟩
  | spawn duty _ allowed =>
    have hfree := worker_of_checkStart allowed
    refine ⟨done, late, hcycles, hoverruns, ?_, ?_⟩
    · simpa [owed, completed, workers, setRunning, hfree, Worker.Stage.owesCycle] using hdone
    · simpa [owed, hfree, Worker.Stage.owesOverrun] using hlate
  | failed w _ _ _ attached gone | stopped w _ _ attached gone =>
    obtain ⟨hnoCycle, hnoOverrun⟩ := owed_eq_zero_of_gone attached gone
    refine ⟨done, late, hcycles, hoverruns, ?_, ?_⟩
    · unfold completed
      rw [workers_join attached]
      rw [hnoCycle] at hdone
      exact hdone
    · rw [hnoOverrun] at hlate
      exact hlate
  | work m w w' g attached turn =>
    obtain ⟨cycles, overruns, hc, ho, hcount, hdebt⟩ := Worker.tally_turn turn
    refine ⟨done + cycles, late + overruns, ?_, ?_, ?_, ?_⟩
    · change g.cycles = _
      rw [hc, hcycles, UInt64.ofNat_add]
    · change g.overruns = _
      rw [ho, hoverruns, UInt64.ofNat_add]
    · rw [completed_of_attached attached] at hdone
      rw [completed_of_attached rfl]
      simp only [owed, attached] at hdone ⊢
      omega
    · simp only [owed, attached] at hlate ⊢
      omega

theorem orderly_turn (ho : Orderly met fresh t) (hmet : met h born)
    (turn : t.Turn h born move t') : Orderly met fresh t' := by
  obtain ⟨hassignment, hname⟩ := same_turn turn
  obtain ⟨done, late, hreckoned⟩ := ho.reckoned
  exact {
    assignment := hassignment.trans ho.assignment
    name := hname.trans ho.name
    sound := sound_turn ho.sound hmet turn
    truthful := truthful_turn ho.truthful turn
    gone := gone_turn ho.gone turn
    attached := attached_turn ho.attached turn
    running := running_turn ho.running turn
    ready := ready_turn ho.sound ho.ready turn
    failing := failing_turn ho.sound ho.failing turn
    reckoned := reckoned_turn hreckoned turn }

theorem Orderly.mono {met' : Host → Machine → Prop} (ho : Orderly met fresh t)
    (hmet : ∀ h born, met h born → met' h born) : Orderly met' fresh t where
  assignment := ho.assignment
  name := ho.name
  sound w hmem := Worker.Course.mono (ho.sound w hmem) hmet
  truthful := ho.truthful
  gone := ho.gone
  attached := ho.attached
  running := ho.running
  ready := ho.ready
  failing := ho.failing
  reckoned := ho.reckoned

theorem orderly_ofName (met : Host → Machine → Prop) (name : String) (interval : Nat)
    (schedule : Option Schedule) :
    Orderly met (ofName name interval schedule) (ofName name interval schedule) where
  assignment := rfl
  name := rfl
  sound := by simp [workers, ofName]
  truthful := by simp [workers, ofName]
  gone := by simp [ofName]
  attached := by simp [ofName]
  running := by simp [isRunning, Wanted, ofName]
  ready := by simp [ofName]
  failing := by simp [ofName]
  reckoned := ⟨0, 0, rfl, rfl, rfl, Nat.le_refl 0⟩

/-! ### Runs through changing surroundings -/

/-- A move, with the host that it is made on and what a new worker finds itself to be. -/
structure Act where
  host : Host
  born : Machine
  move : Move

def act (t : PeriodicThread) (a : Act) : Option PeriodicThread := t.fire a.host a.born a.move

/-- A run in which no move has to find the host as the move before it did. -/
def runAmid (t : PeriodicThread) (acts : List Act) : Option PeriodicThread := acts.foldlM act t

/-- What new workers could meet in the course of a run. -/
def Met (acts : List Act) (h : Host) (born : Machine) : Prop :=
  ∃ a ∈ acts, a.host = h ∧ a.born = born

theorem orderly_runAmid {acts : List Act} (ho : Orderly met fresh t)
    (hmet : ∀ h born, Met acts h born → met h born) (hrun : t.runAmid acts = some t') :
    Orderly met fresh t' :=
  run_keeps_of_mem (fun a ha _ _ ho hact =>
    orderly_turn ho (hmet _ _ ⟨a, ha, rfl, rfl⟩) (turn_of_fire hact)) ho hrun

end Cadence.PeriodicThread
