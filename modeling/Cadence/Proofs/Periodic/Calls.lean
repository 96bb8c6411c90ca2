import Cadence.Proofs.Periodic.LoopEnds
import Cadence.Scheduling.Linux

/-!
The calls of an owner as wholes, with the worker moving in between. A start that does not succeed leaves
nothing behind; a stop waits for the worker, hands on what ended its loop, and leaves a thread that can
be started like a new one. A drop is a stop.
-/

namespace Cadence

def Moment.calm : Moment := { reading := .ok { seconds := 0, nanos := 0 } }

namespace PeriodicThread

variable {h : Host} {born : Machine} {met : Host → Machine → Prop}
  {fresh t t₁ t' : PeriodicThread} {move : Move} {acts : List Act}

/-- From within a call of the owner up to its return, by moves of either party. -/
inductive Call : PeriodicThread → List Act → PeriodicThread → Prop
  | back {t : PeriodicThread} (idle : t.owner = .idle) : Call t [] t
  | wait {t t₁ t' : PeriodicThread} {a : Act} {acts : List Act} (busy : t.owner ≠ .idle)
      (fires : t.act a = some t₁) (rest : Call t₁ acts t') : Call t (a :: acts) t'

theorem Call.owner_eq (hcall : Call t acts t') : t'.owner = .idle := by
  induction hcall with
  | back idle => exact idle
  | wait _ _ _ ih => exact ih

/-- What each move within a call keeps, the call keeps. -/
theorem Call.keeps {P : PeriodicThread → Prop} (hcall : Call t acts t')
    (hstep : ∀ s h born move s', P s → s.owner ≠ .idle → s.Turn h born move s' → P s')
    (hp : P t) : P t' := by
  induction hcall with
  | back => exact hp
  | wait busy fires _ ih => exact ih (hstep _ _ _ _ _ hp busy (turn_of_fire fires))

theorem Call.runAmid_eq (hcall : Call t acts t') : t.runAmid acts = some t' := by
  induction hcall with
  | back => rfl
  | wait _ fires _ ih => exact foldlM_cons_eq_some.2 ⟨_, fires, ih⟩

/-- What holds of a state whatever was met holds after the call. -/
theorem Call.orderly (hcall : Call t acts t') (ho : Orderly (fun _ _ => True) fresh t) :
    Orderly (fun _ _ => True) fresh t' :=
  hcall.keeps (fun _ _ _ _ _ ho _ turn => orderly_turn ho trivial turn) ho

/-- How a start of `duty` comes back. `unborn` tells whether the system made a new thread. -/
inductive Started (t : PeriodicThread) (duty : Duty) (unborn : Option (Option Int)) :
    PeriodicThread → Prop
  | rejected (e : Fault) (cause : t.checkStart = .error e ∨
      ∃ raw?, unborn = some raw? ∧ e = .ofCall "pthread_create" raw?) :
      Started t duty unborn { t with answer := some (.error e) }
  | failed {t' : PeriodicThread} (w : Worker) (why : Fault) (free : t.worker = none)
      (left : t'.worker = none) (quiet : t'.isRunning = false) (joined : t'.joined = w :: t.joined)
      (given : w.duty = duty) (cause : FailedWith w why) (unset : .setup .returns ∉ w.events)
      (answer : t'.answer = some (.error why)) : Started t duty unborn t'
  | ready {t' : PeriodicThread} (w : Worker) (free : t.worker = none)
      (attached : t'.worker = some w) (joined : t'.joined = t.joined) (given : w.duty = duty)
      (set : .setup .returns ∈ w.events) (answer : t'.answer = some (.ok ())) :
      Started t duty unborn t'

/-- How a stop comes back, if `ended` is what ended the attached worker's loop beside its calls. -/
inductive Stopped (ended : List (Except Fault Unit)) (t : PeriodicThread) : PeriodicThread → Prop
  | rested (free : t.worker = none) : Stopped ended t { t with answer := some (.ok ()) }
  | joined {t' : PeriodicThread} (w w' : Worker) (result : Except Fault Unit)
      (attached : t.worker = some w) (joined : t'.joined = w' :: t.joined)
      (given : w'.duty = w.duty) (history : w.events <:+ w'.events)
      (outcome : Worker.Outcome ended w'.events result) (answer : t'.answer = some result) :
      Stopped ended t t'

/-- How far a start has come for which there is a new worker. -/
inductive Starting (t : PeriodicThread) (duty : Duty) (t' : PeriodicThread) : Prop
  | underway (w : Worker) (owner : t'.owner = .starting ∨ ∃ why, t'.owner = .failing why)
      (attached : t'.worker = some w) (joined : t'.joined = t.joined) (given : w.duty = duty)
  | failed (w : Worker) (why : Fault) (owner : t'.owner = .idle) (left : t'.worker = none)
      (joined : t'.joined = w :: t.joined) (given : w.duty = duty) (cause : FailedWith w why)
      (answer : t'.answer = some (.error why))
  | ready (w : Worker) (owner : t'.owner = .idle) (attached : t'.worker = some w)
      (joined : t'.joined = t.joined) (given : w.duty = duty) (report : w.report = some (.ok ()))
      (answer : t'.answer = some (.ok ()))

theorem starting_turn {duty : Duty} (ho : Orderly met fresh t₁) (hs : Starting t duty t₁)
    (busy : t₁.owner ≠ .idle) (turn : t₁.Turn h born move t') : Starting t duty t' := by
  cases hs with
  | failed _ _ owner | ready _ owner => exact absurd owner busy
  | underway w owner attached joined given =>
    cases turn with
    | reject _ _ _ idle | unborn _ _ idle | spawn _ idle | halt _ idle | rest idle =>
      exact absurd idle busy
    | ready w' _ attached' report =>
      cases attached.symm.trans attached'
      exact .ready w rfl attached joined given report rfl
    | giveUp w' why => exact .underway w (.inr ⟨why, rfl⟩) attached joined given
    | failed w' why exit owner' attached' =>
      cases attached.symm.trans attached'
      have hcause := ho.failing why w owner' attached
      exact .failed w why rfl rfl (congrArg (w :: ·) joined) given hcause rfl
    | stopped _ _ owner' =>
      rw [owner'] at owner
      rcases owner with howner | ⟨why, howner⟩ <;> cases howner
    | work m w' w'' g attached' turn =>
      cases attached.symm.trans attached'
      exact .underway w'' owner rfl joined ((Worker.duty_turn turn).trans given)

inductive Stopping (t : PeriodicThread) (w : Worker) (t' : PeriodicThread) : Prop
  | underway (w' : Worker) (owner : t'.owner = .stopping) (attached : t'.worker = some w')
      (joined : t'.joined = t.joined) (given : w'.duty = w.duty) (history : w.events <:+ w'.events)
  | stopped (w' : Worker) (exit : Worker.Exit) (owner : t'.owner = .idle) (left : t'.worker = none)
      (joined : t'.joined = w' :: t.joined) (given : w'.duty = w.duty)
      (history : w.events <:+ w'.events) (report : w'.report = some (.ok ()))
      (gone : w'.exit? = some exit) (answer : t'.answer = some exit.joined)

theorem stopping_turn {w : Worker} (ho : Orderly met fresh t₁) (hs : Stopping t w t₁)
    (busy : t₁.owner ≠ .idle) (turn : t₁.Turn h born move t') : Stopping t w t' := by
  cases hs with
  | stopped _ _ owner => exact absurd owner busy
  | underway w' owner attached joined given history =>
    cases turn with
    | reject _ _ _ idle | unborn _ _ idle | spawn _ idle | halt _ idle | rest idle =>
      exact absurd idle busy
    | ready _ owner' | giveUp _ _ owner' | failed _ _ _ owner' =>
      exact nomatch owner.symm.trans owner'
    | stopped w'' exit _ attached' gone =>
      cases attached.symm.trans attached'
      exact .stopped w' exit rfl rfl (congrArg (w' :: ·) joined) given history
        (ho.ready (.inr owner) w' attached) gone rfl
    | work m _ w'' g attached' turn =>
      cases attached.symm.trans attached'
      exact .underway w'' owner rfl joined ((Worker.duty_turn turn).trans given)
        (history.trans (Worker.events_turn turn))

theorem isRunning_of_free (ho : Orderly met fresh t) (free : t.worker = none) :
    t.isRunning = false := by
  rw [Bool.eq_false_iff]
  intro hon
  obtain ⟨w, hw, -⟩ := ho.running.1 hon
  exact nomatch free.symm.trans hw

theorem setRunning_of_free (ho : Orderly met fresh t) (free : t.worker = none) :
    t.setRunning false = t := by
  unfold setRunning
  rw [← isRunning_of_free ho free]
  rfl

theorem started_call {duty : Duty} {unborn : Option (Option Int)}
    (ho : Orderly (fun _ _ => True) fresh t)
    (hfire : t.fire h born (.start duty unborn) = some t₁) (hcall : Call t₁ acts t') :
    Started t duty unborn t' := by
  have turn := turn_of_fire hfire
  have ho₁ := orderly_turn ho trivial turn
  cases turn with
  | reject _ _ e idle refused =>
    cases hcall with
    | back => exact .rejected e (.inl refused)
    | wait busy => exact absurd idle busy
  | unborn _ raw? idle allowed =>
    rw [setRunning_of_free ho (worker_of_checkStart allowed)] at hcall
    cases hcall with
    | back => exact .rejected _ (.inr ⟨raw?, rfl, rfl⟩)
    | wait busy => exact absurd idle busy
  | spawn _ idle allowed =>
    have hfree := worker_of_checkStart allowed
    obtain ⟨ho', hstarting⟩ := hcall.keeps
      (P := fun s => Orderly (fun _ _ => True) fresh s ∧ Starting t duty s)
      (fun _ _ _ _ _ hs busy turn =>
        ⟨orderly_turn hs.1 trivial turn, starting_turn hs.1 hs.2 busy turn⟩)
      ⟨ho₁, .underway { duty } (.inl rfl) rfl rfl rfl⟩
    cases hstarting with
    | underway _ owner =>
      rw [hcall.owner_eq] at owner
      rcases owner with howner | ⟨why, howner⟩ <;> cases howner
    | failed w why _ left joined given cause answer =>
      have hmem : w ∈ t'.joined := joined ▸ .head _
      exact .failed w why hfree left (isRunning_of_free ho' left) joined given cause
        (unset_of_failedWith (ho'.sound w (mem_workers.2 (.inr hmem))) (ho'.gone w hmem) cause)
        answer
    | ready w _ attached joined given report answer =>
      have hsound := ho'.sound w (mem_workers.2 (.inl attached))
      exact .ready w hfree attached joined given (hsound.setup_of_report report) answer

theorem stopped_call {ended : Nat → List (Except Fault Unit)}
    (ho : Orderly (fun _ _ => True) fresh t) (hfire : t.fire h born .stop = some t₁)
    (hcall : Call t₁ acts t') (ha : t'.Accounted ended) :
    Stopped (ended t.joined.length) t t' ∧ t'.worker = none := by
  have turn := turn_of_fire hfire
  have ho₁ := orderly_turn ho trivial turn
  cases turn with
  | rest idle free =>
    rw [setRunning_of_free ho free] at hcall
    cases hcall with
    | back => exact ⟨.rested free, free⟩
    | wait busy => exact absurd idle busy
  | halt w idle attached =>
    obtain ⟨ho', hstopping⟩ := hcall.keeps
      (P := fun s => Orderly (fun _ _ => True) fresh s ∧ Stopping t w s)
      (fun _ _ _ _ _ hs busy turn =>
        ⟨orderly_turn hs.1 trivial turn, stopping_turn hs.1 hs.2 busy turn⟩)
      ⟨ho₁, .underway w rfl attached rfl rfl (List.suffix_refl _)⟩
    cases hstopping with
    | underway _ owner => exact nomatch hcall.owner_eq.symm.trans owner
    | stopped w' exit _ left joined given history report gone answer =>
      have hworkers : t'.workers = w' :: t.joined := (workers_of_free left).trans joined
      have haccounts := ha.each w' t.joined ⟨[], hworkers.symm⟩
      unfold Worker.Accounts at haccounts
      rw [Worker.gone_of_exit? gone] at haccounts
      exact ⟨.joined w w' exit.joined attached joined given history (haccounts report) answer, left⟩

theorem checkStart_congr (hassignment : t'.assignment = t.assignment) (hname : t'.name = t.name)
    (hworker : t'.worker = t.worker) : t'.checkStart = t.checkStart := by
  unfold checkStart
  rw [hassignment, hname, hworker]

/-- A joined worker stays as it is. -/
theorem joined_turn (turn : t.Turn h born move t') : t.joined <:+ t'.joined := by
  cases turn with
  | failed | stopped => exact List.suffix_cons _ _
  | _ => exact List.suffix_refl _

theorem joined_runAmid (hrun : t.runAmid acts = some t') : t.joined <:+ t'.joined :=
  run_keeps (P := fun s => t.joined <:+ s.joined)
    (fun _ _ _ hs hact => hs.trans (joined_turn (turn_of_fire hact))) (List.suffix_refl _) hrun

/-! ### Calls come back -/

/-- Some moves, all on the host `h`, bring the owner's call to its end. -/
def CanReturn (h : Host) (born : Machine) (t : PeriodicThread) : Prop :=
  ∃ (moves : List Move) (t' : PeriodicThread), Call t (moves.map (Act.mk h born)) t'

theorem CanReturn.of_fire (busy : t.owner ≠ .idle) (hfire : t.fire h born move = some t₁)
    (hrest : CanReturn h born t₁) : CanReturn h born t := by
  obtain ⟨moves, t', hcall⟩ := hrest
  exact ⟨move :: moves, t', .wait busy hfire hcall⟩

theorem CanReturn.of_idle (idle : t.owner = .idle) : CanReturn h born t := ⟨[], t, .back idle⟩

theorem fire_work {w w' : Worker} {m : Moment} {g : Gauges} (attached : t.worker = some w)
    (hstep : w.step t.assignment h born m t.gauges = some (g, w')) :
    t.fire h born (.work m) = some { t with gauges := g, worker := some w' } := by
  simp [fire, attached, hstep]

/-- An owner that waits for its worker to be gone need not wait for ever. -/
theorem canReturn_of_leaving {n : Nat} {w : Worker} (attached : t.worker = some w)
    (howner : t.owner = .stopping ∨ ∃ why, t.owner = .failing why)
    (hoff : t.gauges.running = false) (hn : w.stage.ahead = n) : CanReturn h born t := by
  induction n using Nat.strongRecOn generalizing t w with
  | ind n ih =>
    have hbusy : t.owner ≠ .idle := by
      rcases howner with howner | ⟨why, howner⟩ <;> rw [howner] <;> exact nofun
    cases hexit : w.exit? with
    | some exit =>
      rcases howner with howner | ⟨why, howner⟩
      · have hresume : t.fire h born .resume = some (t.join w exit.joined) := by
          simp [fire, resume, attached, howner, hexit]
        exact .of_fire hbusy hresume (.of_idle rfl)
      · have hresume : t.fire h born .resume = some (t.join w (.error why)) := by
          simp [fire, resume, attached, howner, hexit]
        exact .of_fire hbusy hresume (.of_idle rfl)
    | none =>
      obtain ⟨g, w', hstep, hless⟩ :=
        Worker.ahead_of_step t.assignment h born (m := .calm) hexit rfl (.inl hoff)
      have hoff' : g.running = false := by
        rcases Worker.running_turn (Worker.turn_of_step hstep) with ⟨hsame, -⟩ | ⟨hg, -⟩
        · exact hsame.trans hoff
        · exact hg
      exact .of_fire hbusy (fire_work attached hstep)
        (ih _ (hn ▸ hless) (t := { t with gauges := g, worker := some w' }) rfl howner hoff' rfl)

/-- The owner learns how a start went, and goes on or waits for the worker to be gone. -/
theorem canReturn_of_starting {n : Nat} {w : Worker} (ho : Orderly (fun _ _ => True) fresh t)
    (attached : t.worker = some w) (howner : t.owner = .starting) (hn : w.stage.ahead = n) :
    CanReturn h born t := by
  induction n using Nat.strongRecOn generalizing t w with
  | ind n ih =>
    have hbusy : t.owner ≠ .idle := by
      rw [howner]
      exact nofun
    have hgiveUp (why : Fault) (hresume : t.fire h born .resume = some (t.giveUp why)) :
        CanReturn h born t :=
      .of_fire hbusy hresume
        (canReturn_of_leaving (t := t.giveUp why) attached (.inr ⟨why, rfl⟩) rfl rfl)
    cases hreport : w.report with
    | some report =>
      cases report with
      | ok =>
        have hresume : t.fire h born .resume =
            some { t with owner := .idle, answer := some (.ok ()) } := by
          simp [fire, resume, attached, howner, hreport]
        exact .of_fire hbusy hresume (.of_idle rfl)
      | error why => exact hgiveUp why (by simp [fire, resume, attached, howner, hreport])
    | none =>
      cases hexit : w.exit? with
      | some exit =>
        exact hgiveUp (.systemFailure "thread start" .unknown)
          (by simp [fire, resume, attached, howner, hreport, hexit])
      | none =>
        have hsound := ho.sound w (mem_workers.2 (.inl attached))
        obtain ⟨g, w', hstep, hless⟩ := Worker.ahead_of_step t.assignment h born
          (g := t.gauges) (m := .calm) hexit rfl (.inr (hsound.inLoop_of_report hreport))
        have hfire := fire_work attached hstep
        exact .of_fire hbusy hfire
          (ih _ (hn ▸ hless) (orderly_turn ho trivial (turn_of_fire hfire)) rfl howner rfl)

theorem canReturn_of_orderly (ho : Orderly (fun _ _ => True) fresh t) : CanReturn h born t := by
  have hoff (hidle : t.owner ≠ .idle) (hstarting : t.owner ≠ .starting) :
      t.gauges.running = false := by
    rw [Bool.eq_false_iff]
    intro hon
    obtain ⟨_, -, -, howner⟩ := ho.running.1 hon
    exact howner.elim hidle hstarting
  cases howner : t.owner with
  | idle => exact .of_idle howner
  | starting =>
    obtain ⟨w, attached⟩ := Option.isSome_iff_exists.1 (ho.attached (howner ▸ nofun))
    exact canReturn_of_starting ho attached howner rfl
  | failing why =>
    obtain ⟨w, attached⟩ := Option.isSome_iff_exists.1 (ho.attached (howner ▸ nofun))
    exact canReturn_of_leaving attached (.inr ⟨why, howner⟩)
      (hoff (howner ▸ nofun) (howner ▸ nofun)) rfl
  | stopping =>
    obtain ⟨w, attached⟩ := Option.isSome_iff_exists.1 (ho.attached (howner ▸ nofun))
    exact canReturn_of_leaving attached (.inl howner)
      (hoff (howner ▸ nofun) (howner ▸ nofun)) rfl

/-- What the owner of a thread that was described as `fresh` can count on in the state `t` that the
moves of the `past` have led to. -/
structure Dependable (past : List Act) (fresh t : PeriodicThread) : Prop where
  lawful : ∀ w ∈ t.workers, w.Lawful fresh.assignment (Met past)
  truthful : ∀ w ∈ t.workers, w.Truthful
  reckoned : ∃ done late, t.Reckoned done late
  overruns_le : t.completed < UInt64.size → t.gauges.overruns ≤ t.gauges.cycles
  running : t.isRunning = true ↔ t.Wanted
  started : ∀ h born duty unborn t₁ acts t', t.fire h born (.start duty unborn) = some t₁ →
    Call t₁ acts t' → Started t duty unborn t'
  stopped : ∀ h born t₁ acts t', t.fire h born .stop = some t₁ → Call t₁ acts t' →
    Stopped (fresh.loopEnds t.joined.length (past ++ ⟨h, born, .stop⟩ :: acts)) t t' ∧
      t'.worker = none ∧ t'.isRunning = false ∧ t'.checkStart = fresh.checkStart
  /-- However far a call has come, it can still come back. -/
  returns : ∀ h born, CanReturn h born t
  /-- Nothing happens any more to a duty whose worker has been joined. -/
  settled : ∀ acts t', t.runAmid acts = some t' → t.joined <:+ t'.joined

/-- However starts, stops and the steps of workers come in between each other, whatever the duties do
and whatever the hosts refuse. -/
theorem dependable_run (name : String) (interval : Nat) (schedule : Option Schedule)
    {past : List Act} {t : PeriodicThread}
    (hrun : (ofName name interval schedule).runAmid past = some t) :
    Dependable past (ofName name interval schedule) t := by
  have ho := orderly_runAmid (orderly_ofName (Met past) name interval schedule)
    (fun _ _ hmet => hmet) hrun
  have htrue : Orderly (fun _ _ => True) _ t := ho.mono fun _ _ _ => trivial
  refine ⟨?_, ho.truthful, ho.reckoned, ?_, ho.running, ?_, ?_,
    fun _ _ => canReturn_of_orderly htrue, fun _ _ => joined_runAmid⟩
  · intro w hmem
    rw [← ho.assignment]
    exact (ho.sound w hmem).lawful
  · intro hsmall
    obtain ⟨done, late, hcycles, hoverruns, hdone, hlate⟩ := ho.reckoned
    rw [hcycles, hoverruns, UInt64.le_iff_toNat_le, UInt64.toNat_ofNat_of_lt' (by omega),
      UInt64.toNat_ofNat_of_lt' (by omega)]
    omega
  · intro h born duty unborn t₁ acts t' hfire hcall
    exact started_call htrue hfire hcall
  · intro h born t₁ acts t' hfire hcall
    have hwhole : (ofName name interval schedule).runAmid (past ++ ⟨h, born, .stop⟩ :: acts) =
        some t' :=
      foldlM_append_eq_some.2 ⟨t, hrun, foldlM_cons_eq_some.2 ⟨t₁, hfire, hcall.runAmid_eq⟩⟩
    obtain ⟨hstopped, hfree⟩ := stopped_call htrue hfire hcall
      (accounted_runAmid (orderly_ofName _ name interval schedule) rfl hwhole)
    have ho' := hcall.orderly (orderly_turn htrue trivial (turn_of_fire hfire))
    exact ⟨hstopped, hfree, isRunning_of_free ho' hfree,
      checkStart_congr ho'.assignment ho'.name hfree⟩

def onceOnly : Duty := { process := fun calls => if calls = 0 then .returns else .fails .timeout }

/-- The host lets the first worker not have its schedule. When it has become more lenient, a second one
gets as far as its second call, while the owner tries to start a third and then stops. -/
def secondAttempt : List Act :=
  let amid (privileged : Bool) : List Move → List Act :=
    List.map (Act.mk (.linux 2 privileged) (Host.newThread 2))
  let steps (count : Nat) : List Move := List.replicate count (.work .calm)
  amid false ([.start onceOnly none] ++ steps 1 ++ [.resume] ++ steps 1 ++ [.resume]) ++
    amid true ([.start onceOnly none] ++ steps 2 ++ [.resume] ++ steps 8 ++ [.start {} none] ++
      steps 1 ++ [.stop] ++ steps 1 ++ [.resume])

theorem dependable_run_secondAttempt :
    ∃ t, (ofName "pump" 1000000 (some (.fifo 20))).runAmid secondAttempt = some t ∧
      t.joined.map Worker.events = [[.teardown, .process (.fails .timeout), .process .returns,
        .setup .returns, .scheduled], []] ∧
      t.gauges = { cycles := 1 } ∧
      Dependable secondAttempt (ofName "pump" 1000000 (some (.fifo 20))) t := by
  have hseen : ((ofName "pump" 1000000 (some (.fifo 20))).runAmid secondAttempt).map
      (fun t => (t.joined.map Worker.events, t.gauges)) =
        some ([[.teardown, .process (.fails .timeout), .process .returns, .setup .returns,
          .scheduled], []], { cycles := 1 }) := by decide +kernel
  obtain ⟨t, hrun, hseen⟩ := Option.map_eq_some_iff.1 hseen
  obtain ⟨hevents, hgauges⟩ := Prod.mk.inj hseen
  exact ⟨t, hrun, hevents, hgauges, dependable_run "pump" 1000000 (some (.fifo 20)) hrun⟩

end PeriodicThread

end Cadence
