import Cadence.Proofs.Periodic.Turns
import Mathlib.Data.List.Induction

/-!
What a joined worker answers, and why. The loop of a worker ends by a call of its duty that fails or
panics, by the owner, who lets the flag fall, or by a fault of the clock, of a deadline or of a sleep.
What is not the duty's doing is read off the moves of the run, each with the state that it was made in,
so that the answer can be held against it.
-/

namespace Cadence

namespace Worker

/-- What joining a worker that had started comes back with, if `ended` is what ended its loop beside
the calls of its duty. -/
inductive Outcome (ended : List (Except Fault Unit)) (events : List Event) :
    Except Fault Unit → Prop
  | panicked (call : .process .panics ∈ events) (alone : ended = []) :
      Outcome ended events (.error (.systemFailure "thread join" .unknown))
  | failed (e : Fault) (call : .process (.fails e) ∈ events) (alone : ended = []) :
      Outcome ended events (.error e)
  | lost (e : Fault) (cause : ended = [.error e])
      (calls : ∀ ending, .process ending ∈ events → ending = .returns) :
      Outcome ended events (.error e)
  | told (cause : ended = [.ok ()])
      (calls : ∀ ending, .process ending ∈ events → ending = .returns) :
      Outcome ended events (.ok ())

/-- What has ended the loop so far is what the worker is going to answer. -/
def Accounts (ended : List (Except Fault Unit)) (w : Worker) : Prop :=
  match w.stage with
  | .teardown result => Outcome ended w.events result
  | .leave exit | .gone exit => w.report = some (.ok ()) → Outcome ended w.events exit.joined
  | _ => ended = []

variable {ended : List (Except Fault Unit)} {events : List Event} {result : Except Fault Unit}
  {a : Assignment} {h : Host} {born : Machine} {met : Host → Machine → Prop} {m : Moment}
  {g g' : Gauges} {w w' : Worker}

theorem Outcome.teardown (ho : Outcome ended events result) :
    Outcome ended (.teardown :: events) result := by
  cases ho with
  | panicked call alone => exact .panicked (.tail _ call) alone
  | failed e call alone => exact .failed e (.tail _ call) alone
  | lost e cause calls => exact .lost e cause fun _ hmem => calls _ (by simpa using hmem)
  | told cause calls => exact .told cause fun _ hmem => calls _ (by simpa using hmem)

theorem outcome_looped (cause : ended = [result]) (calls : Nat) :
    Outcome ended (looped calls) result := by
  have hcalls : ∀ ending, .process ending ∈ looped calls → ending = .returns := fun ending hmem => by
    rcases mem_looped hmem with he | he | he <;> cases he
    rfl
  cases result with
  | ok => exact .told cause hcalls
  | error e => exact .lost e cause hcalls

theorem Accounts.eq_nil (ha : w.Accounts ended) {stage : Stage} (here : w.stage = stage)
    (hstage : stage.inLoop = true ∨ stage = .schedule ∨ stage = .setup) : ended = [] := by
  unfold Accounts at ha
  rw [here] at ha
  cases stage with
  | teardown | leave | gone => rcases hstage with hstage | hstage | hstage <;> cases hstage
  | _ => exact ha

theorem accounts_nil (hstage : w.stage.inLoop = true ∨ w.stage = .setup) : w.Accounts [] := by
  unfold Accounts
  cases here : w.stage with
  | teardown | leave | gone =>
    rw [here] at hstage
    rcases hstage with hstage | hstage <;> cases hstage
  | _ => rfl

/-- A step that ends the loop for a reason of its own is answered with it. -/
theorem accounts_turn (hs : w.Sound a met) (ha : w.Accounts ended)
    (turn : Turn a h born m g w g' w') :
    w'.Accounts (ended ++ (w.stage.loopEnd? a.interval m g).toList) := by
  cases turn with
  | refuse _ here | failSetup _ here =>
    rw [here]
    exact nofun
  | schedule here =>
    rw [here, ha.eq_nil here (.inr (.inl rfl))]
    exact accounts_nil (.inr rfl)
  | ready here =>
    rw [here, ha.eq_nil here (.inr (.inr rfl))]
    exact accounts_nil (.inl rfl)
  | panicSetup here =>
    obtain ⟨-, hunsaid, -⟩ := (hs.course here).of_setup
    exact fun hreport => nomatch hunsaid.symm.trans hreport
  | quiet stage next here inLoop stays goesOn =>
    rw [here, goesOn, ha.eq_nil here (.inl inLoop)]
    exact accounts_nil (.inl stays)
  | close stage result here inLoop _ ends =>
    obtain ⟨-, -, calls, hevents⟩ := (hs.course here).of_inLoop inLoop
    rw [here, ends, ha.eq_nil here (.inl inLoop)]
    change Outcome _ w.events result
    rw [hevents]
    exact outcome_looped rfl calls
  | call pacer here | count pacer here | countLate pacer here =>
    rw [here, ha.eq_nil here (.inl rfl)]
    exact accounts_nil (.inl rfl)
  | failCall pacer why here =>
    rw [here, ha.eq_nil here (.inl rfl)]
    exact .failed why (.head _) rfl
  | panicCall pacer here =>
    rw [here, ha.eq_nil here (.inl rfl)]
    exact fun _ => .panicked (.head _) rfl
  | teardown result here =>
    have hnone : Stage.loopEnd? a.interval m g (.teardown result) = none := rfl
    unfold Accounts at ha
    rw [here] at ha
    rw [here, hnone, Option.toList_none, List.append_nil]
    exact fun _ => ha.teardown
  | leave exit here =>
    have hnone : Stage.loopEnd? a.interval m g (.leave exit) = none := rfl
    unfold Accounts at ha
    rw [here] at ha
    rw [here, hnone, Option.toList_none, List.append_nil]
    exact ha

end Worker

namespace PeriodicThread

variable {h : Host} {born : Machine} {met : Host → Machine → Prop} {t t' : PeriodicThread}
  {move : Move} {acts : List Act} {number : Nat} {ended : Nat → List (Except Fault Unit)}

/-- What a move tells the attached worker about the end of its loop. -/
def loopEnd? (t : PeriodicThread) : Move → Option (Except Fault Unit)
  | .work m => t.worker.bind fun w => w.stage.loopEnd? t.assignment.interval m t.gauges
  | _ => none

/-- What ends the loop of the worker that comes after `number` others, in a run from here on. -/
def loopEnds (number : Nat) : PeriodicThread → List Act → List (Except Fault Unit)
  | _, [] => []
  | t, a :: acts =>
    (if t.joined.length = number then (t.loopEnd? a.move).toList else []) ++
      match t.act a with
      | some t' => loopEnds number t' acts
      | none => []

theorem loopEnds_concat (hrun : t.runAmid acts = some t') (a : Act) :
    t.loopEnds number (acts ++ [a]) = t.loopEnds number acts ++
      if t'.joined.length = number then (t'.loopEnd? a.move).toList else [] := by
  induction acts generalizing t with
  | nil =>
    obtain rfl : t = t' := Option.some.inj hrun
    rw [List.nil_append, loopEnds, loopEnds, List.nil_append]
    cases t.act a <;> exact List.append_nil _
  | cons a' acts ih =>
    obtain ⟨t₁, hact, hrest⟩ := foldlM_cons_eq_some.1 hrun
    rw [List.cons_append, loopEnds, loopEnds, hact, List.append_assoc]
    exact congrArg _ (ih hrest)

/-- What ended the loops, by how many workers came before, fits with all the workers so far. -/
structure Accounted (ended : Nat → List (Except Fault Unit)) (t : PeriodicThread) : Prop where
  each : ∀ w earlier, w :: earlier <:+ t.workers → w.Accounts (ended earlier.length)
  later : ∀ number, t.workers.length ≤ number → ended number = []

theorem Accounted.of_workers (ha : t.Accounted ended) (hworkers : t'.workers = t.workers) :
    t'.Accounted ended :=
  ⟨hworkers ▸ ha.each, hworkers ▸ ha.later⟩

theorem workers_of_attached {w : Worker} (attached : t.worker = some w) :
    t.workers = w :: t.joined := by
  rw [workers, attached]
  rfl

theorem workers_of_free (free : t.worker = none) : t.workers = t.joined := by
  rw [workers, free]
  rfl

theorem loopEnds_of_none (hnone : t.loopEnd? move = none) :
    (fun number => ended number ++
      if t.joined.length = number then (t.loopEnd? move).toList else []) = ended := by
  funext number
  rw [hnone, Option.toList_none, ite_self, List.append_nil]

theorem accounted_turn (hsound : ∀ w ∈ t.workers, w.Sound t.assignment met)
    (ha : t.Accounted ended) (turn : t.Turn h born move t') :
    t'.Accounted fun number => ended number ++
      if t.joined.length = number then (t.loopEnd? move).toList else [] := by
  cases turn with
  | reject | unborn | halt | rest | ready | giveUp =>
    rw [loopEnds_of_none rfl]
    exact ha.of_workers rfl
  | failed w why exit _ attached | stopped w exit _ attached =>
    rw [loopEnds_of_none rfl]
    exact ha.of_workers (workers_join attached _)
  | spawn duty _ allowed =>
    rw [loopEnds_of_none rfl]
    have hworkers := workers_of_free (worker_of_checkStart allowed)
    refine ⟨fun w earlier hsuffix => ?_, fun number hle => ha.later number ?_⟩
    · replace hsuffix : w :: earlier <:+ { duty } :: t.joined := hsuffix
      rcases List.suffix_cons_iff.1 hsuffix with hnew | hold
      · cases hnew
        rw [ha.later _ (Nat.le_of_eq (congrArg _ hworkers))]
        rfl
      · exact ha.each w earlier (hworkers ▸ hold)
    · rw [hworkers]
      exact Nat.le_of_succ_le hle
  | work m w w' g attached turn =>
    have hworkers := workers_of_attached attached
    refine ⟨fun v earlier hsuffix => ?_, fun number hle => ?_⟩
    · replace hsuffix : v :: earlier <:+ w' :: t.joined := hsuffix
      rcases List.suffix_cons_iff.1 hsuffix with hnew | hold
      · cases hnew
        have hw := Worker.accounts_turn (hsound w (mem_workers.2 (.inl attached)))
          (ha.each w t.joined (hworkers ▸ List.suffix_refl _)) turn
        rwa [if_pos rfl, loopEnd?, attached]
      · have hlt : earlier.length < t.joined.length := hold.length_le
        rw [if_neg (Nat.ne_of_gt hlt), List.append_nil]
        exact ha.each v earlier (hworkers ▸ hold.trans (List.suffix_cons _ _))
    · have hlt : t.joined.length < number := hle
      rw [if_neg (Nat.ne_of_lt hlt), List.append_nil]
      exact ha.later number (hworkers ▸ hle)

theorem accounted_runAmid {fresh : PeriodicThread} (ho : Orderly (fun _ _ => True) fresh fresh)
    (hnobody : fresh.workers = []) (hrun : fresh.runAmid acts = some t) :
    t.Accounted fun number => fresh.loopEnds number acts := by
  induction acts using List.reverseRecOn generalizing t with
  | nil =>
    obtain rfl : fresh = t := Option.some.inj hrun
    refine ⟨fun w earlier hsuffix => ?_, fun _ _ => rfl⟩
    rw [hnobody] at hsuffix
    exact absurd hsuffix.length_le (Nat.not_succ_le_zero _)
  | append_singleton acts a ih =>
    obtain ⟨t₁, hrun₁, hlast⟩ := foldlM_append_eq_some.1 hrun
    obtain ⟨t₂, hact, hnil⟩ := foldlM_cons_eq_some.1 hlast
    obtain rfl : t₂ = t := Option.some.inj hnil
    have hsound := (orderly_runAmid ho (fun _ _ _ => trivial) hrun₁).sound
    simp only [loopEnds_concat hrun₁]
    exact accounted_turn hsound (ih hrun₁) (turn_of_fire hact)

end PeriodicThread

end Cadence
