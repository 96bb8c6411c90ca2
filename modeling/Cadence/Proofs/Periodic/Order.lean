import Cadence.Proofs.Periodic.Course

/-!
What a duty can rely on: its setup comes once and only under the schedule, its calls come after a setup
that went well, and its teardown comes once, at the very end, unless something panicked or the setup
did not go well.
-/

namespace Cadence.Worker

/-- Whether a duty may see the later event when it has seen the earlier one. -/
def Event.mayFollow (later earlier : Event) : Bool :=
  match later, earlier with
  | .setup _, .scheduled => true
  | .process _, .scheduled | .process _, .setup .returns | .process _, .process .returns => true
  | .teardown, .scheduled | .teardown, .setup .returns | .teardown, .process .returns
  | .teardown, .process (.fails _) => true
  | _, _ => false

def isSetup : Event → Bool
  | .setup _ => true
  | _ => false

def InOrder (events : List Event) : Prop :=
  events.Pairwise fun later earlier => later.mayFollow earlier = true

/-- What cannot follow itself is there at most once. -/
theorem InOrder.countP_le_one {events : List Event} (ho : InOrder events) {p : Event → Bool}
    (hp : ∀ e e', p e = true → p e' = true → e.mayFollow e' = false) : events.countP p ≤ 1 := by
  unfold InOrder at ho
  induction events with
  | nil => exact Nat.zero_le 1
  | cons e events ih =>
    obtain ⟨hfirst, ho⟩ := List.pairwise_cons.1 ho
    rw [List.countP_cons]
    split
    · next he =>
      -- Whatever came earlier is of another kind.
      have hnone : events.countP p = 0 := by
        rw [List.countP_eq_zero]
        intro e' hmem he'
        have hfollow := hfirst e' hmem
        rw [hp e e' he he'] at hfollow
        cases hfollow
      omega
    · exact ih ho

theorem InOrder.count_teardown_le {events : List Event} (ho : InOrder events) :
    events.count .teardown ≤ 1 := by
  refine ho.countP_le_one fun e e' he he' => ?_
  rw [beq_iff_eq] at he he'
  rw [he, he']
  rfl

theorem mem_looped {calls : Nat} {e : Event} (he : e ∈ looped calls) :
    e = .process .returns ∨ e = .setup .returns ∨ e = .scheduled := by
  unfold looped at he
  simp only [List.mem_append, List.mem_replicate, List.mem_cons, List.not_mem_nil, or_false] at he
  exact he.imp_left And.right

theorem setup_mem_looped (calls : Nat) : .setup .returns ∈ looped calls := by simp [looped]

theorem scheduled_mem_looped (calls : Nat) : .scheduled ∈ looped calls := by simp [looped]

theorem inOrder_looped (calls : Nat) : InOrder (looped calls) := by
  induction calls with
  | zero => exact .cons (by simp [Event.mayFollow]) (.cons (by simp) .nil)
  | succ calls ih =>
    refine .cons ?_ ih
    intro e he
    rcases mem_looped he with rfl | rfl | rfl <;> rfl

theorem inOrder_cons_looped {e : Event} (hreturns : e.mayFollow (.process .returns) = true)
    (hsetup : e.mayFollow (.setup .returns) = true) (hscheduled : e.mayFollow .scheduled = true)
    (calls : Nat) : InOrder (e :: looped calls) := by
  refine .cons ?_ (inOrder_looped calls)
  intro e' he'
  rcases mem_looped he' with rfl | rfl | rfl
  · exact hreturns
  · exact hsetup
  · exact hscheduled

section

variable {result : Except Fault Unit} {events : List Event}

/-- Nothing up to the end of a loop keeps a teardown away. -/
theorem Closing.inOrder (hc : Closing result events) : InOrder (.teardown :: events) := by
  cases hc with
  | between result calls => exact inOrder_cons_looped rfl rfl rfl calls
  | failed calls e =>
    have ho : InOrder (.process (.fails e) :: looped calls) :=
      inOrder_cons_looped rfl rfl rfl calls
    refine .cons ?_ ho
    intro e' he'
    rcases List.mem_cons.1 he' with rfl | he'
    · rfl
    · rcases mem_looped he' with rfl | rfl | rfl <;> rfl

theorem Closing.scheduled_mem (hc : Closing result events) : .scheduled ∈ events := by
  cases hc with
  | between result calls => exact scheduled_mem_looped calls
  | failed calls => exact .tail _ (scheduled_mem_looped calls)

theorem Closing.setup_mem (hc : Closing result events) : .setup .returns ∈ events := by
  cases hc with
  | between result calls => exact setup_mem_looped calls
  | failed calls => exact .tail _ (setup_mem_looped calls)

theorem Closing.panics_not_mem (hc : Closing result events) : .process .panics ∉ events := by
  intro hmem
  have hfollow := (List.pairwise_cons.1 hc.inOrder).1 _ hmem
  cases hfollow

end

section

variable {a : Assignment} {met : Host → Machine → Prop} {exit : Exit} {stage : Stage}
  {report : Option (Except Fault Unit)} {events : List Event} {w : Worker}

theorem Ended.inOrder (he : Ended a met exit report events) : InOrder events := by
  unfold InOrder
  cases he with
  | refused => exact .nil
  | setupFailed | setupPanicked => simp [Event.mayFollow]
  | closed _ closing => exact closing.inOrder
  | panicked _ calls => exact inOrder_cons_looped rfl rfl rfl calls

theorem Course.inOrder (hc : Course a met stage report events) : InOrder events := by
  cases hc with
  | fresh => exact .nil
  | scheduled => exact .cons (by simp) .nil
  | looping _ _ calls => exact inOrder_looped calls
  | closing _ closing => exact (List.pairwise_cons.1 closing.inOrder).2
  | leaving ended | gone ended => exact ended.inOrder

theorem Course.scheduled_of_setup (hc : Course a met stage report events) {ending : Ending}
    (hmem : .setup ending ∈ events) : .scheduled ∈ events ∧ a.Meets met (.ok ()) := by
  cases hc with
  | fresh | scheduled => simp at hmem
  | looping inForce _ calls => exact ⟨scheduled_mem_looped calls, inForce⟩
  | closing inForce closing => exact ⟨closing.scheduled_mem, inForce⟩
  | leaving ended | gone ended =>
    cases ended with
    | refused => simp at hmem
    | setupFailed _ inForce | setupPanicked inForce => exact ⟨by simp, inForce⟩
    | closed inForce closing => exact ⟨.tail _ closing.scheduled_mem, inForce⟩
    | panicked inForce calls => exact ⟨.tail _ (scheduled_mem_looped calls), inForce⟩

theorem Ended.teardown_iff (he : Ended a met exit report events) :
    .teardown ∈ events ↔ .setup .returns ∈ events ∧ .process .panics ∉ events := by
  cases he with
  | refused | setupFailed | setupPanicked => simp
  | closed _ closing => simp [closing.setup_mem, closing.panics_not_mem]
  | panicked _ calls =>
    have hteardown : .teardown ∉ looped calls := by
      intro he
      rcases mem_looped he with he | he | he <;> cases he
    simp [hteardown]

/-- A worker says that it has started after a setup that went well. -/
theorem Course.setup_of_report (hc : Course a met stage (some (.ok ())) events) :
    .setup .returns ∈ events := by
  cases hc with
  | looping _ _ calls => exact setup_mem_looped calls
  | closing _ closing => exact closing.setup_mem
  | leaving ended | gone ended =>
    cases ended with
    | closed _ closing => exact .tail _ closing.setup_mem
    | panicked _ calls => exact .tail _ (setup_mem_looped calls)

/-- A worker that calls has said that it has started. -/
theorem Course.report_of_process (hc : Course a met stage report events) {ending : Ending}
    (hmem : .process ending ∈ events) : report = some (.ok ()) := by
  cases hc with
  | fresh | scheduled => simp at hmem
  | looping | closing => rfl
  | leaving ended | gone ended =>
    cases ended with
    | refused | setupFailed | setupPanicked => simp at hmem
    | closed | panicked => rfl

/-- A worker that leaves without that never got so far. -/
theorem Ended.unset_of_report (he : Ended a met exit report events)
    (hreport : report ≠ some (.ok ())) : .setup .returns ∉ events := by
  cases he with
  | refused | setupFailed | setupPanicked => simp
  | closed | panicked => exact absurd rfl hreport

/-- What stands in a history and cannot come later stands in what came earlier. -/
theorem InOrder.mem_earlier {later earlier : List Event} {e e' : Event}
    (ho : InOrder (later ++ e :: earlier)) (hmem : e' ∈ later ++ e :: earlier) (hne : e' ≠ e)
    (hfollow : e'.mayFollow e = false) : e' ∈ earlier := by
  unfold InOrder at ho
  obtain ⟨-, -, hacross⟩ := List.pairwise_append.1 ho
  rcases List.mem_append.1 hmem with hlater | hmem
  · have habove := hacross e' hlater e (.head _)
    rw [hfollow] at habove
    cases habove
  · exact (List.mem_cons.1 hmem).resolve_left hne

theorem Sound.setup_of_report (hs : w.Sound a met) (hreport : w.report = some (.ok ())) :
    .setup .returns ∈ w.events := by
  unfold Sound at hs
  rw [hreport] at hs
  exact Course.setup_of_report hs

theorem Sound.inLoop_of_report (hs : w.Sound a met) (hreport : w.report = none) :
    w.stage.inLoop = false := by
  rw [Bool.eq_false_iff]
  intro hloop
  exact nomatch hreport.symm.trans (Course.of_inLoop hs hloop).2.1

structure Lawful (a : Assignment) (met : Host → Machine → Prop) (w : Worker) : Prop where
  inOrder : InOrder w.events
  setup_once : w.events.countP isSetup ≤ 1
  setup_scheduled : ∀ later ending earlier, w.events = later ++ .setup ending :: earlier →
    .scheduled ∈ earlier ∧ a.Meets met (.ok ())
  process_setup : ∀ later ending earlier, w.events = later ++ .process ending :: earlier →
    .setup .returns ∈ earlier
  teardown_last : ∀ later earlier, w.events = later ++ .teardown :: earlier → later = []
  teardown_once : w.exit?.isSome = true → w.events.count .teardown =
    if .setup .returns ∈ w.events ∧ .process .panics ∉ w.events then 1 else 0

/-! ### The history is the duty's own -/

/-- The duty's callback ends as the event says, after so many calls. -/
def Event.Fits (duty : Duty) (calls : Nat) : Event → Prop
  | .setup ending => ending = duty.setup
  | .process ending => ending = duty.process calls
  | _ => True

/-- Every event of a history is how the duty behaves at that point. -/
def Told (duty : Duty) : List Event → Prop
  | [] => True
  | e :: earlier => e.Fits duty (earlier.countP isProcess) ∧ Told duty earlier

structure Truthful (w : Worker) : Prop where
  calls : w.calls = w.events.countP isProcess
  told : Told w.duty w.events

theorem Truthful.note (hw : w.Truthful) {e : Event} (he : e.Fits w.duty w.calls) :
    (w.note e).Truthful := by
  refine ⟨calls_note hw.calls e, ?_, hw.told⟩
  rw [← hw.calls]
  exact he

/-- Only events count. -/
theorem Truthful.congr (hw : w.Truthful) {w' : Worker} (hduty : w'.duty = w.duty)
    (hevents : w'.events = w.events) (hcalls : w'.calls = w.calls) : w'.Truthful := by
  constructor
  · rw [hcalls, hevents]
    exact hw.calls
  · rw [hduty, hevents]
    exact hw.told

theorem truthful_turn {h : Host} {born : Machine} {m : Moment} {g g' : Gauges} {w' : Worker}
    (hw : w.Truthful) (turn : Turn a h born m g w g' w') : w'.Truthful := by
  cases turn with
  | refuse | quiet | close | count | countLate | leave => exact hw.congr rfl rfl rfl
  | schedule => exact (hw.note (e := .scheduled) trivial).congr rfl rfl rfl
  | teardown => exact (hw.note (e := .teardown) trivial).congr rfl rfl rfl
  | ready _ ending | failSetup _ _ ending | panicSetup _ ending =>
    exact (hw.note (e := .setup _) ending.symm).congr rfl rfl rfl
  | call _ _ ending | failCall _ _ _ ending | panicCall _ _ ending =>
    exact (hw.note (e := .process _) ending.symm).congr rfl rfl rfl

theorem gone_of_exit? {exit : Exit} (hexit : w.exit? = some exit) : w.stage = .gone exit := by
  unfold exit? at hexit
  split at hexit
  · next hstage => rw [hstage, Option.some.inj hexit]
  · cases hexit

theorem Sound.ended (hs : w.Sound a met) {exit : Exit} (hexit : w.exit? = some exit) :
    Ended a met exit w.report w.events :=
  (hs.course (gone_of_exit? hexit)).of_gone

theorem Sound.lawful (hs : w.Sound a met) : w.Lawful a met := by
  have ho := Course.inOrder hs
  constructor
  · exact ho
  · refine ho.countP_le_one fun e e' he he' => ?_
    cases e <;> cases he
    cases e' <;> cases he'
    rfl
  · intro later ending earlier hevents
    have hmem : .setup ending ∈ w.events := by simp [hevents]
    obtain ⟨hscheduled, hinForce⟩ := Course.scheduled_of_setup hs hmem
    rw [hevents] at ho hscheduled
    exact ⟨ho.mem_earlier hscheduled nofun rfl, hinForce⟩
  · intro later ending earlier hevents
    have hmem : .process ending ∈ w.events := by simp [hevents]
    have hsetup := hs.setup_of_report (Course.report_of_process hs hmem)
    rw [hevents] at ho hsetup
    exact ho.mem_earlier hsetup nofun rfl
  · intro later earlier hevents
    rw [hevents] at ho
    obtain ⟨-, -, hacross⟩ := List.pairwise_append.1 ho
    refine List.eq_nil_iff_forall_not_mem.2 fun e he => ?_
    have hfollow := hacross e he .teardown (.head _)
    cases e <;> cases hfollow
  · intro hgone
    obtain ⟨exit, hexit⟩ := Option.isSome_iff_exists.1 hgone
    have hiff := (hs.ended hexit).teardown_iff
    split
    · next hwhen =>
      have hpos := List.count_pos_iff.2 (hiff.2 hwhen)
      have hle := ho.count_teardown_le
      omega
    · next hwhen => exact List.count_eq_zero.2 fun hmem => hwhen (hiff.1 hmem)

end

end Cadence.Worker
