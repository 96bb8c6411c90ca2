import Cadence.Proofs.Ring.Flow

/-!
What may happen while somebody counts. Between the two loads of a count everybody else goes on, but
whoever counts does nothing else: so the producer's own cursor stays for its counts, and the
consumer's for its own, while for others both may move on.
-/

namespace Cadence.Ring.Traffic

variable {α : Type} {c : Capacity} {n : Nat} {t u u' : Traffic α c n} {s : UInt64} {xs : List α}
  {m : Move α n} {who : Party n}

theorem log_of_turn (turn : Turn u m u') : u'.log = u.log ∨ ∃ call, u'.log = u.log ++ [call] := by
  cases turn with
  | refuse | publish | miss | release => exact .inr ⟨_, rfl⟩
  | offer | seek | permit | fill | ask | locate | enter | copy => exact .inl rfl
  | look | first | second => exact .inl (setCounting_log ..)

theorem pushed_of_turn (turn : Turn u m u') : u.pushed <+: u'.pushed := by
  rcases log_of_turn turn with hlog | ⟨call, hlog⟩
  · have heq : u'.pushed = u.pushed := by rw [pushed, pushed, hlog]
    exact heq ▸ List.prefix_refl _
  · rw [pushed, pushed, hlog, Fifo.pushed_concat]
    exact List.prefix_append _ _

theorem popped_of_turn (turn : Turn u m u') : u.popped <+: u'.popped := by
  rcases log_of_turn turn with hlog | ⟨call, hlog⟩
  · have heq : u'.popped = u.popped := by rw [popped, popped, hlog]
    exact heq ▸ List.prefix_refl _
  · rw [popped, popped, hlog, Fifo.popped_concat]
    exact List.prefix_append _ _

theorem pushed_of_run {moves : List (Move α n)} (hrun : u.run moves = some u') :
    u.pushed <+: u'.pushed :=
  run_keeps (P := fun v => u.pushed <+: v.pushed)
    (fun _ _ _ h hfire => h.trans (pushed_of_turn (turn_of_fire hfire))) (List.prefix_refl _) hrun

theorem counting_of_isIdle (h : t.isIdle who = true) : t.counting who = none := by
  cases who with
  | producer => rw [counting, Option.isNone_iff_eq_none.1 h]; rfl
  | consumer => rw [counting, Option.isNone_iff_eq_none.1 h]; rfl
  | other i => exact Option.isNone_iff_eq_none.1 h

theorem not_work_of_counting_producer {pc : Count} {w : α × Push α}
    (h : t.counting .producer = some pc) : t.producer ≠ some (.work w) := by
  intro hp
  rw [counting, hp] at h
  cases h

theorem not_work_of_counting_consumer {pc : Count} {w : Pop α}
    (h : t.counting .consumer = some pc) : t.consumer ≠ some (.work w) := by
  intro hc
  rw [counting, hc] at h
  cases h

theorem counting_setCounting_of_ne {x : Option Count} {who' : Party n} (hne : who ≠ who') :
    (t.setCounting x who').counting who = t.counting who := by
  cases who with
  | producer => cases who' with
    | producer => exact absurd rfl hne
    | consumer | other i => rfl
  | consumer => cases who' with
    | consumer => exact absurd rfl hne
    | producer | other i => rfl
  | other i => cases who' with
    | producer | consumer => rfl
    | other j => exact get_replaceAt_of_ne _ _ fun hij => hne (congrArg Party.other hij)

/-- A count stands where it is until its own next load. -/
theorem counting_of_turn {pc : Count} (h : u.counting who = some pc) (turn : Turn u m u')
    (hm : m ≠ .load who) : u'.counting who = some pc := by
  cases turn with
  | offer item here | seek item i here | refuse item i write here | permit item i write here
  | fill item i write here | publish item write here =>
    cases who with
    | producer => simp [counting, here, Task.count?] at h
    | consumer | other i => exact h
  | ask here | locate here | miss read here | enter read here | copy read here
  | release read item here =>
    cases who with
    | consumer => simp [counting, here, Task.count?] at h
    | producer | other i => exact h
  | look who' idle =>
    rw [counting_setCounting_of_ne]
    · exact h
    · rintro rfl
      rw [counting_of_isIdle idle] at h
      cases h
  | first who' | second who' =>
    rw [counting_setCounting_of_ne fun he => hm (congrArg Move.load he.symm)]
    exact h

theorem pushed_of_counting {pc : Count} (h : u.counting .producer = some pc)
    (turn : Turn u m u') : u'.pushed = u.pushed := by
  cases turn with
  | publish item write here | refuse item i write here =>
    exact absurd here (not_work_of_counting_producer h)
  | miss | release => exact Fifo.pushed_concat_of_none rfl
  | offer | seek | permit | fill | ask | locate | enter | copy => rfl
  | look | first | second => exact congrArg Fifo.pushed (setCounting_log ..)

theorem popped_of_counting {pc : Count} (h : u.counting .consumer = some pc)
    (turn : Turn u m u') : u'.popped = u.popped := by
  cases turn with
  | miss read here | release read item here =>
    exact absurd here (not_work_of_counting_consumer h)
  | publish | refuse => exact Fifo.popped_concat_of_none rfl
  | offer | seek | permit | fill | ask | locate | enter | copy => rfl
  | look | first | second => exact congrArg Fifo.popped (setCounting_log ..)

/-- The state `u` comes after the state `t` in which a party loaded the read cursor, and before the
load of the write cursor. -/
structure Between (s : UInt64) (t : Traffic α c n) (who : Party n) (read : UInt64)
    (u : Traffic α c n) : Prop where
  flowing : ∃ xs, Flowing s xs u
  counting : u.counting who = some (.positioned read)
  pushed : t.pushed <+: u.pushed
  popped : t.popped <+: u.popped
  ownPushed : who = .producer → u.pushed = t.pushed
  ownPopped : who = .consumer → u.popped = t.popped

theorem between_turn {read : UInt64} (h : Between s t who read u) (turn : Turn u m u')
    (hm : m ≠ .load who) : Between s t who read u' := by
  obtain ⟨xs, hflow⟩ := h.flowing
  refine ⟨flowing_turn hflow turn, counting_of_turn h.counting turn hm,
    h.pushed.trans (pushed_of_turn turn), h.popped.trans (popped_of_turn turn), ?_, ?_⟩
  · rintro rfl
    exact (pushed_of_counting h.counting turn).trans (h.ownPushed rfl)
  · rintro rfl
    exact (popped_of_counting h.counting turn).trans (h.ownPopped rfl)

theorem between_run {read : UInt64} {moves : List (Move α n)} (h : Between s t who read u)
    (hrun : u.run moves = some u') (hmoves : .load who ∉ moves) : Between s t who read u' :=
  run_keeps_of_mem (P := Between s t who read)
    (fun _ hm _ _ hb hfire => between_turn hb (turn_of_fire hfire) fun he => hmoves (he ▸ hm))
    h hrun

end Cadence.Ring.Traffic
