import QueueFair.BookingInvariant

/-!
# Replays for the last ticket

A call looks its booking up before it claims a ticket, and once more if its
insert is refused. A call whose claim finds no room does neither: it answers
that the event is sold out. So a call that found no booking, and reaches its
claim when the twin it races has committed its booking and taken the last
ticket, is told that the event is sold out – although the booking is there.

This is the only way. In a run in which no call of somebody already booked
claims a ticket of a full event, and no booking is committed for the token of
a call that has been turned away, a call that ends while a booking of its own
is committed is given that booking (`replays_idempotently`). The condition is
the exact one for no call being turned away while it is booked
(`unbooked_iff`).
-/

open Database

variable {ι : Type} [DecidableEq ι]

/-- The visits of the booking service. -/
abbrev BookingVisit (ι : Type) : Type :=
  Visit (BookingState ι) (BookingAct ι) (Option Outcome)

/-! ## The property -/

/-- **A replay is given its booking.** Of the calls that end while a booking
of their own is committed, none is told that the event is sold out; and if
the event exists and the claims fit their columns, the call returns a booking
of its own, not created by it. -/
def ReplaysIdempotently (claims : ι → AdmissionClaims) (xs : List (BookingVisit ι)) : Prop :=
  ∀ x ∈ xs, ∀ i o, x.action = .advance i → x.reply = some o → x.before.db.Booked (claims i) →
    (∀ eventId, o ≠ .raised (.soldOut eventId))
    ∧ ((claims i).Fits → x.before.db.rows (claims i).eventId ≠ none →
      ∃ b ∈ x.before.db.records, b.IsFor (claims i) ∧ o = .returned ⟨b, false⟩)

/-- A call has claimed no ticket and has not answered yet. -/
def CallPoint.turnedAway : CallPoint → Bool
  | .checkExists => true
  | .rollback (.soldOut _) => true
  | _ => false

/-- **The condition on a step**: a claim of somebody already booked does not
find its event full when it is executed, be it at once or after it has waited
for the row; and a commit does not book for the token of a call that is being
turned away from a full event. -/
structure LeavesRoom (claims : ι → AdmissionClaims) (s : BookingState ι) (a : BookingAct ι) :
    Prop where
  claim : ∀ i, a = .advance i → s.call i = .claim → s.db.Booked (claims i) →
    ¬ s.db.Full (claims i).eventId
  commit : ∀ j, a = .advance j ∨ a = .loseReply j → s.call j = .commit →
    ∀ b ∈ (claims j).stored, ∀ i, (s.call i).turnedAway → s.db.Full (claims i).eventId →
      b.tokenJti ≠ (claims i).jti

/-- No call is being turned away from a full event while a booking of its own
is committed. -/
def BookingState.Unbooked (claims : ι → AdmissionClaims) (s : BookingState ι) : Prop :=
  ∀ i, (s.call i).turnedAway → s.db.Full (claims i).eventId → ¬ s.db.Booked (claims i)

/-! ## The condition is exact -/

namespace CallPoint

variable {i : ι} {c : AdmissionClaims} {db db' : BookingDb ι} {p q : CallPoint}

/-- A statement turns a call away where it was turned away before, or is a
claim. -/
theorem Issues.of_turnedAway (h : Issues i c db p q db') (hq : q.turnedAway) :
    db' = db ∧ (p.turnedAway ∨ p = .claim) := by
  cases h with
  | turnedAway h => exact ⟨rfl, Or.inr rfl⟩
  | present h => exact ⟨rfl, Or.inl rfl⟩
  | @rolledBack error => cases error <;> exact nomatch hq
  | _ => exact nomatch hq

/-- A claim that meets its event full turns the call away. -/
theorem advance_claim_of_full (h : db.Idle i) (hfull : db.Full c.eventId) :
    CallPoint.claim.advance i c db = (.checkExists, db) := by
  obtain ⟨e, hrow, hroom⟩ := hfull
  have hupdate : db.update Event.NotOversold i c.eventId Event.hasRoom Event.claimed
      = .done 0 db := by
    unfold Database.update
    rw [row_of_not_locked (h.locks _), show db.rows c.eventId = some e from hrow]
    exact if_neg hroom
  simp only [CallPoint.advance, hupdate]
  rfl

end CallPoint

namespace BookingAct

variable {claims : ι → AdmissionClaims} {s : BookingState ι}

/-- A step turns a call away where it was turned away before, or is its
claim. -/
theorem turnedAway_of_next {a : BookingAct ι} (h : (a.next claims s).1.turnedAway) :
    (a.next claims s).2 = s.db
      ∧ ((s.call a.caller).turnedAway ∨ a = .advance a.caller ∧ s.call a.caller = .claim) := by
  cases a with
  | advance i =>
    exact ((CallPoint.advance_issues i _ _ _).of_turnedAway h).imp_right (Or.imp_right (⟨rfl, ·⟩))
  | abort i =>
    replace h : ((s.call i).abort i s.db).1.turnedAway := h
    cases hp : s.call i <;> rw [hp] at h <;> exact nomatch h
  | loseReply i =>
    replace h : ((s.call i).loseReply i s.db).1.turnedAway := h
    show ((s.call i).loseReply i s.db).2 = s.db ∧ ((s.call i).turnedAway ∨ _)
    cases hp : s.call i <;> rw [hp] at h
    case commit => exact nomatch h
    all_goals exact ⟨rfl, Or.inl h⟩

end BookingAct

namespace BookingState.Invariant

variable {claims : ι → AdmissionClaims} {s : BookingState ι}

/-- A call that is turned away, with its event full after a step, had it full
before. -/
theorem full_of_step (h : s.Invariant claims) (a : BookingAct ι) {i : ι}
    (haway : (s.call i).turnedAway)
    (hfull : ((BookingService claims).step s a).2.db.Full (claims i).eventId) :
    s.db.Full (claims i).eventId := by
  have hjust := h.justified i
  have hgrows := (h.step_commits a).grows
  cases hp : s.call i with
  | checkExists =>
    rw [hp] at hjust
    refine hjust.resolve_left (fun hmissing => ?_)
    obtain ⟨e, he, -⟩ := hfull
    exact absurd ((hgrows.missing _ hmissing).symm.trans he) (by simp)
  | rollback error =>
    rw [hp] at hjust haway
    cases error with
    | soldOut eventId =>
      obtain ⟨rfl, hfull⟩ := hjust
      exact hfull
    | _ => exact nomatch haway
  | _ =>
    rw [hp] at haway
    exact nomatch haway

/-- A call commits its booking. -/
theorem mem_records_commit (h : s.Invariant claims) {j : ι} (hj : s.call j = .commit)
    {b : Booking} (hb : (claims j).stored = some b) : b ∈ (s.db.commit j).records := by
  have hsound := h.sound j
  rw [hj] at hsound
  obtain ⟨-, b', hb', hi⟩ := hsound
  obtain rfl := Option.some.inj (hb.symm.trans hb')
  show b ∈ s.db.records ++ s.db.insertsOf j
  rw [hi]
  exact List.mem_append_right _ (List.mem_singleton_self b)

/-- A booking that a step commits is the one of its call, and the step is the
commit. -/
theorem eq_stored_of_mem_step (h : s.Invariant claims) (a : BookingAct ι) {b : Booking}
    (hb : b ∈ ((BookingService claims).step s a).2.db.records) (hnew : b ∉ s.db.records) :
    (claims a.caller).stored = some b ∧ s.call a.caller = .commit
      ∧ ¬ s.db.Full (claims a.caller).eventId
      ∧ (a = .advance a.caller ∨ a = .loseReply a.caller) := by
  have hcommits := h.step_commits a
  cases hcommits with
  | nothing hrows hrecords => exact absurd (hrecords ▸ hb) hnew
  | booking hp hstored hrow hroom hrows hrecords =>
    rw [hrecords] at hb
    obtain rfl := List.mem_singleton.mp ((List.mem_append.mp hb).resolve_left hnew)
    refine ⟨hstored, hp, fun hfull => ?_, ?_⟩
    · obtain ⟨e, he, hno⟩ := hfull
      obtain rfl := Option.some.inj (hrow.symm.trans he)
      exact hno hroom
    · cases a with
      | advance j => exact Or.inl rfl
      | loseReply j => exact Or.inr rfl
      | abort j =>
        replace hrecords : ((s.call j).abort j s.db).2.records = _ := hrecords
        rw [show s.call j = .commit from hp] at hrecords
        exact absurd hrecords (by simp [CallPoint.abort, Database.rollback])

/-- A claim of somebody booked that meets its event full turns them away. -/
theorem turnedAway_of_claim (h : s.Invariant claims) {i : ι} (hclaim : s.call i = .claim)
    (hfull : s.db.Full (claims i).eventId) :
    (BookingAct.advance i).next claims s = (.checkExists, s.db) := by
  have hidle := h.sound i
  rw [hclaim] at hidle
  show (s.call i).advance i (claims i) s.db = _
  rw [hclaim]
  exact CallPoint.advance_claim_of_full hidle hfull

/-- **Where a step keeps everybody who is turned away unbooked, it meets the
condition.** -/
theorem leavesRoom_of_step (h : s.Invariant claims) {a : BookingAct ι}
    (hafter : ((BookingService claims).step s a).2.Unbooked claims) : LeavesRoom claims s a := by
  constructor
  · rintro i rfl hclaim hbooked hfull
    have hnext := h.turnedAway_of_claim hclaim hfull
    have hdb : ((BookingService claims).step s (.advance i)).2.db = s.db := congrArg Prod.snd hnext
    refine hafter i ?_ (hdb.symm ▸ hfull) (hdb.symm ▸ hbooked)
    rw [show ((BookingService claims).step s (.advance i)).2.call i = .checkExists from
      BookingService.step_call_self.trans (congrArg Prod.fst hnext)]
    rfl
  · intro j ha hj b hb i haway hfull hjti
    have hdb : ((BookingService claims).step s a).2.db = s.db.commit j := by
      obtain rfl | rfl := ha
      · show ((s.call j).advance j (claims j) s.db).2 = _
        rw [hj]
        rfl
      · show ((s.call j).loseReply j s.db).2 = _
        rw [hj]
        rfl
    have hij : i ≠ a.caller := by
      have hcaller : a.caller = j := by obtain rfl | rfl := ha <;> rfl
      rintro rfl
      rw [hcaller, hj] at haway
      exact nomatch haway
    refine hafter i ?_ ((h.step_commits a).grows.full _ hfull) ?_
    · rw [BookingService.step_call_of_ne hij]
      exact haway
    · exact ⟨b, hdb ▸ h.mem_records_commit hj hb, Or.inl hjti⟩

/-- **A step that meets the condition keeps everybody who is turned away
unbooked.** -/
theorem unbooked_of_step (h : s.Invariant claims) (hs : s.Unbooked claims) {a : BookingAct ι}
    (hroom : LeavesRoom claims s a) : ((BookingService claims).step s a).2.Unbooked claims := by
  intro i haway hfull hbooked
  by_cases hi : i = a.caller
  · subst hi
    rw [BookingService.step_call_self] at haway
    obtain ⟨hsame, hbefore⟩ := a.turnedAway_of_next haway
    have hdb : ((BookingService claims).step s a).2.db = s.db := hsame
    rw [hdb] at hfull hbooked
    rcases hbefore with hbefore | ⟨ha, hclaim⟩
    · exact hs _ hbefore hfull hbooked
    · exact hroom.claim _ ha hclaim hbooked hfull
  · rw [BookingService.step_call_of_ne hi] at haway
    have hfull' := h.full_of_step a haway hfull
    obtain ⟨b, hb, hfor⟩ := hbooked
    by_cases hold : b ∈ s.db.records
    · exact hs i haway hfull' ⟨b, hold, hfor⟩
    · -- the booking is the one this step commits
      obtain ⟨hstored, hcommit, hnotFull, ha⟩ := h.eq_stored_of_mem_step a hb hold
      rcases hfor with hjti | ⟨hevent, -⟩
      · exact hroom.commit _ ha hcommit b hstored i haway hfull' hjti
      · rw [← hevent, AdmissionClaims.stored_eventId hstored] at hfull'
        exact hnotFull hfull'

end BookingState.Invariant

/-- **The condition is exact**: over a run, nobody is ever turned away from a
full event while booked, if and only if every step meets it. -/
theorem unbooked_iff (claims : ι → AdmissionClaims) {db₀ : BookingDb ι} (hdb : db₀.Settled)
    (hlaw : db₀.Lawful Event.NotOversold Booking.Clashes) (acts : List (BookingAct ι)) :
    (∀ bs, bs <+: acts →
        ((BookingService claims).final (.opened db₀) bs).Unbooked claims)
      ↔ ∀ bs a, bs ++ [a] <+: acts →
        LeavesRoom claims ((BookingService claims).final (.opened db₀) bs) a := by
  refine Machine.prefix_iff (BookingService claims) (P := BookingState.Invariant claims)
    (fun s a h => h.step a) (fun s a h hs => ⟨h.leavesRoom_of_step, h.unbooked_of_step hs⟩)
    (BookingState.invariant_opened claims hdb hlaw) ?_ acts
  exact fun i h => nomatch h

/-! ## Under the condition, replays are idempotent -/

omit [DecidableEq ι] in
/-- While no event of a call is full, every step meets the condition. -/
theorem leavesRoom_of_not_full {claims : ι → AdmissionClaims} {s : BookingState ι}
    (h : ∀ i, ¬ s.db.Full (claims i).eventId) (a : BookingAct ι) : LeavesRoom claims s a :=
  ⟨fun i _ _ _ => h i, fun _ _ _ _ _ i _ hfull => absurd hfull (h i)⟩

namespace CallPoint

variable {i : ι} {c : AdmissionClaims} {db db' : BookingDb ι} {p q : CallPoint} {o : Outcome}

/-- A step ends a call where the call had not ended and has. -/
theorem ending_eq_some : p.ending q = some o ↔ (∀ o', p ≠ .done o') ∧ q = .done o := by
  cases p with
  | done o' => exact iff_of_false (by simp [ending]) (fun h => h.1 o' rfl)
  | _ => cases q <;> simp [ending]

/-- **A call that ends while it is booked** is given its booking, unless it
was turned away. -/
theorem Issues.replayed (h : Issues i c db p q db') (hp : ∀ o', p ≠ .done o') (hq : q = .done o)
    (hs : p.Sound i c db) (hj : p.Justified c db)
    (hlaw : db.Lawful Event.NotOversold Booking.Clashes) (hb : db.Booked c)
    (haway : ¬ (p.turnedAway ∧ db.Full c.eventId)) :
    (∀ eventId, o ≠ .raised (.soldOut eventId))
    ∧ (c.Fits → db.rows c.eventId ≠ none →
      ∃ b ∈ db.records, b.IsFor c ∧ o = .returned ⟨b, false⟩) := by
  cases h with
  | foundByJti hb hjti =>
    obtain rfl := CallPoint.done.inj hq
    exact ⟨fun _ h => (nomatch h), fun _ _ => ⟨_, hb, Or.inl hjti, rfl⟩⟩
  | foundByUser hb hu =>
    obtain rfl := CallPoint.done.inj hq
    exact ⟨fun _ h => (nomatch h), fun _ _ => ⟨_, hb, Or.inr hu, rfl⟩⟩
  | gaveUp h =>
    obtain rfl := CallPoint.done.inj hq
    refine ⟨fun _ h => (nomatch h), fun hf => ?_⟩
    obtain ⟨b, hb, hu⟩ := hj hf
    exact absurd hu (h b hb)
  | ended => exact absurd hq (hp o)
  | committed =>
    obtain rfl := CallPoint.done.inj hq
    refine ⟨fun _ h => (nomatch h), fun hf => ?_⟩
    -- the booking it commits clashes with the one there is
    obtain ⟨b, hb, hfor⟩ := hb
    obtain ⟨-, b', hb', hi⟩ := hs
    obtain rfl := Option.some.inj (hf.stored.symm.trans hb')
    have hlawful := (hlaw.commit Booking.Clashes.symm i).records_pairwise
    replace hlawful : (db.records ++ db.insertsOf i).Pairwise (fun a b => ¬ a.Clashes b) := hlawful
    rw [hi, List.pairwise_append] at hlawful
    exact absurd hfor (hlawful.2.2 b hb _ (List.mem_singleton_self _))
  | @rolledBack error =>
    cases error with
    | soldOut eventId =>
      obtain ⟨rfl, hfull⟩ := hj
      exact absurd ⟨rfl, hfull⟩ haway
    | eventNotFound eventId =>
      obtain ⟨rfl, hmissing⟩ := hj
      obtain rfl := CallPoint.done.inj hq
      exact ⟨fun _ h => (nomatch h), fun _ hrow => absurd hmissing hrow⟩
    | integrityError => exact nomatch hq
    | dataError =>
      obtain rfl := CallPoint.done.inj hq
      exact ⟨fun _ h => (nomatch h), fun hf => absurd hf hj⟩
    | aborted => exact hj.elim
  | _ => exact nomatch hq

end CallPoint

/-- **Replays are idempotent under concurrency.** Whatever calls are served,
in whatever order of their statements and wherever any of them end, if every
step leaves room for the replays. -/
theorem replays_idempotently (claims : ι → AdmissionClaims) {db₀ : BookingDb ι}
    (hdb : db₀.Settled) (hlaw : db₀.Lawful Event.NotOversold Booking.Clashes)
    (acts : List (BookingAct ι))
    (hroom : ∀ x ∈ (BookingService claims).trace (.opened db₀) acts,
      LeavesRoom claims x.before x.action) :
    ReplaysIdempotently claims ((BookingService claims).trace (.opened db₀) acts) := by
  have hvisits := Machine.trace_guarded (BookingService claims)
    (P := fun s : BookingState ι => s.Invariant claims ∧ s.Unbooked claims)
    (fun s a hP hC => ⟨hP.1.step a, hP.1.unbooked_of_step hP.2 hC⟩)
    ⟨BookingState.invariant_opened claims hdb hlaw, fun i h => (nomatch h)⟩ hroom
  intro x hx i o haction hreply hbooked
  obtain ⟨hinv, hunbooked⟩ := hvisits x hx
  rw [Machine.reply_of_mem_trace _ hx, haction] at hreply
  replace hreply : (x.before.call i).ending _ = some o := hreply
  obtain ⟨hp, hq⟩ := CallPoint.ending_eq_some.mp hreply
  exact (CallPoint.advance_issues i _ _ _).replayed hp hq (hinv.sound i) (hinv.justified i)
    hinv.lawful hbooked (fun h => hunbooked i h.1 h.2 hbooked)

/-- The same token presented twice for the last ticket: both calls find no
booking, the first books, and the second is told that the event is sold
out. -/
theorem replays_idempotently_fails_for_last_ticket :
    ¬ ReplaysIdempotently (fun _ : Bool => ⟨"a", "e", "j", 0, 60⟩)
      ((BookingService (fun _ : Bool => ⟨"a", "e", "j", 0, 60⟩)).trace
        (.opened (.onSale "e" ⟨1, 0⟩ []))
        [.advance true, .advance true, .advance false, .advance false, .advance true,
          .advance true, .advance true, .advance false, .advance false, .advance false]) := by
  intro h
  have hlast := h _ (List.mem_of_getLast? rfl) false (.raised (.soldOut "e")) rfl
    (by decide +kernel) (by decide +kernel)
  exact hlast.1 "e" rfl

/-- The same token presented twice for the last ticket but one: the second
call waits for the first, is refused its insert, and returns the booking. -/
theorem replays_idempotently_of_room :
    ReplaysIdempotently (fun _ : Bool => ⟨"a", "e", "j", 0, 60⟩)
      ((BookingService (fun _ : Bool => ⟨"a", "e", "j", 0, 60⟩)).trace
        (.opened (.onSale "e" ⟨2, 0⟩ []))
        [.advance true, .advance true, .advance false, .advance false, .advance true,
          .advance false, .advance true, .advance true, .advance false, .advance false,
          .advance false, .advance false]) := by
  refine replays_idempotently _ settled_onSale (lawful_onSale (by decide) (by decide)) _
    (fun x hx => leavesRoom_of_not_full (fun _ => ?_) _)
  revert x
  decide +kernel
