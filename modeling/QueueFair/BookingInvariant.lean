import QueueFair.Booking

/-!
# What holds between the statements of calls

Two things are known of a call from where it stands. `Sound` is about what is
open: a call holds the lock of its event exactly from its claim to the end of
its transaction, with one ticket more than is committed, and has one insert
exactly before its commit. `Justified` is about what is committed: a call
that is sold out has met its event full, and one that was refused an insert
has a booking to find.

Both are kept by every step of every call (`Invariant.step`). With them a
step changes the committed tables in one way only: the commit of a call adds
its booking, and counts it (`step_commits`).
-/

variable {ι : Type} [DecidableEq ι]

/-! ## Words for what is committed -/

/-- A booking of the call's own: for its token, or for its user and event. -/
def Booking.IsFor (b : Booking) (c : AdmissionClaims) : Prop :=
  b.tokenJti = c.jti ∨ b.eventId = c.eventId ∧ b.userId = c.userId

instance (b : Booking) (c : AdmissionClaims) : Decidable (b.IsFor c) :=
  inferInstanceAs (Decidable (b.tokenJti = c.jti ∨ b.eventId = c.eventId ∧ b.userId = c.userId))

namespace Database

/-- A booking of the call's own is committed. -/
def Booked (db : BookingDb ι) (c : AdmissionClaims) : Prop := ∃ b ∈ db.records, b.IsFor c

/-- An event exists and has no room. -/
def Full (db : BookingDb ι) (eventId : String) : Prop := ∃ e ∈ db.rows eventId, ¬ e.hasRoom

instance (db : BookingDb ι) (c : AdmissionClaims) : Decidable (db.Booked c) :=
  inferInstanceAs (Decidable (∃ b ∈ db.records, b.IsFor c))

instance (db : BookingDb ι) (eventId : String) : Decidable (db.Full eventId) :=
  inferInstanceAs (Decidable (∃ e ∈ db.rows eventId, ¬ e.hasRoom))

/-- **A session has claimed a ticket**: it holds the lock of the event, with
one ticket more than is committed, and no other lock. -/
structure Claimed (db : BookingDb ι) (i : ι) (eventId : String) : Prop where
  only : ∀ k r, db.locks k = some (i, r) → k = eventId
  claim : ∃ e, db.rows eventId = some e ∧ e.hasRoom ∧ db.locks eventId = some (i, e.claimed)

/-- What another session leaves of a claim is the claim. -/
theorem Leaves.claimed {db db' : BookingDb ι} {i : ι} {eventId : String} (h : Leaves i db db')
    (hc : db.Claimed i eventId) : db'.Claimed i eventId := by
  obtain ⟨e, hrow, hroom, hlock⟩ := hc.claim
  refine ⟨fun k r hl => hc.only k r ((h.locks k r).mp hl), e, ?_, hroom, (h.locks _ _).mpr hlock⟩
  rw [h.rows _ _ hlock]
  exact hrow

/-- **The commit of a claim** counts the ticket. -/
theorem Claimed.rows_commit {db : BookingDb ι} {i : ι} {eventId : String}
    (h : db.Claimed i eventId) :
    ∃ e, db.rows eventId = some e ∧ e.hasRoom
      ∧ (db.commit i).rows = Function.update db.rows eventId (some e.claimed) := by
  obtain ⟨e, hrow, hroom, hlock⟩ := h.claim
  refine ⟨e, hrow, hroom, ?_⟩
  funext k
  show db.row i k = _
  by_cases hk : k = eventId
  · subst hk
    rw [Function.update_self, row_of_locked hlock]
  · rw [Function.update_of_ne hk]
    exact row_of_not_locked (fun r hl => hk (h.only k r hl))

end Database

open Database

/-! ## What a statement can do -/

namespace CallPoint

/-- **All that the next statement of a call can come to**, and what it says
about the database it met. -/
inductive Issues (i : ι) (c : AdmissionClaims) (db : BookingDb ι) :
    CallPoint → CallPoint → BookingDb ι → Prop where
  | foundByJti {retry b} (hb : b ∈ db.records) (hj : b.tokenJti = c.jti) :
    Issues i c db (.findByJti retry) (.done (.returned ⟨b, false⟩)) db
  | missedByJti {retry} (h : ∀ b ∈ db.records, b.tokenJti ≠ c.jti) :
    Issues i c db (.findByJti retry) (.findByUser retry) db
  | foundByUser {retry b} (hb : b ∈ db.records) (hu : b.eventId = c.eventId ∧ b.userId = c.userId) :
    Issues i c db (.findByUser retry) (.done (.returned ⟨b, false⟩)) db
  | missedByUser (h : ∀ b ∈ db.records, ¬ (b.eventId = c.eventId ∧ b.userId = c.userId)) :
    Issues i c db (.findByUser false) .claim db
  | gaveUp (h : ∀ b ∈ db.records, ¬ (b.eventId = c.eventId ∧ b.userId = c.userId)) :
    Issues i c db (.findByUser true) (.done (.raised .integrityError)) db
  | claimWaits
    (h : db.update Event.NotOversold i c.eventId Event.hasRoom Event.claimed = .waits) :
    Issues i c db .claim .claim db
  | claimed {n db'}
    (h : db.update Event.NotOversold i c.eventId Event.hasRoom Event.claimed = .done n db')
    (hn : n ≠ 0) : Issues i c db .claim .create db'
  | turnedAway (h : ∀ e ∈ db.row i c.eventId, ¬ e.hasRoom) : Issues i c db .claim .checkExists db
  | oversold {e : Event} (hroom : e.hasRoom) (he : ¬ e.claimed.NotOversold) :
    Issues i c db .claim (.rollback .integrityError) db
  | missing (h : db.row i c.eventId = none) :
    Issues i c db .checkExists (.rollback (.eventNotFound c.eventId)) db
  | present (h : db.row i c.eventId ≠ none) :
    Issues i c db .checkExists (.rollback (.soldOut c.eventId)) db
  | createWaits {b} (hb : c.stored = some b) (h : db.insert Booking.Clashes i b = .waits) :
    Issues i c db .create .create db
  | tooLong (h : c.stored = none) : Issues i c db .create (.rollback .dataError) db
  | inserted {b n db'} (hb : c.stored = some b)
    (h : db.insert Booking.Clashes i b = .done n db') : Issues i c db .create .commit db'
  | refused {b b'} (hb : c.stored = some b) (hb' : b' ∈ db.visible i) (h : b'.Clashes b) :
    Issues i c db .create (.rollback .integrityError) db
  | committed : Issues i c db .commit (.done (.returned ⟨c.booking, true⟩)) (db.commit i)
  | rolledBack {error} :
    Issues i c db (.rollback error) (afterRollback error) (db.rollback i)
  | ended {outcome} : Issues i c db (.done outcome) (.done outcome) db

/-- A statement comes to one of these. -/
theorem advance_issues (i : ι) (c : AdmissionClaims) (db : BookingDb ι) (p : CallPoint) :
    Issues i c db p (p.advance i c db).1 (p.advance i c db).2 := by
  cases p with
  | findByJti retry =>
    simp only [advance]
    split
    · next b hb =>
      exact .foundByJti (List.mem_of_find?_eq_some hb) (by simpa using List.find?_some hb)
    · next hb => exact .missedByJti (by simpa using hb)
  | findByUser retry =>
    simp only [advance]
    split
    · next b hb =>
      exact .foundByUser (List.mem_of_find?_eq_some hb) (by simpa using List.find?_some hb)
    · next hb =>
      cases retry with
      | false => exact .missedByUser (by simpa using hb)
      | true => exact .gaveUp (by simpa using hb)
  | claim =>
    simp only [advance]
    split
    · next h => exact .claimWaits h
    · next n db' h =>
      dsimp only
      by_cases hn : n = 0
      · rw [if_pos hn]
        obtain ⟨-, rfl, hcond⟩ | ⟨e, h1, -⟩ := update_cases h
        · exact .turnedAway hcond
        · exact absurd (hn.symm.trans h1) (by decide)
      · rw [if_neg hn]
        exact .claimed h hn
    · next h =>
      obtain ⟨e, -, hroom, he⟩ := update_violates h
      exact .oversold hroom he
  | checkExists =>
    simp only [advance]
    split
    · next h => exact .missing h
    · next h => exact .present (by simp [h])
  | create =>
    simp only [advance]
    split
    · next h => exact .tooLong h
    · next b hb =>
      split
      · next h => exact .createWaits hb h
      · next h => exact .inserted hb h
      · next h =>
        obtain ⟨b', hb', hcl⟩ := insert_violates h
        exact .refused hb hb' hcl
  | commit => exact .committed
  | rollback error => exact .rolledBack
  | done outcome => exact .ended

/-! ## What is open -/

/-- **What a call has open at each point.** -/
def Sound (i : ι) (c : AdmissionClaims) (db : BookingDb ι) : CallPoint → Prop
  | .create => db.Claimed i c.eventId ∧ db.insertsOf i = []
  | .commit => db.Claimed i c.eventId ∧ ∃ b, c.stored = some b ∧ db.insertsOf i = [b]
  | .rollback _ => True
  | _ => db.Idle i

variable {i j : ι} {c : AdmissionClaims} {db db' : BookingDb ι} {p q : CallPoint}

/-- What the steps of others leave of a call is sound. -/
theorem Sound.leaves (h : p.Sound i c db) (hl : Leaves i db db') : p.Sound i c db' := by
  cases p with
  | create => exact ⟨hl.claimed h.1, hl.inserts.trans h.2⟩
  | commit =>
    obtain ⟨hc, b, hb, hi⟩ := h
    exact ⟨hl.claimed hc, b, hb, hl.inserts.trans hi⟩
  | rollback e => trivial
  | _ => exact hl.idle h

/-- A statement of a call is one step of its session. -/
theorem Issues.served (h : Issues i c db p q db') :
    Served Event.NotOversold Booking.Clashes i db db' := by
  cases h with
  | claimed h hn => exact .update h
  | inserted hb h => exact .insert h
  | committed => exact .commit
  | rolledBack => exact .rollback
  | _ => exact .nothing

/-- What a claim that succeeds has open. -/
theorem claimed_of_update {n : ℕ} (h : db.Idle i)
    (hu : db.update Event.NotOversold i c.eventId Event.hasRoom Event.claimed = .done n db')
    (hn : n ≠ 0) : db'.Claimed i c.eventId ∧ db'.insertsOf i = [] := by
  obtain ⟨rfl, -⟩ | ⟨e, -, hrow, hroom, -, -, rfl⟩ := update_cases hu
  · exact absurd rfl hn
  · refine ⟨⟨fun k r hl => ?_, e, ?_, hroom, Function.update_self _ _ _⟩, h.inserts⟩
    · by_contra hk
      replace hl : Function.update db.locks c.eventId _ k = some (i, r) := hl
      rw [Function.update_of_ne hk] at hl
      exact h.locks k r hl
    · rw [row_of_not_locked (h.locks _)] at hrow
      exact hrow

/-- **A statement of a call leaves it sound.** -/
theorem Issues.sound (h : Issues i c db p q db') (hp : p.Sound i c db) : q.Sound i c db' := by
  cases h with
  | claimed h hn => exact claimed_of_update hp h hn
  | inserted hb h =>
    obtain ⟨-, -, rfl⟩ := insert_cases h
    refine ⟨⟨hp.1.only, hp.1.claim⟩, _, hb, ?_⟩
    rw [insertsOf_append, hp.2]
    simp
  | committed => exact idle_commit db i
  | rolledBack =>
    unfold afterRollback
    split <;> exact idle_rollback db i
  | oversold | missing | present | tooLong | refused => trivial
  | _ => exact hp

/-! ## What is committed -/

/-- **What each point of a call says about the committed tables.** -/
def Justified (c : AdmissionClaims) (db : BookingDb ι) : CallPoint → Prop
  | .findByJti true | .rollback .integrityError => c.Fits → db.Booked c
  | .findByUser true =>
    c.Fits → ∃ b ∈ db.records, b.eventId = c.eventId ∧ b.userId = c.userId
  | .checkExists => db.rows c.eventId = none ∨ db.Full c.eventId
  | .rollback (.soldOut eventId) | .done (.raised (.soldOut eventId)) =>
    eventId = c.eventId ∧ db.Full eventId
  | .rollback (.eventNotFound eventId) | .done (.raised (.eventNotFound eventId)) =>
    eventId = c.eventId ∧ db.rows eventId = none
  | .rollback .dataError | .done (.raised .dataError) | .done (.raised .integrityError) => ¬ c.Fits
  | .done (.returned r) => c.Fits → r.booking ∈ db.records ∧ r.booking.IsFor c
  | .rollback .aborted => False
  | _ => True

/-- What a commit of somebody leaves of the committed tables: every booking,
and whether an event is missing or full. -/
structure Grows (db db' : BookingDb ι) : Prop where
  records : ∀ b ∈ db.records, b ∈ db'.records
  missing : ∀ e, db.rows e = none → db'.rows e = none
  full : ∀ e, db.Full e → db'.Full e

omit [DecidableEq ι] in
/-- What is justified stays so. -/
theorem Justified.grows (h : p.Justified c db) (hg : Grows db db') : p.Justified c db' := by
  have hbooked : ∀ c, db.Booked c → db'.Booked c :=
    fun c hb => hb.imp (fun b hb => hb.imp_left (hg.records b))
  unfold Justified at h ⊢
  split at h
  · exact fun hf => hbooked c (h hf)
  · exact fun hf => hbooked c (h hf)
  · exact fun hf => (h hf).imp (fun b hb => hb.imp_left (hg.records b))
  · exact h.imp (hg.missing _) (hg.full _)
  · exact h.imp_right (hg.full _)
  · exact h.imp_right (hg.full _)
  · exact h.imp_right (hg.missing _)
  · exact h.imp_right (hg.missing _)
  · exact h
  · exact h
  · exact h
  · exact fun hf => (h hf).imp_left (hg.records _)
  · exact h
  · trivial

/-- **A statement of a call leaves it justified.** -/
theorem Issues.justified (h : Issues i c db p q db') (hs : p.Sound i c db)
    (hp : p.Justified c db) (hg : Grows db db') : q.Justified c db' := by
  cases h with
  | foundByJti hb hj => exact fun _ => ⟨hb, Or.inl hj⟩
  | @missedByJti retry h =>
    cases retry with
    | false => trivial
    | true =>
      intro hf
      obtain ⟨b, hb, hfor⟩ := hp hf
      exact ⟨b, hb, hfor.resolve_left (h b hb)⟩
  | foundByUser hb hu => exact fun _ => ⟨hb, Or.inr hu⟩
  | missedByUser h => trivial
  | gaveUp h =>
    intro hf
    obtain ⟨b, hb, hu⟩ := hp hf
    exact h b hb hu
  | claimWaits h => trivial
  | createWaits hb h => trivial
  | ended => exact hp
  | claimed h hn => trivial
  | turnedAway h =>
    replace hs : db.Idle i := hs
    rw [row_of_not_locked (hs.locks _)] at h
    show db.rows c.eventId = none ∨ db.Full c.eventId
    cases hrow : db.rows c.eventId with
    | none => exact Or.inl rfl
    | some e => exact Or.inr ⟨e, hrow, h e hrow⟩
  | @oversold e hroom he =>
    have hlt : e.ticketsBooked < e.capacity := by simpa [Event.hasRoom] using hroom
    exact absurd hlt he
  | missing h =>
    rw [row_of_not_locked ((show db.Idle i from hs).locks _)] at h
    exact ⟨rfl, h⟩
  | present h =>
    rw [row_of_not_locked ((show db.Idle i from hs).locks _)] at h
    exact ⟨rfl, hp.resolve_left h⟩
  | tooLong h =>
    intro hf
    rw [hf.stored] at h
    exact nomatch h
  | inserted hb h => trivial
  | @refused b b' hb hb' h =>
    intro hf
    rw [hf.stored] at hb
    obtain rfl := Option.some.inj hb
    unfold visible at hb'
    rw [hs.2, List.append_nil] at hb'
    exact ⟨b', hb', h⟩
  | committed =>
    intro hf
    obtain ⟨-, b, hb, hi⟩ := hs
    rw [hf.stored] at hb
    obtain rfl := Option.some.inj hb
    refine ⟨?_, Or.inl rfl⟩
    show _ ∈ db.records ++ db.insertsOf i
    rw [hi]
    exact List.mem_append_right _ (List.mem_singleton_self _)
  | @rolledBack error =>
    replace hp := hp.grows hg
    cases error with
    | aborted => trivial
    | _ => exact hp

end CallPoint

/-! ## A step of a call -/

namespace CallPoint

/-- **All that a step of a call can be**: its next statement, or an end
without an answer. -/
inductive Moves (i : ι) (c : AdmissionClaims) (db : BookingDb ι) :
    CallPoint → CallPoint → BookingDb ι → Prop where
  | issues {p q db'} (h : Issues i c db p q db') : Moves i c db p q db'
  | nothing {p} : Moves i c db p p db
  | aborted {p} : Moves i c db p (.done (.raised .aborted)) (db.rollback i)
  | replyLost : Moves i c db .commit (.done (.raised .aborted)) (db.commit i)

/-- **What a step of a call makes of the committed tables**: nothing, or it
commits the booking of the call and counts it. -/
inductive Commits (c : AdmissionClaims) (p : CallPoint) (db db' : BookingDb ι) : Prop where
  | nothing (hrows : db'.rows = db.rows) (hrecords : db'.records = db.records)
  | booking {e : Event} {b : Booking} (hp : p = .commit) (hb : c.stored = some b)
    (hrow : db.rows c.eventId = some e) (hroom : e.hasRoom)
    (hrows : db'.rows = Function.update db.rows c.eventId (some e.claimed))
    (hrecords : db'.records = db.records ++ [b])

variable {i j : ι} {c : AdmissionClaims} {db db' : BookingDb ι} {p q : CallPoint}

theorem Moves.served (h : Moves i c db p q db') :
    Served Event.NotOversold Booking.Clashes i db db' := by
  cases h with
  | issues h => exact h.served
  | nothing => exact .nothing
  | aborted => exact .rollback
  | replyLost => exact .commit

theorem Moves.sound (h : Moves i c db p q db') (hp : p.Sound i c db) : q.Sound i c db' := by
  cases h with
  | issues h => exact h.sound hp
  | nothing => exact hp
  | aborted => exact idle_rollback db i
  | replyLost => exact idle_commit db i

theorem Moves.justified (h : Moves i c db p q db') (hs : p.Sound i c db)
    (hp : p.Justified c db) (hg : Grows db db') : q.Justified c db' := by
  cases h with
  | issues h => exact h.justified hs hp hg
  | nothing => exact hp
  | aborted => trivial
  | replyLost => trivial

/-- What a call has open before its commit is one booking, and the count of
it. -/
theorem Sound.commits (h : CallPoint.commit.Sound i c db) :
    Commits c .commit db (db.commit i) := by
  obtain ⟨hc, b, hb, hi⟩ := h
  obtain ⟨e, hrow, hroom, hrows⟩ := hc.rows_commit
  refine .booking rfl hb hrow hroom hrows ?_
  show db.records ++ db.insertsOf i = _
  rw [hi]

theorem Moves.commits (h : Moves i c db p q db') (hp : p.Sound i c db) : Commits c p db db' := by
  cases h with
  | issues h =>
    cases h with
    | claimed h hn =>
      obtain ⟨-, rfl, -⟩ | ⟨e, -, -, -, -, -, rfl⟩ := update_cases h <;> exact .nothing rfl rfl
    | inserted hb h =>
      obtain ⟨-, -, rfl⟩ := insert_cases h
      exact .nothing rfl rfl
    | committed => exact hp.commits
    | _ => exact .nothing rfl rfl
  | nothing => exact .nothing rfl rfl
  | aborted => exact .nothing rfl rfl
  | replyLost => exact hp.commits

omit [DecidableEq ι] in
/-- Committed bookings stay, missing events stay missing, and full ones
full. -/
theorem Commits.grows (h : Commits c p db db') : Grows db db' := by
  cases h with
  | nothing hrows hrecords =>
    refine ⟨fun b hb => hrecords ▸ hb, fun e he => ?_, fun e he => ?_⟩
    · rw [hrows]
      exact he
    · unfold Full
      rw [hrows]
      exact he
  | booking hp hb hrow hroom hrows hrecords =>
    refine ⟨fun b hb => hrecords ▸ List.mem_append_left _ hb, fun k hk => ?_, fun k hk => ?_⟩
    · have hne : k ≠ c.eventId := by
        rintro rfl
        rw [hrow] at hk
        exact nomatch hk
      rw [hrows, Function.update_of_ne hne]
      exact hk
    · obtain ⟨e', he', hfull⟩ := hk
      have hne : k ≠ c.eventId := by
        rintro rfl
        obtain rfl := Option.some.inj (hrow.symm.trans he')
        exact hfull hroom
      refine ⟨e', ?_, hfull⟩
      rw [hrows, Function.update_of_ne hne]
      exact he'

end CallPoint

/-- Every step of the service is one of these. -/
theorem BookingAct.next_moves (claims : ι → AdmissionClaims) (s : BookingState ι)
    (a : BookingAct ι) :
    (s.call a.caller).Moves a.caller (claims a.caller) s.db (a.next claims s).1
      (a.next claims s).2 := by
  cases a with
  | advance i => exact .issues (CallPoint.advance_issues i _ _ _)
  | abort i =>
    show CallPoint.Moves i _ _ (s.call i) ((s.call i).abort i s.db).1 ((s.call i).abort i s.db).2
    cases hp : s.call i with
    | done o => exact .nothing
    | _ => exact .aborted
  | loseReply i =>
    show CallPoint.Moves i _ _ (s.call i) ((s.call i).loseReply i s.db).1
      ((s.call i).loseReply i s.db).2
    cases hp : s.call i with
    | commit => exact .replyLost
    | _ => exact .nothing

/-! ## Every reachable state -/

namespace BookingState

/-- **What holds between any two steps.** -/
structure Invariant (claims : ι → AdmissionClaims) (s : BookingState ι) : Prop where
  lawful : s.db.Lawful Event.NotOversold Booking.Clashes
  sound : ∀ i, (s.call i).Sound i (claims i) s.db
  justified : ∀ i, (s.call i).Justified (claims i) s.db

variable {claims : ι → AdmissionClaims} {s : BookingState ι}

/-- It holds before the first call. -/
theorem invariant_opened (claims : ι → AdmissionClaims) {db : BookingDb ι} (hdb : db.Settled)
    (hlaw : db.Lawful Event.NotOversold Booking.Clashes) : (opened db).Invariant claims :=
  ⟨hlaw, fun i => hdb.idle i, fun _ => trivial⟩

namespace Invariant

/-- What a step makes of the committed tables. -/
theorem step_commits (h : s.Invariant claims) (a : BookingAct ι) :
    (s.call a.caller).Commits (claims a.caller) s.db ((BookingService claims).step s a).2.db :=
  (a.next_moves claims s).commits (h.sound a.caller)

/-- **Every step keeps it.** -/
theorem step (h : s.Invariant claims) (a : BookingAct ι) :
    ((BookingService claims).step s a).2.Invariant claims := by
  have hmoves := a.next_moves claims s
  have hgrows := (h.step_commits a).grows
  refine ⟨hmoves.served.lawful Booking.Clashes.symm h.lawful, fun i => ?_, fun i => ?_⟩
  · by_cases hi : i = a.caller
    · subst hi
      rw [BookingService.step_call_self]
      exact hmoves.sound (h.sound _)
    · rw [BookingService.step_call_of_ne hi]
      exact (h.sound i).leaves (hmoves.served.leaves hi)
  · by_cases hi : i = a.caller
    · subst hi
      rw [BookingService.step_call_self]
      exact hmoves.justified (h.sound _) (h.justified _) hgrows
    · rw [BookingService.step_call_of_ne hi]
      exact (h.justified i).grows hgrows

/-- So it holds of every state that any steps lead to. -/
theorem final (h : s.Invariant claims) (acts : List (BookingAct ι)) :
    ((BookingService claims).final s acts).Invariant claims :=
  Machine.final_invariant _ (fun _ a _ h => h.step a) h

/-- **The rule for the committed tables**: what every commit keeps holds of
every state that any steps lead to. -/
theorem committed (h : s.Invariant claims) {Q : BookingDb ι → Prop}
    (hcommit : ∀ i p db db', CallPoint.Commits (claims i) p db db' →
      db'.Lawful Event.NotOversold Booking.Clashes → Q db → Q db')
    (hq : Q s.db) (acts : List (BookingAct ι)) :
    Q ((BookingService claims).final s acts).db := by
  have hrun : ((BookingService claims).final s acts).Invariant claims
      ∧ Q ((BookingService claims).final s acts).db := by
    refine Machine.final_invariant (BookingService claims)
      (P := fun s : BookingState ι => s.Invariant claims ∧ Q s.db) (fun s a _ hP => ?_) ⟨h, hq⟩
    exact ⟨hP.1.step a, hcommit _ _ _ _ (hP.1.step_commits a) (hP.1.step a).lawful hP.2⟩
  exact hrun.2

end Invariant

end BookingState
