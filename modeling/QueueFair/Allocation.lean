import QueueFair.NoOversell
import QueueFair.Replay
import Mathlib.Data.Fintype.Basic

/-!
# Who gets the tickets

A finite number of calls for one event, run to completion in any order of
their statements. The claims are those of issued passes (`IssuedPasses`), so
a booking found by the token is a booking for the caller's event and user.

Then the run settles everything but who is first (`exact_allocation`). As
many tickets are booked as are left, or as there are users without one; each
new booking was created by exactly one call, and every other call that
returns is given a booking of its own user; nothing but sold out escapes, and
only from a call whose claim met as many bookings as the capacity. A claim
that was rolled back was never among them.
-/

open Database

variable {ι : Type} [DecidableEq ι]

/-- **What the issuer guarantees** of the passes that the calls present, and
of those that were presented before: a `jti` identifies the pass, and the ids
it mints – 32 hexadecimal digits – fit their columns. -/
structure IssuedPasses (claims : ι → AdmissionClaims) (db₀ : BookingDb ι) : Prop where
  calls : ∀ i j, (claims i).jti = (claims j).jti →
    (claims i).eventId = (claims j).eventId ∧ (claims i).userId = (claims j).userId
  prior : ∀ i, ∀ b ∈ db₀.records, b.tokenJti = (claims i).jti →
    b.eventId = (claims i).eventId ∧ b.userId = (claims i).userId
  fits : ∀ i, (claims i).Fits

/-- A call has ended with a booking it created. -/
def CallPoint.Creator (b : Booking) (p : CallPoint) : Prop := p = .done (.returned ⟨b, true⟩)

/-- **Exact allocation** of the tickets of an event, from the tables `db₀` to
the end `s` of a run with the history `xs`. -/
structure ExactAllocation [Fintype ι] (claims : ι → AdmissionClaims) (eventId : String)
    (capacity : ℕ) (db₀ : BookingDb ι) (xs : List (BookingVisit ι)) (s : BookingState ι) :
    Prop where
  /-- As many new bookings as tickets left, or as users without a booking. -/
  count : (s.db.bookingsOf eventId).length = (db₀.bookingsOf eventId).length
    + min (capacity - (db₀.bookingsOf eventId).length)
      (Finset.univ.image (fun i => (claims i).userId)
        \ ((db₀.bookingsOf eventId).map Booking.userId).toFinset).card
  /-- One creator to a new booking. -/
  creator : ∀ b ∈ s.db.bookingsOf eventId, b ∉ db₀.bookingsOf eventId → ∃! i, (s.call i).Creator b
  /-- What a call has created is a new booking. -/
  created : ∀ i b, (s.call i).Creator b → b ∈ s.db.bookingsOf eventId ∧ b ∉ db₀.bookingsOf eventId
  /-- A call is given a booking of its event and user. -/
  owned : ∀ i r, s.call i = .done (.returned r) →
    r.booking.eventId = (claims i).eventId ∧ r.booking.userId = (claims i).userId
  escapes : ∀ i error, s.call i = .done (.raised error) → error = .soldOut eventId
  /-- The claim of a call that is sold out met as many bookings as the
  capacity. -/
  sawFull : ∀ i error, s.call i = .done (.raised error) → ∃ x ∈ xs, x.action = .advance i
    ∧ x.before.call i = .claim ∧ (x.action.next claims x.before).1 = .checkExists
    ∧ (x.before.db.bookingsOf eventId).length = capacity

/-! ## Who created what -/

/-- **What a statement creates**: nothing, or the booking it commits, which
was not there. -/
theorem CallPoint.Issues.creates {i : ι} {c : AdmissionClaims} {db db' : BookingDb ι}
    {p q : CallPoint} (h : Issues i c db p q db') (hs : p.Sound i c db)
    (hlaw : db'.Lawful Event.NotOversold Booking.Clashes) (hf : c.Fits) :
    (db'.records = db.records ∧ ∀ b, q.Creator b ↔ p.Creator b)
    ∨ (db'.records = db.records ++ [c.booking] ∧ c.booking ∉ db.records
      ∧ ∀ b, q.Creator b ↔ p.Creator b ∨ b = c.booking) := by
  unfold Creator
  cases h with
  | claimed h hn =>
    refine Or.inl ⟨?_, by simp⟩
    obtain ⟨-, rfl, -⟩ | ⟨e, -, -, -, -, -, rfl⟩ := update_cases h <;> rfl
  | inserted hb h =>
    refine Or.inl ⟨?_, by simp⟩
    obtain ⟨-, -, rfl⟩ := insert_cases h
    rfl
  | committed =>
    obtain ⟨-, b, hb, hi⟩ := hs
    obtain rfl := Option.some.inj (hf.stored.symm.trans hb)
    have hrecords : (db.commit i).records = db.records ++ [c.booking] := by
      show db.records ++ db.insertsOf i = _
      rw [hi]
    have hpair := hlaw.records_pairwise
    rw [hrecords, List.pairwise_append] at hpair
    refine Or.inr ⟨hrecords, fun hmem => ?_, by simp [eq_comm]⟩
    exact hpair.2.2 _ hmem _ (List.mem_singleton_self _) (Or.inl rfl)
  | @rolledBack error => exact Or.inl ⟨rfl, by cases error <;> simp [afterRollback]⟩
  | ended => exact Or.inl ⟨rfl, fun _ => Iff.rfl⟩
  | _ => exact Or.inl ⟨rfl, by simp⟩

/-- **The creators of the new bookings**, over the bookings there were. -/
structure BookingState.Ledger (claims : ι → AdmissionClaims) (records₀ : List Booking)
    (s : BookingState ι) : Prop where
  old : ∀ b ∈ records₀, b ∈ s.db.records
  creator : ∀ b ∈ s.db.records, b ∈ records₀ ∨ ∃ i, (s.call i).Creator b
  created : ∀ i b, (s.call i).Creator b → b ∈ s.db.records ∧ b ∉ records₀
  unique : ∀ i j b, (s.call i).Creator b → (s.call j).Creator b → i = j
  booking : ∀ i b, (s.call i).Creator b → b = (claims i).booking

namespace BookingState.Ledger

variable {claims : ι → AdmissionClaims} {s s' : BookingState ι} {records₀ : List Booking}

omit [DecidableEq ι] in
/-- Before the first call. -/
theorem opened (db : BookingDb ι) : (BookingState.opened db).Ledger claims db.records :=
  ⟨fun _ hb => hb, fun _ hb => Or.inl hb, fun _ _ h => (nomatch h), fun _ _ _ h => (nomatch h),
    fun _ _ h => (nomatch h)⟩

omit [DecidableEq ι] in
/-- Nothing is created. -/
theorem of_nothing (h : s.Ledger claims records₀) (hrecords : s'.db.records = s.db.records)
    (hiff : ∀ j b, (s'.call j).Creator b ↔ (s.call j).Creator b) : s'.Ledger claims records₀ := by
  refine ⟨fun b hb => hrecords ▸ h.old b hb, fun b hb => ?_, fun j b hj => ?_,
    fun j k b hj hk => h.unique j k b ((hiff j b).mp hj) ((hiff k b).mp hk),
    fun j b hj => h.booking j b ((hiff j b).mp hj)⟩
  · exact (h.creator b (hrecords ▸ hb)).imp_right (Exists.imp (fun j => (hiff j b).mpr))
  · exact hrecords ▸ h.created j b ((hiff j b).mp hj)

omit [DecidableEq ι] in
/-- A call creates one booking. -/
theorem of_booking (h : s.Ledger claims records₀) {i : ι}
    (hrecords : s'.db.records = s.db.records ++ [(claims i).booking])
    (hnew : (claims i).booking ∉ s.db.records)
    (hiff : ∀ j b, (s'.call j).Creator b ↔ (s.call j).Creator b ∨ j = i ∧ b = (claims i).booking) :
    s'.Ledger claims records₀ := by
  have hmem : ∀ b, b ∈ s'.db.records ↔ b ∈ s.db.records ∨ b = (claims i).booking := by
    intro b
    rw [hrecords, List.mem_append, List.mem_singleton]
  have hnone : ∀ j, ¬ (s.call j).Creator (claims i).booking :=
    fun j hj => hnew (h.created j _ hj).1
  refine ⟨fun b hb => (hmem b).mpr (Or.inl (h.old b hb)), fun b hb => ?_, fun j b hj => ?_,
    fun j k b hj hk => ?_, fun j b hj => ?_⟩
  · rcases (hmem b).mp hb with hb | rfl
    · exact (h.creator b hb).imp_right (Exists.imp (fun j hj => (hiff j b).mpr (Or.inl hj)))
    · exact Or.inr ⟨i, (hiff i _).mpr (Or.inr ⟨rfl, rfl⟩)⟩
  · rcases (hiff j b).mp hj with hj | ⟨rfl, rfl⟩
    · exact (h.created j b hj).imp_left (fun hb => (hmem b).mpr (Or.inl hb))
    · exact ⟨(hmem _).mpr (Or.inr rfl), fun hb => hnew (h.old _ hb)⟩
  · rcases (hiff j b).mp hj with hj | ⟨rfl, rfl⟩
    · rcases (hiff k b).mp hk with hk | ⟨rfl, rfl⟩
      · exact h.unique j k b hj hk
      · exact absurd hj (hnone j)
    · rcases (hiff k _).mp hk with hk | ⟨rfl, -⟩
      · exact absurd hk (hnone k)
      · rfl
  · rcases (hiff j b).mp hj with hj | ⟨rfl, rfl⟩
    · exact h.booking j b hj
    · rfl

/-- **A statement of a call keeps the ledger.** -/
theorem advance (h : s.Ledger claims records₀) (hinv : s.Invariant claims) {i : ι}
    (hf : (claims i).Fits) :
    ((BookingService claims).step s (.advance i)).2.Ledger claims records₀ := by
  obtain ⟨hrecords, hi⟩ | ⟨hrecords, hnew, hi⟩ :=
    (CallPoint.advance_issues i (claims i) s.db (s.call i)).creates (hinv.sound i)
      (hinv.step (.advance i)).lawful hf
  · refine h.of_nothing hrecords (fun j b => ?_)
    by_cases hj : j = i
    · subst hj
      rw [BookingService.step_call_advance]
      exact hi b
    · rw [BookingService.step_call_of_ne hj]
  · refine h.of_booking hrecords hnew (fun j b => ?_)
    by_cases hj : j = i
    · subst hj
      rw [BookingService.step_call_advance]
      simpa using hi b
    · rw [BookingService.step_call_of_ne hj]
      simp [hj]

end BookingState.Ledger

/-! ## A run of statements only -/

/-- **What holds of a run in which no call is cut off.** -/
structure BookingState.Undisturbed (claims : ι → AdmissionClaims) (db₀ : BookingDb ι)
    (s : BookingState ι) : Prop where
  inv : s.Invariant claims
  ledger : s.Ledger claims db₀.records
  unaborted : ∀ i, s.call i ≠ .done (.raised .aborted)

namespace BookingState.Undisturbed

variable {claims : ι → AdmissionClaims} {db₀ : BookingDb ι} {s : BookingState ι} {i : ι}

theorem advance (h : s.Undisturbed claims db₀) (hp : IssuedPasses claims db₀) (i : ι) :
    ((BookingService claims).step s (.advance i)).2.Undisturbed claims db₀ := by
  refine ⟨h.inv.step _, h.ledger.advance h.inv (hp.fits i), fun j hj => ?_⟩
  by_cases hij : j = i
  · subst hij
    rw [BookingService.step_call_advance] at hj
    have hissues := CallPoint.advance_issues j (claims j) s.db (s.call j)
    have hjust := h.inv.justified j
    have hnot := h.unaborted j
    generalize s.call j = p at hj hissues hjust hnot
    generalize (p.advance j (claims j) s.db).1 = q at hj hissues
    generalize (p.advance j (claims j) s.db).2 = db' at hissues
    cases hissues with
    | ended => exact hnot hj
    | @rolledBack error =>
      cases error with
      | aborted => exact hjust
      | _ => exact nomatch hj
    | _ => exact nomatch hj
  · rw [BookingService.step_call_of_ne hij] at hj
    exact h.unaborted j hj

/-- It holds at the end of every such run. -/
theorem run (hp : IssuedPasses claims db₀) (hdb : db₀.Settled)
    (hlaw : db₀.Lawful Event.NotOversold Booking.Clashes) {acts : List (BookingAct ι)}
    (hacts : ∀ a ∈ acts, ∃ i, a = .advance i) :
    ((BookingService claims).final (.opened db₀) acts).Undisturbed claims db₀ := by
  refine Machine.final_invariant (BookingService claims)
    (P := BookingState.Undisturbed claims db₀) (fun s a ha h => ?_)
    ⟨invariant_opened claims hdb hlaw, .opened db₀, fun _ h => nomatch h⟩
  obtain ⟨i, rfl⟩ := hacts a ha
  exact h.advance hp i

/-- A booking for the token of a call is a booking for its event and user. -/
theorem eq_of_jti (h : s.Undisturbed claims db₀) (hp : IssuedPasses claims db₀) {b : Booking}
    (hb : b ∈ s.db.records) (hfor : b.IsFor (claims i)) :
    b.eventId = (claims i).eventId ∧ b.userId = (claims i).userId := by
  rcases hfor with hjti | huser
  · rcases h.ledger.creator b hb with hb₀ | ⟨j, hj⟩
    · exact hp.prior i b hb₀ hjti
    · obtain rfl := h.ledger.booking j b hj
      exact hp.calls j i hjti
  · exact huser

/-- **A call that returns is given a booking of its own.** -/
theorem owned (h : s.Undisturbed claims db₀) (hp : IssuedPasses claims db₀) {r : BookingResult}
    (hi : s.call i = .done (.returned r)) :
    r.booking ∈ s.db.records ∧ r.booking.eventId = (claims i).eventId
      ∧ r.booking.userId = (claims i).userId := by
  have hjust := h.inv.justified i
  rw [hi] at hjust
  obtain ⟨hb, hfor⟩ := hjust (hp.fits i)
  exact ⟨hb, h.eq_of_jti hp hb hfor⟩

/-- **Nothing but sold out escapes** from a call for an event that exists,
and only when the event is full. -/
theorem escapes (h : s.Undisturbed claims db₀) (hp : IssuedPasses claims db₀)
    (hrow : s.db.rows (claims i).eventId ≠ none) {error : BookingError}
    (hi : s.call i = .done (.raised error)) :
    error = .soldOut (claims i).eventId ∧ s.db.Full (claims i).eventId := by
  have hjust := h.inv.justified i
  rw [hi] at hjust
  cases error with
  | soldOut eventId =>
    obtain ⟨rfl, hfull⟩ := hjust
    exact ⟨rfl, hfull⟩
  | eventNotFound eventId =>
    obtain ⟨rfl, hmissing⟩ := hjust
    exact absurd hmissing hrow
  | integrityError => exact absurd (hp.fits i) hjust
  | dataError => exact absurd (hp.fits i) hjust
  | aborted => exact absurd hi (h.unaborted i)

end BookingState.Undisturbed

/-! ## The calls that are sold out -/

/-- A call has been turned away, or has answered that its event is sold
out. -/
def CallPoint.Refused (p : CallPoint) : Prop :=
  p.turnedAway ∨ ∃ eventId, p = .done (.raised (.soldOut eventId))

/-- **A call is refused by its claim only.** -/
theorem CallPoint.Issues.of_refused {i : ι} {c : AdmissionClaims} {db db' : BookingDb ι}
    {p q : CallPoint} (h : Issues i c db p q db') (hq : q.Refused) (hp : ¬ p.Refused) :
    p = .claim ∧ q = .checkExists ∧ db' = db := by
  rcases hq with hq | ⟨eventId, hq⟩
  · cases h with
    | turnedAway h => exact ⟨rfl, rfl, rfl⟩
    | present h => exact absurd (Or.inl rfl) hp
    | @rolledBack error => cases error <;> exact nomatch hq
    | _ => exact nomatch hq
  · cases h with
    | ended => exact absurd (Or.inr ⟨eventId, hq⟩) hp
    | @rolledBack error =>
      cases error with
      | soldOut e => exact absurd (Or.inl rfl) hp
      | _ => exact nomatch hq
    | _ => exact nomatch hq

/-- **A refused call claimed when its event was full.** -/
theorem BookingState.exists_claim_of_refused {claims : ι → AdmissionClaims} {s : BookingState ι}
    {acts : List (BookingAct ι)} (hacts : ∀ a ∈ acts, ∃ i, a = .advance i) {i : ι}
    (h₀ : ¬ (s.call i).Refused) (h : (((BookingService claims).final s acts).call i).Refused) :
    ∃ x ∈ (BookingService claims).trace s acts, x.action = .advance i
      ∧ x.before.call i = .claim ∧ (x.action.next claims x.before).1 = .checkExists
      ∧ (x.action.next claims x.before).2 = x.before.db := by
  obtain ⟨x, hx, hbefore, hafter⟩ := Machine.exists_visit_of_final (BookingService claims)
    (T := fun s => (s.call i).Refused) h₀ h
  obtain ⟨j, hj⟩ := hacts _ (Machine.action_mem_of_mem_trace _ hx)
  refine ⟨x, hx, ?_⟩
  rw [hj] at hafter ⊢
  by_cases hij : i = j
  · subst hij
    rw [BookingService.step_call_advance] at hafter
    exact ⟨rfl, (CallPoint.advance_issues i _ _ _).of_refused hafter hbefore⟩
  · rw [BookingService.step_call_of_ne hij] at hafter
    exact absurd hafter hbefore

/-- **A claim that is refused met its event full**, if the event exists. -/
theorem BookingState.Invariant.full_of_claim {claims : ι → AdmissionClaims} {s : BookingState ι}
    {i : ι} (h : s.Invariant claims)
    (hnext : ((BookingAct.advance i).next claims s).1 = .checkExists)
    (hdb : ((BookingAct.advance i).next claims s).2 = s.db)
    (hrow : s.db.rows (claims i).eventId ≠ none) : s.db.Full (claims i).eventId := by
  have hjust := (h.step (.advance i)).justified i
  rw [show ((BookingService claims).step s (.advance i)).2.call i = .checkExists from
      BookingService.step_call_self.trans hnext,
    show ((BookingService claims).step s (.advance i)).2.db = s.db from hdb] at hjust
  exact hjust.resolve_left hrow

/-! ## Exact allocation -/

omit [DecidableEq ι] in
/-- Who holds a ticket is who has a booking of the event. -/
theorem Database.Shows.mem_holders {db : BookingDb ι} {eventId : String} {o : BoxOffice String}
    (h : db.Shows eventId o) {u : String} :
    u ∈ o.holders ↔ ∃ b ∈ db.records, b.eventId = eventId ∧ b.userId = u := by
  rw [← h.holders, List.mem_map]
  simp only [bookingsOf, List.mem_filter, decide_eq_true_iff, and_assoc]

/-- **The count of a run to completion**: either a call is sold out, and then
nothing is left, or every caller has a booking. -/
theorem BookingState.Undisturbed.count [Fintype ι] {claims : ι → AdmissionClaims}
    {db₀ : BookingDb ι} {s : BookingState ι} {eventId : String} {o₀ o : BoxOffice String}
    (h : s.Undisturbed claims db₀) (hpasses : IssuedPasses claims db₀)
    (hcalls : ∀ i, (claims i).eventId = eventId) (hshows₀ : db₀.Shows eventId o₀)
    (hshows : s.db.Shows eventId o) (hext : o₀.Extends o)
    (hdone : ∀ i, ∃ out, s.call i = .done out) :
    (s.db.bookingsOf eventId).length = (db₀.bookingsOf eventId).length
      + min (o₀.capacity - (db₀.bookingsOf eventId).length)
        (Finset.univ.image (fun i => (claims i).userId)
          \ ((db₀.bookingsOf eventId).map Booking.userId).toFinset).card := by
  have hnew : ∀ u ∈ o.holders,
      u ∈ o₀.holders ∨ u ∈ Finset.univ.image (fun i => (claims i).userId) := by
    intro u hu
    obtain ⟨b, hb, hevent, rfl⟩ := hshows.mem_holders.mp hu
    refine (h.ledger.creator b hb).imp (fun hb₀ => hshows₀.mem_holders.mpr ⟨b, hb₀, hevent, rfl⟩)
      (fun ⟨i, hi⟩ => ?_)
    rw [h.ledger.booking i b hi]
    exact Finset.mem_image_of_mem (fun i => (claims i).userId) (Finset.mem_univ i)
  have hserved : o.SoldOut ∨ ∀ u ∈ Finset.univ.image (fun i => (claims i).userId),
      u ∈ o.holders := by
    by_cases hsold : ∃ i error, s.call i = .done (.raised error)
    · obtain ⟨i, error, hi⟩ := hsold
      obtain ⟨e, hrow, -⟩ := hshows.row
      have hfull := (h.escapes hpasses (by rw [hcalls i, hrow]; simp) hi).2
      rw [hcalls i] at hfull
      exact Or.inl (hshows.soldOut_of_full hfull)
    · refine Or.inr (fun u hu => ?_)
      obtain ⟨i, -, rfl⟩ := Finset.mem_image.mp hu
      obtain ⟨out, hi⟩ := hdone i
      cases out with
      | returned r =>
        obtain ⟨hr, hevent, huser⟩ := h.owned hpasses hi
        exact hshows.mem_holders.mpr ⟨r.booking, hr, hevent.trans (hcalls i), huser⟩
      | raised error => exact absurd ⟨i, error, hi⟩ hsold
  have hallocation := hext.allocation hnew hserved
  rw [← hshows.holders, ← hshows₀.holders, List.length_map, List.length_map] at hallocation
  exact hallocation

/-- **Exact allocation.** Finitely many calls for an event that exists, with
passes as the issuer guarantees them, run to completion in any order of their
statements. -/
theorem exact_allocation [Fintype ι] (claims : ι → AdmissionClaims) {db₀ : BookingDb ι}
    (hdb : db₀.Settled) (hlaw : db₀.Lawful Event.NotOversold Booking.Clashes)
    {eventId : String} {e : Event} (hrow : db₀.rows eventId = some e)
    (hcount : e.ticketsBooked = (db₀.bookingsOf eventId).length)
    (hcalls : ∀ i, (claims i).eventId = eventId) (hpasses : IssuedPasses claims db₀)
    (acts : List (BookingAct ι)) (hacts : ∀ a ∈ acts, ∃ i, a = .advance i)
    (hdone : ∀ i, ∃ o, ((BookingService claims).final (.opened db₀) acts).call i = .done o) :
    ExactAllocation claims eventId e.capacity db₀
      ((BookingService claims).trace (.opened db₀) acts)
      ((BookingService claims).final (.opened db₀) acts) := by
  have hinv₀ := BookingState.invariant_opened claims hdb hlaw
  have hfinal := BookingState.Undisturbed.run hpasses hdb hlaw hacts
  obtain ⟨o₀, hshows₀, hcap₀, -⟩ := exists_shows hlaw hrow
    (fun e' he' => Option.some.inj (hrow.symm.trans he') ▸ hcount)
  obtain ⟨o, hshows, hext⟩ := hinv₀.shows_final hshows₀ acts
  have hescapes : ∀ i error, ((BookingService claims).final (.opened db₀) acts).call i
      = .done (.raised error) → error = .soldOut eventId
        ∧ ((BookingService claims).final (.opened db₀) acts).db.Full eventId := by
    intro i error hi
    obtain ⟨e', hrow', -⟩ := hshows.row
    have hexists := hfinal.escapes hpasses (by rw [hcalls i, hrow']; simp) hi
    rwa [hcalls i] at hexists
  refine ⟨?_, fun b hb hb₀ => ?_, fun i b hi => ?_, fun i r hi => (hfinal.owned hpasses hi).2,
    fun i error hi => (hescapes i error hi).1, fun i error hi => ?_⟩
  · rw [← hcap₀]
    exact hfinal.count hpasses hcalls hshows₀ hshows hext hdone
  · -- a new booking has its creator in the ledger
    obtain ⟨hmem, hevent⟩ := List.mem_filter.mp hb
    have hnew : b ∉ db₀.records := fun h => hb₀ (List.mem_filter.mpr ⟨h, hevent⟩)
    obtain ⟨i, hi⟩ := (hfinal.ledger.creator b hmem).resolve_left hnew
    exact ⟨i, hi, fun j hj => hfinal.ledger.unique j i b hj hi⟩
  · obtain ⟨hmem, hnew⟩ := hfinal.ledger.created i b hi
    refine ⟨List.mem_filter.mpr ⟨hmem, ?_⟩, fun h => hnew (List.mem_filter.mp h).1⟩
    obtain rfl := hfinal.ledger.booking i b hi
    exact decide_eq_true (hcalls i)
  · obtain ⟨rfl, -⟩ := hescapes i error hi
    obtain ⟨x, hx, haction, hclaim, hnext, hsame⟩ := BookingState.exists_claim_of_refused hacts
      (fun h => by rcases h with h | ⟨_, h⟩ <;> exact nomatch h) (Or.inr ⟨_, hi⟩)
    refine ⟨x, hx, haction, hclaim, hnext, ?_⟩
    obtain ⟨bs, -, hbefore⟩ := Machine.exists_final_of_mem_trace _ hx
    obtain ⟨o', hshows', hext'⟩ := hinv₀.shows_final hshows₀ bs
    rw [← hbefore] at hshows'
    have hinv : x.before.Invariant claims := hbefore ▸ hinv₀.final bs
    obtain ⟨e', hrow', -⟩ := hshows'.row
    have hfull := hinv.full_of_claim (haction ▸ hnext) (haction ▸ hsame)
      (by rw [hcalls i, hrow']; simp)
    rw [hcalls i] at hfull
    rw [hshows'.length_of_full hfull, hext'.capacity, hcap₀]

/-- One token presented twice, and two other buyers. -/
def raceForTwo : Fin 4 → AdmissionClaims
  | 0 | 1 => ⟨"a", "e", "j", 0, 60⟩
  | 2 => ⟨"c", "e", "m", 0, 60⟩
  | 3 => ⟨"d", "e", "n", 0, 60⟩

/-- They race for the last two tickets of three: the second call with the
token claims the last one and is rolled back, the next buyer gets it, and the
one after is sold out. -/
theorem exact_allocation_of_race :
    ExactAllocation raceForTwo "e" 3 (Database.onSale "e" ⟨3, 1⟩ [⟨"e", "b", "k"⟩])
      ((BookingService raceForTwo).trace (.opened (.onSale "e" ⟨3, 1⟩ [⟨"e", "b", "k"⟩]))
        (([0, 0, 1, 1, 2, 2, 3, 3, 0, 1, 0, 0, 1, 2, 1, 1, 2, 1, 2, 2, 3, 3, 3] :
          List (Fin 4)).map .advance))
      ((BookingService raceForTwo).final (.opened (.onSale "e" ⟨3, 1⟩ [⟨"e", "b", "k"⟩]))
        (([0, 0, 1, 1, 2, 2, 3, 3, 0, 1, 0, 0, 1, 2, 1, 1, 2, 1, 2, 2, 3, 3, 3] :
          List (Fin 4)).map .advance)) := by
  have hlaw : (Database.onSale "e" ⟨3, 1⟩ [⟨"e", "b", "k"⟩] : BookingDb (Fin 4)).Lawful
    Event.NotOversold Booking.Clashes := lawful_onSale (by decide) (by decide)
  have hevent : ∀ i, (raceForTwo i).eventId = "e" := by decide +kernel
  refine exact_allocation raceForTwo settled_onSale hlaw rfl rfl hevent
    ⟨by decide +kernel, by decide +kernel, ?_⟩ _ (fun a ha => ?_) (fun i => ?_)
  · unfold AdmissionClaims.Fits
    decide +kernel
  · obtain ⟨i, -, rfl⟩ := List.mem_map.mp ha
    exact ⟨i, rfl⟩
  · match i with
    | 0 => exact ⟨.returned ⟨⟨"e", "a", "j"⟩, true⟩, by decide +kernel⟩
    | 1 => exact ⟨.returned ⟨⟨"e", "a", "j"⟩, false⟩, by decide +kernel⟩
    | 2 => exact ⟨.returned ⟨⟨"e", "c", "m"⟩, true⟩, by decide +kernel⟩
    | 3 => exact ⟨.raised (.soldOut "e"), by decide +kernel⟩
