import QueueFair.BookingInvariant
import QueueFair.BoxOffice

/-!
# No oversell, and no drifting counter

The committed tables show a box office for each event (`Database.Shows`): its
capacity and its count are in the event's row, its holders are the users of
its bookings. Between two steps of any calls the office stays as it is or
sells one ticket (`Commits.shows`), so what an office cannot be, the tables
never are.

`no_oversell` says it of every reachable state: the counter of an event is
the number of its bookings if it was so at first, it is within the capacity,
and no two bookings share a token, or a user and an event.
-/

open Database

variable {ι : Type} [DecidableEq ι]

/-! ## The tables as a box office -/

namespace Database

/-- The bookings of an event. -/
def bookingsOf (db : BookingDb ι) (eventId : String) : List Booking :=
  db.records.filter (fun b => b.eventId = eventId)

/-- The counter of an event is the number of its bookings. -/
def Counted (db : BookingDb ι) (eventId : String) : Prop :=
  ∀ e ∈ db.rows eventId, e.ticketsBooked = (db.bookingsOf eventId).length

/-- **The committed tables show a box office.** -/
structure Shows (db : BookingDb ι) (eventId : String) (o : BoxOffice String) : Prop where
  row : ∃ e, db.rows eventId = some e ∧ e.capacity = o.capacity
    ∧ e.ticketsBooked = o.holders.length
  holders : (db.bookingsOf eventId).map Booking.userId = o.holders

variable {db db' : BookingDb ι} {eventId : String} {o : BoxOffice String}

omit [DecidableEq ι] in
theorem Shows.counted (h : db.Shows eventId o) : db.Counted eventId := by
  obtain ⟨e, hrow, -, hcount⟩ := h.row
  intro e' he'
  obtain rfl := Option.some.inj (hrow.symm.trans he')
  rw [hcount, ← h.holders, List.length_map]

omit [DecidableEq ι] in
/-- The office of a full event is sold out. -/
theorem Shows.soldOut_of_full (h : db.Shows eventId o) (hfull : db.Full eventId) : o.SoldOut := by
  obtain ⟨e, hrow, hcap, hcount⟩ := h.row
  obtain ⟨e', he', hroom⟩ := hfull
  obtain rfl := Option.some.inj (hrow.symm.trans he')
  have hge : e.capacity ≤ e.ticketsBooked := by simpa [Event.hasRoom] using hroom
  rw [hcap, hcount] at hge
  exact le_antisymm o.within hge

omit [DecidableEq ι] in
/-- A full event has as many bookings as its capacity. -/
theorem Shows.length_of_full (h : db.Shows eventId o) (hfull : db.Full eventId) :
    (db.bookingsOf eventId).length = o.capacity := by
  have hsold : o.holders.length = o.capacity := h.soldOut_of_full hfull
  rw [← hsold, ← h.holders, List.length_map]

omit [DecidableEq ι] in
/-- Among bookings that do not clash, the users of an event are distinct. -/
theorem nodup_users (h : db.records.Pairwise (fun a b => ¬ a.Clashes b)) (eventId : String) :
    ((db.bookingsOf eventId).map Booking.userId).Nodup := by
  rw [List.Nodup, List.pairwise_map]
  refine (h.filter _).imp_of_mem (fun {a b} ha hb hab huser => hab (Or.inr ⟨?_, huser⟩))
  rw [of_decide_eq_true (List.mem_filter.mp ha).2, of_decide_eq_true (List.mem_filter.mp hb).2]

omit [DecidableEq ι] in
/-- **Tables whose counter agrees show a box office.** -/
theorem exists_shows (hlaw : db.Lawful Event.NotOversold Booking.Clashes) {e : Event}
    (hrow : db.rows eventId = some e) (hcount : db.Counted eventId) :
    ∃ o : BoxOffice String, db.Shows eventId o ∧ o.capacity = e.capacity
      ∧ o.holders = (db.bookingsOf eventId).map Booking.userId := by
  have hwithin : ((db.bookingsOf eventId).map Booking.userId).length ≤ e.capacity := by
    rw [List.length_map, ← hcount e hrow]
    exact hlaw.rows eventId e hrow
  refine ⟨⟨e.capacity, _, nodup_users hlaw.records_pairwise eventId, hwithin⟩, ?_, rfl, rfl⟩
  refine ⟨⟨e, hrow, rfl, ?_⟩, rfl⟩
  rw [List.length_map]
  exact hcount e hrow

end Database

/-! ## A step sells at most one ticket -/

namespace CallPoint

variable {c : AdmissionClaims} {p : CallPoint} {db db' : BookingDb ι} {eventId : String}
  {o : BoxOffice String}

omit [DecidableEq ι] in
/-- **A step leaves the office of an event as it is, or sells one ticket.** -/
theorem Commits.shows (h : Commits c p db db')
    (hlaw : db'.Lawful Event.NotOversold Booking.Clashes) (hs : db.Shows eventId o) :
    ∃ o', db'.Shows eventId o' ∧ (o' = o ∨ ∃ u hroom hu, o' = o.sell u hroom hu) := by
  obtain ⟨e, hrow, hcap, hcount⟩ := hs.row
  cases h with
  | nothing hrows hrecords =>
    refine ⟨o, ⟨⟨e, hrows ▸ hrow, hcap, hcount⟩, ?_⟩, Or.inl rfl⟩
    unfold bookingsOf
    rw [hrecords]
    exact hs.holders
  | @booking e' b hp hb hrow' hroom hrows hrecords =>
    have hevent := AdmissionClaims.stored_eventId hb
    have hbookings : db'.bookingsOf eventId
        = db.bookingsOf eventId ++ [b].filter (fun b => b.eventId = eventId) := by
      unfold bookingsOf
      rw [hrecords, List.filter_append]
    by_cases he : c.eventId = eventId
    · subst he
      obtain rfl := Option.some.inj (hrow.symm.trans hrow')
      have hlt : o.holders.length < o.capacity := by
        rw [← hcap, ← hcount]
        simpa [Event.hasRoom] using hroom
      have hholders : (db'.bookingsOf c.eventId).map Booking.userId = o.holders ++ [b.userId] := by
        rw [hbookings, List.map_append, hs.holders, List.filter_singleton]
        simp [hevent]
      have hnew : b.userId ∉ o.holders := by
        have hnodup := nodup_users hlaw.records_pairwise c.eventId
        rw [hholders, List.nodup_append] at hnodup
        exact fun hmem => hnodup.2.2 _ hmem _ (List.mem_singleton_self _) rfl
      refine ⟨o.sell b.userId hlt hnew, ⟨⟨e.claimed, ?_, hcap, ?_⟩, hholders⟩,
        Or.inr ⟨_, _, _, rfl⟩⟩
      · rw [hrows, Function.update_self]
      · show e.ticketsBooked + 1 = (o.holders ++ [b.userId]).length
        rw [hcount, List.length_append]
        rfl
    · refine ⟨o, ⟨⟨e, ?_, hcap, hcount⟩, ?_⟩, Or.inl rfl⟩
      · rw [hrows, Function.update_of_ne (Ne.symm he)]
        exact hrow
      · rw [hbookings, List.filter_singleton, ← hs.holders]
        simp [hevent, he]

end CallPoint

/-- **The office of an event over a run**: tickets are only ever sold. -/
theorem BookingState.Invariant.shows_final {claims : ι → AdmissionClaims} {s : BookingState ι}
    {eventId : String} {o : BoxOffice String} (h : s.Invariant claims)
    (hs : s.db.Shows eventId o) (acts : List (BookingAct ι)) :
    ∃ o', ((BookingService claims).final s acts).db.Shows eventId o' ∧ o.Extends o' := by
  refine h.committed (Q := fun db => ∃ o', db.Shows eventId o' ∧ o.Extends o')
    (fun _ p db db' hcommit hlaw hq => ?_) ⟨o, hs, .refl o⟩ acts
  obtain ⟨o', hs', hext⟩ := hq
  obtain ⟨o'', hs'', rfl | ⟨u, hroom, hu, rfl⟩⟩ := hcommit.shows hlaw hs'
  · exact ⟨_, hs'', hext⟩
  · exact ⟨_, hs'', hext.sell hroom hu⟩

/-! ## The counter against the bookings -/

/-- No event has more bookings than its capacity. -/
def Database.WithinCapacity (db : BookingDb ι) : Prop :=
  ∀ eventId, ∀ e ∈ db.rows eventId, (db.bookingsOf eventId).length ≤ e.capacity

/-- The counter of every event is at least the number of its bookings. -/
def Database.Covered (db : BookingDb ι) : Prop :=
  ∀ eventId, ∀ e ∈ db.rows eventId, (db.bookingsOf eventId).length ≤ e.ticketsBooked

omit [DecidableEq ι] in
theorem Database.Covered.congr {db db' : BookingDb ι} (h : db.Covered)
    (hrows : db'.rows = db.rows) (hrecords : db'.records = db.records) : db'.Covered := by
  intro eventId e he
  rw [hrows] at he
  unfold bookingsOf
  rw [hrecords]
  exact h eventId e he

omit [DecidableEq ι] in
/-- A counter that is at least the bookings keeps them within the capacity. -/
theorem Database.Covered.withinCapacity {db : BookingDb ι} (h : db.Covered)
    (hlaw : db.Lawful Event.NotOversold Booking.Clashes) : db.WithinCapacity :=
  fun eventId e he => le_trans (h eventId e he) (hlaw.rows eventId e he)

omit [DecidableEq ι] in
/-- A call that commits its booking counts it. -/
theorem CallPoint.Commits.covered {c : AdmissionClaims} {p : CallPoint} {db db' : BookingDb ι}
    (h : p.Commits c db db') (hdb : db.Covered) : db'.Covered := by
  cases h with
  | nothing hrows hrecords => exact hdb.congr hrows hrecords
  | @booking e b hp hb hrow hroom hrows hrecords =>
    intro eventId e' he'
    have hbookings : (db'.bookingsOf eventId).length
        = (db.bookingsOf eventId).length + if c.eventId = eventId then 1 else 0 := by
      unfold bookingsOf
      rw [hrecords, List.filter_append, List.length_append, List.filter_singleton,
        AdmissionClaims.stored_eventId hb]
      by_cases he : c.eventId = eventId <;> simp [he]
    rw [hbookings]
    rw [hrows] at he'
    by_cases he : eventId = c.eventId
    · subst he
      rw [Function.update_self] at he'
      obtain rfl := Option.some.inj he'
      rw [if_pos rfl]
      exact Nat.succ_le_succ (hdb c.eventId e hrow)
    · rw [Function.update_of_ne he] at he'
      rw [if_neg (Ne.symm he)]
      exact hdb eventId e' he'

/-! ## No oversell -/

/-- **What never breaks**, from one state of the tables to another. -/
structure NoOversell (db₀ db : BookingDb ι) : Prop where
  /-- A counter that agreed with the bookings agrees with them. -/
  counted : ∀ eventId, db₀.Counted eventId → db.Counted eventId
  within : ∀ eventId, ∀ e ∈ db.rows eventId, e.ticketsBooked ≤ e.capacity
  jti_nodup : (db.records.map Booking.tokenJti).Nodup
  user_nodup : (db.records.map (fun b => (b.eventId, b.userId))).Nodup

/-- **No oversell and no drifting counter.** Whatever calls are served, in
whatever order of their statements, and wherever any of them end. -/
theorem no_oversell (claims : ι → AdmissionClaims) {db₀ : BookingDb ι} (hdb : db₀.Settled)
    (hlaw : db₀.Lawful Event.NotOversold Booking.Clashes) (acts : List (BookingAct ι)) :
    NoOversell db₀ ((BookingService claims).final (.opened db₀) acts).db := by
  have hinv₀ := BookingState.invariant_opened claims hdb hlaw
  have hinv := hinv₀.final acts
  have hpair := hinv.lawful.records_pairwise
  refine ⟨fun eventId hcount => ?_, hinv.lawful.rows, ?_, ?_⟩
  · cases hrow : db₀.rows eventId with
    | some e =>
      obtain ⟨o, hs, -, -⟩ := exists_shows hlaw hrow hcount
      obtain ⟨o', hs', -⟩ := hinv₀.shows_final hs acts
      exact hs'.counted
    | none =>
      -- an event that does not exist is not created by a call
      have hmissing := hinv₀.committed (Q := fun db => db.rows eventId = none)
        (fun _ _ _ _ hcommit _ hq => hcommit.grows.missing eventId hq) hrow acts
      intro e he
      exact absurd (hmissing.symm.trans he) (by simp)
  · rw [List.Nodup, List.pairwise_map]
    exact hpair.imp (fun hab heq => hab (Or.inl heq))
  · rw [List.Nodup, List.pairwise_map]
    exact hpair.imp (fun hab heq => hab (Or.inr (Prod.mk.inj heq)))

/-- One token presented twice for the last ticket but one, and a call cut off
by a lost reply: the counter and the bookings agree on the two. -/
theorem no_oversell_of_lost_reply :
    NoOversell (Database.onSale "e" ⟨3, 1⟩ [⟨"e", "b", "k"⟩])
      ((BookingService (fun _ : Bool => ⟨"a", "e", "j", 0, 60⟩)).final
        (.opened (.onSale "e" ⟨3, 1⟩ [⟨"e", "b", "k"⟩]))
        [.advance true, .advance true, .advance false, .advance false, .advance true,
          .advance false, .advance true, .loseReply true, .advance false, .advance false,
          .advance false]).db :=
  no_oversell _ settled_onSale (lawful_onSale (by decide) (by decide)) _
