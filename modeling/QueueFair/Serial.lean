import Mathlib.Logic.Function.Iterate
import QueueFair.Allocation
import QueueFair.Completion

/-!
# Calls, one at a time

`bookTicket` is a call that nobody interferes with: its statements, one after
another, over what is committed. It needs seven of them at most, and ends.

Any number of calls whose statements are mixed do what such calls do, one at a
time in the order in which they end (`calls_are_serial`): each is answered what
it would have been answered alone, over the tables the calls before it left, and
leaves the tables it would have left. A call whose connection is lost has done
nothing, or all it would have done. So a call that ends before another one
begins comes before it.

There is one exception, and it is named (`turnedAway`): a call that is turned away
for want of room while a booking of its own has been committed would, alone,
have been given that booking.
-/

open Database

/-! ## A call alone -/

/-- What is committed. -/
structure Tables where
  rows : String → Option Event
  records : List Booking

/-- What is committed in a database. -/
def Database.tables {ι : Type} (db : BookingDb ι) : Tables := ⟨db.rows, db.records⟩

/-- The database of one session, with nothing open. -/
def Tables.database (T : Tables) : BookingDb Unit := ⟨T.rows, fun _ => none, T.records, []⟩

@[simp] theorem Tables.row_database (T : Tables) (k : String) :
    T.database.row () k = T.rows k := rfl

/-- One statement of a call that has the database to itself. -/
def CallPoint.alone (c : AdmissionClaims) (x : CallPoint × BookingDb Unit) :
    CallPoint × BookingDb Unit := x.1.advance () c x.2

/-- **`book_ticket` where nobody interferes.** -/
def bookTicket (c : AdmissionClaims) (T : Tables) : CallPoint × Tables :=
  let x := (CallPoint.alone c)^[7] (.findByJti false, T.database)
  (x.1, x.2.tables)

namespace CallPoint

variable {c : AdmissionClaims}

/-- A session alone never waits. -/
theorem alone_remaining_lt (x : CallPoint × BookingDb Unit) :
    (alone c x).1.remaining < x.1.remaining ∨ ∃ o, x.1 = .done o := by
  obtain ⟨p, db⟩ := x
  obtain hlt | ⟨hsame, ⟨o, hdone⟩ | ⟨hclaim, x, -, hother⟩ | ⟨hcreate, -⟩⟩ :=
    (advance_issues () c db p).remaining_lt
  · exact Or.inl hlt
  · exact Or.inr ⟨o, hdone⟩
  · exact absurd rfl hother
  · -- an insert of its own is refused, not waited for
    subst hcreate
    refine Or.inl ?_
    show (advance () c db .create).1.remaining < _
    unfold advance
    cases hstored : c.stored with
    | none => exact Nat.lt_succ_self 3
    | some b =>
      dsimp only
      cases hins : db.insert Booking.Clashes () b with
      | done n db' => exact Nat.succ_lt_succ (by decide)
      | violates => exact Nat.lt_succ_self 3
      | waits =>
        obtain ⟨x, hx, hclash⟩ := insert_waits hins
        have hvisible : x.2 ∈ db.visible () := by
          refine List.mem_append_right _ (List.mem_map_of_mem (List.mem_filter.mpr ⟨hx, ?_⟩))
          exact decide_eq_true rfl
        unfold Database.insert at hins
        rw [if_pos ⟨x.2, hvisible, hclash⟩] at hins
        exact absurd hins (by simp)

/-- **A call alone ends**, in as many statements as it has left. -/
theorem exists_alone_done {n : ℕ} {x : CallPoint × BookingDb Unit} (h : x.1.remaining ≤ n) :
    ∃ o, ((alone c)^[n] x).1 = .done o := by
  induction n generalizing x with
  | zero =>
    obtain hlt | hdone := alone_remaining_lt (c := c) x
    · exact absurd (lt_of_lt_of_le hlt h) (Nat.not_lt_zero _)
    · exact hdone
  | succ n ih =>
    rw [Function.iterate_succ_apply]
    obtain hlt | ⟨o, hdone⟩ := alone_remaining_lt (c := c) x
    · exact ih (Nat.le_of_lt_succ (lt_of_lt_of_le hlt h))
    · refine ih ?_
      show (x.1.advance () c x.2).1.remaining ≤ n
      rw [hdone]
      exact Nat.zero_le n

/-- A call that has ended stays as it is. -/
theorem alone_iterate_done (o : Outcome) (db : BookingDb Unit) (n : ℕ) :
    (alone c)^[n] (.done o, db) = (.done o, db) := Function.iterate_fixed rfl n

end CallPoint

/-- **A call alone ends.** -/
theorem exists_bookTicket_done (c : AdmissionClaims) (T : Tables) :
    ∃ o, (bookTicket c T).1 = .done o :=
  CallPoint.exists_alone_done (x := (.findByJti false, T.database)) le_rfl

section Alone

variable {c : AdmissionClaims} {T : Tables}

/-- Of bookings that do not clash, one is for a user of an event. -/
theorem Booking.eq_of_clashes {l : List Booking} (h : l.Pairwise (fun a b => ¬ a.Clashes b))
    {a b : Booking} (ha : a ∈ l) (hb : b ∈ l) (hclash : a.Clashes b) : a = b := by
  by_contra hne
  have : Std.Symm (fun a b : Booking => ¬ a.Clashes b) :=
    ⟨fun a b hab hba => hab (Booking.Clashes.symm b a hba)⟩
  exact h.forall ha hb hne hclash

/-- **A call that is booked** is given its booking. -/
theorem bookTicket_of_booked (hpair : T.records.Pairwise (fun a b => ¬ a.Clashes b))
    (htokens : ∀ b ∈ T.records, b.tokenJti = c.jti → b.eventId = c.eventId ∧ b.userId = c.userId)
    {b : Booking} (hb : b ∈ T.records) (hfor : b.IsFor c) :
    bookTicket c T = (.done (.returned ⟨b, false⟩), T) := by
  have huser : b.eventId = c.eventId ∧ b.userId = c.userId := hfor.elim (htokens b hb) id
  have hsame {b' : Booking} (hb' : b' ∈ T.records)
      (huser' : b'.eventId = c.eventId ∧ b'.userId = c.userId) : b' = b :=
    Booking.eq_of_clashes hpair hb' hb
      (Or.inr ⟨huser'.1.trans huser.1.symm, huser'.2.trans huser.2.symm⟩)
  have hdone : ∃ n < 7, (CallPoint.alone c)^[n + 1] (.findByJti false, T.database)
      = (.done (.returned ⟨b, false⟩), T.database) := by
    cases hjti : T.records.find? (fun b => b.tokenJti = c.jti) with
    | some b' =>
      have hb' := List.mem_of_find?_eq_some hjti
      have hj : b'.tokenJti = c.jti := by simpa using List.find?_some hjti
      refine ⟨0, by decide, ?_⟩
      show CallPoint.advance () c T.database (.findByJti false) = _
      rw [← hsame hb' (htokens b' hb' hj)]
      simp only [CallPoint.advance, Tables.database, hjti]
    | none =>
      refine ⟨1, by decide, ?_⟩
      have hmissed : CallPoint.alone c (.findByJti false, T.database)
          = (.findByUser false, T.database) := by
        simp only [CallPoint.alone, CallPoint.advance, Tables.database, hjti]
      rw [Function.iterate_succ_apply, hmissed]
      show CallPoint.advance () c T.database (.findByUser false) = _
      cases hfind : T.records.find? (fun b => b.eventId = c.eventId ∧ b.userId = c.userId) with
      | some b' =>
        have hu : b'.eventId = c.eventId ∧ b'.userId = c.userId := by
          simpa using List.find?_some hfind
        rw [← hsame (List.mem_of_find?_eq_some hfind) hu]
        simp only [CallPoint.advance, Tables.database, hfind]
      | none =>
        have hnone := List.find?_eq_none.mp hfind b hb
        simp [huser] at hnone
  obtain ⟨n, hn, hrun⟩ := hdone
  unfold bookTicket
  rw [show 7 = (6 - n) + (n + 1) by omega, Function.iterate_add_apply, hrun,
    CallPoint.alone_iterate_done]
  rfl

/-- A call that is not booked comes to its claim. -/
theorem bookTicket_of_unbooked (h : ∀ b ∈ T.records, ¬ b.IsFor c) :
    bookTicket c T = (fun x => (x.1, x.2.tables))
      ((CallPoint.alone c)^[5] (.claim, T.database)) := by
  have hjti : T.records.find? (fun b => b.tokenJti = c.jti) = none :=
    List.find?_eq_none.mpr (fun b hb he => h b hb (Or.inl (of_decide_eq_true he)))
  have huser : T.records.find? (fun b => b.eventId = c.eventId ∧ b.userId = c.userId) = none :=
    List.find?_eq_none.mpr (fun b hb he => h b hb (Or.inr (of_decide_eq_true he)))
  have htwo : (CallPoint.alone c)^[2] (.findByJti false, T.database) = (.claim, T.database) := by
    show CallPoint.alone c (CallPoint.alone c _) = _
    simp only [CallPoint.alone, CallPoint.advance, Tables.database, hjti, huser]
    rfl
  show (fun x => (x.1, x.2.tables)) ((CallPoint.alone c)^[5 + 2] _) = _
  rw [Function.iterate_add_apply, htwo]

/-- A claim for an event that is missing, or has no room, touches no row. -/
theorem Tables.update_of_not_room (h : ∀ e ∈ T.rows c.eventId, ¬ e.hasRoom) :
    T.database.update Event.NotOversold () c.eventId Event.hasRoom Event.claimed
      = .done 0 T.database := by
  unfold Database.update
  rw [T.row_database]
  cases hrow : T.rows c.eventId with
  | none => rfl
  | some e => exact if_neg (h e hrow)

/-- **A call for an event that is missing** is told so. -/
theorem bookTicket_of_missing (h : ∀ b ∈ T.records, ¬ b.IsFor c)
    (hrow : T.rows c.eventId = none) :
    bookTicket c T = (.done (.raised (.eventNotFound c.eventId)), T) := by
  have hupdate := Tables.update_of_not_room (c := c) (T := T)
    (fun e he => absurd (hrow.symm.trans he) (by simp))
  have hthree : (CallPoint.alone c)^[3] (.claim, T.database)
      = (.done (.raised (.eventNotFound c.eventId)), T.database) := by
    show CallPoint.alone c (CallPoint.alone c (CallPoint.alone c _)) = _
    have hcheck : T.database.row () c.eventId = none := hrow
    simp only [CallPoint.alone, CallPoint.advance, hupdate, if_pos, hcheck]
    rfl
  rw [bookTicket_of_unbooked h, show 5 = 2 + 3 from rfl, Function.iterate_add_apply, hthree,
    CallPoint.alone_iterate_done]
  rfl

/-- **A call for an event without room** is told that it is sold out. -/
theorem bookTicket_of_full (h : ∀ b ∈ T.records, ¬ b.IsFor c) {e : Event}
    (hrow : T.rows c.eventId = some e) (hfull : ¬ e.hasRoom) :
    bookTicket c T = (.done (.raised (.soldOut c.eventId)), T) := by
  have hupdate := Tables.update_of_not_room (c := c) (T := T) (fun e' he' => by
    rwa [← Option.some.inj (hrow.symm.trans he')])
  have hthree : (CallPoint.alone c)^[3] (.claim, T.database)
      = (.done (.raised (.soldOut c.eventId)), T.database) := by
    show CallPoint.alone c (CallPoint.alone c (CallPoint.alone c _)) = _
    have hcheck : T.database.row () c.eventId = some e := hrow
    simp only [CallPoint.alone, CallPoint.advance, hupdate, if_pos, hcheck]
    rfl
  rw [bookTicket_of_unbooked h, show 5 = 2 + 3 from rfl, Function.iterate_add_apply, hthree,
    CallPoint.alone_iterate_done]
  rfl

/-- **A call for an event with room** books. -/
theorem bookTicket_of_room (hfits : c.Fits) (h : ∀ b ∈ T.records, ¬ b.IsFor c) {e : Event}
    (hrow : T.rows c.eventId = some e) (hroom : e.hasRoom) :
    bookTicket c T = (.done (.returned ⟨c.booking, true⟩),
      ⟨Function.update T.rows c.eventId (some e.claimed), T.records ++ [c.booking]⟩) := by
  have hlt : e.ticketsBooked < e.capacity := of_decide_eq_true hroom
  have hchecked : e.claimed.NotOversold := hlt
  -- the claim is served, and locks the row
  let locked : BookingDb Unit :=
    ⟨T.rows, Function.update (fun _ => none) c.eventId (some ((), e.claimed)), T.records, []⟩
  have hupdate : T.database.update Event.NotOversold () c.eventId Event.hasRoom Event.claimed
      = .done 1 locked := by
    unfold Database.update
    rw [T.row_database, hrow]
    dsimp only
    rw [if_pos hroom, if_neg (by simp [Tables.database]), if_pos hchecked]
    rfl
  have hinsert : locked.insert Booking.Clashes () c.booking
      = .done 1 { locked with inserts := [((), c.booking)] } := by
    unfold Database.insert
    rw [if_neg, if_neg]
    · rfl
    · rintro ⟨x, hx, -⟩
      exact absurd hx List.not_mem_nil
    · rintro ⟨b, hb, hclash⟩
      refine h b ?_ hclash
      exact (List.mem_append.mp hb).resolve_right List.not_mem_nil
  have hthree : (CallPoint.alone c)^[3] (.claim, T.database)
      = (.done (.returned ⟨c.booking, true⟩),
        { locked with inserts := [((), c.booking)] }.commit ()) := by
    show CallPoint.alone c (CallPoint.alone c (CallPoint.alone c _)) = _
    simp only [CallPoint.alone, CallPoint.advance, hupdate, hfits.stored, hinsert]
    rfl
  rw [bookTicket_of_unbooked h, show 5 = 2 + 3 from rfl, Function.iterate_add_apply, hthree,
    CallPoint.alone_iterate_done]
  refine Prod.ext rfl ?_
  have hrows : locked.row () = Function.update T.rows c.eventId (some e.claimed) := by
    funext k
    by_cases hk : k = c.eventId
    · have hlocked : locked.locks c.eventId = some ((), e.claimed) := by
        show Function.update (fun _ => none) c.eventId _ c.eventId = _
        rw [Function.update_self]
      rw [hk, Function.update_self, row_of_locked hlocked]
    · rw [Function.update_of_ne hk]
      refine row_of_not_locked (fun r hl => ?_)
      replace hl : Function.update (fun _ => none) c.eventId _ k = some ((), r) := hl
      rw [Function.update_of_ne hk] at hl
      exact absurd hl (by simp)
  show Tables.mk (locked.row ()) (T.records ++ [c.booking]) = _
  rw [hrows]

end Alone

/-! ## One at a time -/

variable {ι : Type}

/-- **Calls one at a time**: from one content of the tables to another, with the
outcomes they are given. `late` says whether a call that is booked may still be turned
away. -/
inductive Serial (claims : ι → AdmissionClaims) (late : Prop) :
    Tables → List (ι × Outcome) → Tables → Prop
  | nothing (T : Tables) : Serial claims late T [] T
  /-- A call is answered. -/
  | answered {T T' T'' : Tables} {i : ι} {o : Outcome} {ends : List (ι × Outcome)}
    (h : bookTicket (claims i) T = (.done o, T')) (rest : Serial claims late T' ends T'') :
    Serial claims late T ((i, o) :: ends) T''
  /-- The connection of a call is lost before it has done anything. -/
  | lostBefore {T T' : Tables} {i : ι} {ends : List (ι × Outcome)}
    (rest : Serial claims late T ends T') :
    Serial claims late T ((i, .raised .aborted) :: ends) T'
  /-- The connection of a call is lost once it has booked. -/
  | lostAfter {T T' T'' : Tables} {i : ι} {b : Booking} {ends : List (ι × Outcome)}
    (h : bookTicket (claims i) T = (.done (.returned ⟨b, true⟩), T'))
    (rest : Serial claims late T' ends T'') :
    Serial claims late T ((i, .raised .aborted) :: ends) T''
  /-- A call is turned away from a full event, though a booking of its own is there. -/
  | turnedAway {T T' : Tables} {i : ι} {e : Event} {b : Booking} {ends : List (ι × Outcome)}
    (hlate : late) (hrow : T.rows (claims i).eventId = some e) (hfull : ¬ e.hasRoom)
    (hb : b ∈ T.records) (hfor : b.IsFor (claims i)) (rest : Serial claims late T ends T') :
    Serial claims late T ((i, .raised (.soldOut (claims i).eventId)) :: ends) T'

namespace Serial

variable {claims : ι → AdmissionClaims} {late : Prop} {T T' T'' : Tables}
  {xs ys : List (ι × Outcome)}

/-- Calls one at a time, and then more of them. -/
theorem append (h : Serial claims late T xs T') (h' : Serial claims late T' ys T'') :
    Serial claims late T (xs ++ ys) T'' := by
  induction h with
  | nothing T => exact h'
  | answered h _ ih => exact .answered h (ih h')
  | lostBefore _ ih => exact .lostBefore (ih h')
  | lostAfter h _ ih => exact .lostAfter h (ih h')
  | turnedAway hlate hrow hfull hb hfor _ ih => exact .turnedAway hlate hrow hfull hb hfor (ih h')

end Serial

/-- **What the tables say of the passes**: every booking is for an event there is,
and one for the token of a call is for its event and its user. -/
structure Database.Consistent (claims : ι → AdmissionClaims) (db : BookingDb ι) : Prop where
  events : ∀ b ∈ db.records, db.rows b.eventId ≠ none
  tokens : ∀ i, ∀ b ∈ db.records, b.tokenJti = (claims i).jti →
    b.eventId = (claims i).eventId ∧ b.userId = (claims i).userId

variable [DecidableEq ι] {claims : ι → AdmissionClaims} {db₀ db db' : BookingDb ι} {i : ι}
  {p q : CallPoint}

omit [DecidableEq ι] in
/-- A commit keeps the tables consistent. -/
theorem CallPoint.Commits.consistent (h : Commits (claims i) p db db')
    (hp : IssuedPasses claims db₀) (hdb : db.Consistent claims) : db'.Consistent claims := by
  cases h with
  | nothing hrows hrecords => exact ⟨by rw [hrows, hrecords]; exact hdb.events,
      by rw [hrecords]; exact hdb.tokens⟩
  | @booking e b _ hb hrow _ hrows hrecords =>
    obtain rfl := Option.some.inj ((hp.fits i).stored.symm.trans hb)
    refine ⟨fun b hb => ?_, fun j b hb hjti => ?_⟩
    · rw [hrows]
      by_cases hk : b.eventId = (claims i).eventId
      · rw [hk, Function.update_self]
        exact Option.some_ne_none _
      · rw [Function.update_of_ne hk]
        rw [hrecords] at hb
        rcases List.mem_append.mp hb with hb | hb
        · exact hdb.events b hb
        · exact absurd (congrArg Booking.eventId (List.mem_singleton.mp hb)) hk
    · rw [hrecords] at hb
      rcases List.mem_append.mp hb with hb | hb
      · exact hdb.tokens j b hb hjti
      · rw [List.mem_singleton.mp hb] at hjti ⊢
        exact hp.calls i j hjti

namespace CallPoint

/-- What a call commits is what it would book alone. -/
theorem Sound.bookTicket_eq (hs : CallPoint.commit.Sound i (claims i) db)
    (hlaw : (db.commit i).Lawful Event.NotOversold Booking.Clashes)
    (hfits : (claims i).Fits) :
    bookTicket (claims i) db.tables
      = (.done (.returned ⟨(claims i).booking, true⟩), (db.commit i).tables) := by
  obtain ⟨-, b, hb, hi⟩ := id hs
  obtain rfl := Option.some.inj (hfits.stored.symm.trans hb)
  -- the booking it commits clashes with none there is
  have hpair := hlaw.records_pairwise
  replace hpair : (db.records ++ db.insertsOf i).Pairwise (fun a b => ¬ a.Clashes b) := hpair
  rw [hi, List.pairwise_append] at hpair
  have hunbooked : ∀ b ∈ db.records, ¬ b.IsFor (claims i) := fun b hb =>
    hpair.2.2 b hb _ (List.mem_singleton_self _)
  obtain ⟨e, hrow, hroom, hrows⟩ := hs.1.rows_commit
  rw [bookTicket_of_room hfits hunbooked hrow hroom]
  refine Prod.ext rfl ?_
  show _ = Tables.mk (db.commit i).rows (db.records ++ db.insertsOf i)
  rw [hrows, hi]
  rfl

/-- **One step** of a call: it ends none and leaves the tables, or it ends its call as
the call would have ended alone. -/
theorem Moves.serial (h : Moves i (claims i) db p q db') (hs : p.Sound i (claims i) db)
    (hj : p.Justified (claims i) db) (hlaw : db.Lawful Event.NotOversold Booking.Clashes)
    (hlaw' : db'.Lawful Event.NotOversold Booking.Clashes) (hp : IssuedPasses claims db₀)
    (hdb : db.Consistent claims)
    {late : Prop} (haway : ∀ eventId, p.ending q = some (.raised (.soldOut eventId)) →
      db.Booked (claims i) → late) :
    Serial claims late db.tables ((p.ending q).map (fun o => (i, o))).toList db'.tables := by
  have hanswered {o : Outcome} {db' : BookingDb ι}
      (h : bookTicket (claims i) db.tables = (.done o, db'.tables)) :
      Serial claims late db.tables [(i, o)] db'.tables := .answered h (.nothing _)
  cases h with
  | nothing => cases p <;> exact .nothing _
  | aborted =>
    cases p with
    | done o => exact .nothing _
    | _ => exact .lostBefore (.nothing _)
  | replyLost => exact .lostAfter (hs.bookTicket_eq hlaw' (hp.fits i)) (.nothing _)
  | issues h =>
    cases h with
    | foundByJti hb hjti =>
      exact hanswered (bookTicket_of_booked hlaw.records_pairwise (hdb.tokens i) hb (Or.inl hjti))
    | foundByUser hb huser =>
      exact hanswered (bookTicket_of_booked hlaw.records_pairwise (hdb.tokens i) hb (Or.inr huser))
    | gaveUp h =>
      obtain ⟨b, hb, huser⟩ := hj (hp.fits i)
      exact absurd huser (h b hb)
    | committed => exact hanswered (hs.bookTicket_eq hlaw' (hp.fits i))
    | claimed h hn =>
      obtain ⟨-, rfl, -⟩ | ⟨e, -, -, -, -, -, rfl⟩ := update_cases h <;> exact .nothing _
    | inserted hb h =>
      obtain ⟨-, -, rfl⟩ := insert_cases h
      exact .nothing _
    | @rolledBack error =>
      cases error with
      | integrityError => exact .nothing _
      | aborted => exact hj.elim
      | dataError => exact absurd (hp.fits i) hj
      | soldOut eventId =>
        obtain ⟨rfl, e, hrow, hfull⟩ := hj
        by_cases hbooked : db.Booked (claims i)
        · obtain ⟨b, hb, hfor⟩ := id hbooked
          exact .turnedAway (haway _ rfl hbooked) hrow hfull hb hfor (.nothing _)
        · exact hanswered (bookTicket_of_full (fun b hb hfor => hbooked ⟨b, hb, hfor⟩) hrow hfull)
      | eventNotFound eventId =>
        obtain ⟨rfl, hrow⟩ := hj
        refine hanswered (bookTicket_of_missing (fun b hb hfor => ?_) hrow)
        -- a booking of its own would be for an event there is
        have hevent : b.eventId = (claims i).eventId :=
          hfor.elim (fun hjti => (hdb.tokens i b hb hjti).1) And.left
        exact hdb.events b hb (hevent ▸ hrow)
    | _ => exact .nothing _

end CallPoint

/-- The call that a step ended, and how. -/
def BookingVisit.ended (x : BookingVisit ι) : Option (ι × Outcome) :=
  x.reply.map (fun o => (x.action.caller, o))

/-- **No call is told that its event is sold out** while a booking of its own is
committed. -/
def TurnsAwayUnbooked (claims : ι → AdmissionClaims) (xs : List (BookingVisit ι)) : Prop :=
  ∀ x ∈ xs, ∀ eventId, x.reply = some (.raised (.soldOut eventId)) →
    ¬ x.before.db.Booked (claims x.action.caller)

/-- **A run** of mixed calls. -/
theorem BookingState.Invariant.serial_run {s : BookingState ι} (h : s.Invariant claims)
    (hp : IssuedPasses claims db₀) (hdb : s.db.Consistent claims) {acts : List (BookingAct ι)}
    {late : Prop}
    (haway : ¬ TurnsAwayUnbooked claims ((BookingService claims).trace s acts) → late) :
    Serial claims late s.db.tables
      (((BookingService claims).trace s acts).filterMap BookingVisit.ended)
      ((BookingService claims).final s acts).db.tables := by
  induction acts generalizing s with
  | nil => exact .nothing _
  | cons a acts ih =>
    have hfirst := (a.next_moves claims s).serial (h.sound _) (h.justified _) h.lawful
      (h.step a).lawful hp hdb (fun eventId hend hbooked =>
        haway (fun hnone => hnone _ List.mem_cons_self eventId hend hbooked))
    have hrest := ih (h.step a) ((h.step_commits a).consistent hp hdb)
      (fun hsome => haway (fun hnone => hsome (fun x hx => hnone x (List.mem_cons_of_mem _ hx))))
    have hends : ((BookingService claims).trace s (a :: acts)).filterMap BookingVisit.ended
        = (((s.call a.caller).ending (a.next claims s).1).map (fun o => (a.caller, o))).toList
          ++ ((BookingService claims).trace ((BookingService claims).step s a).2 acts).filterMap
            BookingVisit.ended := by
      rw [Machine.trace_cons]
      cases hend : (s.call a.caller).ending (a.next claims s).1 with
      | none => exact List.filterMap_cons_none (congrArg (Option.map _) hend)
      | some o => exact List.filterMap_cons_some (congrArg (Option.map _) hend)
    rw [hends]
    exact hfirst.append hrest

/-- **Mixed calls are calls one at a time.** Whatever calls with issued passes are
served, over bookings of events that are there, in whatever order of their statements
and wherever any of them end: each is answered what it would be answered alone, one
after another in the order in which they end, and the tables are those that such calls
leave. The one exception is a call that is told that its event is sold out while a
booking of its own is committed; in a run without it there is none. -/
theorem calls_are_serial (hdb : db₀.Settled)
    (hlaw : db₀.Lawful Event.NotOversold Booking.Clashes) (hp : IssuedPasses claims db₀)
    (hevents : ∀ b ∈ db₀.records, db₀.rows b.eventId ≠ none) (acts : List (BookingAct ι)) :
    let xs := (BookingService claims).trace (.opened db₀) acts
    Serial claims (¬ TurnsAwayUnbooked claims xs) db₀.tables (xs.filterMap BookingVisit.ended)
      ((BookingService claims).final (.opened db₀) acts).db.tables :=
  (BookingState.invariant_opened claims hdb hlaw).serial_run hp ⟨hevents, hp.prior⟩ id

/-- The same token presented twice for the last ticket but one: the reply to the first
commit is lost, and the second call is given the booking. -/
theorem calls_are_serial_of_lost_reply :
    let M := BookingService (fun _ : Bool => ⟨"a", "e", "j", 0, 60⟩)
    let acts : List (BookingAct Bool) := [.advance true, .advance true, .advance false,
      .advance false, .advance true, .advance false, .advance true, .loseReply true,
      .advance false, .advance false, .advance false, .advance false]
    let T := (M.final (.opened (.onSale "e" ⟨2, 0⟩ [])) acts).db.tables
    T.rows "e" = some ⟨2, 1⟩ ∧ Serial (fun _ : Bool => ⟨"a", "e", "j", 0, 60⟩) False
      (Database.onSale (ι := Bool) "e" ⟨2, 0⟩ []).tables
      [(true, .raised .aborted), (false, .returned ⟨⟨"e", "a", "j"⟩, false⟩)] T := by
  intro M acts T
  have hends : (M.trace (.opened (.onSale "e" ⟨2, 0⟩ [])) acts).filterMap BookingVisit.ended
      = [(true, .raised .aborted), (false, .returned ⟨⟨"e", "a", "j"⟩, false⟩)] := by
    decide +kernel
  have hreplies : ∀ x ∈ M.trace (.opened (.onSale "e" ⟨2, 0⟩ [])) acts, x.reply = none
      ∨ x.reply = some (.raised .aborted)
      ∨ x.reply = some (.returned ⟨⟨"e", "a", "j"⟩, false⟩) := by
    decide +kernel
  have hunbooked : TurnsAwayUnbooked (fun _ : Bool => ⟨"a", "e", "j", 0, 60⟩)
      (M.trace (.opened (.onSale "e" ⟨2, 0⟩ [])) acts) := by
    intro x hx eventId he
    obtain h | h | h := hreplies x hx
    · exact absurd (he.symm.trans h) (by simp)
    · exact absurd (he.symm.trans h) (by simp)
    · exact absurd (he.symm.trans h) (by simp)
  have hpasses : IssuedPasses (fun _ : Bool => ⟨"a", "e", "j", 0, 60⟩) (.onSale "e" ⟨2, 0⟩ []) :=
    ⟨fun _ _ _ => ⟨rfl, rfl⟩, fun _ b hb => absurd hb List.not_mem_nil,
      fun _ => ⟨by decide, by decide⟩⟩
  have hserial := calls_are_serial settled_onSale (lawful_onSale (by decide) (by decide))
    hpasses (fun b hb => absurd hb List.not_mem_nil) acts
  refine ⟨by decide +kernel, ?_⟩
  rw [← hends, show False = ¬ TurnsAwayUnbooked (fun _ : Bool => ⟨"a", "e", "j", 0, 60⟩)
    (M.trace (.opened (.onSale "e" ⟨2, 0⟩ [])) acts) from (eq_false (not_not.mpr hunbooked)).symm]
  exact hserial
