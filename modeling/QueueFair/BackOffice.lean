import QueueFair.EventAdmin
import Mathlib.Tactic.Linarith
import Mathlib.Tactic.Ring

/-!
# What the staff can do

The admin site registers events and bookings with all their fields, so the staff can
add, change and delete either by hand, while calls are served. Only one thing is
refused that the constraints would let pass: an event that has bookings is
protected.

None of this breaks a constraint, and no booking loses its event. But nothing of it
goes through `book_ticket` either, so it moves the bookings of an event apart from
its counter: a booking deleted by hand keeps its ticket, one added by hand takes
none, and a form saved writes the counter it showed. `Edit.tally` says by how much,
and that is all that ever moves them apart (`staff_account_for_the_counter`): calls
move them together.

A form of the admin site is one transaction, and is taken here to be done at once, with
whatever values the staff have given. The form that raises the capacity of an event,
shown at one time and saved at a later one, is served in steps, as before.
-/

open Database

variable {ι κ : Type}

/-! ## What is done by hand -/

/-- A form of the admin site, sent and saved at once. -/
inductive Edit where
  | addEvent (eventId : String) (e : Event)
  | changeEvent (eventId : String) (e : Event)
  | deleteEvent (eventId : String)
  | addBooking (b : Booking)
  | changeBooking (old new : Booking)
  | deleteBookings (selected : List Booking)

/-- How many tickets are booked, by the row of an event. -/
def counter (row : Option Event) : ℤ := row.elim 0 (fun e => e.ticketsBooked)

namespace Edit

/-- What a form makes of the tables; nothing, if it is refused. -/
def apply (db : BookingDb ι) : Edit → Option (BookingDb ι)
  | .addEvent eventId e => db.addRow Event.NotOversold eventId e
  | .changeEvent eventId e => db.replaceRow Event.NotOversold eventId e
  | .deleteEvent eventId => if db.bookingsOf eventId = [] then db.removeRow eventId else none
  | .addBooking b =>
    if (db.rows b.eventId).isSome then db.addRecord Booking.Clashes b else none
  | .changeBooking old new =>
    if (db.rows new.eventId).isSome then db.replaceRecord Booking.Clashes old new else none
  | .deleteBookings selected => some (db.removeRecords (fun b => b ∈ selected))

/-- **By how much a form moves the counter of an event away from its bookings.** -/
def tally (db : BookingDb ι) (eventId : String) : Edit → ℤ
  | .addEvent key e => if key = eventId then e.ticketsBooked else 0
  | .changeEvent key e =>
    if key = eventId then e.ticketsBooked - counter (db.rows eventId) else 0
  | .deleteEvent key => if key = eventId then -counter (db.rows eventId) else 0
  | .addBooking b => if b.eventId = eventId then -1 else 0
  | .changeBooking old new =>
    (if old.eventId = eventId then 1 else 0) - (if new.eventId = eventId then 1 else 0)
  | .deleteBookings selected => (db.bookingsOf eventId).countP (fun b => b ∈ selected)

end Edit

/-! ## The counter and the bookings -/

namespace Database

/-- By how much the counter of an event exceeds its bookings. -/
def surplus (db : BookingDb ι) (eventId : String) : ℤ :=
  counter (db.rows eventId) - (db.bookingsOf eventId).length

/-- No booking is without its event. -/
def References (db : BookingDb ι) : Prop := ∀ b ∈ db.records, db.rows b.eventId ≠ none

variable {db db' : BookingDb ι}

theorem length_bookingsOf (db : BookingDb ι) (eventId : String) :
    (db.bookingsOf eventId).length = db.records.countP (fun b => b.eventId = eventId) :=
  List.countP_eq_length_filter.symm

/-- What one booking more does to the count. -/
theorem length_bookingsOf_append {b : Booking} (h : db'.records = db.records ++ [b])
    (eventId : String) : (db'.bookingsOf eventId).length
      = (db.bookingsOf eventId).length + if b.eventId = eventId then 1 else 0 := by
  rw [length_bookingsOf, length_bookingsOf, h, List.countP_append, List.countP_singleton]
  simp only [decide_eq_true_eq]

/-- What a booking written anew does to the count: it is one of the bookings. -/
theorem length_bookingsOf_replace (db' : BookingDb ι) {old new : Booking}
    (hnodup : db.records.Nodup) (hold : old ∈ db.records)
    (h : db'.records = db.records.map (fun b => if b = old then new else b)) (eventId : String) :
    (db'.bookingsOf eventId).length + (if old.eventId = eventId then 1 else 0)
      = (db.bookingsOf eventId).length + if new.eventId = eventId then 1 else 0 := by
  obtain ⟨l, l', hsplit⟩ := List.append_of_mem hold
  rw [hsplit, List.nodup_append, List.nodup_cons] at hnodup
  obtain ⟨-, ⟨hl', -⟩, hl⟩ := hnodup
  have hfix {l : List Booking} (hnot : old ∉ l) :
      l.map (fun b => if b = old then new else b) = l := by
    refine (List.map_congr_left (fun b hb => if_neg ?_)).trans (List.map_id l)
    rintro rfl
    exact hnot hb
  have hrecords : db'.records = l ++ new :: l' := by
    rw [h, hsplit, List.map_append, List.map_cons, if_pos rfl, hfix hl', hfix]
    exact fun hmem => hl old hmem old List.mem_cons_self rfl
  rw [length_bookingsOf, length_bookingsOf, hrecords, hsplit, List.countP_append,
    List.countP_append, List.countP_cons, List.countP_cons]
  simp only [decide_eq_true_eq]
  omega

/-- What removing bookings does to the count. -/
theorem length_bookingsOf_remove (db : BookingDb ι) (p : Booking → Bool)
    (eventId : String) : ((db.removeRecords p).bookingsOf eventId).length
      + (db.bookingsOf eventId).countP p = (db.bookingsOf eventId).length := by
  have hselected : (db.bookingsOf eventId).countP p
      = (db.records.filter p).countP (fun b => b.eventId = eventId) := by
    unfold bookingsOf
    rw [List.countP_filter, List.countP_filter]
    exact List.countP_congr (fun b _ => by rw [Bool.and_comm])
  rw [hselected, length_bookingsOf, length_bookingsOf,
    List.countP_eq_countP_filter_add db.records (fun b => b.eventId = eventId) p, Nat.add_comm]
  rfl

end Database

/-- What one row does to the counter of an event. -/
theorem counter_update (rows : String → Option Event) (key : String) (row : Option Event)
    (eventId : String) : counter (Function.update rows key row eventId)
      = if key = eventId then counter row else counter (rows eventId) := by
  by_cases hk : key = eventId
  · subst hk
    rw [if_pos rfl, Function.update_self]
  · rw [if_neg hk, Function.update_of_ne (Ne.symm hk)]

/-! ## What one form does -/

/-- Every booking clashes with itself. -/
theorem Booking.Clashes.refl (b : Booking) : b.Clashes b := Or.inl rfl

namespace Edit

variable {db db' : BookingDb ι} {e : Edit}

/-- **All that a form can do**, and what it says about the tables it met. -/
theorem apply_cases (h : e.apply db = some db') :
    (∃ k r, e = .addEvent k r ∧ db.addRow Event.NotOversold k r = some db')
    ∨ (∃ k r, e = .changeEvent k r ∧ db.replaceRow Event.NotOversold k r = some db')
    ∨ (∃ k, e = .deleteEvent k ∧ db.bookingsOf k = [] ∧ db.removeRow k = some db')
    ∨ (∃ b, e = .addBooking b ∧ db.rows b.eventId ≠ none
      ∧ db.addRecord Booking.Clashes b = some db')
    ∨ (∃ old new, e = .changeBooking old new ∧ db.rows new.eventId ≠ none
      ∧ db.replaceRecord Booking.Clashes old new = some db')
    ∨ ∃ selected, e = .deleteBookings selected
      ∧ db' = db.removeRecords (fun b => b ∈ selected) := by
  cases e with
  | addEvent k r => exact Or.inl ⟨k, r, rfl, h⟩
  | changeEvent k r => exact Or.inr (Or.inl ⟨k, r, rfl, h⟩)
  | deleteEvent k =>
    refine Or.inr (Or.inr (Or.inl ⟨k, rfl, ?_⟩))
    replace h : (if db.bookingsOf k = [] then db.removeRow k else none) = some db' := h
    split at h
    · next hnone => exact ⟨hnone, h⟩
    · exact absurd h (by simp)
  | addBooking b =>
    refine Or.inr (Or.inr (Or.inr (Or.inl ⟨b, rfl, ?_⟩)))
    replace h : (if (db.rows b.eventId).isSome then db.addRecord Booking.Clashes b else none)
      = some db' := h
    split at h
    · next hsome => exact ⟨Option.isSome_iff_ne_none.mp hsome, h⟩
    · exact absurd h (by simp)
  | changeBooking old new =>
    refine Or.inr (Or.inr (Or.inr (Or.inr (Or.inl ⟨old, new, rfl, ?_⟩))))
    replace h : (if (db.rows new.eventId).isSome then db.replaceRecord Booking.Clashes old new
      else none) = some db' := h
    split at h
    · next hsome => exact ⟨Option.isSome_iff_ne_none.mp hsome, h⟩
    · exact absurd h (by simp)
  | deleteBookings selected =>
    exact Or.inr (Or.inr (Or.inr (Or.inr (Or.inr ⟨selected, rfl, (Option.some.inj h).symm⟩))))

/-- **A form is a change from outside**: it breaks no constraint, and takes from no
session what it holds. -/
theorem outside [DecidableEq ι] (h : e.apply db = some db') :
    Outside Event.NotOversold Booking.Clashes db db' := by
  obtain ⟨k, r, -, h⟩ | ⟨k, r, -, h⟩ | ⟨k, -, -, h⟩ | ⟨b, -, -, h⟩ | ⟨old, new, -, -, h⟩
    | ⟨l, -, rfl⟩ := apply_cases h
  · exact outside_addRow h
  · exact outside_replaceRow h
  · exact outside_removeRow h
  · exact outside_addRecord Booking.Clashes.symm h
  · exact outside_replaceRecord Booking.Clashes.symm Booking.Clashes.refl h
  · exact outside_removeRecords _

/-- **No booking loses its event by a form.** -/
theorem references (hdb : db.References) (h : e.apply db = some db') : db'.References := by
  have hrow (k : String) (r : Event) :
      Database.References { db with rows := Function.update db.rows k (some r) } := by
    intro b hb
    show Function.update db.rows k (some r) b.eventId ≠ none
    by_cases hk : b.eventId = k
    · rw [hk, Function.update_self]
      exact Option.some_ne_none r
    · rw [Function.update_of_ne hk]
      exact hdb b hb
  obtain ⟨k, r, -, h⟩ | ⟨k, r, -, h⟩ | ⟨k, -, hnone, h⟩ | ⟨b, -, hb, h⟩ | ⟨old, new, -, hnew, h⟩
    | ⟨l, -, rfl⟩ := apply_cases h
  · rw [(addRow_cases h).1]
    exact hrow k r
  · rw [(replaceRow_cases h).1]
    exact hrow k r
  · obtain ⟨rfl, -⟩ := removeRow_cases h
    intro b hb
    show Function.update db.rows k none b.eventId ≠ none
    have hk : b.eventId ≠ k := fun hk =>
      List.eq_nil_iff_forall_not_mem.mp hnone b (List.mem_filter.mpr ⟨hb, decide_eq_true hk⟩)
    rw [Function.update_of_ne hk]
    exact hdb b hb
  · obtain ⟨rfl, -⟩ := addRecord_cases h
    intro b' hb'
    rcases List.mem_append.mp hb' with hb' | hb'
    · exact hdb b' hb'
    · rw [List.mem_singleton.mp hb']
      exact hb
  · obtain ⟨rfl, -, -⟩ := replaceRecord_cases h
    intro b' hb'
    obtain ⟨b, hb, rfl⟩ := List.mem_map.mp hb'
    show db.rows (if b = old then new else b).eventId ≠ none
    by_cases hold : b = old
    · rw [if_pos hold]
      exact hnew
    · rw [if_neg hold]
      exact hdb b hb
  · exact fun b hb => hdb b (List.mem_of_mem_filter hb)

/-- **A form moves the counter of an event away from its bookings by its tally.** -/
theorem surplus (hlaw : db.Lawful Event.NotOversold Booking.Clashes)
    (h : e.apply db = some db') (eventId : String) :
    db'.surplus eventId = db.surplus eventId + e.tally db eventId := by
  unfold Database.surplus
  obtain ⟨k, r, rfl, h⟩ | ⟨k, r, rfl, h⟩ | ⟨k, rfl, -, h⟩ | ⟨b, rfl, -, h⟩ | ⟨old, new, rfl, -, h⟩
    | ⟨l, rfl, rfl⟩ := apply_cases h
  · obtain ⟨rfl, hnone, -, -⟩ := addRow_cases h
    show counter (Function.update db.rows k (some r) eventId) - ((db.bookingsOf eventId).length : ℤ)
      = _ + if k = eventId then (r.ticketsBooked : ℤ) else 0
    rw [counter_update]
    by_cases hk : k = eventId
    · subst hk
      rw [if_pos rfl, if_pos rfl, hnone]
      show (r.ticketsBooked : ℤ) - _ = 0 - _ + (r.ticketsBooked : ℤ)
      ring
    · rw [if_neg hk, if_neg hk, add_zero]
  · obtain ⟨rfl, -, -⟩ := replaceRow_cases h
    show counter (Function.update db.rows k (some r) eventId) - ((db.bookingsOf eventId).length : ℤ)
      = _ + if k = eventId then r.ticketsBooked - counter (db.rows eventId) else 0
    rw [counter_update]
    by_cases hk : k = eventId
    · rw [if_pos hk, if_pos hk]
      show (r.ticketsBooked : ℤ) - _ = _
      ring
    · rw [if_neg hk, if_neg hk, add_zero]
  · obtain ⟨rfl, -⟩ := removeRow_cases h
    show counter (Function.update db.rows k none eventId) - ((db.bookingsOf eventId).length : ℤ)
      = _ + if k = eventId then -counter (db.rows eventId) else 0
    rw [counter_update]
    by_cases hk : k = eventId
    · rw [if_pos hk, if_pos hk]
      show (0 : ℤ) - _ = _
      ring
    · rw [if_neg hk, if_neg hk, add_zero]
  · obtain ⟨rfl, -⟩ := addRecord_cases h
    rw [length_bookingsOf_append (b := b) rfl]
    show _ = _ + if b.eventId = eventId then (-1 : ℤ) else 0
    split <;> push_cast <;> ring
  · obtain ⟨rfl, hold, -⟩ := replaceRecord_cases h
    have hnodup : db.records.Pairwise (· ≠ ·) :=
      hlaw.records_pairwise.imp (fun {a b} hab (he : a = b) => hab (he ▸ Booking.Clashes.refl a))
    have hlength := length_bookingsOf_replace { db with
      records := db.records.map (fun b => if b = old then new else b) } hnodup hold rfl eventId
    show _ = _ + ((if old.eventId = eventId then (1 : ℤ) else 0)
      - if new.eventId = eventId then (1 : ℤ) else 0)
    have hcast := congrArg (fun n : ℕ => (n : ℤ)) hlength
    push_cast at hcast
    linarith
  · have hcast := congrArg (fun n : ℕ => (n : ℤ))
      (db.length_bookingsOf_remove (fun b => b ∈ l) eventId)
    push_cast at hcast
    show counter (db.rows eventId) - _ = counter (db.rows eventId) - _
      + (((db.bookingsOf eventId).countP (fun b => b ∈ l) : ℕ) : ℤ)
    linarith

end Edit

/-! ## What a call does -/

namespace CallPoint.Commits

variable {db db' : BookingDb ι} {c : AdmissionClaims} {p : CallPoint}

/-- **A call moves the counter of its event together with its bookings.** -/
theorem surplus (h : p.Commits c db db') (eventId : String) :
    db'.surplus eventId = db.surplus eventId := by
  unfold Database.surplus
  cases h with
  | nothing hrows hrecords =>
    unfold bookingsOf
    rw [hrows, hrecords]
  | @booking e b _ hb hrow _ hrows hrecords =>
    rw [length_bookingsOf_append hrecords, hrows, counter_update,
      AdmissionClaims.stored_eventId hb]
    by_cases he : c.eventId = eventId
    · subst he
      rw [if_pos rfl, if_pos rfl, hrow]
      show ((e.ticketsBooked + 1 : ℕ) : ℤ) - _ = (e.ticketsBooked : ℤ) - _
      push_cast
      ring
    · rw [if_neg he, if_neg he, add_zero]

/-- And no booking loses its event by a call. -/
theorem references (h : p.Commits c db db') (hdb : db.References) : db'.References := by
  cases h with
  | nothing hrows hrecords =>
    intro b hb
    rw [hrows]
    exact hdb b (hrecords ▸ hb)
  | @booking e b _ hb _ _ hrows hrecords =>
    intro b' hb'
    rw [hrows]
    by_cases he : b'.eventId = c.eventId
    · rw [he, Function.update_self]
      exact Option.some_ne_none _
    · rw [Function.update_of_ne he]
      rw [hrecords] at hb'
      rcases List.mem_append.mp hb' with hb' | hb'
      · exact hdb b' hb'
      · rw [List.mem_singleton.mp hb'] at he
        exact absurd (AdmissionClaims.stored_eventId hb) he

end CallPoint.Commits

/-! ## The office -/

variable [DecidableEq ι] [DecidableEq κ]

/-- One step of a call or of the staff. -/
inductive OfficeAct (ι κ : Type) where
  /-- A step of a call, or with the change form of an event. -/
  | desk (act : DeskAct ι κ)
  | edit (e : Edit)

/-- **The booking service, with its staff at the admin site.** -/
def BackOffice (claims : ι ⊕ κ → AdmissionClaims) :
    Machine (DeskState ι κ) (OfficeAct ι κ) (Option Outcome) :=
  ⟨fun s a =>
    match a with
    | .desk act => (AdminDesk claims).step s act
    | .edit e => (none, ⟨⟨(e.apply s.booking.db).getD s.booking.db, s.booking.call⟩, s.form⟩)⟩

/-- The visits of the admin site. -/
abbrev OfficeVisit (ι κ : Type) : Type := Visit (DeskState ι κ) (OfficeAct ι κ) (Option Outcome)

/-- By how much a visit moves the counter of an event away from its bookings: a form
of the staff by its tally, a save by what it writes over the counter. -/
def OfficeVisit.moves (eventId : String) (x : OfficeVisit ι κ) : ℤ :=
  match x.action with
  | .desk (.commit k) => counter (x.before.booking.db.row (.inr k) eventId)
    - counter (x.before.booking.db.rows eventId)
  | .desk _ => 0
  | .edit e =>
    if (e.apply x.before.booking.db).isSome then e.tally x.before.booking.db eventId else 0

/-! ## One step with the change form of an event -/

section Form

variable {k : κ} {p : FormPoint} {db : BookingDb (ι ⊕ κ)}

/-- The update of a save is its session's own, so far. -/
theorem FormPoint.tables_update :
    (p.update k db).2.rows = db.rows ∧ (p.update k db).2.records = db.records := by
  cases p with
  | saving eventId e more =>
    simp only [update]
    split
    · exact ⟨rfl, rfl⟩
    · next n db' hu =>
      obtain ⟨-, rfl, -⟩ | ⟨e', -, -, -, -, -, rfl⟩ := update_cases hu <;> exact ⟨rfl, rfl⟩
    · exact ⟨rfl, rfl⟩
  | _ => exact ⟨rfl, rfl⟩

/-- A save that fails is dropped. -/
theorem FormPoint.tables_abort :
    (p.abort k db).2.rows = db.rows ∧ (p.abort k db).2.records = db.records := by
  cases p <;> exact ⟨rfl, rfl⟩

/-- **The commit of a save** writes the rows its session has locked. -/
theorem FormPoint.Sound.tables_commit (h : p.Sound k db) :
    (p.commit k db).2.rows = db.row (.inr k) ∧ (p.commit k db).2.records = db.records := by
  cases p with
  | saved eventId e more =>
    refine ⟨rfl, ?_⟩
    show db.records ++ db.insertsOf (.inr k) = _
    rw [h.inserts, List.append_nil]
  | _ =>
    -- nothing is saved, and nothing is locked
    refine ⟨?_, rfl⟩
    funext key
    refine (row_of_not_locked (fun r hl => ?_)).symm
    exact absurd (h.locks key r hl) (by simp [overwrites])

end Form

/-! ## Every reachable state -/

namespace DeskState

/-- **What every session has open**, and that the constraints hold. -/
structure Sessions (claims : ι ⊕ κ → AdmissionClaims) (s : DeskState ι κ) : Prop where
  lawful : s.booking.db.Lawful Event.NotOversold Booking.Clashes
  calls : ∀ i, (s.booking.call (.inl i)).Sound (.inl i) (claims (.inl i)) s.booking.db
  forms : ∀ k, (s.form k).Sound k s.booking.db

variable {claims : ι ⊕ κ → AdmissionClaims} {s : DeskState ι κ}

/-- It holds before the first call. -/
theorem sessions_opened (claims : ι ⊕ κ → AdmissionClaims) {db : BookingDb (ι ⊕ κ)}
    (hdb : db.Settled) (hlaw : db.Lawful Event.NotOversold Booking.Clashes) :
    (opened db).Sessions claims :=
  ⟨hlaw, fun _ => hdb.idle _, fun _ => FormPoint.sound_of_idle (hdb.idle _) _⟩

namespace Sessions

/-- What a step of a call makes of the tables. -/
theorem commits_call (h : s.Sessions claims) {a : DeskAct ι κ} {b : BookingAct (ι ⊕ κ)}
    (hcall : a.call = some b) : (s.booking.call b.caller).Commits (claims b.caller) s.booking.db
      ((AdminDesk claims).step s a).2.booking.db := by
  obtain ⟨i, hi⟩ := exists_caller hcall
  have hsound : (s.booking.call b.caller).Sound b.caller (claims b.caller) s.booking.db := by
    rw [hi]
    exact h.calls i
  unfold AdminDesk
  simp only [hcall]
  exact (b.next_moves claims s.booking).commits hsound

/-- **What a step makes of the tables**: what a session of the staff saves, or what a
call commits. -/
theorem commits (h : s.Sessions claims) (a : DeskAct ι κ) :
    (∃ k, a = .commit k
        ∧ ((AdminDesk claims).step s a).2.booking.db.rows = s.booking.db.row (.inr k)
        ∧ ((AdminDesk claims).step s a).2.booking.db.records = s.booking.db.records)
      ∨ (∀ k, a ≠ .commit k) ∧ ∃ i p, CallPoint.Commits (claims i) p s.booking.db
        ((AdminDesk claims).step s a).2.booking.db := by
  cases a with
  | commit k => exact Or.inl ⟨k, rfl, (h.forms k).tables_commit⟩
  | advance i => exact Or.inr ⟨by simp, _, _, h.commits_call (a := .advance i) rfl⟩
  | abort i => exact Or.inr ⟨by simp, _, _, h.commits_call (a := .abort i) rfl⟩
  | loseReply i => exact Or.inr ⟨by simp, _, _, h.commits_call (a := .loseReply i) rfl⟩
  | update k =>
    exact Or.inr ⟨by simp, .inr k, .claim, .nothing FormPoint.tables_update.1
      FormPoint.tables_update.2⟩
  | fail k =>
    exact Or.inr ⟨by simp, .inr k, .claim, .nothing FormPoint.tables_abort.1
      FormPoint.tables_abort.2⟩
  | render k eventId => exact Or.inr ⟨by simp, .inr k, .claim, .nothing rfl rfl⟩
  | post k more => exact Or.inr ⟨by simp, .inr k, .claim, .nothing rfl rfl⟩

/-- **A step of a call, or with the change form of an event.** -/
theorem desk_step (h : s.Sessions claims) (a : DeskAct ι κ) :
    ((AdminDesk claims).step s a).2.Sessions claims := by
  cases hcall : a.call with
  | some b =>
    obtain ⟨i, hi⟩ := exists_caller hcall
    have hmoves := b.next_moves claims s.booking
    have hsound : (s.booking.call b.caller).Sound b.caller (claims b.caller) s.booking.db := by
      rw [hi]
      exact h.calls i
    have hstep : ((AdminDesk claims).step s a).2
        = ⟨((BookingService claims).step s.booking b).2, s.form⟩ := by
      unfold AdminDesk
      simp only [hcall]
    rw [hstep]
    refine ⟨hmoves.served.lawful Booking.Clashes.symm h.lawful, fun j => ?_, fun k => ?_⟩
    · by_cases hj : .inl j = b.caller
      · rw [hj, BookingService.step_call_self]
        exact hmoves.sound hsound
      · rw [BookingService.step_call_of_ne hj]
        exact (h.calls j).leaves (hmoves.served.leaves hj)
    · refine (h.forms k).leaves (hmoves.served.leaves ?_)
      rw [hi]
      exact Sum.inr_ne_inl
  | none =>
    obtain ⟨k, q, hform, hmoves⟩ := save_moves s hcall
    have hstep : ((AdminDesk claims).step s a).2
        = ⟨⟨(a.save s).2, s.booking.call⟩, Function.update s.form k q⟩ := by
      unfold AdminDesk
      simp only [hcall, hform]
    rw [hstep]
    refine ⟨hmoves.served.lawful Booking.Clashes.symm h.lawful, fun i => ?_, fun k' => ?_⟩
    · exact (h.calls i).leaves (hmoves.served.leaves Sum.inl_ne_inr)
    · by_cases hk : k' = k
      · subst hk
        show (Function.update s.form k' q k').Sound k' _
        rw [Function.update_self]
        exact hmoves.sound (h.forms k')
      · show (Function.update s.form k q k').Sound k' _
        rw [Function.update_of_ne hk]
        exact (h.forms k').leaves (hmoves.served.leaves (fun he => hk (Sum.inr.inj he)))

/-- A change from outside leaves every session what it has open. -/
theorem outside (h : s.Sessions claims) {db : BookingDb (ι ⊕ κ)}
    (ho : Outside Event.NotOversold Booking.Clashes s.booking.db db) :
    Sessions claims ⟨⟨db, s.booking.call⟩, s.form⟩ :=
  ⟨ho.lawful h.lawful, fun i => (h.calls i).leaves (ho.leaves _),
    fun k => (h.forms k).leaves (ho.leaves _)⟩

end Sessions

/-- **The books of the office**: what is open, that no booking is without its event,
and by how much the counters exceed the bookings. -/
structure Books (claims : ι ⊕ κ → AdmissionClaims) (surplus : String → ℤ) (s : DeskState ι κ) :
    Prop where
  sessions : s.Sessions claims
  references : s.booking.db.References
  surplus : ∀ eventId, s.booking.db.surplus eventId = surplus eventId

/-- **One step of a call or of the staff.** -/
theorem Books.step {surplus : String → ℤ} (h : s.Books claims surplus) (a : OfficeAct ι κ) :
    ((BackOffice claims).step s a).2.Books claims (fun eventId => surplus eventId
      + OfficeVisit.moves eventId ⟨s, a, ((BackOffice claims).step s a).1⟩) := by
  cases a with
  | desk act =>
    refine ⟨h.sessions.desk_step act, ?_, fun eventId => ?_⟩
    · obtain ⟨k, rfl, hrows, hrecords⟩ | ⟨-, i, p, hcommits⟩ := h.sessions.commits act
      · intro b hb
        show ((AdminDesk claims).step s (.commit k)).2.booking.db.rows b.eventId ≠ none
        rw [hrows]
        by_cases hlock : ∃ r, s.booking.db.locks b.eventId = some (.inr k, r)
        · obtain ⟨r, hlock⟩ := hlock
          rw [row_of_locked hlock]
          exact Option.some_ne_none r
        · rw [row_of_not_locked (fun r hr => hlock ⟨r, hr⟩)]
          exact h.references b (hrecords ▸ hb)
      · exact hcommits.references h.references
    · rw [← h.surplus eventId]
      obtain ⟨k, rfl, hrows, hrecords⟩ | ⟨hne, i, p, hcommits⟩ := h.sessions.commits act
      · show ((AdminDesk claims).step s (.commit k)).2.booking.db.surplus eventId = _
          + (counter (s.booking.db.row (.inr k) eventId) - counter (s.booking.db.rows eventId))
        unfold Database.surplus bookingsOf
        rw [hrows, hrecords]
        ring
      · have hstill : OfficeVisit.moves eventId
            ⟨s, .desk act, ((BackOffice claims).step s (.desk act)).1⟩ = 0 := by
          cases act with
          | commit k => exact absurd rfl (hne k)
          | _ => rfl
        rw [hstill, add_zero]
        exact hcommits.surplus eventId
  | edit e =>
    cases he : e.apply s.booking.db with
    | none =>
      have hstep : (BackOffice claims).step s (.edit e) = (none, s) := by
        unfold BackOffice
        simp only [he, Option.getD_none]
      rw [hstep]
      refine ⟨h.sessions, h.references, fun eventId => ?_⟩
      simp only [OfficeVisit.moves, he, Option.isSome_none, Bool.false_eq_true, if_false, add_zero]
      exact h.surplus eventId
    | some db =>
      have hstep : (BackOffice claims).step s (.edit e)
          = (none, ⟨⟨db, s.booking.call⟩, s.form⟩) := by
        unfold BackOffice
        simp only [he, Option.getD_some]
      rw [hstep]
      refine ⟨h.sessions.outside (Edit.outside he), Edit.references h.references he,
        fun eventId => ?_⟩
      simp only [OfficeVisit.moves, he, Option.isSome_some, if_true]
      rw [← h.surplus eventId]
      exact Edit.surplus h.sessions.lawful he eventId

/-- **A whole run.** -/
theorem Books.run {surplus : String → ℤ} (h : s.Books claims surplus)
    (acts : List (OfficeAct ι κ)) :
    ((BackOffice claims).final s acts).Books claims (fun eventId => surplus eventId
      + (((BackOffice claims).trace s acts).map (OfficeVisit.moves eventId)).sum) := by
  induction acts generalizing s surplus with
  | nil =>
    simp only [Machine.trace_nil, List.map_nil, List.sum_nil, add_zero]
    exact h
  | cons a acts ih =>
    have hrest := ih (h.step a)
    simp only [Machine.trace_cons, List.map_cons, List.sum_cons, ← add_assoc]
    exact hrest

end DeskState

/-! ## The account of the staff -/

/-- **The staff account for the counter**, from the tables `db₀` to the tables `db` after
the history `xs`. -/
structure StaffAccounts (db₀ db : BookingDb (ι ⊕ κ)) (xs : List (OfficeVisit ι κ)) : Prop where
  /-- What separates the counter of an event from its bookings is what the staff did. -/
  surplus : ∀ eventId, db.surplus eventId
    = db₀.surplus eventId + (xs.map (OfficeVisit.moves eventId)).sum
  /-- No booking is without its event. -/
  references : db.References
  within : ∀ eventId, ∀ e ∈ db.rows eventId, e.ticketsBooked ≤ e.capacity
  /-- So an event is sold over its capacity by what the staff did at most. -/
  bookings : ∀ eventId, ∀ e ∈ db.rows eventId, ((db.bookingsOf eventId).length : ℤ)
    ≤ e.capacity - (db₀.surplus eventId + (xs.map (OfficeVisit.moves eventId)).sum)
  jti_nodup : (db.records.map Booking.tokenJti).Nodup
  user_nodup : (db.records.map (fun b => (b.eventId, b.userId))).Nodup

/-- **The staff account for the counter.** Whatever calls are served and whatever the
staff do at the admin site, in whatever order: nothing breaks a constraint or leaves a
booking without its event, and nothing but the forms of the staff moves the counter of
an event away from its bookings, each by its tally. -/
theorem staff_account_for_the_counter (claims : ι ⊕ κ → AdmissionClaims)
    {db₀ : BookingDb (ι ⊕ κ)} (hdb : db₀.Settled)
    (hlaw : db₀.Lawful Event.NotOversold Booking.Clashes) (href : db₀.References)
    (acts : List (OfficeAct ι κ)) :
    StaffAccounts db₀ ((BackOffice claims).final (.opened db₀) acts).booking.db
      ((BackOffice claims).trace (.opened db₀) acts) := by
  have hbooks : (DeskState.opened db₀).Books claims db₀.surplus :=
    ⟨DeskState.sessions_opened claims hdb hlaw, href, fun _ => rfl⟩
  have hrun := hbooks.run acts
  have hlawful := hrun.sessions.lawful
  have hpair := hlawful.records_pairwise
  refine ⟨hrun.surplus, hrun.references, hlawful.rows, fun eventId e he => ?_, ?_, ?_⟩
  · rw [← hrun.surplus eventId]
    unfold Database.surplus
    rw [show counter (_) = (e.ticketsBooked : ℤ) from congrArg counter he]
    have hle : (e.ticketsBooked : ℤ) ≤ e.capacity := by exact_mod_cast hlawful.rows eventId e he
    linarith
  · rw [List.Nodup, List.pairwise_map]
    exact hpair.imp (fun hab heq => hab (Or.inl heq))
  · rw [List.Nodup, List.pairwise_map]
    exact hpair.imp (fun hab heq => hab (Or.inr (Prod.mk.inj heq)))

/-- Two buyers take the two tickets of an event, and the booking of the first is deleted
by hand: one booking is left, no ticket is, and a third buyer is told that the event is
sold out. -/
theorem staff_account_for_the_counter_of_a_deletion :
    let M := BackOffice (buyers "e")
    let books (i : Fin 4) : List (OfficeAct (Fin 4) Unit) := (DeskAct.book i).map .desk
    let acts := books 0 ++ books 1 ++ .edit (.deleteBookings [⟨"e", "0", "0"⟩]) :: books 2
    let s := M.final (.opened (.onSale "e" ⟨2, 0⟩ [])) acts
    s.booking.db.rows "e" = some ⟨2, 2⟩ ∧ s.booking.db.records = [⟨"e", "1", "1"⟩]
      ∧ s.booking.call (.inl 2) = .done (.raised (.soldOut "e"))
      ∧ StaffAccounts (.onSale "e" ⟨2, 0⟩ []) s.booking.db
        (M.trace (.opened (.onSale "e" ⟨2, 0⟩ [])) acts) := by
  intro M books acts s
  refine ⟨by decide +kernel, by decide +kernel, by decide +kernel, ?_⟩
  exact staff_account_for_the_counter _ settled_onSale (lawful_onSale (by decide) (by decide))
    (fun b hb => absurd hb List.not_mem_nil) acts
