import QueueFair.Machine
import QueueFair.ReadCommitted
import Mathlib.Data.Set.Function

/-!
# The booking transaction

`book_ticket` as the database sees it: a sequence of statements, with any
number of calls between any two of them. A call looks its booking up, first
by the token and then by the user; if there is none, it opens a transaction,
claims a ticket by a conditional update, and records the booking. Losing the
race for a unique key rolls the claim back and looks the booking up again.

The state keeps where each call stands (`CallPoint`), and a step is one
statement of one call (`CallPoint.advance`). A call can also end at any point
without an answer: its connection is lost before the next statement, or the
reply of its commit is.

An event's name and the times of creation are never read here, and are left
out of its row and of a booking.
-/

/-! ## Models -/

/-- The trusted contents of a verified admission token. -/
structure AdmissionClaims where
  /-- The token's `sub`. -/
  userId : String
  eventId : String
  /-- The unique token id. -/
  jti : String
  /-- `iat`, in Unix seconds. -/
  issuedAt : ℤ
  /-- `exp`, in Unix seconds. -/
  expiresAt : ℤ
deriving DecidableEq

/-- The row of an event: its inventory, and how much of it is booked. -/
structure Event where
  capacity : ℕ
  ticketsBooked : ℕ
deriving DecidableEq

/-- One confirmed booking. -/
structure Booking where
  eventId : String
  userId : String
  tokenJti : String
deriving DecidableEq

/-- The `event_not_oversold` constraint. -/
def Event.NotOversold (e : Event) : Prop := e.ticketsBooked ≤ e.capacity

instance : DecidablePred Event.NotOversold :=
  fun e => inferInstanceAs (Decidable (e.ticketsBooked ≤ e.capacity))

/-- The unique constraints: one booking to a token, and one to a user of an
event. -/
def Booking.Clashes (a b : Booking) : Prop :=
  a.tokenJti = b.tokenJti ∨ a.eventId = b.eventId ∧ a.userId = b.userId

instance : DecidableRel Booking.Clashes := fun a b =>
  inferInstanceAs
    (Decidable (a.tokenJti = b.tokenJti ∨ a.eventId = b.eventId ∧ a.userId = b.userId))

theorem Booking.Clashes.symm (a b : Booking) (h : a.Clashes b) : b.Clashes a :=
  h.imp Eq.symm (And.imp Eq.symm Eq.symm)

/-- The width of the columns of a booking. -/
def Booking.maxLength : ℕ := 64

/-- What a column of limited width makes of a string: one that is longer is
refused, unless all it has in excess is spaces, which are cut off. -/
def varchar (width : ℕ) (s : String) : Option String :=
  if (s.toList.drop width).all (fun c => c = ' ') then some (String.ofList (s.toList.take width))
  else none

/-- A string no longer than the column is stored as it is. -/
theorem varchar_of_length_le {width : ℕ} {s : String} (h : s.length ≤ width) :
    varchar width s = some s := by
  have hlen : s.toList.length ≤ width := by
    rw [String.length_toList]
    exact h
  unfold varchar
  rw [List.drop_of_length_le hlen, List.take_of_length_le hlen, String.ofList_toList]
  rfl

/-- The booking a call asks for. -/
def AdmissionClaims.booking (c : AdmissionClaims) : Booking := ⟨c.eventId, c.userId, c.jti⟩

/-- The record that the insert of a call stores. -/
def AdmissionClaims.stored (c : AdmissionClaims) : Option Booking :=
  (varchar Booking.maxLength c.userId).bind (fun userId =>
    (varchar Booking.maxLength c.jti).map (fun tokenJti => ⟨c.eventId, userId, tokenJti⟩))

/-- The claims fit the columns of a booking. -/
def AdmissionClaims.Fits (c : AdmissionClaims) : Prop :=
  c.userId.length ≤ Booking.maxLength ∧ c.jti.length ≤ Booking.maxLength

/-- Claims that fit are stored as they are. -/
theorem AdmissionClaims.Fits.stored {c : AdmissionClaims} (h : c.Fits) :
    c.stored = some c.booking := by
  unfold AdmissionClaims.stored
  rw [varchar_of_length_le h.1, varchar_of_length_le h.2]
  rfl

/-- What is stored is a booking of the call's event. -/
theorem AdmissionClaims.stored_eventId {c : AdmissionClaims} {b : Booking}
    (h : c.stored = some b) : b.eventId = c.eventId := by
  unfold AdmissionClaims.stored at h
  obtain ⟨u, -, h⟩ := Option.bind_eq_some_iff.mp h
  obtain ⟨j, -, rfl⟩ := Option.map_eq_some_iff.mp h
  rfl

/-! ## What a call comes to -/

/-- Outcome of a booking attempt. -/
structure BookingResult where
  booking : Booking
  created : Bool
deriving DecidableEq

/-- What escapes from a call. -/
inductive BookingError where
  | eventNotFound (eventId : String)
  | soldOut (eventId : String)
  /-- A constraint refused a write, and no booking was found. -/
  | integrityError
  /-- A value does not fit its column. -/
  | dataError
  /-- The connection was lost. -/
  | aborted
deriving DecidableEq

/-- How a call ends. -/
inductive Outcome where
  | returned (result : BookingResult)
  | raised (error : BookingError)
deriving DecidableEq

/-! ## A call, statement by statement -/

/-- **Where a call stands**: the statement it issues next. -/
inductive CallPoint where
  /-- Look the booking up by the token. -/
  | findByJti (retry : Bool)
  /-- Look the booking up by the event and the user. -/
  | findByUser (retry : Bool)
  /-- Open the transaction and claim a ticket. -/
  | claim
  /-- No ticket was claimed: ask whether the event exists. -/
  | checkExists
  /-- Record the booking. -/
  | create
  /-- Commit the transaction. -/
  | commit
  /-- Leave the transaction by an exception. -/
  | rollback (error : BookingError)
  | done (outcome : Outcome)
deriving DecidableEq

/-- The tables of the booking service, and the sessions of its calls. -/
abbrev BookingDb (ι : Type) : Type := Database ι String Event Booking

/-- Room for one more: the condition of the claim. -/
def Event.hasRoom (e : Event) : Bool := e.ticketsBooked < e.capacity

/-- One ticket more: what the claim sets. -/
def Event.claimed (e : Event) : Event := { e with ticketsBooked := e.ticketsBooked + 1 }

variable {ι : Type} [DecidableEq ι]

namespace CallPoint

/-- Where an exception leads once the transaction is rolled back. -/
def afterRollback : BookingError → CallPoint
  | .integrityError => .findByJti true
  | error => .done (.raised error)

/-- **The next statement of a call.** -/
def advance (i : ι) (claims : AdmissionClaims) (db : BookingDb ι) :
    CallPoint → CallPoint × BookingDb ι
  | .findByJti retry =>
    match db.records.find? (fun b => b.tokenJti = claims.jti) with
    | some existing => (.done (.returned ⟨existing, false⟩), db)
    | none => (.findByUser retry, db)
  | .findByUser retry =>
    match db.records.find? (fun b => b.eventId = claims.eventId ∧ b.userId = claims.userId) with
    | some existing => (.done (.returned ⟨existing, false⟩), db)
    | none => (if retry then .done (.raised .integrityError) else .claim, db)
  | .claim =>
    match db.update Event.NotOversold i claims.eventId Event.hasRoom Event.claimed with
    | .waits => (.claim, db)
    | .done rows db' => (if rows = 0 then .checkExists else .create, db')
    | .violates => (.rollback .integrityError, db)
  | .checkExists =>
    match db.row i claims.eventId with
    | none => (.rollback (.eventNotFound claims.eventId), db)
    | some _ => (.rollback (.soldOut claims.eventId), db)
  | .create =>
    match claims.stored with
    | none => (.rollback .dataError, db)
    | some booking =>
      match db.insert Booking.Clashes i booking with
      | .waits => (.create, db)
      | .done _ db' => (.commit, db')
      | .violates => (.rollback .integrityError, db)
  | .commit => (.done (.returned ⟨claims.booking, true⟩), db.commit i)
  | .rollback error => (afterRollback error, db.rollback i)
  | .done outcome => (.done outcome, db)

/-- The connection of a call is lost before its next statement. -/
def abort (i : ι) (db : BookingDb ι) : CallPoint → CallPoint × BookingDb ι
  | .done outcome => (.done outcome, db)
  | _ => (.done (.raised .aborted), db.rollback i)

/-- The commit of a call takes effect, and its reply is lost. -/
def loseReply (i : ι) (db : BookingDb ι) : CallPoint → CallPoint × BookingDb ι
  | .commit => (.done (.raised .aborted), db.commit i)
  | p => (p, db)

end CallPoint

/-! ## Any number of calls -/

/-- The database, and where each call stands. -/
structure BookingState (ι : Type) where
  db : BookingDb ι
  call : ι → CallPoint

/-- One step of one call. -/
inductive BookingAct (ι : Type) where
  | advance (i : ι)
  | abort (i : ι)
  | loseReply (i : ι)

namespace BookingAct

/-- Whose step it is. -/
def caller : BookingAct ι → ι
  | .advance i => i
  | .abort i => i
  | .loseReply i => i

/-- What the step makes of the call and the database. -/
def next (claims : ι → AdmissionClaims) (s : BookingState ι) :
    BookingAct ι → CallPoint × BookingDb ι
  | .advance i => (s.call i).advance i (claims i) s.db
  | .abort i => (s.call i).abort i s.db
  | .loseReply i => (s.call i).loseReply i s.db

end BookingAct

/-- How a call ended with a step, if it did. -/
def CallPoint.ending : CallPoint → CallPoint → Option Outcome
  | .done _, _ => none
  | _, .done outcome => some outcome
  | _, _ => none

/-- **The booking service, serving any number of calls**: a step answers with
the outcome of the call it ends. -/
def BookingService (claims : ι → AdmissionClaims) :
    Machine (BookingState ι) (BookingAct ι) (Option Outcome) :=
  ⟨fun s a =>
    let p := a.next claims s
    ((s.call a.caller).ending p.1, ⟨p.2, Function.update s.call a.caller p.1⟩)⟩

namespace BookingService

variable {claims : ι → AdmissionClaims} {s : BookingState ι} {a : BookingAct ι} {i : ι}

/-- A step moves its own call. -/
theorem step_call_self :
    ((BookingService claims).step s a).2.call a.caller = (a.next claims s).1 :=
  Function.update_self _ _ _

/-- A step leaves the other calls where they stand. -/
theorem step_call_of_ne (h : i ≠ a.caller) :
    ((BookingService claims).step s a).2.call i = s.call i :=
  Function.update_of_ne h _ _

/-- The next statement moves its call. -/
theorem step_call_advance :
    ((BookingService claims).step s (.advance i)).2.call i
      = ((s.call i).advance i (claims i) s.db).1 :=
  Function.update_self _ _ _

end BookingService

/-- No call has begun. -/
def BookingState.opened (db : BookingDb ι) : BookingState ι := ⟨db, fun _ => .findByJti false⟩

/-- An event, its bookings, and nothing open. -/
def Database.onSale (eventId : String) (e : Event) (bookings : List Booking) : BookingDb ι :=
  ⟨Function.update (fun _ => none) eventId (some e), fun _ => none, bookings, []⟩

section OnSale

variable {eventId : String} {e : Event} {bookings : List Booking}

omit [DecidableEq ι] in
theorem Database.settled_onSale :
    (Database.onSale eventId e bookings : BookingDb ι).Settled := ⟨fun _ => rfl, rfl⟩

omit [DecidableEq ι] in
/-- It is lawful if the event is not oversold and the bookings do not
clash. -/
theorem Database.lawful_onSale (he : e.NotOversold)
    (hb : bookings.Pairwise (fun a b => ¬ a.Clashes b)) :
    (Database.onSale eventId e bookings : BookingDb ι).Lawful Event.NotOversold
      Booking.Clashes := by
  refine ⟨fun k r hr => ?_, fun k x hx => ?_, ?_⟩
  · replace hr : Function.update (fun _ => none) eventId (some e) k = some r := hr
    by_cases hk : k = eventId
    · subst hk
      rw [Function.update_self] at hr
      exact Option.some.inj hr ▸ he
    · rw [Function.update_of_ne hk] at hr
      exact nomatch hr
  · exact nomatch (show none = some x from hx)
  · show (bookings ++ []).Pairwise _
    rw [List.append_nil]
    exact hb

end OnSale
