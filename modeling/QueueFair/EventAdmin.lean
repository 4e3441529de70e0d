import QueueFair.NoOversell

/-!
# The operator's form

`EventAdmin` registers the event with every field editable, the counter of
booked tickets among them. Its change form is rendered from one read of the
row, and saving it writes every field back as it was shown, but for what the
operator changed. The save is an update by the key alone: it waits for the
lock of the row, and then overwrites whatever is committed by then.

So a save can set the counter back to a time before some bookings, and the
conditional update of the next calls then sells their tickets again. As long
as no save sets the counter below the number of bookings, the bookings of an
event stay within its capacity (`capacity_survives_saves`).

Names are no part of the row here: an operator who changes only the name
raises the capacity by nothing. An operator's session is a session of the
database like that of a call.
-/

open Database

variable {ι κ : Type} [DecidableEq ι] [DecidableEq κ]

/-- The row an operator saves: what the form showed, with the capacity
raised. -/
def Event.edited (e : Event) (more : ℕ) : Event := { e with capacity := e.capacity + more }

/-! ## A form -/

/-- Where an operator stands with the change form of an event. -/
inductive FormPoint where
  | blank
  /-- The form shows the row as it was read. -/
  | shown (eventId : String) (e : Event)
  /-- The form is sent, and its update is the next statement. -/
  | saving (eventId : String) (e : Event) (more : ℕ)
  /-- The row is updated, and the commit is next. -/
  | saved (eventId : String) (e : Event) (more : ℕ)
deriving DecidableEq

namespace FormPoint

/-- Render the form of an event from its committed row. -/
def render (eventId : String) (db : BookingDb (ι ⊕ κ)) : FormPoint → FormPoint
  | .blank => (db.rows eventId).elim .blank (.shown eventId)
  | .shown _ _ => (db.rows eventId).elim .blank (.shown eventId)
  | p => p

/-- Send the form. -/
def post (more : ℕ) : FormPoint → FormPoint
  | .shown eventId e => .saving eventId e more
  | p => p

/-- The update of a save: every field, for the row of the key. -/
def update (k : κ) (db : BookingDb (ι ⊕ κ)) : FormPoint → FormPoint × BookingDb (ι ⊕ κ)
  | .saving eventId e more =>
    match db.update Event.NotOversold (.inr k) eventId (fun _ => true) (fun _ => e.edited more) with
    | .waits => (.saving eventId e more, db)
    | .done _ db' => (.saved eventId e more, db')
    | .violates => (.shown eventId e, db.rollback (.inr k))
  | p => (p, db)

/-- The commit of a save. The form is still at hand, as it was shown. -/
def commit (k : κ) (db : BookingDb (ι ⊕ κ)) : FormPoint → FormPoint × BookingDb (ι ⊕ κ)
  | .saved eventId e _ => (.shown eventId e, db.commit (.inr k))
  | p => (p, db)

/-- The row a commit would overwrite, and with what. -/
def overwrites : FormPoint → Option (String × Event)
  | .saved eventId e more => some (eventId, e.edited more)
  | _ => none

/-- A save fails. -/
def abort (k : κ) (db : BookingDb (ι ⊕ κ)) : FormPoint → FormPoint × BookingDb (ι ⊕ κ)
  | .saving eventId e _ => (.shown eventId e, db.rollback (.inr k))
  | .saved eventId e _ => (.shown eventId e, db.rollback (.inr k))
  | p => (p, db)

end FormPoint

/-! ## Calls and operators -/

/-- The calls, and where each operator stands. -/
structure DeskState (ι κ : Type) where
  booking : BookingState (ι ⊕ κ)
  form : κ → FormPoint

/-- One step of a call or of an operator. -/
inductive DeskAct (ι κ : Type) where
  | advance (i : ι)
  | abort (i : ι)
  | loseReply (i : ι)
  | render (k : κ) (eventId : String)
  /-- An operator sends a form, with the capacity raised by `more`. -/
  | post (k : κ) (more : ℕ)
  | update (k : κ)
  | commit (k : κ)
  | fail (k : κ)

/-- The step of a call, if it is one. -/
def DeskAct.call : DeskAct ι κ → Option (BookingAct (ι ⊕ κ))
  | .advance i => some (.advance (.inl i))
  | .abort i => some (.abort (.inl i))
  | .loseReply i => some (.loseReply (.inl i))
  | _ => none

/-- What a step of an operator makes of the form and the database. -/
def DeskAct.save (s : DeskState ι κ) : DeskAct ι κ → (κ → FormPoint) × BookingDb (ι ⊕ κ)
  | .render k eventId =>
    (Function.update s.form k ((s.form k).render eventId s.booking.db), s.booking.db)
  | .post k more => (Function.update s.form k ((s.form k).post more), s.booking.db)
  | .update k =>
    let p := (s.form k).update k s.booking.db
    (Function.update s.form k p.1, p.2)
  | .commit k =>
    let p := (s.form k).commit k s.booking.db
    (Function.update s.form k p.1, p.2)
  | .fail k =>
    let p := (s.form k).abort k s.booking.db
    (Function.update s.form k p.1, p.2)
  | _ => (s.form, s.booking.db)

/-- **The booking service, with operators at its admin site.** An operator's
session makes no call, and its claims are never read. -/
def AdminDesk (claims : ι ⊕ κ → AdmissionClaims) :
    Machine (DeskState ι κ) (DeskAct ι κ) (Option Outcome) :=
  ⟨fun s a =>
    match a.call with
    | some b =>
      let r := (BookingService claims).step s.booking b
      (r.1, ⟨r.2, s.form⟩)
    | none => (none, ⟨⟨(a.save s).2, s.booking.call⟩, (a.save s).1⟩)⟩

/-- No call has begun, and no form was rendered. -/
def DeskState.opened (db : BookingDb (ι ⊕ κ)) : DeskState ι κ := ⟨.opened db, fun _ => .blank⟩

/-- **A step that sets no counter below the bookings**: where it commits a
save, the form showed no fewer tickets booked than there are bookings
committed. -/
def DeskAct.KeepsCount (s : DeskState ι κ) : DeskAct ι κ → Prop
  | .commit k => ∀ w ∈ (s.form k).overwrites,
    (s.booking.db.bookingsOf w.1).length ≤ w.2.ticketsBooked
  | _ => True

instance (s : DeskState ι κ) : DecidablePred (DeskAct.KeepsCount s)
  | .commit k => inferInstanceAs (Decidable (∀ w ∈ (s.form k).overwrites,
    (s.booking.db.bookingsOf w.1).length ≤ w.2.ticketsBooked))
  | .advance _ => isTrue trivial
  | .abort _ => isTrue trivial
  | .loseReply _ => isTrue trivial
  | .render _ _ => isTrue trivial
  | .post _ _ => isTrue trivial
  | .update _ => isTrue trivial
  | .fail _ => isTrue trivial

/-! ## One step of an operator -/

namespace FormPoint

variable {k : κ} {db db' : BookingDb (ι ⊕ κ)} {p q : FormPoint}

/-- **What an operator has open**: the lock of the row a save overwrites, with
the version saved. -/
structure Sound (k : κ) (db : BookingDb (ι ⊕ κ)) (p : FormPoint) : Prop where
  locks : ∀ key r, db.locks key = some (.inr k, r) → p.overwrites = some (key, r)
  inserts : db.insertsOf (.inr k) = []

theorem Sound.leaves (h : p.Sound k db) (hl : Leaves (.inr k) db db') : p.Sound k db' :=
  ⟨fun key r hlock => h.locks key r ((hl.locks key r).mp hlock), hl.inserts.trans h.inserts⟩

theorem sound_of_idle (h : db.Idle (.inr k)) (p : FormPoint) : p.Sound k db :=
  ⟨fun key r hlock => absurd hlock (h.locks key r), h.inserts⟩

/-- **What a step of an operator does**: it is one step of the session, and
it keeps what is open in order. -/
structure Moves (k : κ) (db : BookingDb (ι ⊕ κ)) (p q : FormPoint) (db' : BookingDb (ι ⊕ κ)) :
    Prop where
  served : Served Event.NotOversold Booking.Clashes (.inr k) db db'
  sound : p.Sound k db → q.Sound k db'

/-- A step that leaves the database alone. -/
theorem moves_of_overwrites (h : q.overwrites = p.overwrites) : p.Moves k db q db where
  served := .nothing
  sound hp := ⟨fun key r hlock => h.trans (hp.locks key r hlock), hp.inserts⟩

theorem moves_rollback (q : FormPoint) : p.Moves k db q (db.rollback (.inr k)) where
  served := .rollback
  sound _ := sound_of_idle (idle_rollback db _) q

theorem moves_render (eventId : String) : p.Moves k db (p.render eventId db) db := by
  refine moves_of_overwrites ?_
  unfold render
  cases p with
  | blank => cases db.rows eventId <;> rfl
  | shown _ _ => cases db.rows eventId <;> rfl
  | _ => rfl

theorem moves_post (more : ℕ) : p.Moves k db (p.post more) db := by
  refine moves_of_overwrites ?_
  cases p <;> rfl

theorem moves_update : p.Moves k db (p.update k db).1 (p.update k db).2 := by
  cases p with
  | saving eventId e more =>
    simp only [update]
    split
    · exact moves_of_overwrites rfl
    · next n db' hu =>
      refine ⟨.update hu, fun hp => ?_⟩
      have hnone : ∀ key r, db.locks key ≠ some (.inr k, r) :=
        fun key r hlock => absurd (hp.locks key r hlock) (by simp [overwrites])
      obtain ⟨-, rfl, -⟩ | ⟨e', -, -, -, -, -, rfl⟩ := update_cases hu
      · exact sound_of_idle ⟨hnone, hp.inserts⟩ _
      · refine ⟨fun key r hlock => ?_, hp.inserts⟩
        by_cases hkey : key = eventId
        · subst hkey
          replace hlock : Function.update db.locks key _ key = some (.inr k, r) := hlock
          rw [Function.update_self] at hlock
          have hsaved : e.edited more = r := congrArg Prod.snd (Option.some.inj hlock)
          rw [← hsaved]
          rfl
        · replace hlock : Function.update db.locks eventId _ key = some (.inr k, r) := hlock
          rw [Function.update_of_ne hkey] at hlock
          exact absurd hlock (hnone key r)
    · exact moves_rollback _
  | _ => exact moves_of_overwrites rfl

theorem moves_commit : p.Moves k db (p.commit k db).1 (p.commit k db).2 := by
  cases p with
  | saved eventId e more => exact ⟨.commit, fun _ => sound_of_idle (idle_commit db _) _⟩
  | _ => exact moves_of_overwrites rfl

theorem moves_abort : p.Moves k db (p.abort k db).1 (p.abort k db).2 := by
  cases p with
  | saving eventId e more => exact moves_rollback _
  | saved eventId e more => exact moves_rollback _
  | _ => exact moves_of_overwrites rfl

/-- The update of a save is its session's own, so far. -/
theorem covered_update (h : db.Covered) : (p.update k db).2.Covered := by
  cases p with
  | saving eventId e more =>
    simp only [update]
    split
    · exact h
    · next n db' hu =>
      obtain ⟨-, rfl, -⟩ | ⟨e', -, -, -, -, -, rfl⟩ := update_cases hu
      · exact h
      · exact h.congr rfl rfl
    · exact h.congr rfl rfl
  | _ => exact h

theorem covered_abort (h : db.Covered) : (p.abort k db).2.Covered := by
  cases p with
  | saving eventId e more => exact h.congr rfl rfl
  | saved eventId e more => exact h.congr rfl rfl
  | _ => exact h

/-- **A save that sets no counter below the bookings** leaves every counter at
least the number of bookings. -/
theorem covered_commit (hp : p.Sound k db) (h : db.Covered)
    (hcount : ∀ w ∈ p.overwrites, (db.bookingsOf w.1).length ≤ w.2.ticketsBooked) :
    (p.commit k db).2.Covered := by
  cases p with
  | saved key e more =>
    have hrecords : (db.commit (.inr k)).records = db.records := by
      show db.records ++ db.insertsOf (.inr k) = _
      rw [hp.inserts, List.append_nil]
    intro eventId e' he'
    unfold bookingsOf
    show ((db.commit (.inr k)).records.filter _).length ≤ _
    rw [hrecords]
    replace he' : db.row (.inr k) eventId = some e' := he'
    by_cases hlock : ∃ r, db.locks eventId = some (.inr k, r)
    · obtain ⟨r, hlock⟩ := hlock
      rw [row_of_locked hlock] at he'
      obtain rfl := Option.some.inj he'
      exact hcount (eventId, r) (hp.locks eventId r hlock)
    · rw [row_of_not_locked (fun r hr => hlock ⟨r, hr⟩)] at he'
      exact h eventId e' he'
  | _ => exact h

end FormPoint

/-! ## Every reachable state -/

namespace DeskState

/-- **What holds between any two steps**, as long as no save sets a counter
below the bookings. -/
structure Invariant (claims : ι ⊕ κ → AdmissionClaims) (s : DeskState ι κ) : Prop where
  lawful : s.booking.db.Lawful Event.NotOversold Booking.Clashes
  calls : ∀ i, (s.booking.call (.inl i)).Sound (.inl i) (claims (.inl i)) s.booking.db
  forms : ∀ k, (s.form k).Sound k s.booking.db
  covered : s.booking.db.Covered

variable {claims : ι ⊕ κ → AdmissionClaims} {s : DeskState ι κ} {a : DeskAct ι κ}

/-- It holds before the first call. -/
theorem invariant_opened (claims : ι ⊕ κ → AdmissionClaims) {db : BookingDb (ι ⊕ κ)}
    (hdb : db.Settled) (hlaw : db.Lawful Event.NotOversold Booking.Clashes)
    (hcovered : db.Covered) : (opened db).Invariant claims :=
  ⟨hlaw, fun _ => hdb.idle _, fun _ => FormPoint.sound_of_idle (hdb.idle _) _, hcovered⟩

omit [DecidableEq ι] [DecidableEq κ] in
/-- A step of a call is one of a call, and not of an operator. -/
theorem exists_caller {b : BookingAct (ι ⊕ κ)} (h : a.call = some b) : ∃ i, b.caller = .inl i := by
  cases a with
  | advance i => exact ⟨i, congrArg BookingAct.caller (Option.some.inj h).symm⟩
  | abort i => exact ⟨i, congrArg BookingAct.caller (Option.some.inj h).symm⟩
  | loseReply i => exact ⟨i, congrArg BookingAct.caller (Option.some.inj h).symm⟩
  | _ => exact nomatch h

/-- Any other step is one of an operator, with the form. -/
theorem save_moves (s : DeskState ι κ) (h : a.call = none) :
    ∃ k q, (a.save s).1 = Function.update s.form k q
      ∧ (s.form k).Moves k s.booking.db q (a.save s).2 := by
  cases a with
  | render k eventId => exact ⟨k, _, rfl, FormPoint.moves_render eventId⟩
  | post k more => exact ⟨k, _, rfl, FormPoint.moves_post more⟩
  | update k => exact ⟨k, _, rfl, FormPoint.moves_update⟩
  | commit k => exact ⟨k, _, rfl, FormPoint.moves_commit⟩
  | fail k => exact ⟨k, _, rfl, FormPoint.moves_abort⟩
  | _ => exact nomatch h

namespace Invariant

/-- An operator who keeps the count leaves every counter at least the number
of bookings. -/
theorem covered_save (h : s.Invariant claims) (hkeeps : a.KeepsCount s) :
    (a.save s).2.Covered := by
  cases a with
  | update k => exact FormPoint.covered_update h.covered
  | commit k => exact FormPoint.covered_commit (h.forms k) h.covered hkeeps
  | fail k => exact FormPoint.covered_abort h.covered
  | _ => exact h.covered

/-- **Every step that keeps the count keeps it.** -/
theorem step (h : s.Invariant claims) (hkeeps : a.KeepsCount s) :
    ((AdminDesk claims).step s a).2.Invariant claims := by
  cases hcall : a.call with
  | some b =>
    obtain ⟨i, hi⟩ := exists_caller hcall
    have hmoves := b.next_moves claims s.booking
    have hsound : (s.booking.call b.caller).Sound b.caller (claims b.caller) s.booking.db := by
      rw [hi]
      exact h.calls i
    have hstep : ((AdminDesk claims).step s a).2
        = ⟨((BookingService claims).step s.booking b).2, s.form⟩ := by
      unfold AdminDesk
      simp only [hcall]
    rw [hstep]
    refine ⟨hmoves.served.lawful Booking.Clashes.symm h.lawful, fun j => ?_, fun k => ?_,
      (hmoves.commits hsound).covered h.covered⟩
    · by_cases hj : .inl j = b.caller
      · rw [hj, BookingService.step_call_self]
        exact hmoves.sound hsound
      · rw [BookingService.step_call_of_ne hj]
        exact (h.calls j).leaves (hmoves.served.leaves hj)
    · refine (h.forms k).leaves (hmoves.served.leaves ?_)
      rw [hi]
      exact Sum.inr_ne_inl
  | none =>
    obtain ⟨k, q, hform, hmoves⟩ := save_moves s hcall
    have hstep : ((AdminDesk claims).step s a).2
        = ⟨⟨(a.save s).2, s.booking.call⟩, Function.update s.form k q⟩ := by
      unfold AdminDesk
      simp only [hcall, hform]
    rw [hstep]
    refine ⟨hmoves.served.lawful Booking.Clashes.symm h.lawful, fun i => ?_, fun k' => ?_,
      h.covered_save hkeeps⟩
    · exact (h.calls i).leaves (hmoves.served.leaves Sum.inl_ne_inr)
    · by_cases hk : k' = k
      · subst hk
        show (Function.update s.form k' q k').Sound k' _
        rw [Function.update_self]
        exact hmoves.sound (h.forms k')
      · show (Function.update s.form k q k').Sound k' _
        rw [Function.update_of_ne hk]
        exact (h.forms k').leaves (hmoves.served.leaves (fun he => hk (Sum.inr.inj he)))

end Invariant

end DeskState

/-! ## Capacity and the operator -/

/-- **Capacity survives the operator who keeps the count.** Whatever calls are
served and forms are saved, in whatever order: as long as no save sets the
counter of an event below its bookings, no event has more bookings than its
capacity. -/
theorem capacity_survives_saves (claims : ι ⊕ κ → AdmissionClaims) {db₀ : BookingDb (ι ⊕ κ)}
    (hdb : db₀.Settled) (hlaw : db₀.Lawful Event.NotOversold Booking.Clashes)
    (hcovered : db₀.Covered) (acts : List (DeskAct ι κ))
    (hkeeps : ∀ x ∈ (AdminDesk claims).trace (.opened db₀) acts, x.action.KeepsCount x.before) :
    ((AdminDesk claims).final (.opened db₀) acts).booking.db.WithinCapacity := by
  have hinv₀ := DeskState.invariant_opened claims hdb hlaw hcovered
  have hinv := (AdminDesk claims).final_guarded (C := fun s a => a.KeepsCount s)
    (fun _ _ h ha => h.step ha) hinv₀ hkeeps
  exact hinv.covered.withinCapacity hinv.lawful

/-! ## A form shown before and after -/

/-- The five statements of a call that books. -/
def DeskAct.book (i : ι) : List (DeskAct ι κ) := List.replicate 5 (.advance i)

/-- The three steps of a save that raises the capacity. -/
def DeskAct.saveForm (k : κ) (more : ℕ) : List (DeskAct ι κ) := [.post k more, .update k, .commit k]

/-- Some buyers of an event, each with a token. -/
def buyers (eventId : String) : Fin 4 ⊕ Unit → AdmissionClaims :=
  fun x => ⟨x.elim toString (fun _ => ""), eventId, x.elim toString (fun _ => ""), 0, 60⟩

/-- Two buyers book, and only then a save is sent that was begun at first. -/
def staleSave : List (DeskAct (Fin 4) Unit) :=
  .render () "e" :: (DeskAct.book 0 ++ DeskAct.book 1 ++ DeskAct.saveForm () 0
    ++ DeskAct.book 2 ++ DeskAct.book 3)

/-- **A form shown before two bookings sells their tickets again.** The event
has two tickets; the form shows none of them booked, and is saved with nothing
raised once both are. -/
theorem oversold_by_stale_save :
    ¬ ((AdminDesk (buyers "e")).final (.opened (.onSale "e" ⟨2, 0⟩ []))
      staleSave).booking.db.WithinCapacity := by
  intro h
  have hrow : ((AdminDesk (buyers "e")).final (.opened (.onSale "e" ⟨2, 0⟩ []))
      staleSave).booking.db.rows "e" = some ⟨2, 2⟩ := by decide +kernel
  have hcount : (((AdminDesk (buyers "e")).final (.opened (.onSale "e" ⟨2, 0⟩ []))
      staleSave).booking.db.bookingsOf "e").length = 4 := by decide +kernel
  exact absurd (hcount ▸ h "e" ⟨2, 2⟩ hrow) (by decide)

/-- A form shown after the first booking raises the capacity by one. -/
theorem capacity_survives_saves_of_fresh_form :
    ((AdminDesk (buyers "e")).final (.opened (.onSale "e" ⟨1, 0⟩ []))
      (DeskAct.book 0 ++ .render () "e" :: DeskAct.saveForm () 1
        ++ DeskAct.book 1 ++ DeskAct.book 2)).booking.db.WithinCapacity :=
  capacity_survives_saves _ settled_onSale (lawful_onSale (by decide) (by decide))
    (fun _ _ _ => Nat.zero_le _) _ (by decide +kernel)
