import QueueFair.NoOversell
import QueueFair.Sources

/-!
# Nobody books without having waited

A booking is made by a call, a call begins with a request that is let
through, a request is let through by a token that verifies, and no token
verifies but one that was signed for a placement at the front of its queue.
Each link is an invariant of both services together (`Chained`), and the chain
leads from every row of the booking service back to a join of the queue
service (`Earned`).

A token that is let in again is another placement and another pass, and not
another booking: no two rows of an event share a user. So an event has no
more bookings than tokens that were popped from its queue
(`nobody_books_without_waiting`).
-/

open Redis Database

variable {ι κ : Type} [DecidableEq ι] [DecidableEq κ]

/-! ## What a request shows -/

namespace PyJwt.Checks

variable {jwt : PyJwt} {secret : String} {signed : Payload → String → Prop}

/-- **A token that is verified** carries a signature of its claims, and has not
expired. -/
theorem of_verified (h : jwt.Checks secret signed) {token : String} {now : ℚ}
    {c : AdmissionClaims} (hc : verifyAdmissionToken jwt token secret now = .ok c) :
    ∃ payload : Payload, signed payload token ∧ payload.claims = .ok c ∧ now < c.expiresAt := by
  unfold verifyAdmissionToken at hc
  split at hc
  · exact nomatch hc
  · exact nomatch hc
  · exact nomatch hc
  · next payload hdecode =>
    split at hc
    · next c' hclaims =>
      obtain rfl := Except.ok.inj hc
      have hexp := (Payload.claims_eq_ok.mp hclaims).2.2.2.2
      exact ⟨payload, h.signature _ _ _ _ hdecode, hclaims, h.expiry _ _ _ _ hdecode _ hexp⟩
    · exact nomatch hc

end PyJwt.Checks

/-- The claims of a pass are those it was signed with. -/
theorem PassClaims.eq_admitted {z : PassClaims} {c : AdmissionClaims}
    (h : z.payload.claims = .ok c) : c = z.admitted := by
  obtain ⟨⟨hsub, -⟩, ⟨hevent, -⟩, ⟨hjti, -⟩, hiat, hexp⟩ := Payload.claims_eq_ok.mp h
  obtain ⟨u, e, j, i, x⟩ := c
  obtain rfl := ClaimValue.str.inj (Option.some.inj hsub)
  obtain rfl := ClaimValue.str.inj (Option.some.inj hevent)
  obtain rfl := ClaimValue.str.inj (Option.some.inj hjti)
  obtain rfl := ClaimValue.int.inj (Option.some.inj hiat)
  obtain rfl := ClaimValue.int.inj (Option.some.inj hexp)
  rfl

/-- **A visit verifies a pass**: a request with it arrives and is let through,
before the pass expires. -/
def ServiceVisit.Verifies (K : AdmissionController) (jwt : PyJwt) (x : ServiceVisit ι κ)
    (c : PassClaims) : Prop :=
  ∃ k path header now, x.action = .request k path header now
    ∧ BookingView.admitted jwt K.issuer.secret path header now = some c.admitted ∧ now < c.exp

omit [DecidableEq ι] [DecidableEq κ] in
/-- **A request that is let through** carries a pass signed before. -/
theorem Unforged.verifies {K : AdmissionController} {jwt : PyJwt}
    {signed : Payload → String → Prop} (hjwt : jwt.Checks K.issuer.secret signed)
    {s : ServiceState ι κ} {k : κ} {path header : String} {now : ℚ}
    (h : Unforged signed s (.request k path header now)) {c : AdmissionClaims}
    (hc : BookingView.admitted jwt K.issuer.secret path header now = some c) :
    ∃ z ∈ s.issued, c = z.2.admitted ∧ now < z.2.exp := by
  obtain ⟨-, hauth⟩ := BookingView.admitted_eq_some.mp hc
  obtain ⟨token, htoken, hverify⟩ := authenticate_eq_ok.mp hauth
  obtain ⟨payload, hsigned, hclaims, hexp⟩ := hjwt.of_verified hverify
  obtain ⟨z, hz, rfl⟩ := h token payload htoken hsigned
  obtain rfl := PassClaims.eq_admitted hclaims
  exact ⟨z, hz, rfl, hexp⟩

/-! ## From a row to a join -/

/-- **The claims of a call were earned**: a request with a pass was let through
before the pass expired, and the pass was signed before, for a placement
popped from the queue of its event. -/
def Passed (K : AdmissionController) (jwt : PyJwt) (xs : List (ServiceVisit ι κ))
    (c : AdmissionClaims) : Prop :=
  ∃ pre x post z, xs = pre ++ x :: post ∧ ServiceVisit.Verifies K jwt x z.2 ∧ IssuedIn K pre z
    ∧ z.2.admitted = c

omit [DecidableEq ι] [DecidableEq κ] in
theorem Passed.append {K : AdmissionController} {jwt : PyJwt} {xs : List (ServiceVisit ι κ)}
    {c : AdmissionClaims} (h : Passed K jwt xs c) (ys : List (ServiceVisit ι κ)) :
    Passed K jwt (xs ++ ys) c := by
  obtain ⟨pre, x, post, z, rfl, hz⟩ := h
  exact ⟨pre, x, post ++ ys, z, by rw [List.append_assoc, List.cons_append], hz⟩

/-- **Every link of the chain**, between any two steps. -/
structure Chained (K : AdmissionController) (jwt : PyJwt) (xs : List (ServiceVisit ι κ))
    (s : ServiceState ι κ) : Prop where
  ordered : Ordered K xs s
  jtis : ∀ z ∈ s.issued, hexText z.2.jti.toList = true
  booking : s.booking.Invariant s.claimsOf
  /-- A call that has not begun stands at its beginning. -/
  waits : ∀ k, s.claims k = none → s.booking.call k = .findByJti false
  calls : ∀ k c, s.claims k = some c → Passed K jwt xs c ∧ c.Fits
  records : ∀ b ∈ s.booking.db.records, ∃ c, Passed K jwt xs c ∧ c.booking = b
  covered : s.booking.db.Covered
  /-- A booking is one of an event. -/
  events : ∀ b ∈ s.booking.db.records, s.booking.db.rows b.eventId ≠ none

namespace Chained

variable {K : AdmissionController} {jwt : PyJwt} {xs : List (ServiceVisit ι κ)}
  {s s' : ServiceState ι κ} {x : ServiceVisit ι κ}

omit [DecidableEq ι] in
/-- A step that leaves the booking service alone. -/
theorem still (h : Chained K jwt xs s) (hordered : Ordered K (xs ++ [x]) s')
    (hjtis : ∀ z ∈ s'.issued, hexText z.2.jti.toList = true) (hbooking : s'.booking = s.booking)
    (hclaims : s'.claims = s.claims) : Chained K jwt (xs ++ [x]) s' := by
  have hof : s'.claimsOf = s.claimsOf := by
    funext k
    unfold ServiceState.claimsOf
    rw [hclaims]
  refine ⟨hordered, hjtis, ?_, ?_, ?_, ?_, ?_, ?_⟩
  · rw [hbooking, hof]
    exact h.booking
  · rw [hbooking, hclaims]
    exact h.waits
  · rw [hclaims]
    exact fun k c hc => (h.calls k c hc).imp_left (Passed.append · _)
  · rw [hbooking]
    exact fun b hb => (h.records b hb).imp (fun c hc => hc.imp_left (Passed.append · _))
  · rw [hbooking]
    exact h.covered
  · rw [hbooking]
    exact h.events

omit [DecidableEq ι] in
/-- A call begins. -/
theorem begin {signed : Payload → String → Prop}
    (hjwt : jwt.Checks K.issuer.secret signed) (h : Chained K jwt xs s) {k : κ}
    {path header : String} {now : ℚ} (hforge : Unforged signed s (.request k path header now))
    (hk : s.claims k = none) {c : AdmissionClaims}
    (hc : BookingView.admitted jwt K.issuer.secret path header now = some c)
    {r : Option (Except Redis.Error Answer)}
    (hordered : Ordered K (xs ++ [⟨s, .request k path header now, r⟩])
      { s with claims := Function.update s.claims k (some c) }) :
    Chained K jwt (xs ++ [⟨s, .request k path header now, r⟩])
      { s with claims := Function.update s.claims k (some c) } := by
  obtain ⟨z, hz, rfl, hexp⟩ := hforge.verifies hjwt hc
  have hissued := h.ordered.issued z hz
  have hpassed : Passed K jwt (xs ++ [⟨s, .request k path header now, r⟩]) z.2.admitted :=
    ⟨xs, _, [], z, rfl, ⟨k, path, header, now, rfl, hc, hexp⟩, hissued, rfl⟩
  have hof : ∀ j, j ≠ k → ServiceState.claimsOf
      { s with claims := Function.update s.claims k (some z.2.admitted) } j = s.claimsOf j := by
    intro j hj
    unfold ServiceState.claimsOf
    dsimp only
    rw [Function.update_of_ne hj]
  have hstart := h.waits k hk
  refine ⟨hordered, h.jtis, ⟨h.booking.lawful, fun j => ?_, fun j => ?_⟩, fun j hj => ?_,
    fun j c hj => ?_, fun b hb => (h.records b hb).imp (fun c hc => hc.imp_left
      (Passed.append · _)), h.covered, h.events⟩
  · by_cases hjk : j = k
    · subst hjk
      have hidle := h.booking.sound j
      rw [hstart] at hidle ⊢
      exact hidle
    · rw [hof j hjk]
      exact h.booking.sound j
  · by_cases hjk : j = k
    · subst hjk
      rw [hstart]
      trivial
    · rw [hof j hjk]
      exact h.booking.justified j
  · by_cases hjk : j = k
    · exact hjk ▸ hstart
    · exact h.waits j ((Function.update_of_ne hjk _ _).symm.trans hj)
  · by_cases hjk : j = k
    · subst hjk
      replace hj : Function.update s.claims j (some z.2.admitted) j = some c := hj
      rw [Function.update_self] at hj
      obtain rfl := Option.some.inj hj
      refine ⟨hpassed, ?_, ?_⟩
      · exact le_trans (isValidQueueToken_length hissued.sub_eq.2).2 (by decide)
      · have hjti := length_of_hexText (h.jtis z hz)
        rw [String.length_toList] at hjti
        exact hjti.le.trans (by decide)
    · exact (h.calls j c ((Function.update_of_ne hjk _ _).symm.trans hj)).imp_left
        (Passed.append · _)

omit [DecidableEq ι] in
/-- A call goes on. -/
theorem go (h : Chained K jwt xs s) {act : BookingAct κ} {c : AdmissionClaims}
    (hact : s.claims act.caller = some c)
    (hordered : Ordered K (xs ++ [x])
      { s with booking := ((BookingService s.claimsOf).step s.booking act).2 }) :
    Chained K jwt (xs ++ [x])
      { s with booking := ((BookingService s.claimsOf).step s.booking act).2 } := by
  have hcommits := h.booking.step_commits act
  have hof : s.claimsOf act.caller = c := by
    unfold ServiceState.claimsOf
    rw [hact]
    rfl
  rw [hof] at hcommits
  obtain ⟨hpassed, hfits⟩ := h.calls _ c hact
  refine ⟨hordered, h.jtis, h.booking.step act, fun k hk => ?_,
    fun k c' hc' => (h.calls k c' hc').imp_left (Passed.append · _), fun b hb => ?_,
    hcommits.covered h.covered, fun b hb => ?_⟩
  · have hne : k ≠ act.caller := by
      rintro rfl
      exact absurd (hact.symm.trans hk) (by simp)
    exact (BookingService.step_call_of_ne hne).trans (h.waits k hk)
  · replace hb : b ∈ ((BookingService s.claimsOf).step s.booking act).2.db.records := hb
    have hold : ∀ b ∈ s.booking.db.records, ∃ c, Passed K jwt (xs ++ [x]) c ∧ c.booking = b :=
      fun b hb => (h.records b hb).imp (fun c hc => hc.imp_left (Passed.append · _))
    cases hcommits with
    | nothing hrows hrecords => exact hold b (hrecords ▸ hb)
    | @booking e b' hp hb' hrow hroom hrows hrecords =>
      rw [hrecords] at hb
      obtain hb | hb := List.mem_append.mp hb
      · exact hold b hb
      · rw [hfits.stored] at hb'
        rw [List.mem_singleton.mp hb, ← Option.some.inj hb']
        exact ⟨c, hpassed.append _, rfl⟩
  · replace hb : b ∈ ((BookingService s.claimsOf).step s.booking act).2.db.records := hb
    show ((BookingService s.claimsOf).step s.booking act).2.db.rows b.eventId ≠ none
    cases hcommits with
    | nothing hrows hrecords =>
      rw [hrows]
      exact h.events b (hrecords ▸ hb)
    | @booking e b' hp hb' hrow hroom hrows hrecords =>
      rw [hrows]
      by_cases he : b.eventId = c.eventId
      · rw [he, Function.update_self]
        simp
      · rw [Function.update_of_ne he]
        rw [hrecords] at hb
        obtain hb | hb := List.mem_append.mp hb
        · exact h.events b hb
        · rw [List.mem_singleton.mp hb] at he
          exact absurd (AdmissionClaims.stored_eventId hb') he

/-- **Every step of either service keeps the chain.** -/
theorem step (rnd : ℚ → ℚ) {signed : Payload → String → Prop}
    (hjwt : jwt.Checks K.issuer.secret signed) (h : Chained K jwt xs s) {a : ServiceAct ι κ}
    (ha : a.HexJti) (hforge : Unforged signed s a) :
    Chained K jwt (xs ++ [⟨s, a, ((Services rnd K jwt).step s a).1⟩])
      ((Services rnd K jwt).step s a).2 := by
  have hordered : Ordered K (xs ++ [⟨s, a, ((Services rnd K jwt).step s a).1⟩])
      ((Services rnd K jwt).step s a).2 := h.ordered.step rnd a
  have hjtis : ∀ z ∈ ((Services rnd K jwt).step s a).2.issued,
      hexText z.2.jti.toList = true := by
    intro z hz
    rw [Services.issued_step] at hz
    obtain hz | hz := List.mem_append.mp hz
    · exact h.jtis z hz
    · obtain ⟨e, i, jti, now, hact, -, -, hclaims⟩ := ServiceVisit.mem_signs hz
      dsimp only at hact
      subst hact
      rw [hclaims]
      exact ha
  cases a with
  | queue e act =>
    refine h.still hordered hjtis ?_ ?_
    · simp only [Services]
      split <;> rfl
    · simp only [Services]
      split <;> rfl
  | request k path header now =>
    cases hk : s.claims k with
    | some c =>
      have hstep : (Services rnd K jwt).step s (.request k path header now) = (none, s) := by
        simp only [Services, hk]
      rw [hstep] at hordered ⊢
      exact h.still hordered h.jtis rfl rfl
    | none =>
      cases hc : BookingView.admitted jwt K.issuer.secret path header now with
      | none =>
        have hstep : (Services rnd K jwt).step s (.request k path header now) = (none, s) := by
          simp only [Services, hk, hc]
        rw [hstep] at hordered ⊢
        exact h.still hordered h.jtis rfl rfl
      | some c =>
        have hstep : (Services rnd K jwt).step s (.request k path header now)
            = (none, { s with claims := Function.update s.claims k (some c) }) := by
          simp only [Services, hk, hc]
        rw [hstep] at hordered ⊢
        exact h.begin hjwt hforge hk hc hordered
  | call act =>
    cases hact : s.claims act.caller with
    | none =>
      have hstep : (Services rnd K jwt).step s (.call act) = (none, s) := by
        simp only [Services, hact]
      rw [hstep] at hordered ⊢
      exact h.still hordered h.jtis rfl rfl
    | some c =>
      have hstep : (Services rnd K jwt).step s (.call act)
          = (none, { s with booking := ((BookingService s.claimsOf).step s.booking act).2 }) := by
        simp only [Services, hact]
      rw [hstep] at hordered ⊢
      exact h.go hact hordered

omit [DecidableEq ι] in
/-- It holds before the first step, with empty queues and no bookings. -/
theorem opened {σ : Store} (hσ : QueuesEmpty σ) {db : BookingDb κ} (hdb : db.Settled)
    (hrows : ∀ e, ∀ r ∈ db.rows e, r.NotOversold) (hnone : db.records = []) :
    Chained K jwt [] (ServiceState.opened σ db : ServiceState ι κ) := by
  have hlaw : db.Lawful Event.NotOversold Booking.Clashes := by
    refine ⟨hrows, fun k x hx => ?_, ?_⟩
    · rw [hdb.locks k] at hx
      exact nomatch hx
    · rw [hnone, hdb.inserts]
      exact List.Pairwise.nil
  refine ⟨hσ.ordered db, fun z hz => absurd hz List.not_mem_nil,
    BookingState.invariant_opened _ hdb hlaw, fun k hk => rfl, fun k c hc => (nomatch hc),
    fun b hb => ?_, fun e r hr => ?_, fun b hb => ?_⟩
  · exact absurd (hnone ▸ hb) List.not_mem_nil
  · show (db.records.filter _).length ≤ _
    rw [hnone]
    exact Nat.zero_le _
  · exact absurd (hnone ▸ hb) List.not_mem_nil

/-- **It holds after any run** in which no signature is forged. -/
theorem run (rnd : ℚ → ℚ) {signed : Payload → String → Prop}
    (hjwt : jwt.Checks K.issuer.secret signed) (h : Chained K jwt [] s)
    {acts : List (ServiceAct ι κ)} (hjtis : ∀ a ∈ acts, a.HexJti)
    (hforge : ∀ x ∈ (Services rnd K jwt).trace s acts, Unforged signed x.before x.action) :
    Chained K jwt ((Services rnd K jwt).trace s acts) ((Services rnd K jwt).final s acts) :=
  (Services rnd K jwt).history_guarded (C := fun s a => a.HexJti ∧ Unforged signed s a)
    (fun _ _ _ hs ha => hs.step rnd hjwt ha.1 ha.2) h
    (fun x hx => ⟨hjtis _ (Machine.action_mem_of_mem_trace _ hx), hforge x hx⟩)

end Chained

/-! ## Nobody skips the queue -/

/-- **A booking was earned**: its user was popped from the queue of its event
and a pass signed for that placement, and a request with the pass was let
through before the pass expired. -/
def Earned (K : AdmissionController) (jwt : PyJwt) (xs : List (ServiceVisit ι κ)) (b : Booking) :
    Prop :=
  ∃ pre x post z, xs = pre ++ x :: post ∧ ServiceVisit.Verifies K jwt x z.2 ∧ IssuedIn K pre z
    ∧ z.1.1 = b.userId ∧ z.2.sub = b.userId ∧ z.2.eventId = b.eventId ∧ z.2.jti = b.tokenJti

section Earned

variable {K : AdmissionController} {jwt : PyJwt} {xs : List (ServiceVisit ι κ)} {b : Booking}

omit [DecidableEq ι] [DecidableEq κ] in
theorem Passed.earned {c : AdmissionClaims} (h : Passed K jwt xs c) :
    Earned K jwt xs c.booking := by
  obtain ⟨pre, x, post, z, hxs, hverifies, hissued, rfl⟩ := h
  exact ⟨pre, x, post, z, hxs, hverifies, hissued, hissued.sub_eq.1.symm, rfl, rfl, rfl⟩

omit [DecidableEq ι] [DecidableEq κ] in
/-- Whoever earned a booking was popped from the queue of its event. -/
theorem Earned.mem_poppedOf (h : Earned K jwt xs b) :
    b.userId ∈ (poppedOf b.eventId xs).map Prod.fst := by
  obtain ⟨pre, x, post, z, rfl, -, ⟨pre', y, post', rfl, -, hpopped, -⟩, huser, -, hevent, -⟩ := h
  rw [← huser, ← hevent]
  refine List.mem_map_of_mem ?_
  unfold poppedOf at hpopped ⊢
  rw [List.append_assoc, eventHistory_append, List.flatMap_append]
  exact List.mem_append_left _ hpopped

omit [DecidableEq ι] [DecidableEq κ] in
/-- And a pass of the event was signed for them. -/
theorem Earned.mem_signedOf (h : Earned K jwt xs b) :
    b.userId ∈ (signedOf K b.eventId xs).map PassClaims.sub := by
  obtain ⟨pre, x, post, z, rfl, -, ⟨pre', y, post', rfl, hz, -⟩, -, hsub, hevent, -⟩ := h
  rw [← hsub]
  refine List.mem_map_of_mem (List.mem_filter.mpr ⟨List.mem_map_of_mem ?_, ?_⟩)
  · refine List.mem_flatMap.mpr ⟨y, ?_, hz⟩
    rw [List.append_assoc]
    exact List.mem_append_right _ List.mem_cons_self
  · exact decide_eq_true hevent

end Earned

/-- **Nobody skips the queue**, by what has happened so far. -/
structure NobodySkips (K : AdmissionController) (jwt : PyJwt) (xs : List (ServiceVisit ι κ))
    (db : BookingDb κ) : Prop where
  earned : ∀ b ∈ db.records, Earned K jwt xs b
  /-- No two bookings of an event share a user. -/
  once : ∀ eventId, ((db.bookingsOf eventId).map Booking.userId).Nodup
  /-- An event has no more bookings than tickets, nor than tokens popped. -/
  within : ∀ eventId, (db.bookingsOf eventId).length
    ≤ min ((db.rows eventId).elim 0 Event.capacity)
      ((poppedOf eventId xs).map Prod.fst).dedup.length
  /-- Nor than tokens with a pass. -/
  admitted : ∀ eventId, (db.bookingsOf eventId).length
    ≤ ((signedOf K eventId xs).map PassClaims.sub).dedup.length

/-- **Nobody books without having waited.** Whatever the clients, the admitters
and the booking calls do, in whatever order, from empty queues and no
bookings: every booking was earned, no user has two for an event, and an event
has no more than its capacity, and than distinct tokens popped from its
queue. -/
theorem nobody_books_without_waiting (rnd : ℚ → ℚ) (K : AdmissionController) {jwt : PyJwt}
    {signed : Payload → String → Prop} (hjwt : jwt.Checks K.issuer.secret signed) {σ₀ : Store}
    (hstore : QueuesEmpty σ₀) {db₀ : BookingDb κ} (hdb : db₀.Settled)
    (hrows : ∀ eventId, ∀ e ∈ db₀.rows eventId, e.NotOversold) (hnone : db₀.records = [])
    (acts : List (ServiceAct ι κ)) (hjtis : ∀ a ∈ acts, a.HexJti)
    (hforge : ∀ x ∈ (Services rnd K jwt).trace (.opened σ₀ db₀) acts,
      Unforged signed x.before x.action) :
    NobodySkips K jwt ((Services rnd K jwt).trace (.opened σ₀ db₀) acts)
      ((Services rnd K jwt).final (.opened σ₀ db₀) acts).booking.db := by
  have h := Chained.run rnd hjwt (Chained.opened hstore hdb hrows hnone) hjtis hforge
  generalize (Services rnd K jwt).trace (.opened σ₀ db₀) acts = xs at h ⊢
  generalize (Services rnd K jwt).final (.opened σ₀ db₀) acts = s at h ⊢
  have hearned : ∀ b ∈ s.booking.db.records, Earned K jwt xs b := by
    intro b hb
    obtain ⟨c, hpassed, rfl⟩ := h.records b hb
    exact hpassed.earned
  have hlawful := h.booking.lawful
  have honce := nodup_users hlawful.records_pairwise
  -- the users of an event are distinct, so there are no more of them than of any list they are in
  have hdistinct : ∀ eventId (l : List String),
      (∀ b ∈ s.booking.db.bookingsOf eventId, b.userId ∈ l) →
      (s.booking.db.bookingsOf eventId).length ≤ l.dedup.length := by
    intro eventId l hl
    rw [← List.length_map Booking.userId]
    refine ((honce eventId).subperm (fun u hu => ?_)).length_le
    obtain ⟨b, hb, rfl⟩ := List.mem_map.mp hu
    exact List.mem_dedup.mpr (hl b hb)
  have hmem : ∀ eventId, ∀ b ∈ s.booking.db.bookingsOf eventId,
      b ∈ s.booking.db.records ∧ b.eventId = eventId := fun eventId b hb =>
    (List.mem_filter.mp hb).imp_right of_decide_eq_true
  refine ⟨hearned, honce, fun eventId => le_min ?_ ?_, fun eventId => ?_⟩
  · cases hrow : s.booking.db.rows eventId with
    | some e => exact h.covered.withinCapacity hlawful eventId e hrow
    | none =>
      -- a booking is one of an event
      refine le_of_eq (List.length_eq_zero_iff.mpr (List.eq_nil_iff_forall_not_mem.mpr ?_))
      intro b hb
      obtain ⟨hrec, rfl⟩ := hmem eventId b hb
      exact h.events b hrec hrow
  · refine hdistinct eventId _ (fun b hb => ?_)
    obtain ⟨hrec, rfl⟩ := hmem eventId b hb
    exact (hearned b hrec).mem_poppedOf
  · refine hdistinct eventId _ (fun b hb => ?_)
    obtain ⟨hrec, rfl⟩ := hmem eventId b hb
    exact (hearned b hrec).mem_signedOf

/-! ## One ticket -/

/-- One token is checked as documented, if it is of a regular payload. -/
theorem PyJwt.checks_ofToken {token : String} {payload : Payload} {iat exp : ℤ}
    (hexp : payload.lookup "exp" = some (.int exp)) (secret : String) :
    (PyJwt.ofToken token payload iat exp secret).Checks secret
      (fun p t => t = token ∧ p = payload) := by
  have hdecode : ∀ token' require now payload',
      (PyJwt.ofToken token payload iat exp secret).decode token' secret ["HS256"] require now
        = .ok payload' → (token' = token ∧ payload' = payload) ∧ now < exp := by
    intro token' require now payload' h
    unfold ofToken at h
    dsimp only at h
    split at h
    · next hsig =>
      split at h
      · exact nomatch h
      · split at h
        · exact nomatch h
        · next hnow => exact ⟨⟨hsig.1, (Except.ok.inj h).symm⟩, not_le.mp hnow⟩
    · exact nomatch h
  refine ⟨fun token' require now payload' h => (hdecode _ _ _ _ h).1,
    fun token' require now payload' h exp' hexp' => ?_⟩
  obtain ⟨⟨-, rfl⟩, hnow⟩ := hdecode _ _ _ _ h
  rwa [← ClaimValue.int.inj (Option.some.inj (hexp.symm.trans hexp'))]

/-- PyJWT, as far as one token is concerned. -/
def oneJwt : PyJwt := .ofToken oneToken oneClaims.payload 1785283200 1785283260 testSecret

/-- The admission loop that signs it. -/
def oneController : AdmissionController := buildAdmissionController testSecret (by decide) 60

/-- An event with two tickets, before anybody has joined. -/
def oneOpened : ServiceState Unit Bool :=
  .opened ⟨fun _ => none, 0⟩ (.onSale "coldplay-mumbai-2026" ⟨2, 0⟩ [])

/-- A token joins and is let in, and its pass is stored. -/
def oneTick : List (AdmitterAct Unit) :=
  [.configure ⟨60, 1, 1⟩, .join "0123456789abcdef0123456789abcdef", .admitBatch () 1785283200999,
    .issue () "c0ffee00c0ffee00c0ffee00c0ffee00", .send (), .set () 0, .finish ()]

/-- The pass is presented twice, and the calls run side by side. -/
def twoCalls : List (ServiceAct Unit Bool) :=
  [.request true "/events/coldplay-mumbai-2026/book" ("Bearer " ++ oneToken) 1785283201,
    .request false "/events/coldplay-mumbai-2026/book" ("Bearer " ++ oneToken) 1785283259,
    .call (.advance true), .call (.advance false), .call (.advance true), .call (.advance false),
    .call (.advance true), .call (.advance true), .call (.advance false), .call (.advance true),
    .call (.advance false), .call (.advance false), .call (.advance false)]

/-- One visit to the queue and its booking. -/
def oneVisit : List (ServiceAct Unit Bool) :=
  oneTick.map (.queue "coldplay-mumbai-2026") ++ twoCalls

example : ((Services id oneController oneJwt).final oneOpened oneVisit).booking.db.records
    = [⟨"coldplay-mumbai-2026", oneClaims.sub, oneClaims.jti⟩] := by decide +kernel

/-- The pass is signed before anything is presented. -/
theorem unforged_oneVisit : ∀ x ∈ (Services id oneController oneJwt).trace oneOpened oneVisit,
    Unforged (fun p t => t = oneToken ∧ p = oneClaims.payload) x.before x.action := by
  intro x hx
  unfold oneVisit at hx
  rw [Machine.trace_append] at hx
  obtain hx | hx := List.mem_append.mp hx
  · obtain ⟨act, -, hact⟩ := List.mem_map.mp (Machine.action_mem_of_mem_trace _ hx)
    rw [← hact]
    trivial
  · have hsigned : ((Services id oneController oneJwt).final oneOpened
        (oneTick.map (.queue "coldplay-mumbai-2026"))).issued.any
          (fun z => z.2.payload = oneClaims.payload) = true := by decide +kernel
    obtain ⟨z, hz, hpayload⟩ := List.any_eq_true.mp hsigned
    have hissued : z ∈ x.before.issued := Services.issued_subset id hx hz
    cases x.action with
    | request k path header now =>
      intro token payload _ hp
      exact ⟨z, hissued, (of_decide_eq_true hpayload).trans hp.2.symm⟩
    | _ => trivial

/-- One token that is let in once and presents its pass twice. -/
theorem nobody_books_without_waiting_of_one_visit :
    NobodySkips oneController oneJwt ((Services id oneController oneJwt).trace oneOpened oneVisit)
      ((Services id oneController oneJwt).final oneOpened oneVisit).booking.db := by
  have hchecks : oneJwt.Checks oneController.issuer.secret
    (fun p t => t = oneToken ∧ p = oneClaims.payload) := PyJwt.checks_ofToken rfl _
  have hjtis : ∀ a ∈ oneVisit, a.HexJti := by
    unfold oneVisit oneTick twoCalls
    simp only [List.map_cons, List.map_nil, List.cons_append, List.nil_append,
      List.forall_mem_cons, List.not_mem_nil, false_implies, implies_true, and_true,
      ServiceAct.HexJti, true_and]
    decide +kernel
  unfold oneOpened
  exact nobody_books_without_waiting id oneController hchecks queuesEmpty_nothing settled_onSale
    (lawful_onSale (by decide) List.Pairwise.nil).rows rfl oneVisit hjtis unforged_oneVisit
