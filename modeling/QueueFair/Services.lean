import QueueFair.Stampede
import QueueFair.Agreement

/-!
# Both services together

The queue service signs passes and the booking service verifies them; nothing
else goes between the two. The system below runs both: the queues of all
events over one store, each with any number of admitters whose ticks may fail,
and any number of booking requests over one database. A request may carry any
header to any path, and what it carries is judged when it arrives; a call of
`book_ticket` begins only if it is let through, and is then served statement
by statement, among the others; any other request is answered without one
(`BookingView.request_of_not_admitted`).

The views and the commands refuse what is no event id and what is no queue
token before they touch the store, and here such a step does nothing. The
passes signed so far are kept in the state, each with the placement it was
signed for: they are the passes that the ticks issue
(`AdmitterVisit.map_jwt_issued`). No step reads them; they are what may be
assumed of the tokens that arrive (`Unforged`).
-/

open Redis

variable {ι κ : Type} [DecidableEq ι] [DecidableEq κ]

/-! ## What an admitter signs -/

namespace AdmitterAct

/-- Whether the views let a step through: the token of a waiter is one. -/
def valid : AdmitterAct ι → Bool
  | .join t => isValidQueueToken t
  | .position t => isValidQueueToken t
  | _ => true

/-- The passes a step signs, with the placements they are for. -/
def signs (K : AdmissionController) (eventId : String) (attempt : ι → Attempt) :
    AdmitterAct ι → List (Placement × PassClaims)
  | .issue i jti => ((attempt i).unsigned.take 1).map
    (fun z => (z.1, K.passClaims eventId z.2 z.1.1 jti))
  | _ => []

end AdmitterAct

omit [DecidableEq ι] in
/-- **What a step signs is what it issues**: the passes of the tick are these
claims under the secret. -/
theorem AdmitterVisit.map_jwt_issued (K : AdmissionController) (jwt : PyJwt) (eventId : String)
    (x : AdmitterVisit ι) :
    (AdmitterVisit.issued K jwt.sign eventId x).map IssuedPass.jwt
      = (x.action.signs K eventId x.before.attempt).map
        (fun z => jwt.sign z.2 K.issuer.secret) := by
  obtain ⟨s, a, r⟩ := x
  cases a with
  | issue i jti =>
    unfold issued signs AdmitterAct.signs
    rw [List.map_map, List.map_map]
    rfl
  | _ => rfl

/-! ## The system -/

/-- The state of both services. -/
structure ServiceState (ι κ : Type) where
  store : Store
  /-- Where the admitters of each event stand. -/
  attempt : String → ι → Attempt
  /-- The passes signed so far, with the placements they are for. -/
  issued : List (Placement × PassClaims)
  booking : BookingState κ
  /-- The claims of each call of `book_ticket`, once it has begun. -/
  claims : κ → Option AdmissionClaims

/-- What a call was made with. -/
def ServiceState.claimsOf (s : ServiceState ι κ) (k : κ) : AdmissionClaims :=
  (s.claims k).getD ⟨"", "", "", 0, 0⟩

/-- One step of either service. -/
inductive ServiceAct (ι κ : Type) where
  /-- A step on the queue of an event. -/
  | queue (eventId : String) (act : AdmitterAct ι)
  /-- A `POST` to the booking service arrives. -/
  | request (k : κ) (path header : String) (now : ℚ)
  /-- A step of a call that has begun. -/
  | call (act : BookingAct κ)

/-- A step on the queue of an event. -/
def ServiceState.queue (rnd : ℚ → ℚ) (K : AdmissionController) (jwt : PyJwt)
    (s : ServiceState ι κ) (eventId : String) (act : AdmitterAct ι) :
    Option (Except Redis.Error Answer) × ServiceState ι κ :=
  let r := (Admitters rnd K jwt.sign eventId).step ⟨s.store, s.attempt eventId⟩ act
  (r.1, { s with
    store := r.2.store
    attempt := Function.update s.attempt eventId r.2.attempt
    issued := s.issued ++ act.signs K eventId (s.attempt eventId) })

/-- **The queue service and the booking service.** -/
def Services (rnd : ℚ → ℚ) (K : AdmissionController) (jwt : PyJwt) :
    Machine (ServiceState ι κ) (ServiceAct ι κ) (Option (Except Redis.Error Answer)) :=
  ⟨fun s a =>
    match a with
    | .queue eventId act =>
      if isValidEventId eventId && act.valid then s.queue rnd K jwt eventId act else (none, s)
    | .request k path header now =>
      match s.claims k, BookingView.admitted jwt K.issuer.secret path header now with
      | none, some c => (none, { s with claims := Function.update s.claims k (some c) })
      | _, _ => (none, s)
    | .call act =>
      match s.claims act.caller with
      | some _ => (none, { s with booking := ((BookingService s.claimsOf).step s.booking act).2 })
      | none => (none, s)⟩

/-- The visits of the system. -/
abbrev ServiceVisit (ι κ : Type) : Type :=
  Visit (ServiceState ι κ) (ServiceAct ι κ) (Option (Except Redis.Error Answer))

/-- No request has arrived, and no tick has begun. -/
def ServiceState.opened (σ : Store) (db : BookingDb κ) : ServiceState ι κ :=
  ⟨σ, fun _ _ => .idle, [], .opened db, fun _ => none⟩

/-! ## What a history shows of one event -/

namespace ServiceVisit

/-- A visit to the queue of an event, as its admitters see it. -/
def admitter (eventId : String) (x : ServiceVisit ι κ) : Option (AdmitterVisit ι) :=
  match x.action with
  | .queue e act =>
    if e = eventId ∧ (isValidEventId e && act.valid) = true then
      some ⟨⟨x.before.store, x.before.attempt e⟩, act, x.reply⟩
    else none
  | _ => none

/-- The passes a visit signs, with the placements they are for. -/
def signs (K : AdmissionController) (x : ServiceVisit ι κ) : List (Placement × PassClaims) :=
  match x.action with
  | .queue e act =>
    if isValidEventId e && act.valid then act.signs K e (x.before.attempt e) else []
  | _ => []

end ServiceVisit

/-- What happened to the queue of an event. -/
def eventHistory (eventId : String) (xs : List (ServiceVisit ι κ)) : List (AdmitterVisit ι) :=
  xs.filterMap (ServiceVisit.admitter eventId)

/-- The placements that joins of an event gave. -/
def joinedOf (eventId : String) (xs : List (ServiceVisit ι κ)) : List Placement :=
  (eventHistory eventId xs).flatMap AdmitterVisit.joined

/-- The placements popped from the queue of an event. -/
def poppedOf (eventId : String) (xs : List (ServiceVisit ι κ)) : List Placement :=
  (eventHistory eventId xs).flatMap (AdmitterVisit.pops eventId)

/-- The passes signed for an event. -/
def signedOf (K : AdmissionController) (eventId : String) (xs : List (ServiceVisit ι κ)) :
    List PassClaims :=
  ((xs.flatMap (ServiceVisit.signs K)).map Prod.snd).filter (fun c => c.eventId = eventId)

/-! ## What may be assumed of a token -/

/-- **What PyJWT's `decode` checks**, under one secret and HS256 alone: the
signature and the expiry. A token is `signed` for a payload if it carries a
signature of it under the secret. -/
structure PyJwt.Checks (jwt : PyJwt) (secret : String) (signed : Payload → String → Prop) :
    Prop where
  signature : ∀ token require now payload,
    jwt.decode token secret ["HS256"] require now = .ok payload → signed payload token
  expiry : ∀ token require now payload,
    jwt.decode token secret ["HS256"] require now = .ok payload →
      ∀ exp : ℤ, payload.lookup "exp" = some (.int exp) → now < exp

/-- **Nobody else signs**: a signature that arrives is one of a pass signed
before. -/
def Unforged (signed : Payload → String → Prop) (s : ServiceState ι κ) :
    ServiceAct ι κ → Prop
  | .request _ _ header _ => ∀ token payload, bearerToken header = .ok token →
    signed payload token → ∃ x ∈ s.issued, x.2.payload = payload
  | _ => True

/-- The `uuid4` of a pass is 32 hex digits. -/
def ServiceAct.HexJti : ServiceAct ι κ → Prop
  | .queue _ (.issue _ jti) => hexText jti.toList = true
  | _ => True
