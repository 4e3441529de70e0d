import QueueFair.BookingView
import QueueFair.PayloadText
import QueueFair.Sources
import QueueFair.Spelling

/-!
# The endpoints of the queue

The three views of the queue service, over the store of texts, and the service
they make together with whoever else works on the store. A view makes at most
one call of the store. The client that makes it may send it again when no reply
arrives, and may give up; a call that was given up may have run or not, and
anything can be served between one attempt and the next.

Every request for a path of the service is answered, whatever has happened to
the store before and whatever happens to the call, and what it is answered is
told by the store it meets (`every_request_is_answered`). What a request does to
the store is a matter of the operation it comes to (`QueueApi.step_snd`), so
whatever holds of the runs of these holds of the endpoints; and a join that is
sent again does nothing more, as long as its token keeps its place
(`retries_are_harmless`).
-/

open Redis

/-! ## What a client is told -/

/-- The text of a state. -/
def WaiterState.value : WaiterState → String
  | .waiting => "waiting"
  | .admitted => "admitted"
  | .expired => "expired"
  | .unknown => "unknown"

/-- The wire shape of what a waiter is told. -/
def QueueState.asDict (s : QueueState) : List (String × Json) :=
  [("position", .num s.position), ("total_waiting", .num s.totalWaiting),
    ("admitted_total", .num s.admittedTotal), ("eta_seconds", s.etaSeconds.elim .null .num),
    ("state", .str s.state.value)]

/-- A cookie a response sets. -/
structure Cookie where
  key : String
  value : String
  maxAge : ℤ
  httponly : Bool
  samesite : String
  secure : Bool
  path : String

/-- A response: a status, a JSON body, and perhaps a cookie. -/
structure JsonResponse where
  status : ℕ
  body : Json
  cookie : Option Cookie

/-- What a view reads of a request. -/
structure HttpRequest where
  method : String
  cookies : String → Option String
  query : String → Option String

/-- The settings of the cookie. -/
structure CookieSettings where
  maxAgeSeconds : ℤ
  secure : Bool

/-! ## A call of the store -/

/-- What `redis-py` raises. -/
inductive RedisError where
  /-- No reply arrived. -/
  | connectionError
  /-- The store answered an error. -/
  | responseError (e : Redis.Error)

/-- How a call fares in the end: whether a reply arrives. An attempt whose reply
is lost is a step of its own (`ApiAct.attempt`). -/
structure Link where
  answered : Bool

namespace Link

variable {P α : Type}

/-- **A call of a script**: its reply arrives, or it is given up. -/
def call (link : Link) (x : Redis P α) (σ : Keyspace P) : Except RedisError α × Keyspace P :=
  if link.answered then ((x.run σ).1.mapError .responseError, (x.run σ).2)
  else (.error .connectionError, σ)

/-- A script that leaves the store alone is called without a trace. -/
theorem call_of_still (link : Link) {x : Redis P α} {σ : Keyspace P} {a : α}
    (h : x.run σ = (.ok a, σ)) :
    link.call x σ = (if link.answered then .ok a else .error .connectionError, σ) := by
  unfold call
  rw [h]
  cases link.answered <;> rfl

end Link

/-! ## The views -/

namespace QueueView

/-- A refusal. -/
def refusal (status : ℕ) (detail : String) : JsonResponse :=
  ⟨status, .obj [("detail", .str detail)], none⟩

def methodNotAllowed : JsonResponse := refusal 405 "method_not_allowed"

def unknownEvent : JsonResponse := refusal 404 "unknown_event"

def unknownToken : JsonResponse := refusal 404 "unknown_token"

def redisUnavailable : JsonResponse := refusal 503 "redis_unavailable"

/-- `GET /healthz`: whether the store answers. -/
def healthz (link : Link) : JsonResponse :=
  if link.answered then ⟨200, .obj [("status", .str "ok"), ("redis", .str "ok")], none⟩
  else ⟨503, .obj [("status", .str "degraded"), ("redis", .str "unavailable")], none⟩

/-- The token of a request, if it carries a valid one. -/
def tokenFrom (request : HttpRequest) (eventId : String) : Option String :=
  queueTokenFrom (request.cookies ("qf_" ++ eventId)) (request.query "t")

/-- The token a request joins with. -/
def tokenToJoin (request : HttpRequest) (eventId : String)
    (bytes : Vector UInt8 QUEUE_TOKEN_BYTES) : String :=
  joinToken (request.cookies ("qf_" ++ eventId)) (request.query "t") bytes

/-- The cookie that keeps a token, one for each event. -/
def queueTokenCookie (settings : CookieSettings) (eventId queueToken : String) : Cookie where
  key := "qf_" ++ eventId
  value := queueToken
  maxAge := settings.maxAgeSeconds
  httponly := true
  samesite := "Lax"
  secure := settings.secure
  path := "/"

/-- What a join is answered. -/
def placed (rnd : ℚ → ℚ) (settings : CookieSettings) (eventId queueToken : String)
    (outcome : JoinOutcome) : JsonResponse where
  status := 200
  body := .obj (("queue_token", .str queueToken) :: ("sequence", .num outcome.sequence)
    :: (stateFrom rnd outcome).asDict ++ [("joined", .bool outcome.joined)])
  cookie := some (queueTokenCookie settings eventId queueToken)

/-- What a position call is answered: while waiting, and once admitted. -/
def standing (rnd : ℚ → ℚ) : TextStanding → JsonResponse
  | .waiting outcome => ⟨200, .obj (stateFromPosition rnd outcome).asDict, none⟩
  | .admitted outcome =>
    ⟨200, .obj ((stateFromAdmission outcome).asDict ++ [("admission", outcome.admission)]), none⟩

/-- The response to the outcome of a join; an error is an exception the view
does not catch. -/
def joinResponse (rnd : ℚ → ℚ) (settings : CookieSettings) (eventId queueToken : String) :
    Except RedisError (Except QueueError (Option JoinOutcome)) → Except QueueError JsonResponse
  | .error _ => .ok redisUnavailable
  | .ok (.error e) => .error e
  | .ok (.ok none) => .ok unknownEvent
  | .ok (.ok (some outcome)) => .ok (placed rnd settings eventId queueToken outcome)

/-- `POST /api/queue/{event_id}/join`. The bytes are what a fresh token would be
made of. -/
def join (rnd : ℚ → ℚ) (settings : CookieSettings) (link : Link)
    (bytes : Vector UInt8 QUEUE_TOKEN_BYTES) (request : HttpRequest) (eventId : String)
    (σ : TextStore) : Except QueueError JsonResponse × TextStore :=
  if request.method ≠ "POST" then (.ok methodNotAllowed, σ)
  else if isValidEventId eventId = false then (.ok unknownEvent, σ)
  else
    let queueToken := tokenToJoin request eventId bytes
    let called := link.call (TextRepository.join eventId queueToken) σ
    (joinResponse rnd settings eventId queueToken called.1, called.2)

/-- The response to the outcome of a position call. -/
def positionResponse (rnd : ℚ → ℚ) :
    Except RedisError (Except QueueError TextStanding) → Except QueueError JsonResponse
  | .error _ => .ok redisUnavailable
  | .ok (.error (.unknownEvent _)) => .ok unknownEvent
  | .ok (.error (.unknownToken _)) => .ok unknownToken
  | .ok (.error e) => .error e
  | .ok (.ok outcome) => .ok (standing rnd outcome)

/-- `GET /api/queue/{event_id}/position`. -/
def position (rnd : ℚ → ℚ) (link : Link) (request : HttpRequest) (eventId : String)
    (σ : TextStore) : Except QueueError JsonResponse × TextStore :=
  if request.method ≠ "GET" then (.ok methodNotAllowed, σ)
  else if isValidEventId eventId = false then (.ok unknownEvent, σ)
  else
    match tokenFrom request eventId with
    | none => (.ok unknownToken, σ)
    | some queueToken =>
      let called := link.call (TextRepository.position eventId queueToken) σ
      (positionResponse rnd called.1, called.2)

end QueueView

/-! ## The service -/

/-- `api/queue/<slug:event_id>/position`. -/
def positionRoute : String → Option String := slugRoute "/api/queue/" "/position"

/-- The views a path can lead to. -/
inductive Route where
  | healthz
  | join (eventId : String)
  | position (eventId : String)
deriving DecidableEq

/-- `urlpatterns`: the view of a path. -/
def urlpatterns (path : String) : Option Route :=
  if path = "/healthz" then some .healthz
  else
    match joinRoute path with
    | some eventId => some (.join eventId)
    | none => (positionRoute path).map .position

/-- The method a view is for; the health check answers any. -/
def Route.method : Route → Option String
  | .healthz => none
  | .join _ => some "POST"
  | .position _ => some "GET"

/-- The event a view is about. -/
def Route.event : Route → Option String
  | .healthz => none
  | .join eventId => some eventId
  | .position eventId => some eventId

/-- The operation a request comes to, if it gets so far. -/
def Route.call (request : HttpRequest) (bytes : Vector UInt8 QUEUE_TOKEN_BYTES) :
    Route → Option (String × EventOp)
  | .healthz => none
  | .join eventId =>
    if request.method ≠ "POST" ∨ isValidEventId eventId = false then none
    else some (eventId, .join (QueueView.tokenToJoin request eventId bytes))
  | .position eventId =>
    if request.method ≠ "GET" ∨ isValidEventId eventId = false then none
    else (QueueView.tokenFrom request eventId).map (fun t => (eventId, .position t))

/-- One thing that happens to the service. -/
inductive ApiAct where
  /-- An attempt of a request's call runs, and its reply is lost: the view sends
  the call again, or gives up. -/
  | attempt (path : String) (request : HttpRequest) (bytes : Vector UInt8 QUEUE_TOKEN_BYTES)
  /-- A request is answered; how its call of the store fares in the end, and the
  bytes a fresh token would be made of, are part of what happens. -/
  | request (path : String) (request : HttpRequest) (link : Link)
    (bytes : Vector UInt8 QUEUE_TOKEN_BYTES)
  /-- An admitter or an operator works on an event, or time passes. -/
  | operate (eventId : String) (op : EventOp)

/-- What comes of it. -/
inductive ApiReply where
  | response (response : JsonResponse)
  /-- An exception nobody catches: Django's 500. -/
  | uncaught (e : QueueError)
  /-- No view for the path: Django's 404. -/
  | noRoute
  | operated (reply : Except Redis.Error TextAnswer)
  /-- A reply of the store that is lost. -/
  | unheard

/-- What becomes of what a view returned. -/
def ApiReply.ofView : Except QueueError JsonResponse → ApiReply
  | .ok r => .response r
  | .error e => .uncaught e

/-- The view of a route. -/
def Route.view (rnd : ℚ → ℚ) (settings : CookieSettings) (link : Link)
    (bytes : Vector UInt8 QUEUE_TOKEN_BYTES) (r : HttpRequest) (σ : TextStore) :
    Route → Except QueueError JsonResponse × TextStore
  | .healthz => (.ok (QueueView.healthz link), σ)
  | .join eventId => QueueView.join rnd settings link bytes r eventId σ
  | .position eventId => QueueView.position rnd link r eventId σ

/-- A request, by its path. -/
def QueueApi.serve (rnd : ℚ → ℚ) (settings : CookieSettings) (path : String) (link : Link)
    (bytes : Vector UInt8 QUEUE_TOKEN_BYTES) (r : HttpRequest) (σ : TextStore) :
    ApiReply × TextStore :=
  match urlpatterns path with
  | none => (.noRoute, σ)
  | some route =>
    let called := route.view rnd settings link bytes r σ
    (.ofView called.1, called.2)

/-- What an attempt of a request's call leaves. -/
def QueueApi.attempt (rnd : ℚ → ℚ) (path : String) (bytes : Vector UInt8 QUEUE_TOKEN_BYTES)
    (r : HttpRequest) (σ : TextStore) : TextStore :=
  ((urlpatterns path).bind (Route.call r bytes)).elim σ (fun p => ((TextServer rnd).step σ p).2)

/-- **The queue service**: its endpoints, and whoever else works on the store. -/
def QueueApi (rnd : ℚ → ℚ) (settings : CookieSettings) : Machine TextStore ApiAct ApiReply :=
  ⟨fun σ a =>
    match a with
    | .attempt path r bytes => (.unheard, QueueApi.attempt rnd path bytes r σ)
    | .request path r link bytes => QueueApi.serve rnd settings path link bytes r σ
    | .operate eventId op => ((op.serveText rnd eventId).run σ).map .operated id⟩

/-! ## What a request comes to -/

/-- The operation on the store something that happens comes to, if it gets so
far. -/
def ApiAct.call : ApiAct → Option (String × EventOp)
  | .attempt path r bytes => (urlpatterns path).bind (Route.call r bytes)
  | .request path r link bytes =>
    if link.answered then (urlpatterns path).bind (Route.call r bytes) else none
  | .operate eventId op => some (eventId, op)

theorem Route.call_join_eq_some {r : HttpRequest} {bytes : Vector UInt8 QUEUE_TOKEN_BYTES}
    {eventId : String} {p : String × EventOp} : (Route.join eventId).call r bytes = some p ↔
      r.method = "POST" ∧ isValidEventId eventId = true
        ∧ p = (eventId, .join (QueueView.tokenToJoin r eventId bytes)) := by
  show (if _ then none else some _) = some p ↔ _
  by_cases hm : r.method ≠ "POST" ∨ isValidEventId eventId = false
  · rw [if_pos hm]
    constructor
    · exact fun h => nomatch h
    · rintro ⟨hmethod, hvalid, -⟩
      rw [hmethod, hvalid] at hm
      exact absurd hm (by decide)
  · rw [if_neg hm]
    obtain ⟨hmethod, hvalid⟩ := not_or.mp hm
    rw [not_not] at hmethod
    rw [Bool.not_eq_false] at hvalid
    rw [Option.some.injEq]
    exact ⟨fun h => ⟨hmethod, hvalid, h.symm⟩, fun h => h.2.2.symm⟩

theorem Route.call_position_eq_some {r : HttpRequest} {bytes : Vector UInt8 QUEUE_TOKEN_BYTES}
    {eventId : String} {p : String × EventOp} : (Route.position eventId).call r bytes = some p ↔
      r.method = "GET" ∧ isValidEventId eventId = true
        ∧ ∃ t, QueueView.tokenFrom r eventId = some t ∧ p = (eventId, .position t) := by
  show (if _ then none else Option.map _ _) = some p ↔ _
  by_cases hm : r.method ≠ "GET" ∨ isValidEventId eventId = false
  · rw [if_pos hm]
    constructor
    · exact fun h => nomatch h
    · rintro ⟨hmethod, hvalid, -⟩
      rw [hmethod, hvalid] at hm
      exact absurd hm (by decide)
  · rw [if_neg hm]
    obtain ⟨hmethod, hvalid⟩ := not_or.mp hm
    rw [not_not] at hmethod
    rw [Bool.not_eq_false] at hvalid
    rw [Option.map_eq_some_iff]
    constructor
    · rintro ⟨t, ht, rfl⟩
      exact ⟨hmethod, hvalid, t, ht, rfl⟩
    · rintro ⟨-, -, t, ht, rfl⟩
      exact ⟨t, ht, rfl⟩

/-! ## The endpoints are operations on the store -/

namespace QueueView

variable (rnd : ℚ → ℚ) (settings : CookieSettings) (link : Link)
  {bytes : Vector UInt8 QUEUE_TOKEN_BYTES} {request : HttpRequest} {eventId : String}

/-- A join that gets so far makes its call. -/
theorem join_of_call (hmethod : request.method = "POST") (hvalid : isValidEventId eventId = true)
    (σ : TextStore) : join rnd settings link bytes request eventId σ
      = (joinResponse rnd settings eventId (tokenToJoin request eventId bytes)
          (link.call (TextRepository.join eventId (tokenToJoin request eventId bytes)) σ).1,
        (link.call (TextRepository.join eventId (tokenToJoin request eventId bytes)) σ).2) := by
  unfold join
  rw [if_neg (not_not.mpr hmethod), if_neg (ne_false_of_eq_true hvalid)]

/-- A position call that gets so far makes its call. -/
theorem position_of_call (hmethod : request.method = "GET")
    (hvalid : isValidEventId eventId = true) {t : String}
    (ht : tokenFrom request eventId = some t) (σ : TextStore) :
    position rnd link request eventId σ
      = (positionResponse rnd (link.call (TextRepository.position eventId t) σ).1,
        (link.call (TextRepository.position eventId t) σ).2) := by
  unfold position
  rw [if_neg (not_not.mpr hmethod), if_neg (ne_false_of_eq_true hvalid), ht]

end QueueView

/-- Running an operation is running its script, whatever is made of the reply. -/
theorem TextServer.step_snd_join (rnd : ℚ → ℚ) (eventId t : String) (σ : TextStore) :
    ((TextServer rnd).step σ (eventId, .join t)).2 = ((TextRepository.join eventId t).run σ).2 := by
  show (((TextRepository.join eventId t) >>= fun o => pure (TextAnswer.join o)).run σ).2 = _
  cases hrun : (TextRepository.join eventId t).run σ with
  | mk r τ =>
    cases r with
    | ok o => rw [run_bind_ok hrun, run_pure]
    | error e => rw [run_bind_error hrun]

theorem TextServer.step_snd_position (rnd : ℚ → ℚ) (eventId t : String) (σ : TextStore) :
    ((TextServer rnd).step σ (eventId, .position t)).2
      = ((TextRepository.position eventId t).run σ).2 := by
  show (((TextRepository.position eventId t) >>= fun o => pure (TextAnswer.position o)).run σ).2
    = _
  cases hrun : (TextRepository.position eventId t).run σ with
  | mk r τ =>
    cases r with
    | ok o => rw [run_bind_ok hrun, run_pure]
    | error e => rw [run_bind_error hrun]

/-- What a view answers without a call of the store. -/
def Route.refused (link : Link) (r : HttpRequest) : Route → JsonResponse
  | .healthz => QueueView.healthz link
  | .join _ => if r.method ≠ "POST" then QueueView.methodNotAllowed else QueueView.unknownEvent
  | .position eventId =>
    if r.method ≠ "GET" then QueueView.methodNotAllowed
    else if isValidEventId eventId = false then QueueView.unknownEvent
    else QueueView.unknownToken

/-- A request that does not get so far is answered without the store. -/
theorem Route.view_of_no_call (rnd : ℚ → ℚ) (settings : CookieSettings) (link : Link)
    {bytes : Vector UInt8 QUEUE_TOKEN_BYTES} {r : HttpRequest} (σ : TextStore) (route : Route)
    (h : route.call r bytes = none) :
    route.view rnd settings link bytes r σ = (.ok (route.refused link r), σ) := by
  cases route with
  | healthz => rfl
  | join eventId =>
    show QueueView.join rnd settings link bytes r eventId σ
      = (.ok (if _ then QueueView.methodNotAllowed else QueueView.unknownEvent), σ)
    unfold QueueView.join
    by_cases hmethod : r.method ≠ "POST"
    · rw [if_pos hmethod, if_pos hmethod]
    · rw [if_neg hmethod, if_neg hmethod]
      by_cases hvalid : isValidEventId eventId = false
      · rw [if_pos hvalid]
      · exact nomatch h.symm.trans (Route.call_join_eq_some.mpr
          ⟨not_not.mp hmethod, eq_true_of_ne_false hvalid, rfl⟩)
  | position eventId =>
    show QueueView.position rnd link r eventId σ
      = (.ok (if _ then QueueView.methodNotAllowed else if _ then QueueView.unknownEvent
          else QueueView.unknownToken), σ)
    unfold QueueView.position
    by_cases hmethod : r.method ≠ "GET"
    · rw [if_pos hmethod, if_pos hmethod]
    · rw [if_neg hmethod, if_neg hmethod]
      by_cases hvalid : isValidEventId eventId = false
      · rw [if_pos hvalid, if_pos hvalid]
      · rw [if_neg hvalid, if_neg hvalid]
        cases ht : QueueView.tokenFrom r eventId with
        | none => rfl
        | some t =>
          exact nomatch h.symm.trans (Route.call_position_eq_some.mpr
            ⟨not_not.mp hmethod, eq_true_of_ne_false hvalid, t, ht, rfl⟩)

/-- A call leaves the store as its operation does, if it is answered. -/
theorem Link.call_snd (rnd : ℚ → ℚ) (link : Link) {α : Type} {x : Redis String α}
    {p : String × EventOp} (h : ∀ σ, ((TextServer rnd).step σ p).2 = (x.run σ).2)
    (σ : TextStore) :
    (link.call x σ).2 = if link.answered then ((TextServer rnd).step σ p).2 else σ := by
  unfold Link.call
  rw [h]
  cases link.answered <;> rfl

/-- **A view leaves the store as the operation it comes to**, if its call is
answered. -/
theorem Route.view_snd (rnd : ℚ → ℚ) (settings : CookieSettings) (link : Link)
    (bytes : Vector UInt8 QUEUE_TOKEN_BYTES) (r : HttpRequest) (σ : TextStore) (route : Route) :
    (route.view rnd settings link bytes r σ).2
      = (if link.answered then route.call r bytes else none).elim σ
        (fun p => ((TextServer rnd).step σ p).2) := by
  cases hcall : route.call r bytes with
  | none =>
    rw [route.view_of_no_call rnd settings link σ hcall, ite_self]
    rfl
  | some p =>
    have hend : (if link.answered then some p else none).elim σ
          (fun p => ((TextServer rnd).step σ p).2)
        = if link.answered then ((TextServer rnd).step σ p).2 else σ := by
      cases link.answered <;> rfl
    rw [hend]
    cases route with
    | healthz => exact nomatch hcall
    | join eventId =>
      obtain ⟨hmethod, hvalid, rfl⟩ := Route.call_join_eq_some.mp hcall
      show (QueueView.join rnd settings link bytes r eventId σ).2 = _
      rw [QueueView.join_of_call rnd settings link hmethod hvalid]
      exact link.call_snd rnd (TextServer.step_snd_join rnd eventId _) σ
    | position eventId =>
      obtain ⟨hmethod, hvalid, t, ht, rfl⟩ := Route.call_position_eq_some.mp hcall
      show (QueueView.position rnd link r eventId σ).2 = _
      rw [QueueView.position_of_call rnd link hmethod hvalid ht]
      exact link.call_snd rnd (TextServer.step_snd_position rnd eventId t) σ

namespace QueueApi

variable (rnd : ℚ → ℚ) (settings : CookieSettings)

/-- **What happens to the service happens to the store**: an attempt, a request, or
an operation of someone else leaves the store as the operation it comes to. -/
theorem step_snd (σ : TextStore) (a : ApiAct) :
    ((QueueApi rnd settings).step σ a).2
      = a.call.elim σ (fun p => ((TextServer rnd).step σ p).2) := by
  cases a with
  | operate eventId op => rfl
  | attempt path r bytes => rfl
  | request path r link bytes =>
    show (QueueApi.serve rnd settings path link bytes r σ).2
      = (if link.answered then (urlpatterns path).bind (Route.call r bytes) else none).elim _ _
    unfold QueueApi.serve
    cases hroute : urlpatterns path with
    | none =>
      rw [Option.bind_none, ite_self]
      rfl
    | some route => exact route.view_snd rnd settings link bytes r σ

end QueueApi

/-! ## Stores in order -/

/-- **A store in order**: it was written down, and of every event it holds a
record. The empty store is one. -/
def InOrder (σ : TextStore) : Prop :=
  ∃ τ : Store, σ = τ.written ∧ ∀ e, isValidEventId e = true → ∃ v, Holds e τ v

/-- Whoever else works on the store works on a well-formed event. -/
def ApiAct.Fits : ApiAct → Prop
  | .operate eventId _ => isValidEventId eventId = true
  | _ => True

/-- The empty store holds the record of an event nobody has configured. -/
theorem holds_empty (eventId : String) (clock : ℤ) : Holds eventId ⟨fun _ => none, clock⟩
    ⟨.empty, 0, 0, none, none, fun _ => none, clock⟩ :=
  ⟨rfl, Or.inl ⟨rfl, rfl⟩, Or.inl ⟨rfl, rfl⟩, ⟨fun _ => none, Or.inl ⟨rfl, rfl⟩, rfl, rfl⟩, rfl,
    fun _ => rfl, rfl⟩

theorem inOrder_empty (clock : ℤ) : InOrder ⟨fun _ => none, clock⟩ :=
  ⟨⟨fun _ => none, clock⟩, rfl, fun e _ => ⟨_, holds_empty e clock⟩⟩

/-- An operation on a well-formed event leaves a record of every event. -/
theorem QueueServer.holds_step (rnd : ℚ → ℚ) {τ : Store}
    (h : ∀ e, isValidEventId e = true → ∃ v, Holds e τ v) {a : String × EventOp}
    (ha : isValidEventId a.1 = true) {e : String} (he : isValidEventId e = true) :
    ∃ v, Holds e ((QueueServer rnd).step τ a).2 v := by
  obtain ⟨v, hv⟩ := h e he
  by_cases hea : a.1 = e
  · subst hea
    obtain ⟨σ', hrun, hσ'⟩ := hv.serve rnd a.2
    rw [show (QueueServer rnd).step τ a = _ from hrun]
    exact ⟨_, hσ'⟩
  · obtain ⟨v', hv', -⟩ := hv.other rnd he ha hea a.2
    exact ⟨v', hv'⟩

/-- An operation on a well-formed event keeps the store in order. -/
theorem InOrder.step (rnd : ℚ → ℚ) {σ : TextStore} (h : InOrder σ) {a : String × EventOp}
    (ha : isValidEventId a.1 = true) : InOrder ((TextServer rnd).step σ a).2 := by
  obtain ⟨τ, rfl, hholds⟩ := h
  exact ⟨((QueueServer rnd).step τ a).2, by rw [TextServer.step_written],
    fun e he => QueueServer.holds_step rnd hholds ha he⟩

/-- What a request comes to is an operation on a well-formed event. -/
theorem Route.isValid_of_call {route : Route} {r : HttpRequest}
    {bytes : Vector UInt8 QUEUE_TOKEN_BYTES} {p : String × EventOp}
    (h : route.call r bytes = some p) : isValidEventId p.1 = true := by
  cases route with
  | healthz => exact nomatch h
  | join eventId =>
    obtain ⟨-, hvalid, rfl⟩ := Route.call_join_eq_some.mp h
    exact hvalid
  | position eventId =>
    obtain ⟨-, hvalid, t, -, rfl⟩ := Route.call_position_eq_some.mp h
    exact hvalid

theorem ApiAct.isValid_of_call {a : ApiAct} (ha : a.Fits) {p : String × EventOp}
    (hp : a.call = some p) : isValidEventId p.1 = true := by
  have hrequest {path : String} {r : HttpRequest} {bytes : Vector UInt8 QUEUE_TOKEN_BYTES}
      (h : (urlpatterns path).bind (Route.call r bytes) = some p) :
      isValidEventId p.1 = true := by
    obtain ⟨route, -, hcall⟩ := Option.bind_eq_some_iff.mp h
    exact Route.isValid_of_call hcall
  cases a with
  | operate eventId op =>
    obtain rfl := Option.some.inj hp
    exact ha
  | attempt path r bytes => exact hrequest hp
  | request path r link bytes =>
    replace hp : (if link.answered then (urlpatterns path).bind (Route.call r bytes) else none)
      = some p := hp
    cases hlink : link.answered with
    | true =>
      rw [if_pos hlink] at hp
      exact hrequest hp
    | false =>
      rw [hlink] at hp
      exact nomatch hp

/-- **Whatever happens keeps the store in order.** -/
theorem QueueApi.inOrder_step (rnd : ℚ → ℚ) (settings : CookieSettings) {σ : TextStore}
    (h : InOrder σ) {a : ApiAct} (ha : a.Fits) :
    InOrder ((QueueApi rnd settings).step σ a).2 := by
  rw [QueueApi.step_snd]
  cases hcall : a.call with
  | none => exact h
  | some p => exact h.step rnd (ApiAct.isValid_of_call ha hcall)

/-! ## What is answered -/

section Calls

variable {eventId : String} {τ : Store} {v : EventState}

/-- A join, on the texts. -/
theorem Holds.join_text (h : Holds eventId τ v) (t : String) :
    ∃ τ', (TextRepository.join eventId t).run τ.written = (.ok (.ok (v.join t).1), τ'.written)
      ∧ Holds eventId τ' (v.join t).2 := by
  obtain ⟨τ', hrun, hτ'⟩ := h.join_run t
  refine ⟨τ', ?_, hτ'⟩
  rw [show (TextRepository.join eventId t).run τ.written = _ from renders_join eventId t τ, hrun]
  rfl

/-- What the client is left with after a join. -/
theorem Holds.call_join (h : Holds eventId τ v) (t : String) (link : Link) :
    (link.call (TextRepository.join eventId t) τ.written).1
      = if link.answered then .ok (.ok (v.join t).1) else .error .connectionError := by
  obtain ⟨τ', hrun, -⟩ := h.join_text t
  unfold Link.call
  rw [hrun]
  cases link.answered <;> rfl

/-- A position call leaves the texts alone. -/
theorem Holds.position_text (h : Holds eventId τ v) (t : String) :
    (TextRepository.position eventId t).run τ.written
      = (.ok ((v.position eventId t).map Standing.written), τ.written) := by
  rw [show (TextRepository.position eventId t).run τ.written = _ from renders_position eventId t τ,
    h.position_run t]
  rfl

theorem Holds.call_position (h : Holds eventId τ v) (t : String) (link : Link) :
    (link.call (TextRepository.position eventId t) τ.written).1
      = if link.answered then .ok ((v.position eventId t).map Standing.written)
        else .error .connectionError := by
  rw [link.call_of_still (h.position_text t)]

theorem EventState.isSome_join (v : EventState) (t : String) :
    (v.join t).1.isSome = true ↔ ∃ c, v.config = some c := by
  cases hc : v.config with
  | none => simp [EventState.join_of_unconfigured hc]
  | some c =>
    cases hs : v.queue.score? t with
    | none => simp [EventState.join_of_new hc hs]
    | some s => simp [EventState.join_of_queued hc hs]

end Calls

/-- A body that names what is wrong. -/
def detail (text : String) : Json := .obj [("detail", .str text)]

/-- **How a request is answered**, over a store of objects: in every case the
status, the body and the cookie. -/
inductive Answered (rnd : ℚ → ℚ) (settings : CookieSettings) (route : Route) (r : HttpRequest)
    (link : Link) (bytes : Vector UInt8 QUEUE_TOKEN_BYTES) (τ : Store) : JsonResponse → Prop where
  /-- The health check says whether the store answers. -/
  | healthy (hroute : route = .healthz) (hlink : link.answered = true) :
    Answered rnd settings route r link bytes τ
      ⟨200, .obj [("status", .str "ok"), ("redis", .str "ok")], none⟩
  | degraded (hroute : route = .healthz) (hlink : link.answered = false) :
    Answered rnd settings route r link bytes τ
      ⟨503, .obj [("status", .str "degraded"), ("redis", .str "unavailable")], none⟩
  /-- The method is not the one of the view. -/
  | notAllowed (m : String) (hm : route.method = some m) (hne : r.method ≠ m) :
    Answered rnd settings route r link bytes τ ⟨405, detail "method_not_allowed", none⟩
  /-- The id of the event is malformed. -/
  | malformedEvent (e : String) (he : route.event = some e) (hm : route.method = some r.method)
    (hvalid : isValidEventId e = false) :
    Answered rnd settings route r link bytes τ ⟨404, detail "unknown_event", none⟩
  /-- A position call carries no valid token. -/
  | malformedToken (e : String) (hroute : route = .position e) (hm : r.method = "GET")
    (hvalid : isValidEventId e = true) (ht : QueueView.tokenFrom r e = none) :
    Answered rnd settings route r link bytes τ ⟨404, detail "unknown_token", none⟩
  /-- The store was asked, and does not answer. -/
  | unavailable (p : String × EventOp) (hcall : route.call r bytes = some p)
    (hlink : link.answered = false) :
    Answered rnd settings route r link bytes τ ⟨503, detail "redis_unavailable", none⟩
  /-- The event is not configured. -/
  | unknownEvent (e : String) (op : EventOp) (v : EventState)
    (hcall : route.call r bytes = some (e, op)) (hlink : link.answered = true)
    (hv : Holds e τ v) (hc : v.config = none) :
    Answered rnd settings route r link bytes τ ⟨404, detail "unknown_event", none⟩
  /-- The token is not in the queue, and no pass of it is live. -/
  | unknownToken (e t : String) (v : EventState) (c : QueueConfig)
    (hcall : route.call r bytes = some (e, .position t)) (hlink : link.answered = true)
    (hv : Holds e τ v) (hc : v.config = some c) (ht : t ∉ v.queue.members)
    (hp : v.livePass t = none) :
    Answered rnd settings route r link bytes τ ⟨404, detail "unknown_token", none⟩
  /-- A join is told its place, and its token is kept in the cookie of the
  event. -/
  | placed (e t : String) (v : EventState) (o : JoinOutcome)
    (hcall : route.call r bytes = some (e, .join t)) (hlink : link.answered = true)
    (hv : Holds e τ v) (ho : (v.join t).1 = some o) :
    Answered rnd settings route r link bytes τ
      ⟨200, .obj [("queue_token", .str t), ("sequence", .num o.sequence),
          ("position", .num (positionFrom o.sequence o.admittedTotal)),
          ("total_waiting", .num o.totalWaiting), ("admitted_total", .num o.admittedTotal),
          ("eta_seconds", (etaSecondsFor rnd (positionFrom o.sequence o.admittedTotal)
            o.ratePerMin).elim .null .num),
          ("state", .str "waiting"), ("joined", .bool o.joined)],
        some ⟨"qf_" ++ e, t, settings.maxAgeSeconds, true, "Lax", settings.secure, "/"⟩⟩
  /-- A waiter is told its position. -/
  | waiting (e t : String) (v : EventState) (c : QueueConfig) (n : ℕ)
    (hcall : route.call r bytes = some (e, .position t)) (hlink : link.answered = true)
    (hv : Holds e τ v) (hc : v.config = some c) (hn : v.queue.rank? t = some n) :
    Answered rnd settings route r link bytes τ
      ⟨200, .obj [("position", .num (n + 1)), ("total_waiting", .num v.queue.card),
          ("admitted_total", .num v.admitted),
          ("eta_seconds", (etaSecondsFor rnd (n + 1) c.ratePerMin).elim .null .num),
          ("state", .str "waiting")], none⟩
  /-- An admitted waiter is handed its pass. -/
  | admitted (e t : String) (v : EventState) (c : QueueConfig) (a : Admission)
    (hcall : route.call r bytes = some (e, .position t)) (hlink : link.answered = true)
    (hv : Holds e τ v) (hc : v.config = some c) (ht : t ∉ v.queue.members)
    (ha : v.livePass t = some a) :
    Answered rnd settings route r link bytes τ
      ⟨200, .obj [("position", .num 0), ("total_waiting", .num v.queue.card),
          ("admitted_total", .num v.admitted), ("eta_seconds", .null), ("state", .str "admitted"),
          ("admission", a.json)], none⟩

namespace Answered

variable {rnd : ℚ → ℚ} {settings : CookieSettings} {route : Route} {r : HttpRequest}
  {link : Link} {bytes : Vector UInt8 QUEUE_TOKEN_BYTES} {τ : Store} {response : JsonResponse}

/-- **No request is left out.** -/
theorem total (rnd : ℚ → ℚ) (settings : CookieSettings) (route : Route) (r : HttpRequest)
    (link : Link) (bytes : Vector UInt8 QUEUE_TOKEN_BYTES)
    (hτ : ∀ e, isValidEventId e = true → ∃ v, Holds e τ v) :
    ∃ response, Answered rnd settings route r link bytes τ response := by
  cases route with
  | healthz =>
    cases hlink : link.answered with
    | true => exact ⟨_, .healthy rfl hlink⟩
    | false => exact ⟨_, .degraded rfl hlink⟩
  | join e =>
    by_cases hm : r.method = "POST"
    · cases hvalid : isValidEventId e with
      | false => exact ⟨_, .malformedEvent e rfl (congrArg some hm.symm) hvalid⟩
      | true =>
        have hcall : (Route.join e).call r bytes = _ :=
          Route.call_join_eq_some.mpr ⟨hm, hvalid, rfl⟩
        cases hlink : link.answered with
        | false => exact ⟨_, .unavailable _ hcall hlink⟩
        | true =>
          obtain ⟨v, hv⟩ := hτ e hvalid
          cases hj : (v.join (QueueView.tokenToJoin r e bytes)).1 with
          | some o => exact ⟨_, .placed e _ v o hcall hlink hv hj⟩
          | none =>
            cases hc : v.config with
            | none => exact ⟨_, .unknownEvent e _ v hcall hlink hv hc⟩
            | some c =>
              have hsome := (v.isSome_join (QueueView.tokenToJoin r e bytes)).mpr ⟨c, hc⟩
              rw [hj] at hsome
              exact Bool.noConfusion hsome
    · exact ⟨_, .notAllowed "POST" rfl hm⟩
  | position e =>
    by_cases hm : r.method = "GET"
    · cases hvalid : isValidEventId e with
      | false => exact ⟨_, .malformedEvent e rfl (congrArg some hm.symm) hvalid⟩
      | true =>
        cases ht : QueueView.tokenFrom r e with
        | none => exact ⟨_, .malformedToken e rfl hm hvalid ht⟩
        | some t =>
          have hcall : (Route.position e).call r bytes = _ :=
            Route.call_position_eq_some.mpr ⟨hm, hvalid, t, ht, rfl⟩
          cases hlink : link.answered with
          | false => exact ⟨_, .unavailable _ hcall hlink⟩
          | true =>
            obtain ⟨v, hv⟩ := hτ e hvalid
            cases hc : v.config with
            | none => exact ⟨_, .unknownEvent e _ v hcall hlink hv hc⟩
            | some c =>
              cases hn : v.queue.rank? t with
              | some n => exact ⟨_, .waiting e t v c n hcall hlink hv hc hn⟩
              | none =>
                have hout := v.queue.rank?_eq_none_iff.mp hn
                cases ha : v.livePass t with
                | some a => exact ⟨_, .admitted e t v c a hcall hlink hv hc hout ha⟩
                | none => exact ⟨_, .unknownToken e t v c hcall hlink hv hc hout ha⟩
    · exact ⟨_, .notAllowed "GET" rfl hm⟩

section View

/-- What a join is answered, of an event in order. -/
theorem view_join {e : String} {v : EventState} {t : String}
    (hcall : (Route.join e).call r bytes = some (e, .join t)) (hv : Holds e τ v) :
    ((Route.join e).view rnd settings link bytes r τ.written).1
      = QueueView.joinResponse rnd settings e t
        (if link.answered then .ok (.ok (v.join t).1) else .error .connectionError) := by
  obtain ⟨hmethod, hvalid, hp⟩ := Route.call_join_eq_some.mp hcall
  obtain rfl : t = QueueView.tokenToJoin r e bytes := EventOp.join.inj (Prod.mk.inj hp).2
  show (QueueView.join rnd settings link bytes r e τ.written).1 = _
  rw [QueueView.join_of_call rnd settings link hmethod hvalid, hv.call_join]

/-- What a position call is answered. -/
theorem view_position {e : String} {v : EventState} {t : String}
    (hcall : (Route.position e).call r bytes = some (e, .position t)) (hv : Holds e τ v) :
    ((Route.position e).view rnd settings link bytes r τ.written).1
      = QueueView.positionResponse rnd
        (if link.answered then .ok ((v.position e t).map Standing.written)
          else .error .connectionError) := by
  obtain ⟨hmethod, hvalid, t', ht, hp⟩ := Route.call_position_eq_some.mp hcall
  obtain rfl : t = t' := EventOp.position.inj (Prod.mk.inj hp).2
  show (QueueView.position rnd link r e τ.written).1 = _
  rw [QueueView.position_of_call rnd link hmethod hvalid ht, hv.call_position]

/-- A call names the event of its view, and is a join or a position call. -/
theorem route_of_call {e : String} {op : EventOp} (hcall : route.call r bytes = some (e, op)) :
    (∃ t, route = .join e ∧ op = .join t) ∨ ∃ t, route = .position e ∧ op = .position t := by
  cases route with
  | healthz => exact nomatch hcall
  | join e' =>
    obtain ⟨-, -, hp⟩ := Route.call_join_eq_some.mp hcall
    obtain ⟨rfl, rfl⟩ := Prod.mk.inj hp
    exact Or.inl ⟨_, rfl, rfl⟩
  | position e' =>
    obtain ⟨-, -, t, -, hp⟩ := Route.call_position_eq_some.mp hcall
    obtain ⟨rfl, rfl⟩ := Prod.mk.inj hp
    exact Or.inr ⟨t, rfl, rfl⟩

/-- **A view answers so.** -/
theorem view (hτ : ∀ e, isValidEventId e = true → ∃ v, Holds e τ v)
    (h : Answered rnd settings route r link bytes τ response) :
    (route.view rnd settings link bytes r τ.written).1 = .ok response := by
  cases h with
  | healthy hroute hlink =>
    subst hroute
    show Except.ok (QueueView.healthz link) = _
    rw [QueueView.healthz, if_pos hlink]
  | degraded hroute hlink =>
    subst hroute
    show Except.ok (QueueView.healthz link) = _
    rw [QueueView.healthz, if_neg (by rw [hlink]; decide)]
  | notAllowed m hm hne =>
    cases route with
    | healthz => exact nomatch hm
    | join e =>
      rw [← Option.some.inj hm] at hne
      show (QueueView.join rnd settings link bytes r e τ.written).1 = _
      rw [QueueView.join, if_pos hne]
      rfl
    | position e =>
      rw [← Option.some.inj hm] at hne
      show (QueueView.position rnd link r e τ.written).1 = _
      rw [QueueView.position, if_pos hne]
      rfl
  | malformedEvent e he hm hvalid =>
    cases route with
    | healthz => exact nomatch hm
    | join e' =>
      obtain rfl : e' = e := Option.some.inj he
      show (QueueView.join rnd settings link bytes r e' τ.written).1 = _
      rw [QueueView.join, if_neg (not_not.mpr (Option.some.inj hm).symm), if_pos hvalid]
      rfl
    | position e' =>
      obtain rfl : e' = e := Option.some.inj he
      show (QueueView.position rnd link r e' τ.written).1 = _
      rw [QueueView.position, if_neg (not_not.mpr (Option.some.inj hm).symm), if_pos hvalid]
      rfl
  | malformedToken e hroute hm hvalid ht =>
    subst hroute
    show (QueueView.position rnd link r e τ.written).1 = _
    rw [QueueView.position, if_neg (not_not.mpr hm), if_neg (ne_false_of_eq_true hvalid), ht]
    rfl
  | unavailable p hcall hlink =>
    obtain ⟨e, op⟩ := p
    obtain ⟨v, hv⟩ := hτ e (Route.isValid_of_call hcall)
    obtain ⟨t, rfl, rfl⟩ | ⟨t, rfl, rfl⟩ := route_of_call hcall
    · rw [view_join hcall hv, hlink]
      rfl
    · rw [view_position hcall hv, hlink]
      rfl
  | unknownEvent e op v hcall hlink hv hc =>
    obtain ⟨t, rfl, rfl⟩ | ⟨t, rfl, rfl⟩ := route_of_call hcall
    · rw [view_join hcall hv, hlink, EventState.join_of_unconfigured hc]
      rfl
    · rw [view_position hcall hv, hlink, EventState.position_of_unconfigured hc]
      rfl
  | unknownToken e t v c hcall hlink hv hc ht hp =>
    obtain ⟨t', -, hop⟩ | ⟨t', rfl, hop⟩ := route_of_call hcall
    · exact nomatch hop
    · rw [view_position hcall hv, hlink,
        EventState.position_of_stranger hc e (v.queue.rank?_eq_none_iff.mpr ht) hp]
      rfl
  | placed e t v o hcall hlink hv ho =>
    obtain ⟨t', rfl, hop⟩ | ⟨t', -, hop⟩ := route_of_call hcall
    · rw [view_join hcall hv, hlink, ho]
      rfl
    · exact nomatch hop
  | waiting e t v c n hcall hlink hv hc hn =>
    obtain ⟨t', -, hop⟩ | ⟨t', rfl, hop⟩ := route_of_call hcall
    · exact nomatch hop
    · rw [view_position hcall hv, hlink, EventState.position_of_queued hc e hn]
      rfl
  | admitted e t v c a hcall hlink hv hc ht ha =>
    obtain ⟨t', -, hop⟩ | ⟨t', rfl, hop⟩ := route_of_call hcall
    · exact nomatch hop
    · rw [view_position hcall hv, hlink,
        EventState.position_of_admitted hc e (v.queue.rank?_eq_none_iff.mpr ht) ha]
      rfl

end View

end Answered

/-- **Every request is answered**, as its view says it is: in every run of the
service, from a store in order, whatever admitters and operators do in between,
whichever replies of the store are lost, and however the call of the request
fares in the end. No exception goes uncaught, and the answer is the only one
that fits. -/
theorem every_request_is_answered (rnd : ℚ → ℚ) (settings : CookieSettings) {σ : TextStore}
    (hσ : InOrder σ) {acts : List ApiAct} (hacts : ∀ a ∈ acts, a.Fits)
    {x : Visit TextStore ApiAct ApiReply} (hx : x ∈ (QueueApi rnd settings).trace σ acts)
    {path : String} {r : HttpRequest} {link : Link} {bytes : Vector UInt8 QUEUE_TOKEN_BYTES}
    {route : Route} (ha : x.action = .request path r link bytes)
    (hroute : urlpatterns path = some route) :
    ∃ τ response, x.before = τ.written ∧ x.reply = .response response
      ∧ Answered rnd settings route r link bytes τ response
      ∧ ∀ other, Answered rnd settings route r link bytes τ other → other = response := by
  have hbefore := (QueueApi rnd settings).trace_invariant (P := InOrder)
    (fun _ a ha h => QueueApi.inOrder_step rnd settings h (hacts a ha)) hσ x hx
  obtain ⟨τ, hτ, hholds⟩ := hbefore
  obtain ⟨response, hanswered⟩ := Answered.total rnd settings route r link bytes hholds
  have hview := hanswered.view hholds
  refine ⟨τ, response, hτ, ?_, hanswered, fun other hother => ?_⟩
  · rw [(QueueApi rnd settings).reply_of_mem_trace hx, ha, hτ]
    show (QueueApi.serve rnd settings path link bytes r τ.written).1 = _
    unfold QueueApi.serve
    rw [hroute]
    dsimp only
    rw [hview]
    rfl
  · exact Except.ok.inj ((hother.view hholds).symm.trans hview)

/-- A join at a configured event, one of whose attempts gets no reply. -/
theorem every_request_is_answered_of_join :
    let σ := (QueueApi id ⟨60, true⟩).final ⟨fun _ => none, 0⟩
      [.operate "e-1" (.configure ⟨60, 1, 1⟩), .attempt "/api/queue/e-1/join"
        ⟨"POST", fun _ => none, fun _ => none⟩ (.replicate _ 0)]
    ∃ τ response, σ = τ.written
      ∧ ((QueueApi id ⟨60, true⟩).step σ (.request "/api/queue/e-1/join"
          ⟨"POST", fun _ => none, fun _ => none⟩ ⟨true⟩ (.replicate _ 0))).1
        = .response response
      ∧ Answered id ⟨60, true⟩ (.join "e-1") ⟨"POST", fun _ => none, fun _ => none⟩ ⟨true⟩
        (.replicate _ 0) τ response := by
  intro σ
  have hacts : ∀ a ∈ [ApiAct.operate "e-1" (.configure ⟨60, 1, 1⟩), .attempt "/api/queue/e-1/join"
      ⟨"POST", fun _ => none, fun _ => none⟩ (.replicate _ 0), .request "/api/queue/e-1/join"
        ⟨"POST", fun _ => none, fun _ => none⟩ ⟨true⟩ (.replicate _ 0)], a.Fits := by
    intro a ha
    simp only [List.mem_cons, List.not_mem_nil, or_false] at ha
    rcases ha with rfl | rfl | rfl
    · exact (by decide +kernel : isValidEventId "e-1" = true)
    · trivial
    · trivial
  obtain ⟨τ, response, hτ, hreply, hanswered, -⟩ :=
    every_request_is_answered id ⟨60, true⟩ (inOrder_empty 0) hacts
      (List.mem_cons_of_mem _ (List.mem_cons_of_mem _ List.mem_cons_self)) rfl
      (by decide +kernel : urlpatterns "/api/queue/e-1/join" = some (.join "e-1"))
  exact ⟨τ, response, hτ, hreply, hanswered⟩

/-! ## Calls that are sent again -/

/-- Who is let in by what the store answers. -/
def TextAnswer.letIn : Except Redis.Error TextAnswer → List String
  | .ok (.admitBatch (.ok (some batch))) => batch.admittedTokens
  | _ => []

/-- The join of a token runs: an attempt of it, or the call that is answered. -/
def ApiAct.joins (eventId t : String) (a : ApiAct) : Bool := a.call = some (eventId, .join t)

/-- **What keeps a place**: whoever else works on the store works on well-formed
events, does not reset this one, and does not let the token in. -/
structure ApiAct.Keeps (rnd : ℚ → ℚ) (eventId t : String) (σ : TextStore) (a : ApiAct) : Prop where
  fits : a.Fits
  standing : a ≠ .operate eventId .reset
  waiting : ∀ now, a = .operate eventId (.admitBatch now) →
    t ∉ TextAnswer.letIn ((TextServer rnd).step σ (eventId, .admitBatch now)).1

/-- A token is in the queue of a configured event, in a store in order. -/
def InLine (eventId t : String) (σ : TextStore) : Prop :=
  ∃ τ, σ = τ.written ∧ (∀ e, isValidEventId e = true → ∃ v, Holds e τ v)
    ∧ ∃ v, Holds eventId τ v ∧ (∃ c, v.config = some c) ∧ t ∈ v.queue.members

/-- What a request comes to is a join or a position call. -/
theorem Route.call_ne {route : Route} {r : HttpRequest} {bytes : Vector UInt8 QUEUE_TOKEN_BYTES}
    {p : String × EventOp} (h : route.call r bytes = some p) (e : String) :
    p ≠ (e, .reset) ∧ ∀ now, p ≠ (e, .admitBatch now) := by
  cases route with
  | healthz => exact nomatch h
  | join eventId =>
    obtain ⟨-, -, rfl⟩ := Route.call_join_eq_some.mp h
    exact ⟨by simp, by simp⟩
  | position eventId =>
    obtain ⟨-, -, t, -, rfl⟩ := Route.call_position_eq_some.mp h
    exact ⟨by simp, by simp⟩

/-- A reset and a tick are the work of someone else. -/
theorem ApiAct.eq_operate_of_call {a : ApiAct} {e : String} {op : EventOp}
    (h : a.call = some (e, op)) (hop : op = .reset ∨ ∃ now, op = .admitBatch now) :
    a = .operate e op := by
  have hrequest {path : String} {r : HttpRequest} {bytes : Vector UInt8 QUEUE_TOKEN_BYTES}
      (h : (urlpatterns path).bind (Route.call r bytes) = some (e, op)) : False := by
    obtain ⟨route, -, hcall⟩ := Option.bind_eq_some_iff.mp h
    obtain ⟨hreset, hbatch⟩ := Route.call_ne hcall e
    rcases hop with rfl | ⟨now, rfl⟩
    · exact hreset rfl
    · exact hbatch now rfl
  cases a with
  | operate e' op' =>
    obtain ⟨rfl, rfl⟩ := Prod.mk.inj (Option.some.inj h)
    rfl
  | attempt path r bytes => exact (hrequest h).elim
  | request path r link bytes =>
    replace h : (if link.answered then (urlpatterns path).bind (Route.call r bytes) else none)
      = some (e, op) := h
    cases hlink : link.answered with
    | true =>
      rw [if_pos hlink] at h
      exact (hrequest h).elim
    | false =>
      rw [hlink] at h
      exact nomatch h

section Again

variable {eventId t : String} {τ : Store} {v : EventState} {σ : TextStore}

/-- A join that finds nothing to do leaves the store alone. -/
theorem Holds.join_text_of_idle (h : Holds eventId τ v)
    (hidle : ∀ c, v.config = some c → t ∈ v.queue.members) :
    ((TextRepository.join eventId t).run τ.written).2 = τ.written := by
  have hrun : ((RedisQueueRepository.join eventId t).run τ).2 = τ := by
    cases hc : v.config with
    | none =>
      have hlua : (joinLua (EventKeys.mk eventId).queue (EventKeys.mk eventId).seq
          (EventKeys.mk eventId).admitted (EventKeys.mk eventId).config t).run τ
          = (.ok (.array [.int 0]), τ) := by
        unfold joinLua
        rw [run_bind_ok (h.exists_config_none hc)]
        rfl
      unfold RedisQueueRepository.join
      dsimp only
      rw [run_bind_ok hlua]
      rfl
    | some c =>
      cases hs : v.queue.score? t with
      | some s => rw [h.join_run_queued hc hs]
      | none => exact absurd (hidle c hc) (v.queue.score?_eq_none_iff.mp hs)
  rw [show (TextRepository.join eventId t).run τ.written = _ from renders_join eventId t τ]
  exact congrArg Keyspace.written hrun

/-- **A join leaves the store alone** exactly if the event is not configured or the
token is in the queue. -/
theorem Holds.step_join_eq_iff (rnd : ℚ → ℚ) (h : Holds eventId τ v) (t : String) :
    ((TextServer rnd).step τ.written (eventId, .join t)).2 = τ.written
      ↔ ∀ c, v.config = some c → t ∈ v.queue.members := by
  rw [TextServer.step_snd_join]
  refine ⟨fun hsame c hc => ?_, h.join_text_of_idle⟩
  by_contra hout
  -- a newcomer is told so, and the next time that it is there already
  have hs := v.queue.score?_eq_none_iff.mpr hout
  obtain ⟨τ', hrun, hτ'⟩ := h.join_text t
  obtain ⟨τ'', hagain, -⟩ := hτ'.join_text t
  rw [hrun] at hsame
  rw [show τ'.written = τ.written from hsame, hrun, EventState.join_of_new hc hs] at hagain
  have hmem : t ∈ (v.queue.add t (v.seq + 1)).members := v.queue.mem_members_add.mpr (Or.inl rfl)
  cases hs' : (v.queue.add t (v.seq + 1)).score? t with
  | none => exact (v.queue.add t (v.seq + 1)).score?_eq_none_iff.mp hs' hmem
  | some s =>
    have hc' : ({ v with queue := v.queue.add t (v.seq + 1), seq := v.seq + 1 } :
      EventState).config = some c := hc
    rw [EventState.join_of_queued hc' hs'] at hagain
    have hjoined := congrArg (Option.map JoinOutcome.joined)
      (Except.ok.inj (Except.ok.inj (Prod.mk.inj hagain).1))
    exact absurd hjoined (by simp)

/-- **A place lasts**: whatever is done to the store, short of a reset of its event
or its admission, a token stays in line. -/
theorem InLine.step (rnd : ℚ → ℚ) (he : isValidEventId eventId = true) (h : InLine eventId t σ)
    {p : String × EventOp} (hp : isValidEventId p.1 = true) (hreset : p ≠ (eventId, .reset))
    (hstay : ∀ now, p = (eventId, .admitBatch now) →
      t ∉ TextAnswer.letIn ((TextServer rnd).step σ p).1) :
    InLine eventId t ((TextServer rnd).step σ p).2 := by
  obtain ⟨τ, rfl, horder, v, hv, hc, ht⟩ := h
  have hkept : ∀ e, isValidEventId e = true → ∃ v, Holds e ((QueueServer rnd).step τ p).2 v :=
    fun _ hev => QueueServer.holds_step rnd horder hp hev
  rw [TextServer.step_written] at hstay ⊢
  refine ⟨((QueueServer rnd).step τ p).2, rfl, hkept, ?_⟩
  by_cases hpe : p.1 = eventId
  · obtain ⟨e, op⟩ := p
    obtain rfl : e = eventId := hpe
    obtain ⟨τ', hrun, hτ'⟩ := hv.serve rnd op
    rw [show (QueueServer rnd).step τ (e, op) = _ from hrun] at hstay ⊢
    refine ⟨_, hτ', EventState.configured_step rnd e hc op, ?_⟩
    refine EventState.mem_members_step rnd e hc ht (fun h => hreset (by rw [h])) ?_
    rintro now rfl
    replace hstay : t ∉ TextAnswer.letIn (.ok (.admitBatch (.ok (v.admitBatch rnd now).1))) :=
      hstay now rfl
    cases hbatch : (v.admitBatch rnd now).1 with
    | none => exact List.not_mem_nil
    | some batch =>
      rw [hbatch] at hstay
      exact hstay
  · obtain ⟨v', hv', hqueue, hconfig⟩ := hv.other rnd he hp hpe p.2
    exact ⟨v', hv', hconfig ▸ hc, hqueue ▸ ht⟩

/-- What keeps a place leaves the token in line. -/
theorem InLine.act (rnd : ℚ → ℚ) (settings : CookieSettings) (he : isValidEventId eventId = true)
    (h : InLine eventId t σ) {a : ApiAct} (ha : a.Keeps rnd eventId t σ) :
    InLine eventId t ((QueueApi rnd settings).step σ a).2 := by
  rw [QueueApi.step_snd]
  cases hcall : a.call with
  | none => exact h
  | some p =>
    refine h.step rnd he (ApiAct.isValid_of_call ha.fits hcall) (fun hp => ?_) (fun now hp => ?_)
    · rw [hp] at hcall
      exact ha.standing (ApiAct.eq_operate_of_call hcall (Or.inl rfl))
    · rw [hp] at hcall ⊢
      exact ha.waiting now (ApiAct.eq_operate_of_call hcall (Or.inr ⟨now, rfl⟩))

/-- A join puts a token in line, at a configured event. -/
theorem InLine.of_join (rnd : ℚ → ℚ) (he : isValidEventId eventId = true)
    (horder : ∀ e, isValidEventId e = true → ∃ v, Holds e τ v) (hv : Holds eventId τ v)
    (hc : ∃ c, v.config = some c) :
    InLine eventId t ((TextServer rnd).step τ.written (eventId, .join t)).2 := by
  rw [TextServer.step_written]
  obtain ⟨τ', hrun, hτ'⟩ := hv.serve rnd (.join t)
  have hkept : ∀ e, isValidEventId e = true →
      ∃ v, Holds e ((QueueServer rnd).step τ (eventId, .join t)).2 v :=
    fun _ hev => QueueServer.holds_step rnd horder he hev
  rw [show (QueueServer rnd).step τ (eventId, .join t) = _ from hrun] at hkept ⊢
  exact ⟨τ', rfl, hkept, _, hτ', EventState.configured_step rnd eventId hc _,
    (EventState.mem_members_join hc t).mpr (Or.inl rfl)⟩

/-- A join in line leaves the store alone. -/
theorem InLine.step_joins (rnd : ℚ → ℚ) (settings : CookieSettings) (h : InLine eventId t σ)
    {a : ApiAct} (ha : a.joins eventId t = true) : ((QueueApi rnd settings).step σ a).2 = σ := by
  obtain ⟨τ, rfl, -, v, hv, -, ht⟩ := h
  rw [QueueApi.step_snd, of_decide_eq_true ha]
  exact (hv.step_join_eq_iff rnd t).mpr (fun _ _ => ht)

end Again

/-- **Calls that are sent again.** In any store in order, a position call leaves the
store alone, and a join leaves it alone exactly if the event is not configured or
the token is in the queue. So once the join of a token has run at a configured
event, then in every run that keeps the place of the token – whatever else is
done in between – all further joins of it can be left out: everything else is
answered the same, and the store ends up the same. -/
theorem retries_are_harmless (rnd : ℚ → ℚ) (settings : CookieSettings) {τ : Store}
    (hτ : ∀ e, isValidEventId e = true → ∃ v, Holds e τ v) {eventId : String}
    (he : isValidEventId eventId = true) {v : EventState} (hv : Holds eventId τ v) (t : String)
    {first : ApiAct} (hfirst : first.joins eventId t = true) :
    (∀ a : ApiAct, a.call = some (eventId, .position t) →
        ((QueueApi rnd settings).step τ.written a).2 = τ.written)
      ∧ (((QueueApi rnd settings).step τ.written first).2 = τ.written
        ↔ ∀ c, v.config = some c → t ∈ v.queue.members)
      ∧ ∀ c σ acts, v.config = some c → ((QueueApi rnd settings).step τ.written first).2 = σ →
        (∀ x ∈ (QueueApi rnd settings).trace σ acts, x.action.Keeps rnd eventId t x.before) →
          let once := acts.filter (fun a => !a.joins eventId t)
          (QueueApi rnd settings).final σ acts = (QueueApi rnd settings).final σ once
            ∧ (((QueueApi rnd settings).trace σ acts).filter
                (fun x => !x.action.joins eventId t)).map Visit.reply
              = ((QueueApi rnd settings).trace σ once).map Visit.reply := by
  have hstep : ((QueueApi rnd settings).step τ.written first).2
      = ((TextServer rnd).step τ.written (eventId, .join t)).2 := by
    rw [QueueApi.step_snd, of_decide_eq_true hfirst]
    rfl
  refine ⟨fun a ha => ?_, by rw [hstep, hv.step_join_eq_iff rnd t], ?_⟩
  · rw [QueueApi.step_snd, ha]
    show ((TextServer rnd).step τ.written (eventId, .position t)).2 = _
    rw [TextServer.step_snd_position, hv.position_text t]
  · intro c σ acts hc hσ hkeeps
    have hline : InLine eventId t σ := by
      rw [← hσ, hstep]
      exact InLine.of_join rnd he hτ hv ⟨c, hc⟩
    have hrun := @Machine.trace_filter_guarded _ _ _ (QueueApi rnd settings) _
      (fun σ σ' => σ = σ' ∧ InLine eventId t σ) (ApiAct.Keeps rnd eventId t)
      (fun a => !a.joins eventId t) (fun a => !a.joins eventId t) Visit.reply acts
      (fun σ σ' a ha _ h => ?_) (fun σ σ' a ha hdrop h => ?_) σ σ hkeeps ⟨rfl, hline⟩
    · obtain ⟨hreplies, hend, -⟩ := hrun
      refine ⟨hend, hreplies.trans (congrArg _ (List.filter_eq_self.mpr (fun x hx => ?_)))⟩
      exact (List.mem_filter.mp ((QueueApi rnd settings).action_mem_of_mem_trace hx)).2
    · obtain ⟨rfl, hσ⟩ := h
      exact ⟨fun _ => rfl, rfl, hσ.act rnd settings he ha⟩
    · obtain ⟨rfl, hσ⟩ := h
      have hjoins : a.joins eventId t = true := by simpa using hdrop
      have hsame := hσ.step_joins rnd settings hjoins
      exact ⟨hdrop, hsame, hsame.symm ▸ hσ⟩

/-- The store in which one waiter has joined one event. -/
theorem holds_first_waiter (rnd : ℚ → ℚ) (eventId : String) (c : QueueConfig) (t : String) :
    ∃ v, Holds eventId ((QueueServer rnd).final ⟨fun _ => none, 0⟩
        [(eventId, .configure c), (eventId, .join t)]) v
      ∧ v.config = some c ∧ v.queue.members = [t] ∧ ∀ t', v.livePass t' = none := by
  obtain ⟨τ₁, hrun₁, hτ₁⟩ := (holds_empty eventId 0).serve rnd (.configure c)
  obtain ⟨τ₂, hrun₂, hτ₂⟩ := hτ₁.serve rnd (.join t)
  have hend : (QueueServer rnd).final ⟨fun _ => none, 0⟩
      [(eventId, .configure c), (eventId, .join t)] = τ₂ := by
    show ((QueueServer rnd).step ((QueueServer rnd).step _ (eventId, .configure c)).2
      (eventId, .join t)).2 = τ₂
    rw [show (QueueServer rnd).step _ (eventId, .configure c) = _ from hrun₁,
      show (QueueServer rnd).step τ₁ (eventId, .join t) = _ from hrun₂]
  rw [hend]
  exact ⟨_, hτ₂, rfl, rfl, fun _ => rfl⟩

/-- A join that is sent three times, with a tick in between that lets in the waiter in
front. -/
theorem retries_are_harmless_of_three_joins :
    let request : HttpRequest :=
      ⟨"POST", fun _ => some "0123456789abcdef0123456789abcdef", fun _ => none⟩
    let τ := (QueueServer id).final ⟨fun _ => none, 0⟩
      [("e-1", .configure ⟨60, 1, 1⟩), ("e-1", .join "ffffffffffffffffffffffffffffffff")]
    let σ := ((QueueApi id ⟨60, true⟩).step τ.written
      (.attempt "/api/queue/e-1/join" request (.replicate _ 0))).2
    TextAnswer.letIn ((TextServer id).step σ ("e-1", .admitBatch 0)).1
        = ["ffffffffffffffffffffffffffffffff"]
      ∧ (QueueApi id ⟨60, true⟩).final σ [.operate "e-1" (.admitBatch 0),
          .attempt "/api/queue/e-1/join" request (.replicate _ 0),
          .request "/api/queue/e-1/join" request ⟨true⟩ (.replicate _ 0)]
        = (QueueApi id ⟨60, true⟩).final σ [.operate "e-1" (.admitBatch 0)] := by
  intro request τ σ
  have hvalid : isValidEventId "e-1" = true := by decide +kernel
  have hletIn : TextAnswer.letIn ((TextServer id).step σ ("e-1", .admitBatch 0)).1
    = ["ffffffffffffffffffffffffffffffff"] := by decide +kernel
  have hτ : ∀ e, isValidEventId e = true → ∃ v, Holds e τ v := fun e he =>
    QueueServer.holds_step id (fun e he => QueueServer.holds_step id
      (fun e _ => ⟨_, holds_empty e 0⟩) hvalid he) hvalid he
  obtain ⟨v, hv, hc, -⟩ :=
    holds_first_waiter id "e-1" ⟨60, 1, 1⟩ "ffffffffffffffffffffffffffffffff"
  obtain ⟨-, -, hruns⟩ := @retries_are_harmless id ⟨60, true⟩ τ hτ "e-1" hvalid v hv
    "0123456789abcdef0123456789abcdef" (.attempt "/api/queue/e-1/join" request (.replicate _ 0))
    (by decide +kernel)
  have hend := hruns _ σ [.operate "e-1" (.admitBatch 0),
      .attempt "/api/queue/e-1/join" request (.replicate _ 0),
      .request "/api/queue/e-1/join" request ⟨true⟩ (.replicate _ 0)] hc rfl (fun x hx => ?_)
  · have honce : [ApiAct.operate "e-1" (.admitBatch 0),
        .attempt "/api/queue/e-1/join" request (.replicate _ 0),
        .request "/api/queue/e-1/join" request ⟨true⟩ (.replicate _ 0)].filter
          (fun a => !a.joins "e-1" "0123456789abcdef0123456789abcdef")
        = [.operate "e-1" (.admitBatch 0)] := by
      have hattempt : (ApiAct.attempt "/api/queue/e-1/join" request (.replicate _ 0)).joins "e-1"
        "0123456789abcdef0123456789abcdef" = true := by decide +kernel
      have hrequest : (ApiAct.request "/api/queue/e-1/join" request ⟨true⟩ (.replicate _ 0)).joins
        "e-1" "0123456789abcdef0123456789abcdef" = true := by decide +kernel
      rw [List.filter_cons_of_pos rfl, List.filter_cons_of_neg (by simp [hattempt]),
        List.filter_cons_of_neg (by simp [hrequest]), List.filter_nil]
    exact ⟨hletIn, honce ▸ hend.1⟩
  · simp only [Machine.trace_cons, Machine.trace_nil, List.mem_cons, List.not_mem_nil,
      or_false] at hx
    rcases hx with rfl | rfl | rfl
    · refine ⟨hvalid, nofun, fun now h => ?_⟩
      obtain ⟨-, hop⟩ := ApiAct.operate.inj h
      rw [← EventOp.admitBatch.inj hop]
      show _ ∉ TextAnswer.letIn ((TextServer id).step σ ("e-1", .admitBatch 0)).1
      rw [hletIn]
      decide
    · exact ⟨trivial, nofun, nofun⟩
    · exact ⟨trivial, nofun, nofun⟩

/-! ## What a refusal gives away -/

/-- **A malformed token and an unknown one** are answered alike exactly if the
event is configured and the store answers, or the request is refused for its
method or its event before. -/
theorem unknown_tokens_alike_iff (rnd : ℚ → ℚ) (link : Link) {eventId : String} {τ : Store}
    {v : EventState} (h : Holds eventId τ v) {r r' : HttpRequest} (hmethod : r.method = r'.method)
    {t : String} (hr : QueueView.tokenFrom r eventId = none)
    (hr' : QueueView.tokenFrom r' eventId = some t) (hwaits : t ∉ v.queue.members)
    (hpass : v.livePass t = none) :
    (QueueView.position rnd link r eventId τ.written).1
        = (QueueView.position rnd link r' eventId τ.written).1
      ↔ r.method ≠ "GET" ∨ isValidEventId eventId = false
        ∨ link.answered = true ∧ ∃ c, v.config = some c := by
  by_cases hm : r.method ≠ "GET"
  · unfold QueueView.position
    rw [← hmethod, if_pos hm, if_pos hm]
    exact iff_of_true rfl (Or.inl hm)
  · rw [not_not] at hm
    cases hvalid : isValidEventId eventId with
    | false =>
      unfold QueueView.position
      rw [← hmethod, if_neg (not_not.mpr hm), if_neg (not_not.mpr hm), if_pos hvalid,
        if_pos hvalid]
      exact iff_of_true rfl (Or.inr (Or.inl rfl))
    | true =>
      have hmalformed : (QueueView.position rnd link r eventId τ.written).1
          = .ok QueueView.unknownToken := by
        unfold QueueView.position
        rw [if_neg (not_not.mpr hm), if_neg (ne_false_of_eq_true hvalid), hr]
      rw [hmalformed, QueueView.position_of_call rnd link (hmethod ▸ hm) hvalid hr',
        h.call_position]
      cases hlink : link.answered with
      | false =>
        refine iff_of_false (fun he => ?_) (by simp [hm])
        exact absurd (congrArg JsonResponse.status (Except.ok.inj he)) (by decide)
      | true =>
        have hrank := v.queue.rank?_eq_none_iff.mpr hwaits
        cases hc : v.config with
        | none =>
          rw [EventState.position_of_unconfigured hc]
          refine iff_of_false (fun he => ?_) (by simp [hm])
          have hbody := congrArg JsonResponse.body (Except.ok.inj he)
          exact absurd hbody (by simp [QueueView.unknownToken, QueueView.unknownEvent,
            QueueView.refusal])
        | some c =>
          rw [EventState.position_of_stranger hc eventId hrank hpass]
          exact iff_of_true rfl (Or.inr (Or.inr ⟨rfl, c, rfl⟩))

/-- A malformed token and an unknown one, of an event with a waiter, and of one that is
not configured. -/
theorem unknown_tokens_alike_iff_of_configured_and_not :
    let malformed : HttpRequest := ⟨"GET", fun _ => none, fun _ => some "zz"⟩
    let unknown : HttpRequest :=
      ⟨"GET", fun _ => none, fun _ => some "0123456789abcdef0123456789abcdef"⟩
    let τ := (QueueServer id).final ⟨fun _ => none, 0⟩ [("e-1", .configure ⟨60, 1, 1⟩),
      ("e-1", .join "ffffffffffffffffffffffffffffffff")]
    (∃ v, Holds "e-1" τ v ∧ v.queue.members = ["ffffffffffffffffffffffffffffffff"]
        ∧ ((QueueView.position id ⟨true⟩ malformed "e-1" τ.written).1
            = (QueueView.position id ⟨true⟩ unknown "e-1" τ.written).1
          ↔ "GET" ≠ "GET" ∨ isValidEventId "e-1" = false
            ∨ true = true ∧ ∃ c, v.config = some c))
      ∧ ((QueueView.position id ⟨true⟩ malformed "e-1" (Keyspace.written ⟨fun _ => none, 0⟩)).1
          = (QueueView.position id ⟨true⟩ unknown "e-1" (Keyspace.written ⟨fun _ => none, 0⟩)).1
        ↔ "GET" ≠ "GET" ∨ isValidEventId "e-1" = false
          ∨ true = true ∧ ∃ c, (none : Option QueueConfig) = some c) := by
  intro malformed unknown τ
  have hmalformed : QueueView.tokenFrom malformed "e-1" = none := by
    show queueTokenFrom none (some "zz") = none
    decide +kernel
  have hunknown :
      QueueView.tokenFrom unknown "e-1" = some "0123456789abcdef0123456789abcdef" := by
    show queueTokenFrom none (some "0123456789abcdef0123456789abcdef") = _
    decide +kernel
  constructor
  · obtain ⟨v, hv, -, hmembers, hpass⟩ :=
      holds_first_waiter id "e-1" ⟨60, 1, 1⟩ "ffffffffffffffffffffffffffffffff"
    refine ⟨v, hv, hmembers, ?_⟩
    exact unknown_tokens_alike_iff id ⟨true⟩ hv rfl hmalformed hunknown
      (by rw [hmembers]; decide +kernel) (hpass _)
  · exact unknown_tokens_alike_iff id ⟨true⟩ (holds_empty "e-1" 0) rfl hmalformed hunknown
      List.not_mem_nil rfl
