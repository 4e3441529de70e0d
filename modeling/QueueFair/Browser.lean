import QueueFair.Positions
import QueueFair.QueueView

/-!
# A refresh keeps the place

What a waiter sees is a browser that remembers a cookie. The browsers below
talk to the service over a network that delivers requests and responses in any
order, or not at all; admitters and operators work on the store meanwhile, and
other browsers queue for the same event or for another. A response sets its
cookie when it arrives, and a request carries the cookies of the moment it was
sent, so between the two there is a time in which a browser does not know yet
what the service has given it.

Once a browser holds the token of its place, and nothing under way to it or
from it carries another one, that stays so (`Settled.step`): each event has a
cookie of its own. As long as the place lasts, every answer the browser gets for
the event is about this place. A join resumes it under the same sequence, and
the positions it is answered, by either endpoint, never go up in the order in
which its requests are served (`a_refresh_keeps_the_place`).
-/

open Redis

/-! ## A place, in the store of texts -/

/-- An operation on another event leaves a first-in first-out queue alone. -/
theorem Queues.other (rnd : ℚ → ℚ) {e e' : String} (he : isValidEventId e = true)
    (he' : isValidEventId e' = true) (hne : e' ≠ e) {σ : Store} {q : FifoQueue String}
    (h : Queues e σ q) (op : EventOp) : Queues e ((QueueService rnd e').step σ op).2 q := by
  obtain ⟨v, hv, hq⟩ := h
  cases hwait : op.isWait with
  | true =>
    cases op with
    | wait d =>
      obtain ⟨σ', hrun, hσ'⟩ := hv.serve rnd (.wait d)
      rw [show (QueueService rnd e').step σ (.wait d) = _ from hrun]
      exact ⟨_, hσ', hq.queue, hq.seq, hq.admitted, hq.configured⟩
    | _ => exact Bool.noConfusion hwait
  | false => exact ⟨v, hv.congr (QueueServer.agree_step rnd he he' hne hwait σ), hq⟩

/-- Who is let in is let in by a tick, and named by its reply. -/
theorem Visit.mem_letIn_of_mem_admitted {x : Visit Store EventOp (Except Redis.Error Answer)}
    {t : String} (h : t ∈ x.admitted) : (∃ now, x.action = .admitBatch now)
      ∧ t ∈ TextAnswer.letIn (x.reply.map Answer.written) := by
  unfold Visit.admitted at h
  split at h
  · next now b ha hr =>
    rw [hr]
    exact ⟨⟨now, ha⟩, h⟩
  · exact absurd h List.not_mem_nil

/-- **A token waits** in a store in order, with a sequence and a position. -/
structure Waits (eventId t : String) (s : ℤ) (p : ℕ) (σ : TextStore) (τ : Store)
    (q : FifoQueue String) : Prop where
  written : σ = τ.written
  order : ∀ e, isValidEventId e = true → ∃ v, Holds e τ v
  queue : Queues eventId τ q
  ticket : (t, s) ∈ q.line
  position : q.position t = p

/-- A token has its place. -/
def HasPlace (eventId t : String) (s : ℤ) (p : ℕ) (σ : TextStore) : Prop :=
  ∃ τ q, Waits eventId t s p σ τ q

section Place

variable {eventId t : String} {s : ℤ} {p : ℕ} {σ : TextStore} {τ : Store} {q : FifoQueue String}

theorem Waits.mem_waiting (h : Waits eventId t s p σ τ q) : t ∈ q.waiting := by
  rw [← q.map_fst_line]
  exact List.mem_map_of_mem (f := Prod.fst) h.ticket

/-- A ticket that is kept keeps its number. -/
theorem FifoQueue.ticket_of_advance {q q' : FifoQueue String} {xs ys : List String} {t : String}
    {s : ℤ} (hlog : q'.log = q.log ++ xs) (hrel : q'.released = q.released ++ ys)
    (ht : (t, s) ∈ q.line) (hys : t ∉ ys) : (t, s) ∈ q'.line ∧ q'.position t ≤ q.position t := by
  have hmem : t ∈ q.waiting := by
    rw [← q.map_fst_line]
    exact List.mem_map_of_mem (f := Prod.fst) ht
  obtain ⟨hwaits, hpos⟩ := FifoQueue.position_advance hlog hrel hmem hys
  rw [← q'.map_fst_line] at hwaits
  obtain ⟨⟨t', s'⟩, hline, ht'⟩ := List.mem_map.mp hwaits
  replace ht' : t' = t := ht'
  subst ht'
  have hserved : q'.served = q.served + ys.length := by
    rw [← q'.length_released, hrel, List.length_append, q.length_released]
  have hs := q.number_sub_served ht
  have hs' := q'.number_sub_served hline
  obtain rfl : s' = s := by
    rw [hserved] at hs'
    push_cast at hs'
    omega
  exact ⟨hline, by omega⟩

/-- **A place lasts**: whatever is done to the store, short of a reset of its
event or its admission, a token keeps its sequence, and its position does not go
up. -/
theorem HasPlace.step (rnd : ℚ → ℚ) (he : isValidEventId eventId = true)
    (h : HasPlace eventId t s p σ) {a : String × EventOp} (ha : isValidEventId a.1 = true)
    (hreset : a ≠ (eventId, .reset)) (hstay : ∀ now, a = (eventId, .admitBatch now) →
      t ∉ TextAnswer.letIn ((TextServer rnd).step σ a).1) :
    ∃ p' ≤ p, HasPlace eventId t s p' ((TextServer rnd).step σ a).2 := by
  obtain ⟨τ, q, h⟩ := h
  have hstep := TextServer.step_written rnd τ a
  have horder : ∀ e, isValidEventId e = true → ∃ v, Holds e ((QueueServer rnd).step τ a).2 v :=
    fun _ hev => QueueServer.holds_step rnd h.order ha hev
  rw [h.written, hstep] at hstay ⊢
  by_cases hae : a.1 = eventId
  · obtain ⟨e, op⟩ := a
    obtain rfl : e = eventId := hae
    obtain ⟨q', hq', hlog, hrel⟩ := h.queue.step rnd
      (show op ≠ .reset from fun he => hreset (by rw [he]))
    replace hlog := congrArg (List.map Prod.fst) hlog
    rw [List.map_append, FifoQueue.map_fst_number, FifoQueue.map_fst_number] at hlog
    have hout : t ∉ Visit.admitted ⟨τ, op, ((QueueService rnd e).step τ op).1⟩ := by
      intro hmem
      obtain ⟨⟨now, hnow⟩, hin⟩ := Visit.mem_letIn_of_mem_admitted hmem
      exact hstay now (congrArg (Prod.mk e) hnow) hin
    obtain ⟨hline, hle⟩ := FifoQueue.ticket_of_advance hlog hrel h.ticket hout
    exact ⟨q'.position t, h.position ▸ hle, _, q', rfl, horder, hq', hline, rfl⟩
  · exact ⟨p, le_rfl, ((QueueServer rnd).step τ a).2, q, rfl, horder,
      h.queue.other rnd he ha hae a.2, h.ticket, h.position⟩

/-- What a waiting token is answered: by a join its place, by a position call its
position. Neither changes the store. -/
theorem Waits.answers (h : Waits eventId t s p σ τ q) :
    ∃ o w, (TextRepository.join eventId t).run σ = (.ok (.ok (some o)), σ)
      ∧ (TextRepository.position eventId t).run σ = (.ok (.ok (.waiting w)), σ)
      ∧ o.sequence = s ∧ o.joined = false ∧ (∀ rnd, (stateFrom rnd o).position = p)
      ∧ w.position = p := by
  obtain ⟨s', rate, hs', hjoin, hposition⟩ := h.queue.answers h.mem_waiting
  obtain rfl : s' = s := by
    have h₁ := q.number_sub_served hs'
    have h₂ := q.number_sub_served h.ticket
    omega
  refine ⟨⟨s', false, q.waiting.length, q.served, rate⟩,
    ⟨q.position t, q.waiting.length, q.served, rate⟩, ?_, ?_, rfl, rfl, fun rnd => ?_, ?_⟩
  · rw [h.written, show (TextRepository.join eventId t).run τ.written = _ from
      renders_join eventId t τ, hjoin]
    rfl
  · rw [h.written, show (TextRepository.position eventId t).run τ.written = _ from
      renders_position eventId t τ, hposition]
    rfl
  · show positionFrom s' q.served = p
    rw [FifoQueue.positionFrom_of_mem_line hs', h.position]
  · exact congrArg Nat.cast h.position

/-- **A newcomer gets a place**, the last one. -/
theorem HasPlace.of_join (rnd : ℚ → ℚ) (he : isValidEventId eventId = true)
    (horder : ∀ e, isValidEventId e = true → ∃ v, Holds e τ v) (hq : Queues eventId τ q)
    (ht : t ∉ q.waiting) :
    HasPlace eventId t (q.log.length + 1) (q.waiting.length + 1)
      ((TextServer rnd).step τ.written (eventId, .join t)).2 := by
  obtain ⟨τ', rate, hrun, hq'⟩ := hq.join_new ht
  refine ⟨τ', q.join t ht, ?_, ?_, hq', ?_, ?_⟩
  · rw [TextServer.step_snd_join, show (TextRepository.join eventId t).run τ.written = _ from
      renders_join eventId t τ, hrun]
    rfl
  · intro e hev
    have hstep : (QueueServer rnd).step τ (eventId, .join t) = _ := run_bind_ok hrun
    have hkept := QueueServer.holds_step rnd horder (a := (eventId, .join t)) he hev
    rw [hstep] at hkept
    exact hkept
  · rw [q.line_join]
    exact List.mem_append_right _ (List.mem_singleton_self _)
  · rw [q.position_last, q.waiting_join, List.length_append, List.length_singleton]

end Place

/-! ## Browsers -/

/-- A request on its way, and the browser that sent it. -/
structure Sent (β : Type) where
  browser : β
  path : String
  request : HttpRequest

/-- The browsers, the store, and what is under way between them. -/
structure BrowserState (β : Type) where
  store : TextStore
  /-- What each browser remembers. -/
  jar : β → String → Option String
  requests : List (Sent β)
  responses : List (β × ApiReply)

/-- One thing that happens. -/
inductive BrowserAct (β : Type) where
  /-- A browser sends a request, with the cookies it has. -/
  | send (b : β) (path method : String) (query : String → Option String)
  /-- The `n`-th request under way has arrived, and an attempt of its call runs
  whose reply is lost. -/
  | attempt (n : ℕ) (bytes : Vector UInt8 QUEUE_TOKEN_BYTES)
  /-- The `n`-th request under way has arrived, and is served. -/
  | serve (n : ℕ) (link : Link) (bytes : Vector UInt8 QUEUE_TOKEN_BYTES)
  /-- The `n`-th response under way arrives. -/
  | receive (n : ℕ)
  | loseRequest (n : ℕ)
  | loseResponse (n : ℕ)
  /-- A browser forgets a cookie. -/
  | forget (b : β) (key : String)
  /-- An admitter or an operator works on an event, or time passes. -/
  | operate (eventId : String) (op : EventOp)

variable {β : Type} [DecidableEq β]

/-- The jar after a cookie: one that has expired already is not kept, and a
secure one is kept only over TLS. -/
def keepCookie (tls : Bool) (jar : String → Option String) (c : Cookie) :
    String → Option String :=
  if c.secure && !tls then jar
  else Function.update jar c.key (if 0 < c.maxAge then some c.value else none)

/-- The jar after a response. -/
def keepReply (tls : Bool) (jar : String → Option String) : ApiReply → String → Option String
  | .response r => r.cookie.elim jar (keepCookie tls jar)
  | _ => jar

/-- **Browsers that queue**: the service, and the network between. -/
def Browsers (rnd : ℚ → ℚ) (settings : CookieSettings) (tls : Bool) :
    Machine (BrowserState β) (BrowserAct β) (Option ApiReply) :=
  ⟨fun s a =>
    match a with
    | .send b path method query =>
      (none, { s with requests := s.requests ++ [⟨b, path, ⟨method, s.jar b, query⟩⟩] })
    | .attempt n bytes =>
      match s.requests[n]? with
      | some m =>
        (none, { s with store := QueueApi.attempt rnd m.path bytes m.request s.store })
      | none => (none, s)
    | .serve n link bytes =>
      match s.requests[n]? with
      | some m =>
        let served := QueueApi.serve rnd settings m.path link bytes m.request s.store
        (some served.1, { s with
          store := served.2
          requests := s.requests.eraseIdx n
          responses := s.responses ++ [(m.browser, served.1)] })
      | none => (none, s)
    | .receive n =>
      match s.responses[n]? with
      | some m =>
        (none, { s with
          jar := Function.update s.jar m.1 (keepReply tls (s.jar m.1) m.2)
          responses := s.responses.eraseIdx n })
      | none => (none, s)
    | .loseRequest n => (none, { s with requests := s.requests.eraseIdx n })
    | .loseResponse n => (none, { s with responses := s.responses.eraseIdx n })
    | .forget b key =>
      (none, { s with jar := Function.update s.jar b (Function.update (s.jar b) key none) })
    | .operate eventId op =>
      let served := (QueueApi rnd settings).step s.store (.operate eventId op)
      (some served.1, { s with store := served.2 })⟩

namespace Browsers

variable (rnd : ℚ → ℚ) (settings : CookieSettings) (tls : Bool) {s : BrowserState β} {n : ℕ}

/-- An attempt is of a request that is under way. -/
theorem step_attempt {m : Sent β} (h : s.requests[n]? = some m)
    (bytes : Vector UInt8 QUEUE_TOKEN_BYTES) :
    (Browsers rnd settings tls).step s (.attempt n bytes)
      = (none, { s with store := QueueApi.attempt rnd m.path bytes m.request s.store }) := by
  simp only [Browsers, h]

theorem step_attempt_of_none (h : s.requests[n]? = none)
    (bytes : Vector UInt8 QUEUE_TOKEN_BYTES) :
    (Browsers rnd settings tls).step s (.attempt n bytes) = (none, s) := by
  simp only [Browsers, h]

/-- A request arrives that is under way. -/
theorem step_serve {m : Sent β} (h : s.requests[n]? = some m) (link : Link)
    (bytes : Vector UInt8 QUEUE_TOKEN_BYTES) :
    (Browsers rnd settings tls).step s (.serve n link bytes)
      = (some (QueueApi.serve rnd settings m.path link bytes m.request s.store).1,
        { s with
          store := (QueueApi.serve rnd settings m.path link bytes m.request s.store).2
          requests := s.requests.eraseIdx n
          responses := s.responses ++ [(m.browser,
            (QueueApi.serve rnd settings m.path link bytes m.request s.store).1)] }) := by
  simp only [Browsers, h]

theorem step_serve_of_none (h : s.requests[n]? = none) (link : Link)
    (bytes : Vector UInt8 QUEUE_TOKEN_BYTES) :
    (Browsers rnd settings tls).step s (.serve n link bytes) = (none, s) := by
  simp only [Browsers, h]

/-- A response arrives that is under way. -/
theorem step_receive {m : β × ApiReply} (h : s.responses[n]? = some m) :
    (Browsers rnd settings tls).step s (.receive n) = (none, { s with
      jar := Function.update s.jar m.1 (keepReply tls (s.jar m.1) m.2)
      responses := s.responses.eraseIdx n }) := by
  simp only [Browsers, h]

theorem step_receive_of_none (h : s.responses[n]? = none) :
    (Browsers rnd settings tls).step s (.receive n) = (none, s) := by
  simp only [Browsers, h]

end Browsers

/-! ## What a browser is told -/

/-- The position a response shows. -/
def JsonResponse.shown (r : JsonResponse) : Option ℤ :=
  match r.body with
  | .obj members =>
    match members.lookup "position" with
    | some (.num n) => some n
    | _ => none
  | _ => none

/-- The visits of the browsers. -/
abbrev BrowserVisit (β : Type) : Type :=
  Visit (BrowserState β) (BrowserAct β) (Option ApiReply)

/-- The response to a browser's request about an event. -/
def BrowserVisit.answered (b : β) (eventId : String) (x : BrowserVisit β) :
    Option JsonResponse :=
  match x.action, x.reply with
  | .serve n _ _, some (.response r) =>
    (x.before.requests[n]?).bind (fun m =>
      if m.browser = b ∧ (urlpatterns m.path).bind Route.event = some eventId then some r else none)
  | _, _ => none

/-- **A response about a place**: to a join, that it is held; to a position call,
that it waits. -/
def AboutPlace (rnd : ℚ → ℚ) (settings : CookieSettings) (eventId t : String) (s : ℤ)
    (r : JsonResponse) : Prop :=
  (∃ o, r = QueueView.placed rnd settings eventId t o ∧ o.sequence = s ∧ o.joined = false)
    ∨ ∃ w, r = QueueView.standing rnd (.waiting w)

theorem shown_placed (rnd : ℚ → ℚ) (settings : CookieSettings) (eventId t : String)
    (o : JoinOutcome) :
    (QueueView.placed rnd settings eventId t o).shown = some (stateFrom rnd o).position := rfl

theorem shown_standing (rnd : ℚ → ℚ) (w : PositionOutcome) :
    (QueueView.standing rnd (.waiting w)).shown = some w.position := rfl

section Cookies

variable {t : String}

/-- The cookie of a request is its token. -/
theorem queueTokenFrom_of_cookie (ht : isValidQueueToken t = true) (query : Option String) :
    queueTokenFrom (some t) query = some t := by
  have hne : t ≠ "" := by
    rintro rfl
    exact Bool.noConfusion ht
  unfold queueTokenFrom
  rw [List.findSome?_cons, Option.filter_some]
  simp [hne, ht]

theorem joinToken_of_cookie (ht : isValidQueueToken t = true) (query : Option String)
    (bytes : Vector UInt8 QUEUE_TOKEN_BYTES) : joinToken (some t) query bytes = t := by
  unfold joinToken
  rw [queueTokenFrom_of_cookie ht]
  rfl

end Cookies

section Served

variable {rnd : ℚ → ℚ} {settings : CookieSettings} {link : Link}
  {bytes : Vector UInt8 QUEUE_TOKEN_BYTES} {r : HttpRequest} {σ : TextStore} {path : String}

/-- A refusal sets no cookie, -/
theorem Route.cookie_refused (link : Link) (r : HttpRequest) (route : Route) :
    (route.refused link r).cookie = none := by
  cases route with
  | healthz =>
    simp only [Route.refused, QueueView.healthz]
    split <;> rfl
  | join e =>
    simp only [Route.refused]
    split <;> rfl
  | position e =>
    simp only [Route.refused]
    split
    · rfl
    · split <;> rfl

/-- nor does the response to a position call; -/
theorem QueueView.cookie_positionResponse
    {called : Except RedisError (Except QueueError TextStanding)} {response : JsonResponse}
    (h : positionResponse rnd called = .ok response) :
    response.cookie = none := by
  unfold positionResponse at h
  split at h
  · exact Except.ok.inj h ▸ rfl
  · exact Except.ok.inj h ▸ rfl
  · exact Except.ok.inj h ▸ rfl
  · exact absurd h (by simp)
  · next outcome =>
    rw [← Except.ok.inj h]
    cases outcome <;> rfl

/-- a join sets the one of its event, for the token it joined with. -/
theorem QueueView.cookie_joinResponse {e t : String}
    {called : Except RedisError (Except QueueError (Option JoinOutcome))} {response : JsonResponse}
    (h : joinResponse rnd settings e t called = .ok response) :
    response.cookie = none ∨ response.cookie = some (queueTokenCookie settings e t) := by
  unfold joinResponse at h
  split at h
  · exact Or.inl (Except.ok.inj h ▸ rfl)
  · exact absurd h (by simp)
  · exact Or.inl (Except.ok.inj h ▸ rfl)
  · exact Or.inr (Except.ok.inj h ▸ rfl)

/-- **Only a join sets a cookie.** -/
theorem Route.cookie_of_view {route : Route} {response : JsonResponse} {c : Cookie}
    (h : (route.view rnd settings link bytes r σ).1 = .ok response)
    (hc : response.cookie = some c) : ∃ e, route = .join e
      ∧ c = QueueView.queueTokenCookie settings e (QueueView.tokenToJoin r e bytes) := by
  have hsome : response.cookie ≠ none := by simp [hc]
  cases hcall : route.call r bytes with
  | none =>
    rw [route.view_of_no_call rnd settings link σ hcall] at h
    rw [← Except.ok.inj h] at hsome
    exact absurd (route.cookie_refused link r) hsome
  | some p =>
    cases route with
    | healthz => exact absurd hcall.symm (Option.some_ne_none p)
    | join e =>
      obtain ⟨hmethod, hvalid, rfl⟩ := Route.call_join_eq_some.mp hcall
      replace h : (QueueView.join rnd settings link bytes r e σ).1 = .ok response := h
      rw [QueueView.join_of_call rnd settings link hmethod hvalid] at h
      have hcookie := (QueueView.cookie_joinResponse h).resolve_left hsome
      exact ⟨e, rfl, Option.some.inj (hc.symm.trans hcookie)⟩
    | position e =>
      obtain ⟨hmethod, hvalid, t, ht, rfl⟩ := Route.call_position_eq_some.mp hcall
      replace h : (QueueView.position rnd link r e σ).1 = .ok response := h
      rw [QueueView.position_of_call rnd link hmethod hvalid ht] at h
      exact absurd (QueueView.cookie_positionResponse h) hsome

theorem QueueApi.cookie_of_serve {response : JsonResponse} {c : Cookie}
    (h : (QueueApi.serve rnd settings path link bytes r σ).1 = .response response)
    (hc : response.cookie = some c) : ∃ e,
      c = QueueView.queueTokenCookie settings e (QueueView.tokenToJoin r e bytes) := by
  unfold QueueApi.serve at h
  cases hroute : urlpatterns path with
  | none =>
    rw [hroute] at h
    exact nomatch h
  | some route =>
    rw [hroute] at h
    dsimp only at h
    cases hview : (route.view rnd settings link bytes r σ).1 with
    | error e =>
      rw [hview] at h
      exact nomatch h
    | ok response' =>
      rw [hview] at h
      obtain rfl := ApiReply.response.inj h
      obtain ⟨e, -, hcookie⟩ := Route.cookie_of_view hview hc
      exact ⟨e, hcookie⟩

/-- **What a request about a place is answered** while the place lasts, and that it
leaves the store alone. -/
theorem HasPlace.serve {e t : String} {s : ℤ} {p : ℕ} (h : HasPlace e t s p σ)
    (ht : isValidQueueToken t = true) (hcookie : r.cookies ("qf_" ++ e) = some t)
    (hroute : (urlpatterns path).bind Route.event = some e) :
    ∃ response, QueueApi.serve rnd settings path link bytes r σ = (.response response, σ)
      ∧ (response.status = 200 → AboutPlace rnd settings e t s response)
      ∧ (response.shown = none ∨ response.shown = some (p : ℤ)) := by
  obtain ⟨τ, q, h⟩ := h
  obtain ⟨route, hpath, hevent⟩ := Option.bind_eq_some_iff.mp hroute
  obtain ⟨o, w, hjoin, hposition, hseq, hjoined, hp, hw⟩ := h.answers
  suffices hview : ∃ response, route.view rnd settings link bytes r σ = (.ok response, σ)
      ∧ (response.status = 200 → AboutPlace rnd settings e t s response)
      ∧ (response.shown = none ∨ response.shown = some (p : ℤ)) by
    obtain ⟨response, hview, habout⟩ := hview
    refine ⟨response, ?_, habout⟩
    unfold QueueApi.serve
    rw [hpath]
    dsimp only
    rw [hview]
    rfl
  cases hcall : route.call r bytes with
  | none =>
    rw [route.view_of_no_call rnd settings link σ hcall]
    refine ⟨_, rfl, ?_⟩
    cases route with
    | healthz => exact nomatch hevent
    | join e' =>
      simp only [Route.refused]
      split <;> exact ⟨fun h => absurd h (by decide), Or.inl rfl⟩
    | position e' =>
      simp only [Route.refused]
      split
      · exact ⟨fun h => absurd h (by decide), Or.inl rfl⟩
      · split <;> exact ⟨fun h => absurd h (by decide), Or.inl rfl⟩
  | some a =>
    cases route with
    | healthz => exact nomatch hevent
    | join e' =>
      obtain rfl : e' = e := Option.some.inj hevent
      obtain ⟨hmethod, hvalid, -⟩ := Route.call_join_eq_some.mp hcall
      have htoken : QueueView.tokenToJoin r e' bytes = t := by
        unfold QueueView.tokenToJoin
        rw [hcookie, joinToken_of_cookie ht]
      show ∃ response, QueueView.join rnd settings link bytes r e' σ = _ ∧ _
      rw [QueueView.join_of_call rnd settings link hmethod hvalid, htoken,
        link.call_of_still hjoin]
      cases link.answered with
      | false => exact ⟨_, rfl, fun h => absurd h (by decide), Or.inl rfl⟩
      | true =>
        refine ⟨_, rfl, fun _ => Or.inl ⟨o, rfl, hseq, hjoined⟩, Or.inr ?_⟩
        rw [shown_placed, hp]
    | position e' =>
      obtain rfl : e' = e := Option.some.inj hevent
      obtain ⟨hmethod, hvalid, -⟩ := Route.call_position_eq_some.mp hcall
      have htoken : QueueView.tokenFrom r e' = some t := by
        unfold QueueView.tokenFrom
        rw [hcookie, queueTokenFrom_of_cookie ht]
      show ∃ response, QueueView.position rnd link r e' σ = _ ∧ _
      rw [QueueView.position_of_call rnd link hmethod hvalid htoken,
        link.call_of_still hposition]
      cases link.answered with
      | false => exact ⟨_, rfl, fun h => absurd h (by decide), Or.inl rfl⟩
      | true =>
        refine ⟨_, rfl, fun _ => Or.inr ⟨w, rfl⟩, Or.inr ?_⟩
        rw [shown_standing, hw]

end Served

/-! ## A browser that knows its token -/

/-- A cookie a browser keeps. -/
def Cookie.Kept (tls : Bool) (c : Cookie) : Prop :=
  0 < c.maxAge ∧ (c.secure = true → tls = true)

/-- **A browser knows its token**: it remembers it, and nothing under way carries
another one. -/
structure Settled (tls : Bool) (b : β) (eventId t : String) (s : BrowserState β) : Prop where
  jar : s.jar b ("qf_" ++ eventId) = some t
  requests : ∀ m ∈ s.requests, m.browser = b → m.request.cookies ("qf_" ++ eventId) = some t
  responses : ∀ m ∈ s.responses, m.1 = b → ∀ r c, m.2 = .response r → r.cookie = some c →
    c.key = "qf_" ++ eventId → c.value = t ∧ c.Kept tls

variable {b : β} {eventId t : String} {s : BrowserState β}

omit [DecidableEq β] in
/-- A response that arrives leaves the token alone. -/
theorem Settled.kept {tls : Bool} {m : β × ApiReply} (h : Settled tls m.1 eventId t s)
    (hm : m ∈ s.responses) : keepReply tls (s.jar m.1) m.2 ("qf_" ++ eventId) = some t := by
  obtain ⟨b, reply⟩ := m
  cases reply with
  | response r =>
    show r.cookie.elim (s.jar b) (keepCookie tls (s.jar b)) _ = some t
    cases hc : r.cookie with
    | none => exact h.jar
    | some c =>
      show keepCookie tls (s.jar b) c _ = some t
      unfold keepCookie
      split
      · exact h.jar
      · by_cases hkey : c.key = "qf_" ++ eventId
        · obtain ⟨rfl, hage, -⟩ := h.responses _ hm rfl r c rfl hc hkey
          rw [← hkey, Function.update_self, if_pos hage]
        · rw [Function.update_of_ne (Ne.symm hkey)]
          exact h.jar
  | _ => exact h.jar

/-- **What happens leaves the token alone**, unless the browser forgets it. -/
theorem Settled.step (rnd : ℚ → ℚ) {settings : CookieSettings} {tls : Bool}
    (hage : 0 < settings.maxAgeSeconds) (htls : settings.secure = true → tls = true)
    (ht : isValidQueueToken t = true) (h : Settled tls b eventId t s) {a : BrowserAct β}
    (ha : a ≠ .forget b ("qf_" ++ eventId)) :
    Settled tls b eventId t ((Browsers rnd settings tls).step s a).2 := by
  cases a with
  | send b' path method query =>
    refine ⟨h.jar, fun m hm hb => ?_, h.responses⟩
    rcases List.mem_append.mp hm with hm | hm
    · exact h.requests m hm hb
    · obtain rfl := List.mem_singleton.mp hm
      obtain rfl : b' = b := hb
      exact h.jar
  | loseRequest n =>
    exact ⟨h.jar, fun m hm => h.requests m (List.mem_of_mem_eraseIdx hm), h.responses⟩
  | loseResponse n =>
    exact ⟨h.jar, h.requests, fun m hm => h.responses m (List.mem_of_mem_eraseIdx hm)⟩
  | forget b' key =>
    refine ⟨?_, h.requests, h.responses⟩
    show Function.update s.jar b' _ b _ = some t
    by_cases hb : b = b'
    · subst hb
      rw [Function.update_self, Function.update_of_ne (fun he => ha (by rw [he]))]
      exact h.jar
    · rw [Function.update_of_ne hb]
      exact h.jar
  | operate e op => exact ⟨h.jar, h.requests, h.responses⟩
  | attempt n bytes =>
    cases hm : s.requests[n]? with
    | none =>
      rw [Browsers.step_attempt_of_none rnd settings tls hm]
      exact h
    | some m =>
      rw [Browsers.step_attempt rnd settings tls hm]
      exact ⟨h.jar, h.requests, h.responses⟩
  | serve n link bytes =>
    cases hm : s.requests[n]? with
    | none =>
      rw [Browsers.step_serve_of_none rnd settings tls hm]
      exact h
    | some m =>
      rw [Browsers.step_serve rnd settings tls hm]
      refine ⟨h.jar, fun m' hm' => h.requests m' (List.mem_of_mem_eraseIdx hm'), ?_⟩
      intro m' hm' hb r c hr hc hkey
      rcases List.mem_append.mp hm' with hm' | hm'
      · exact h.responses m' hm' hb r c hr hc hkey
      · -- the cookie is the one of the event, for the token the request carried
        obtain rfl := List.mem_singleton.mp hm'
        obtain ⟨e, rfl⟩ := QueueApi.cookie_of_serve hr hc
        obtain rfl : e = eventId := String.append_right_inj _ |>.mp hkey
        have hcookie := h.requests m (List.mem_of_getElem? hm) hb
        refine ⟨?_, hage, htls⟩
        show QueueView.tokenToJoin m.request e bytes = t
        unfold QueueView.tokenToJoin
        rw [hcookie, joinToken_of_cookie ht]
  | receive n =>
    cases hm : s.responses[n]? with
    | none =>
      rw [Browsers.step_receive_of_none rnd settings tls hm]
      exact h
    | some m =>
      rw [Browsers.step_receive rnd settings tls hm]
      refine ⟨?_, h.requests, fun m' hm' => h.responses m' (List.mem_of_mem_eraseIdx hm')⟩
      show Function.update s.jar m.1 _ b _ = some t
      by_cases hb : b = m.1
      · subst hb
        rw [Function.update_self]
        exact h.kept (List.mem_of_getElem? hm)
      · rw [Function.update_of_ne hb]
        exact h.jar

/-! ## A refresh keeps the place -/
