import QueueFair.Waiting

/-!
# What a booking request is answered

A `POST` to the protected endpoint is refused at once, with a 401 or a 403, or it
begins a call of `book_ticket`, and is answered when the call ends. What it is answered
says something: about the token, the event, or the booking of the bearer. The one
answer that says nothing is a server error, and `booking_requests_are_answered` is that
there are two reasons for one: the token sends PyJWT into an exception that the verifier
does not catch, or the connection to the database is lost. Whatever else the view does
not catch is not raised.

A ticket that is shown is the ticket of the bearer. A booking found by the token was made
with the same `jti`, and as no `jti` is drawn twice, with the same pass
(`IssuedIn.eq_of_jti`).
-/

open Redis Database

/-! ## How a call ends -/

section Ends

variable {ι : Type} {i : ι} {c : AdmissionClaims} {db db' : BookingDb ι} {p q : CallPoint}

/-- A call that ends with a step ends there, and had not ended before. -/
theorem CallPoint.eq_of_ending {o : Outcome} (h : p.ending q = some o) :
    q = .done o ∧ ∀ o', p ≠ .done o' := by
  cases p with
  | done o' => exact absurd h (by simp [ending])
  | _ =>
    cases q with
    | done o' => exact ⟨congrArg CallPoint.done (Option.some.inj h), fun o' he => nomatch he⟩
    | _ => exact absurd h (by simp [ending])

variable [DecidableEq ι]

/-- **A call creates a booking by its commit**: its own, which was not there. -/
theorem CallPoint.Moves.created {b : Booking} (h : Moves i c db p q db')
    (hq : q = .done (.returned ⟨b, true⟩)) (hs : p.Sound i c db) (hp : ∀ o, p ≠ .done o)
    (hlaw : db'.Lawful Event.NotOversold Booking.Clashes) (hfits : c.Fits) :
    b = c.booking ∧ b ∉ db.records := by
  cases h with
  | nothing => exact absurd hq (hp _)
  | issues h =>
    cases h with
    | ended => exact absurd hq (hp _)
    | committed =>
      obtain ⟨rfl, -⟩ := BookingResult.mk.inj (Outcome.returned.inj (CallPoint.done.inj hq))
      obtain ⟨-, b', hb', hi⟩ := hs
      obtain rfl := Option.some.inj (hfits.stored.symm.trans hb')
      refine ⟨rfl, fun hmem => ?_⟩
      have hpair := hlaw.records_pairwise
      replace hpair : (db.records ++ db.insertsOf i).Pairwise (fun a b => ¬ a.Clashes b) := hpair
      rw [hi, List.pairwise_append] at hpair
      exact hpair.2.2 _ hmem _ (List.mem_singleton_self _) (Or.inl rfl)
    | @rolledBack error => cases error <;> exact absurd hq (by simp [afterRollback])
    | _ => exact absurd hq (by simp)
  | _ => exact absurd hq (by simp)

/-- **A statement never loses the connection.** -/
theorem CallPoint.Issues.ne_aborted (h : Issues i c db p q db') (hp : ∀ o, p ≠ .done o)
    (hjust : p.Justified c db) : q ≠ .done (.raised .aborted) := by
  intro hq
  cases h with
  | ended => exact hp _ hq
  | @rolledBack error =>
    cases error with
    | aborted => exact hjust
    | _ => exact absurd hq (by simp [afterRollback])
  | _ => exact absurd hq (by simp)

end Ends

/-! ## Passes by their ids -/

/-- The `uuid4` a step draws. -/
def ServiceAct.jti? {ι κ : Type} : ServiceAct ι κ → Option String
  | .queue _ (.issue _ jti) => some jti
  | _ => none

variable {ι κ : Type} [DecidableEq ι] [DecidableEq κ] {K : AdmissionController} {jwt : PyJwt}
  {xs : List (ServiceVisit ι κ)}

section Ids

omit [DecidableEq ι] [DecidableEq κ]

/-- A visit signs a pass with the id it draws, if it signs one. -/
theorem ServiceVisit.map_jti_signs (K : AdmissionController) (x : ServiceVisit ι κ) :
    ((ServiceVisit.signs K x).map (fun z => z.2.jti)).Sublist x.action.jti?.toList := by
  obtain ⟨s, a, r⟩ := x
  cases a with
  | queue e act =>
    cases act with
    | issue i jti =>
      by_cases hvalid : (isValidEventId e && (AdmitterAct.issue i jti).valid) = true
      · rw [show ServiceVisit.signs K ⟨s, .queue e (.issue i jti), r⟩
          = (AdmitterAct.issue i jti).signs K e (s.attempt e) from if_pos hvalid]
        show (((s.attempt e i).unsigned.take 1).map _ |>.map _).Sublist [jti]
        rw [List.map_map]
        cases (s.attempt e i).unsigned with
        | nil => exact List.nil_sublist _
        | cons z zs => exact List.Sublist.refl _
      · rw [show ServiceVisit.signs K ⟨s, .queue e (.issue i jti), r⟩ = [] from if_neg hvalid]
        exact List.nil_sublist _
    | _ =>
      unfold ServiceVisit.signs
      dsimp only
      split <;> exact List.nil_sublist _
  | _ => exact List.nil_sublist _

/-- So does a history. -/
theorem map_jti_signs_sublist (K : AdmissionController) (xs : List (ServiceVisit ι κ)) :
    ((xs.flatMap (ServiceVisit.signs K)).map (fun z => z.2.jti)).Sublist
      (xs.filterMap (fun x => x.action.jti?)) := by
  induction xs with
  | nil => exact List.Sublist.refl _
  | cons x xs ih =>
    rw [List.flatMap_cons, List.map_append]
    have hsplit : (x :: xs).filterMap (fun x => x.action.jti?)
        = x.action.jti?.toList ++ xs.filterMap (fun x => x.action.jti?) := by
      cases hx : x.action.jti? with
      | none => exact List.filterMap_cons_none hx
      | some j => exact List.filterMap_cons_some hx
    rw [hsplit]
    exact (ServiceVisit.map_jti_signs K x).append ih

/-- **A pass is known by its id**, where no id is drawn twice. -/
theorem IssuedIn.eq_of_jti (hfresh : (xs.filterMap (fun x => x.action.jti?)).Nodup)
    {z z' : Placement × PassClaims} (hz : IssuedIn K xs z) (hz' : IssuedIn K xs z')
    (h : z.2.jti = z'.2.jti) : z = z' := by
  have hmem {z : Placement × PassClaims} (hz : IssuedIn K xs z) :
      z ∈ xs.flatMap (ServiceVisit.signs K) := by
    obtain ⟨pre, y, post, rfl, hy, -⟩ := hz
    exact List.mem_flatMap.mpr ⟨y, List.mem_append_right _ List.mem_cons_self, hy⟩
  exact List.inj_on_of_nodup_map ((map_jti_signs_sublist K xs).nodup hfresh) (hmem hz) (hmem hz') h

/-- So are the claims that a call was let through with. -/
theorem Passed.eq_of_jti (hfresh : (xs.filterMap (fun x => x.action.jti?)).Nodup)
    {c c' : AdmissionClaims} (hc : Passed K jwt xs c) (hc' : Passed K jwt xs c')
    (h : c.jti = c'.jti) : c = c' := by
  obtain ⟨pre, x, post, z, rfl, -, hz, rfl⟩ := hc
  obtain ⟨pre', x', post', z', hxs, -, hz', rfl⟩ := hc'
  have hz'' := hz'.append (x' :: post')
  rw [← hxs] at hz''
  rw [(hz.append (x :: post)).eq_of_jti hfresh hz'' h]

end Ids

/-! ## Answers -/

/-- **A request that is not let through** is refused for its token, or for the event of
it. -/
theorem BookingView.refused {secret path header : String} {now : ℚ}
    (bookTicket : AdmissionClaims → Outcome) {eventId : String}
    (hroute : bookRoute path = some eventId) (h : admitted jwt secret path header now = none) :
    (∃ e, authenticate jwt secret header now = .error e
        ∧ request jwt secret bookTicket path header now = some e.response)
      ∨ ∃ c, authenticate jwt secret header now = .ok c ∧ c.eventId ≠ eventId
        ∧ request jwt secret bookTicket path header now
          = some ⟨403, .detail "admission token is for a different event"⟩ := by
  unfold admitted at h
  unfold request post
  rw [hroute, Option.bind_some] at h
  rw [hroute]
  cases hauth : authenticate jwt secret header now with
  | error e => exact Or.inl ⟨e, rfl, rfl⟩
  | ok c =>
    rw [hauth] at h
    by_cases he : c.eventId ≠ eventId
    · exact Or.inr ⟨c, rfl, he, congrArg some (if_pos he)⟩
    · replace h : (if c.eventId ≠ eventId then none else some c) = none := h
      rw [if_neg he] at h
      exact absurd h (by simp)

/-- What the authentication does not catch is what the verifier did not catch. -/
theorem decode_of_uncaught {secret header exception : String} {now : ℚ}
    (h : authenticate jwt secret header now = .error (.uncaught exception)) :
    ∃ token, bearerToken header = .ok token
      ∧ jwt.decode token secret ["HS256"] ["exp", "iat", "sub"] now
        = .error (.other exception) := by
  unfold authenticate at h
  cases htoken : bearerToken header with
  | error detail =>
    rw [htoken] at h
    exact nomatch h
  | ok token =>
    refine ⟨token, rfl, ?_⟩
    rw [htoken] at h
    simp only [Except.mapError, bind, Except.bind, verifyAdmissionToken] at h
    cases hdecode : jwt.decode token secret ["HS256"] ["exp", "iat", "sub"] now with
    | ok payload =>
      rw [hdecode] at h
      dsimp only at h
      cases hclaims : payload.claims <;> rw [hclaims] at h <;> exact nomatch h
    | error e =>
      rw [hdecode] at h
      cases e with
      | other exception' =>
        rw [AuthenticationError.uncaught.inj (Except.error.inj h)]
      | _ => exact nomatch h

namespace ServiceVisit

/-- **What a visit answers**: a request that is not let through is refused at once, and
a call is answered when it ends. -/
def response (K : AdmissionController) (jwt : PyJwt) (x : ServiceVisit ι κ) : Option Response :=
  match x.action with
  | .queue _ _ => none
  | .request _ path header now =>
    if (BookingView.admitted jwt K.issuer.secret path header now).isSome then none
    else BookingView.request jwt K.issuer.secret (fun _ => .raised .aborted) path header now
  | .call act =>
    (x.before.claims act.caller).bind (fun _ =>
      ((BookingService x.before.claimsOf).step x.before.booking act).1.map Outcome.response)

/-- **What an answer says**, of a visit after the history `xs` and the tables `db` it
leaves. -/
inductive Answers (K : AdmissionController) (jwt : PyJwt) (xs : List (ServiceVisit ι κ))
    (x : ServiceVisit ι κ) (db : BookingDb κ) : Response → Prop where
  /-- The token does not verify. -/
  | unauthorized {k path header now eventId detail} (hact : x.action = .request k path header now)
    (hroute : bookRoute path = some eventId)
    (hauth : authenticate jwt K.issuer.secret header now = .error (.failed detail)) :
    Answers K jwt xs x db ⟨401, .detail detail⟩
  /-- PyJWT raises what the verifier does not catch. -/
  | crashed {k path header now eventId token exception}
    (hact : x.action = .request k path header now) (hroute : bookRoute path = some eventId)
    (htoken : bearerToken header = .ok token)
    (hdecode : jwt.decode token K.issuer.secret ["HS256"] ["exp", "iat", "sub"] now
      = .error (.other exception)) :
    Answers K jwt xs x db ⟨500, .detail "Server Error (500)"⟩
  /-- It does, for another event. -/
  | forbidden {k path header now eventId c} (hact : x.action = .request k path header now)
    (hroute : bookRoute path = some eventId)
    (hauth : authenticate jwt K.issuer.secret header now = .ok c) (hevent : c.eventId ≠ eventId) :
    Answers K jwt xs x db ⟨403, .detail "admission token is for a different event"⟩
  /-- The bearer of a pass has a ticket, and this is it; it is new if it says so. -/
  | ticket {act c b created} (hact : x.action = .call act)
    (hclaims : x.before.claims act.caller = some c) (hpassed : Passed K jwt xs c)
    (hb : b ∈ db.records) (howned : b.eventId = c.eventId ∧ b.userId = c.userId)
    (hcreated : created = true → b = c.booking ∧ b ∉ x.before.booking.db.records) :
    Answers K jwt xs x db ⟨if created then 201 else 200, .ticket b⟩
  /-- The event of the pass is not there. -/
  | missing {act c} (hact : x.action = .call act)
    (hclaims : x.before.claims act.caller = some c) (hpassed : Passed K jwt xs c)
    (hrow : db.rows c.eventId = none) : Answers K jwt xs x db ⟨404, .detail "no such event"⟩
  /-- The event of the pass has no ticket left. -/
  | soldOut {act c} (hact : x.action = .call act)
    (hclaims : x.before.claims act.caller = some c) (hpassed : Passed K jwt xs c)
    (hfull : db.Full c.eventId) : Answers K jwt xs x db ⟨409, .detail "event is sold out"⟩
  /-- The connection to the database was lost. -/
  | lost {act} (hact : x.action = .call act) (hlost : ∀ k, act ≠ .advance k) :
    Answers K jwt xs x db ⟨500, .detail "Server Error (500)"⟩

end ServiceVisit

open ServiceVisit

section Requests

variable {k : κ} {path header : String} {now : ℚ} {s : ServiceState ι κ}
  {reply : Option (Except Redis.Error Answer)}

omit [DecidableEq ι] in
/-- A request that is not let through is answered by the view alone. -/
theorem ServiceVisit.response_of_refused
    (h : BookingView.admitted jwt K.issuer.secret path header now = none) :
    response K jwt ⟨s, .request k path header now, reply⟩
      = BookingView.request jwt K.issuer.secret (fun _ => .raised .aborted) path header now := by
  simp only [response, h, Option.isSome_none, Bool.false_eq_true, if_false]

omit [DecidableEq ι] in
/-- **A request that is answered at once.** -/
theorem ServiceVisit.answers_of_request {r : Response} {db : BookingDb κ}
    (hr : response K jwt ⟨s, .request k path header now, reply⟩ = some r) :
    Answers K jwt xs ⟨s, .request k path header now, reply⟩ db r := by
  cases hlet : BookingView.admitted jwt K.issuer.secret path header now with
  | some c => exact absurd hr (by simp [response, hlet])
  | none =>
    rw [response_of_refused hlet] at hr
    cases hroute : bookRoute path with
    | none => exact absurd hr (by simp [BookingView.request, hroute])
    | some eventId =>
      obtain ⟨e, hauth, hrequest⟩ | ⟨c, hauth, hne, hrequest⟩ :=
        BookingView.refused (fun _ => .raised .aborted) hroute hlet
      · rw [← Option.some.inj (hrequest.symm.trans hr)]
        cases e with
        | failed detail => exact .unauthorized rfl hroute hauth
        | uncaught exception =>
          obtain ⟨token, htoken, hdecode⟩ := decode_of_uncaught hauth
          exact .crashed rfl hroute htoken hdecode
      · rw [← Option.some.inj (hrequest.symm.trans hr)]
        exact .forbidden rfl hroute hauth hne

end Requests

omit [DecidableEq ι] in
/-- **A call that ends** with an outcome. -/
theorem Chained.answers {s s' : ServiceState ι κ} {x : ServiceVisit ι κ}
    (h : Chained K jwt xs s) (h' : Chained K jwt (xs ++ [x]) s')
    (hfresh : ((xs ++ [x]).filterMap (fun x => x.action.jti?)).Nodup) {act : BookingAct κ}
    (hbefore : x.before = s) (hact : x.action = .call act)
    (hafter : s'.booking = ((BookingService s.claimsOf).step s.booking act).2)
    {c : AdmissionClaims} (hclaims : s.claims act.caller = some c) {o : Outcome}
    (hend : ((BookingService s.claimsOf).step s.booking act).1 = some o) :
    Answers K jwt xs x s'.booking.db o.response := by
  subst hbefore
  obtain ⟨hpassed, hfits⟩ := h.calls _ c hclaims
  have hof : x.before.claimsOf act.caller = c := by
    unfold ServiceState.claimsOf
    rw [hclaims]
    rfl
  have hinv := h.booking.step act
  obtain ⟨hdone, hopen⟩ := CallPoint.eq_of_ending hend
  have hjust := hinv.justified act.caller
  rw [BookingService.step_call_self, hdone, hof, ← hafter] at hjust
  cases o with
  | returned result =>
    obtain ⟨b, created⟩ := result
    obtain ⟨hb, hfor⟩ := hjust hfits
    refine .ticket hact hclaims hpassed hb ?_ (fun htrue => ?_)
    · rcases hfor with hjti | hown
      · -- no other pass has the same `jti`
        obtain ⟨c', hpassed', rfl⟩ := h'.records b hb
        obtain rfl := hpassed'.eq_of_jti hfresh (hpassed.append [x]) hjti
        exact ⟨rfl, rfl⟩
      · exact hown
    · subst htrue
      have hcreated := (act.next_moves x.before.claimsOf x.before.booking).created hdone
        (h.booking.sound _) hopen hinv.lawful (hof ▸ hfits)
      rwa [hof] at hcreated
  | raised error =>
    cases error with
    | eventNotFound eventId =>
      obtain ⟨rfl, hrow⟩ := hjust
      exact .missing hact hclaims hpassed hrow
    | soldOut eventId =>
      obtain ⟨rfl, hfull⟩ := hjust
      exact .soldOut hact hclaims hpassed hfull
    | integrityError => exact absurd hfits hjust
    | dataError => exact absurd hfits hjust
    | aborted =>
      refine .lost hact (fun k hk => ?_)
      subst hk
      exact (CallPoint.advance_issues k _ _ _).ne_aborted hopen (h.booking.justified k) hdone

/-- **What a booking request is answered.** Whatever the clients, the admitters and the
booking calls do, in whatever order, from empty queues and no bookings: every `POST` to
the endpoint is refused or begins a call, and every answer says what there is – that the
token does not verify, that it is for another event, the ticket of the bearer, that the
event is not there, or that it has no ticket left. A server error is answered only where
PyJWT raised what the verifier does not catch, or the connection to the database was
lost. -/
theorem booking_requests_are_answered (rnd : ℚ → ℚ) (K : AdmissionController) {jwt : PyJwt}
    {signed : Payload → String → Prop} (hjwt : jwt.Checks K.issuer.secret signed) {σ₀ : Store}
    (hstore : QueuesEmpty σ₀) {db₀ : BookingDb κ} (hdb : db₀.Settled)
    (hrows : ∀ eventId, ∀ e ∈ db₀.rows eventId, e.NotOversold) (hnone : db₀.records = [])
    (acts : List (ServiceAct ι κ)) (hjtis : ∀ a ∈ acts, a.HexJti)
    (hfresh : (acts.filterMap ServiceAct.jti?).Nodup)
    (hforge : ∀ x ∈ (Services rnd K jwt).trace (.opened σ₀ db₀) acts,
      Unforged signed x.before x.action)
    {pre post : List (ServiceVisit ι κ)} {x : ServiceVisit ι κ}
    (htrace : (Services rnd K jwt).trace (.opened σ₀ db₀) acts = pre ++ x :: post) :
    (∀ r, response K jwt x = some r →
        Answers K jwt pre x ((Services rnd K jwt).step x.before x.action).2.booking.db r)
      ∧ ∀ k path header now eventId, x.action = .request k path header now →
        x.before.claims k = none → bookRoute path = some eventId →
        (∃ r, response K jwt x = some r)
          ∨ ∃ c, ((Services rnd K jwt).step x.before x.action).2.claims k = some c
            ∧ c.eventId = eventId := by
  obtain ⟨as, bs, rfl, rfl, hxs⟩ := Machine.trace_eq_append _ htrace
  obtain ⟨cs, rfl, hbefore, hreply, -⟩ := Machine.trace_eq_cons _ hxs.symm
  have hmem : ∀ y ∈ (Services rnd K jwt).trace (.opened σ₀ db₀) as ++ [x],
      Unforged signed y.before y.action := by
    intro y hy
    refine hforge y ?_
    rw [htrace]
    rcases List.mem_append.mp hy with hy | hy
    · exact List.mem_append_left _ hy
    · exact List.mem_append_right _ (List.mem_singleton.mp hy ▸ List.mem_cons_self)
  obtain ⟨s, a, r⟩ := x
  dsimp only at hbefore hreply
  rw [← hbefore] at hreply
  subst hreply
  have hchain : Chained K jwt ((Services rnd K jwt).trace (.opened σ₀ db₀) as) s := by
    rw [hbefore]
    exact Chained.run rnd hjwt (Chained.opened hstore hdb hrows hnone)
      (fun a ha => hjtis a (List.mem_append_left _ ha))
      (fun y hy => hmem y (List.mem_append_left _ hy))
  have hchain' := hchain.step rnd hjwt
    (hjtis a (List.mem_append_right _ List.mem_cons_self))
    (hmem _ (List.mem_append_right _ (List.mem_singleton_self _)))
  have hdrawn : (((Services rnd K jwt).trace (.opened σ₀ db₀) as
      ++ [(⟨s, a, ((Services rnd K jwt).step s a).1⟩ : ServiceVisit ι κ)]).filterMap
        (fun x => x.action.jti?)).Nodup := by
    rw [show (fun x : ServiceVisit ι κ => x.action.jti?) = ServiceAct.jti? ∘ Visit.action from rfl,
      ← List.filterMap_map, List.map_append, Machine.map_action_trace]
    refine hfresh.sublist (List.Sublist.filterMap _ ?_)
    exact (List.singleton_sublist.mpr List.mem_cons_self).append_left as
  refine ⟨fun r hr => ?_, fun k path header now eventId hact hk hroute => ?_⟩
  · cases a with
    | queue e act => exact absurd hr (by simp [response])
    | request k path header now => exact answers_of_request hr
    | call act =>
      cases hclaims : s.claims act.caller with
      | none => exact absurd hr (by simp [response, hclaims])
      | some c =>
        replace hr : (s.claims act.caller).bind (fun _ =>
          ((BookingService s.claimsOf).step s.booking act).1.map Outcome.response) = some r := hr
        rw [hclaims, Option.bind_some, Option.map_eq_some_iff] at hr
        obtain ⟨o, hend, rfl⟩ := hr
        have hstep : ((Services rnd K jwt).step s (.call act)).2.booking
            = ((BookingService s.claimsOf).step s.booking act).2 := by
          simp only [Services, hclaims]
        exact hchain.answers hchain' hdrawn rfl rfl hstep hclaims hend
  · dsimp only at hact hk ⊢
    subst hact
    cases hlet : BookingView.admitted jwt K.issuer.secret path header now with
    | none =>
      rw [response_of_refused hlet]
      obtain ⟨e, -, hrequest⟩ | ⟨c, -, -, hrequest⟩ :=
        BookingView.refused (fun _ => .raised .aborted) hroute hlet
      · exact Or.inl ⟨_, hrequest⟩
      · exact Or.inl ⟨_, hrequest⟩
    | some c =>
      refine Or.inr ⟨c, ?_, ?_⟩
      · simp only [Services, hk, hlet]
        exact Function.update_self _ _ _
      · exact Option.some.inj ((BookingView.admitted_eq_some.mp hlet).1.symm.trans hroute)

/-- A step of a call replies to nobody at the queue. -/
theorem Services.reply_call (rnd : ℚ → ℚ) (K : AdmissionController) (jwt : PyJwt)
    (s : ServiceState ι κ) (act : BookingAct κ) :
    ((Services rnd K jwt).step s (.call act)).1 = none := by
  simp only [Services]
  split <;> rfl

/-- A pass presented twice: the second call lost the race, and is answered with the ticket
that the first one created. -/
theorem booking_requests_are_answered_of_one_visit :
    let M := Services id oneController oneJwt
    let x : ServiceVisit Unit Bool := ⟨M.final oneOpened oneVisit, .call (.advance false), none⟩
    response oneController oneJwt x = some ⟨200, .ticket oneClaims.admitted.booking⟩
      ∧ Answers oneController oneJwt (M.trace oneOpened oneVisit) x
        (M.step x.before x.action).2.booking.db ⟨200, .ticket oneClaims.admitted.booking⟩ := by
  intro M x
  have hresponse : response oneController oneJwt x
      = some ⟨200, .ticket oneClaims.admitted.booking⟩ := by decide +kernel
  have hchecks : oneJwt.Checks oneController.issuer.secret
    (fun p t => t = oneToken ∧ p = oneClaims.payload) := PyJwt.checks_ofToken rfl _
  have htrace : M.trace oneOpened (oneVisit ++ [.call (.advance false)])
      = M.trace oneOpened oneVisit ++ [x] := by
    refine (Machine.trace_append _ _ _ _).trans ?_
    rw [Machine.trace_cons, Services.reply_call]
    rfl
  have haction : x.action = .call (.advance false) := rfl
  clear_value x
  have hjtis : ∀ a ∈ oneVisit ++ [.call (.advance false)], a.HexJti := by
    unfold oneVisit oneTick twoCalls
    simp only [List.map_cons, List.map_nil, List.cons_append, List.nil_append,
      List.forall_mem_cons, List.not_mem_nil, false_implies, implies_true, and_true,
      ServiceAct.HexJti, true_and]
    decide +kernel
  refine ⟨hresponse, ?_⟩
  unfold oneOpened at htrace
  refine (booking_requests_are_answered id oneController hchecks queuesEmpty_nothing
    settled_onSale (lawful_onSale (by decide) List.Pairwise.nil).rows rfl _ hjtis
    (by decide +kernel) (fun y hy => ?_) htrace).1 _ hresponse
  rw [htrace] at hy
  rcases List.mem_append.mp hy with hy | hy
  · exact unforged_oneVisit y hy
  · rw [List.mem_singleton.mp hy, haction]
    trivial
