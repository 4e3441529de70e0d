import QueueFair.PassExpiry
import QueueFair.Waiting

/-!
# What is handed over

A pass goes through three hands before its holder has it: an admitter signs it,
its pipeline parks it at the key of a token, and a position call reads that key.
Each of these steps could mix passes up. A tick signs for a whole batch, its
pipeline may be executed in any order and in part, ticks of other processes and
of other events write in between, and the token that asks need not be the one
that was popped.

None of them does (`Attributed`): in every tick, and at every key of the store,
there is a pass that was signed for the very token and the very event. So a pass
that a position call hands over was signed for whoever asks, for a placement of
theirs that was popped from the queue of this event (`Delivered`), and it is
honoured at the URL that comes with it (`what_is_handed_over_is_honoured`).
-/

open Redis

/-! ## A pass, as it is issued -/

/-- A pass of these claims. -/
def PassClaims.issuedPass (c : PassClaims) (jwt : PyJwt) (secret : String) : IssuedPass :=
  ⟨c.sub, jwt.sign c secret, c.jti, c.exp⟩

/-- **A pass is honoured** with the URL parked with it, if its event has a route and it
is for a valid token; and whoever presents it is taken for whom it was signed for. -/
theorem PassClaims.honours (c : PassClaims) {jwt : PyJwt} {secret path : String}
    (hroute : joinRoute path = some c.eventId) (hvalid : isValidEventId c.eventId = true)
    (htoken : isValidQueueToken c.sub = true) (hjti : hexText c.jti.toList = true)
    (hlife : c.iat < c.exp) (hsecret : secret ≠ "") (hjwt : jwt.Documented c.payload secret) :
    Honours jwt secret (RedisQueueRepository.payload c.eventId (c.issuedPass jwt secret)) c.admitted
      ∧ ∀ now : ℚ, c.iat ≤ now → now < c.exp →
        BookingView.admitted jwt secret
          (RedisQueueRepository.payload c.eventId (c.issuedPass jwt secret)).bookUrl
          ("Bearer " ++ (RedisQueueRepository.payload c.eventId (c.issuedPass jwt secret)).pass) now
          = some c.admitted := by
  have hround := hjwt hsecret _ _ c.regular_payload
  have hsub := isValidQueueToken_length htoken
  have hlength : c.jti.length = 32 := by
    rw [← String.length_toList]
    exact length_of_hexText hjti
  have hclaims : c.payload.claims = .ok c.admitted := by
    refine PassClaims.claims_payload hsub.1 (fun he => ?_) (fun he => ?_)
    · rw [he] at hroute
      exact (slug_of_slugRoute hroute).1 rfl
    · rw [he] at hlength
      exact absurd hlength (by decide)
  have hid : c.eventId.length ≤ Event.maxLength := by
    unfold isValidEventId at hvalid
    rw [Bool.and_eq_true] at hvalid
    exact of_decide_eq_true hvalid.1
  have hpath := bookRoute_bookUrl hroute (c.issuedPass jwt secret)
  refine ⟨hround.honours hlife hclaims rfl hpath
    ⟨le_trans hsub.2 (by decide), le_trans hlength.le (by decide)⟩ hid, fun now hiat hexp => ?_⟩
  exact BookingView.admitted_eq_some.mpr ⟨hpath, authenticate_eq_ok.mpr
    ⟨_, hround.bearerToken_sign, hround.verify_of_window hclaims hiat hexp⟩⟩

/-! ## Among the admitters of one event -/

section OneEvent

variable {ι : Type} {K : AdmissionController} {jwt : PyJwt} {eventId : String}

/-- **What a tick has signed after a step**, it had before or has just signed. -/
theorem Admitters.signed_step [DecidableEq ι] (rnd : ℚ → ℚ) (s : AdmitterState ι)
    (a : AdmitterAct ι) (j : ι) {p : Placement × IssuedPass}
    (hp : p ∈ (((Admitters rnd K jwt.sign eventId).step s a).2.attempt j).signed) :
    p ∈ (s.attempt j).signed ∨ ∃ z ∈ a.signs K eventId s.attempt,
      z.1 = p.1 ∧ z.2.issuedPass jwt K.issuer.secret = p.2 := by
  rw [Admitters.attempt_step] at hp
  generalize ((Admitters rnd K jwt.sign eventId).step s a).1 = r at hp
  -- only the tick of the admitter that acts is another one
  have hupd : ∀ (i : ι) (attempt : Attempt),
      (∀ p ∈ attempt.signed, p ∈ (s.attempt i).signed ∨ ∃ z ∈ a.signs K eventId s.attempt,
        z.1 = p.1 ∧ z.2.issuedPass jwt K.issuer.secret = p.2) →
      p ∈ (Function.update s.attempt i attempt j).signed →
      p ∈ (s.attempt j).signed ∨ ∃ z ∈ a.signs K eventId s.attempt,
        z.1 = p.1 ∧ z.2.issuedPass jwt K.issuer.secret = p.2 := by
    intro i attempt hattempt hp
    by_cases hj : j = i
    · subst hj
      rw [Function.update_self] at hp
      exact hattempt p hp
    · rw [Function.update_of_ne hj] at hp
      exact Or.inl hp
  cases a with
  | admitBatch i now =>
    cases r with
    | none => exact Or.inl hp
    | some reply =>
      refine hupd i _ (fun p hp => ?_) hp
      unfold Attempt.afterBatch at hp
      split at hp <;> exact absurd hp List.not_mem_nil
  | issue i jti =>
    refine hupd i _ (fun p hp => ?_) hp
    show _ ∨ ∃ z ∈ ((s.attempt i).unsigned.take 1).map _, _
    cases hattempt : s.attempt i with
    | issuing now signed rest =>
      rw [hattempt] at hp
      cases rest with
      | nil => exact Or.inl hp
      | cons q rest =>
        rcases List.mem_append.mp hp with hp | hp
        · exact Or.inl hp
        · rw [List.mem_singleton.mp hp]
          exact Or.inr ⟨_, List.mem_map_of_mem List.mem_cons_self, rfl, rfl⟩
    | _ =>
      rw [hattempt] at hp
      exact Or.inl hp
  | send i =>
    refine hupd i _ (fun p hp => Or.inl ?_) hp
    unfold Attempt.send at hp
    split at hp
    · next h =>
      rw [h]
      exact hp
    · exact hp
  | set i n =>
    cases r with
    | none => exact Or.inl hp
    | some reply =>
      cases reply with
      | error e => exact Or.inl hp
      | ok answer =>
        refine hupd i _ (fun p hp => Or.inl ?_) hp
        unfold Attempt.settle at hp
        split at hp
        · next h =>
          rw [h]
          exact List.mem_of_mem_eraseIdx hp
        · exact hp
  | fail i => exact hupd i _ (fun p hp => absurd hp List.not_mem_nil) hp
  | finish i =>
    refine hupd i _ (fun p hp => Or.inl ?_) hp
    unfold Attempt.finish at hp
    split at hp
    · exact absurd hp List.not_mem_nil
    · exact hp
  | _ => exact Or.inl hp

/-- **Every pass is kept for whom it was signed for**: in the ticks of an event,
and where they are parked. -/
structure Attributed (K : AdmissionController) (jwt : PyJwt) (eventId : String)
    (issued : List (Placement × PassClaims)) (s : AdmitterState ι) : Prop where
  ticks : ∀ i, ∀ p ∈ (s.attempt i).signed, ∃ z ∈ issued, z.2.eventId = eventId
    ∧ z.2.issuedPass jwt K.issuer.secret = p.2
  parked : ∃ v, Holds eventId s.store v ∧ ∀ t a d, v.passes t = some (a, d) → ∃ z ∈ issued,
    z.2.eventId = eventId ∧ z.2.sub = t
      ∧ RedisQueueRepository.payload eventId (z.2.issuedPass jwt K.issuer.secret) = a

namespace Attributed

variable {issued issued' : List (Placement × PassClaims)} {s s' : AdmitterState ι}

/-- Passes that are signed elsewhere change nothing. -/
theorem mono (h : Attributed K jwt eventId issued s) (hsub : issued ⊆ issued') :
    Attributed K jwt eventId issued' s := by
  obtain ⟨v, hv, hparked⟩ := h.parked
  refine ⟨fun i p hp => (h.ticks i p hp).imp (fun z hz => hz.imp_left (@hsub z)),
    v, hv, fun t a d hpass => (hparked t a d hpass).imp (fun z hz => hz.imp_left (@hsub z))⟩

/-- **A step that is not noticed.** -/
theorem frame (h : Attributed K jwt eventId issued s) (hattempt : s'.attempt = s.attempt)
    (hpasses : ∀ v, Holds eventId s.store v →
      ∃ v', Holds eventId s'.store v' ∧ v'.passes = v.passes) :
    Attributed K jwt eventId issued s' := by
  obtain ⟨v, hv, hparked⟩ := h.parked
  obtain ⟨v', hv', heq⟩ := hpasses v hv
  refine ⟨fun i p hp => h.ticks i p (hattempt ▸ hp), v', hv', fun t a d hpass => ?_⟩
  rw [heq] at hpass
  exact hparked t a d hpass

/-- **One step of the admitters or their clients.** -/
theorem step [DecidableEq ι] (rnd : ℚ → ℚ) (h : Attributed K jwt eventId issued s)
    (a : AdmitterAct ι) :
    Attributed K jwt eventId (issued ++ a.signs K eventId s.attempt)
      ((Admitters rnd K jwt.sign eventId).step s a).2 := by
  have hsub : issued ⊆ issued ++ a.signs K eventId s.attempt := List.subset_append_left _ _
  refine ⟨fun i p hp => ?_, ?_⟩
  · obtain hp | ⟨z, hz, -, hissued⟩ := Admitters.signed_step rnd s a i hp
    · exact (h.ticks i p hp).imp (fun z hz => hz.imp_left (@hsub z))
    · refine ⟨z, List.mem_append_right _ hz, ?_, hissued⟩
      unfold AdmitterAct.signs at hz
      split at hz
      · obtain ⟨w, -, rfl⟩ := List.mem_map.mp hz
        rfl
      · exact absurd hz List.not_mem_nil
  · obtain ⟨v, hv, hparked⟩ := (h.mono hsub).parked
    cases hop : a.op K s with
    | none =>
      rw [Admitters.step_of_none rnd jwt.sign hop]
      exact ⟨v, hv, hparked⟩
    | some op =>
      obtain ⟨σ', hσ', hstep⟩ := Admitters.step_of_some rnd jwt.sign hv hop
      rw [hstep]
      refine ⟨_, hσ', fun t x d hpass => ?_⟩
      cases Admitters.asks_of_op hop with
      | @set i n p hpending =>
        by_cases ht : p.2.queueToken = t
        · by_cases hpos : K.passTtlSeconds ≤ 0
          · rw [EventState.step_recordAdmission_of_nonpos rnd eventId v p.2 hpos] at hpass
            exact hparked t x d hpass
          · -- the pass is parked here: one the tick holds, under the token it names
            rw [EventState.step_recordAdmission_of_pos rnd eventId v p.2 hpos] at hpass
            replace hpass : Function.update v.passes p.2.queueToken _ t = some (x, d) := hpass
            rw [ht, Function.update_self] at hpass
            have hsigned : p ∈ (s.attempt i).signed := by
              have hmem := List.mem_of_getElem? hpending
              cases hattempt : s.attempt i with
              | recording batch pending => rwa [hattempt] at hmem
              | _ =>
                rw [hattempt] at hmem
                exact absurd hmem List.not_mem_nil
            obtain ⟨z, hz, hevent, hissued⟩ := h.ticks i p hsigned
            refine ⟨z, hsub hz, hevent, ?_, ?_⟩
            · rw [← ht, ← hissued]
              rfl
            · rw [hissued]
              exact (Prod.mk.inj (Option.some.inj hpass)).1
        · rw [EventState.passes_step rnd eventId (fun p' ttl he => ?_)] at hpass
          · exact hparked t x d hpass
          · obtain ⟨rfl, -⟩ := EventOp.recordAdmission.inj he
            exact ht
      | _ =>
        rw [EventState.passes_step rnd eventId (fun p' ttl he => ?_)] at hpass
        · exact hparked t x d hpass
        · exact absurd he (by simp)

end Attributed

end OneEvent

/-! ## In both services -/

/-- An operation on another event parks nothing for this one. -/
theorem Holds.passes_other (rnd : ℚ → ℚ) {e e' : String} (he : isValidEventId e = true)
    (he' : isValidEventId e' = true) (hne : e' ≠ e) {σ : Store} {v : EventState}
    (h : Holds e σ v) (op : EventOp) :
    ∃ v', Holds e ((QueueService rnd e').step σ op).2 v' ∧ v'.passes = v.passes := by
  cases hwait : op.isWait with
  | true =>
    cases op with
    | wait d =>
      obtain ⟨σ', hrun, hσ'⟩ := h.serve rnd (.wait d)
      rw [show (QueueService rnd e').step σ (.wait d) = _ from hrun]
      exact ⟨_, hσ', rfl⟩
    | _ => exact Bool.noConfusion hwait
  | false => exact ⟨v, h.congr (QueueServer.agree_step rnd he he' hne hwait σ), rfl⟩

/-- **A store before anything has happened**: every queue is empty, and nothing is
parked. -/
def Unused (σ : Store) : Prop :=
  ∀ eventId, isValidEventId eventId = true →
    ∃ v, Holds eventId σ v ∧ v.queue = .empty ∧ ∀ t, v.passes t = none

theorem Unused.queuesEmpty {σ : Store} (h : Unused σ) : QueuesEmpty σ := fun e he =>
  (h e he).imp (fun _ hv => ⟨hv.1, hv.2.1⟩)

/-- A store that holds nothing is unused. -/
theorem unused_nothing : Unused ⟨fun _ => none, 0⟩ := fun _ _ =>
  ⟨⟨.empty, 0, 0, none, none, fun _ => none, 0⟩, ⟨rfl, Or.inl ⟨rfl, rfl⟩, Or.inl ⟨rfl, rfl⟩,
    ⟨fun _ => none, Or.inl ⟨rfl, rfl⟩, rfl, rfl⟩, rfl, fun _ => rfl, rfl⟩, rfl, fun _ => rfl⟩

section Together

variable {ι κ : Type} [DecidableEq ι] [DecidableEq κ] {K : AdmissionController} {jwt : PyJwt}
  {eventId : String} {xs : List (ServiceVisit ι κ)} {s : ServiceState ι κ}

/-- **One step of either service** keeps every pass of an event for whom it was
signed for. -/
theorem Attributed.service_step (rnd : ℚ → ℚ) (he : isValidEventId eventId = true)
    (h : Attributed K jwt eventId s.issued ⟨s.store, s.attempt eventId⟩) (a : ServiceAct ι κ) :
    Attributed K jwt eventId ((Services rnd K jwt).step s a).2.issued
      ⟨((Services rnd K jwt).step s a).2.store,
        ((Services rnd K jwt).step s a).2.attempt eventId⟩ := by
  by_cases hqueue : ∃ e act, a = .queue e act
  · obtain ⟨e, act, rfl⟩ := hqueue
    by_cases hvalid : (isValidEventId e && act.valid) = true
    · rw [show (Services rnd K jwt).step s (.queue e act) = s.queue rnd K jwt e act from
        if_pos hvalid]
      by_cases hne : e = eventId
      · subst hne
        exact (h.step rnd act).frame (Function.update_self _ _ _) (fun v hv => ⟨v, hv, rfl⟩)
      · refine (h.mono (List.subset_append_left _ _)).frame
          (Function.update_of_ne (Ne.symm hne) _ _) (fun v hv => ?_)
        show ∃ v', Holds eventId
          ((Admitters rnd K jwt.sign e).step ⟨s.store, s.attempt e⟩ act).2.store v' ∧ _
        cases hop : act.op K ⟨s.store, s.attempt e⟩ with
        | none =>
          rw [Admitters.step_of_none rnd jwt.sign hop]
          exact ⟨v, hv, rfl⟩
        | some op =>
          rw [Admitters.step_of_op rnd jwt.sign hop]
          rw [Bool.and_eq_true] at hvalid
          exact hv.passes_other rnd he hvalid.1 hne op
    · rw [show (Services rnd K jwt).step s (.queue e act) = (none, s) from if_neg hvalid]
      exact h
  · obtain ⟨hstore, hattempt, hissued⟩ := Services.queues_step rnd K jwt s
      (fun e act he => hqueue ⟨e, act, he⟩)
    rw [hstore, hattempt, hissued]
    exact h

/-- **A whole run** does. -/
theorem Attributed.run (rnd : ℚ → ℚ) (he : isValidEventId eventId = true)
    (h : Attributed K jwt eventId s.issued ⟨s.store, s.attempt eventId⟩)
    (acts : List (ServiceAct ι κ)) :
    Attributed K jwt eventId ((Services rnd K jwt).final s acts).issued
      ⟨((Services rnd K jwt).final s acts).store,
        ((Services rnd K jwt).final s acts).attempt eventId⟩ :=
  (Services rnd K jwt).final_invariant
    (P := fun s => Attributed K jwt eventId s.issued ⟨s.store, s.attempt eventId⟩)
    (fun _ a _ hs => hs.service_step rnd he a) h

omit [DecidableEq ι] [DecidableEq κ] in
/-- Before the first step there is no pass. -/
theorem Unused.attributed {σ : Store} (h : Unused σ) (he : isValidEventId eventId = true)
    (K : AdmissionController) (jwt : PyJwt) :
    Attributed K jwt eventId [] (⟨σ, fun _ => .idle⟩ : AdmitterState ι) := by
  obtain ⟨v, hv, -, hnone⟩ := h eventId he
  refine ⟨fun i p hp => absurd hp List.not_mem_nil, v, hv, fun t a d hpass => ?_⟩
  rw [hnone t] at hpass
  exact nomatch hpass

/-- **Whatever is handed over was signed for**: in a run, at every position call
that is answered with a pass. -/
structure Delivered (K : AdmissionController) (jwt : PyJwt) (xs : List (ServiceVisit ι κ))
    (eventId t : String) (a : Admission) (z : Placement × PassClaims) : Prop where
  /-- The pass was signed before, for a placement popped from the queue of its
  event, which a join had given. -/
  issued : IssuedIn K xs z
  event : z.2.eventId = eventId
  token : z.1.1 = t
  /-- What is handed over is this pass, and the URL of this event. -/
  payload : a = RedisQueueRepository.payload eventId (z.2.issuedPass jwt K.issuer.secret)

/-- **One position call.** -/
theorem Ordered.delivered (rnd : ℚ → ℚ) (h : Ordered K xs s)
    (hpasses : Attributed K jwt eventId s.issued ⟨s.store, s.attempt eventId⟩) {t : String}
    {o : AdmittedOutcome} (hreply : ((Services rnd K jwt).step s (.queue eventId (.position t))).1
      = some (.ok (.position (.ok (.admitted o))))) :
    ∃ z, Delivered K jwt xs eventId t o.admission z := by
  by_cases hvalid : (isValidEventId eventId && isValidQueueToken t) = true
  · rw [show (Services rnd K jwt).step s (.queue eventId (.position t))
      = s.queue rnd K jwt eventId (.position t) from if_pos hvalid] at hreply
    obtain ⟨v, hv, hparked⟩ := hpasses.parked
    obtain ⟨σ', -, hstep⟩ := Admitters.step_of_some rnd (K := K) jwt.sign hv
      (a := (.position t : AdmitterAct ι)) rfl
    replace hreply : ((Admitters rnd K jwt.sign eventId).step ⟨s.store, s.attempt eventId⟩
      (.position t)).1 = _ := hreply
    rw [hstep] at hreply
    have hposition : v.position eventId t = .ok (.admitted o) :=
      Answer.position.inj (Except.ok.inj (Option.some.inj hreply))
    obtain ⟨⟨a, d⟩, hpass, hlive⟩ := Option.bind_eq_some_iff.mp
      (EventState.livePass_of_position hposition)
    obtain ⟨z, hz, hevent, hsub, hpayload⟩ := hparked t a d hpass
    have hissued := h.issued z hz
    refine ⟨z, hissued, hevent, hissued.sub_eq.1 ▸ hsub, ?_⟩
    split at hlive
    · rw [← Option.some.inj hlive, hpayload]
    · exact absurd hlive (by simp)
  · rw [show (Services rnd K jwt).step s (.queue eventId (.position t)) = (none, s) from
      if_neg hvalid] at hreply
    exact absurd hreply (by simp)

omit [DecidableEq ι] [DecidableEq κ] in
/-- **A pass that was signed is honoured** with the URL parked with it, if its event
has a route; and whoever presents it is taken for whom it was signed for. -/
theorem Delivered.honours {t : String} {a : Admission} {z : Placement × PassClaims}
    (h : Delivered K jwt xs eventId t a z) (httl : 0 < K.issuer.ttlSeconds) {path : String}
    (hroute : joinRoute path = some eventId) (hvalid : isValidEventId eventId = true)
    (hjti : hexText z.2.jti.toList = true)
    (hjwt : jwt.Documented z.2.payload K.issuer.secret) :
    Honours jwt K.issuer.secret a z.2.admitted
      ∧ ∀ now : ℚ, z.2.iat ≤ now → now < z.2.exp →
        BookingView.admitted jwt K.issuer.secret a.bookUrl ("Bearer " ++ a.pass) now
          = some z.2.admitted := by
  obtain ⟨hissued, rfl, rfl, rfl⟩ := h
  have hlife : z.2.iat < z.2.exp := by
    obtain ⟨pre, y, post, -, hz, -⟩ := hissued
    obtain ⟨e, i, jti, now, -, -, -, hz⟩ := ServiceVisit.mem_signs hz
    rw [hz]
    exact lt_add_of_pos_right _ httl
  exact z.2.honours hroute hvalid hissued.sub_eq.2 hjti hlife K.issuer.secret_ne hjwt

/-- **What is handed over is honoured.** Whatever the clients, the admitters of all
events and the booking calls do, in whatever order and with whatever failures,
from an unused store: a pass that a position call hands over was signed for the
token that asks, for a placement of it that was popped from the queue of the
event it asks for. With the URL handed over, the booking service accepts it in
its window and in no other, and begins the call of its bearer with the claims of
that token. -/
theorem what_is_handed_over_is_honoured (rnd : ℚ → ℚ) (K : AdmissionController)
    (httl : 0 < K.issuer.ttlSeconds) {σ₀ : Store} (hstore : Unused σ₀) (db₀ : BookingDb κ)
    {acts : List (ServiceAct ι κ)} (hjtis : ∀ a ∈ acts, a.HexJti)
    (hjwt : ∀ x ∈ (Services rnd K jwt).trace (.opened σ₀ db₀) acts,
      ∀ z ∈ ServiceVisit.signs K x, jwt.Documented z.2.payload K.issuer.secret)
    {pre post : List (ServiceVisit ι κ)} {x : ServiceVisit ι κ}
    (htrace : (Services rnd K jwt).trace (.opened σ₀ db₀) acts = pre ++ x :: post)
    {path t : String} (hroute : joinRoute path = some eventId)
    (hact : x.action = .queue eventId (.position t)) {o : AdmittedOutcome}
    (hreply : x.reply = some (.ok (.position (.ok (.admitted o))))) :
    ∃ z, Delivered K jwt pre eventId t o.admission z
      ∧ Honours jwt K.issuer.secret o.admission z.2.admitted
      ∧ ∀ (s : ServiceState ι κ) (k : κ) (now : ℚ), s.claims k = none → z.2.iat ≤ now →
        now < z.2.exp → ((Services rnd K jwt).step s (.request k o.admission.bookUrl
          ("Bearer " ++ o.admission.pass) now)).2.claims k = some z.2.admitted := by
  obtain ⟨as, bs, rfl, rfl, hxs⟩ := Machine.trace_eq_append _ htrace
  obtain ⟨cs, rfl, -, hx, -⟩ := Machine.trace_eq_cons _ hxs.symm
  rw [hact, hreply] at hx
  have hvalid : isValidEventId eventId = true := by
    by_contra hne
    rw [show (Services rnd K jwt).step ((Services rnd K jwt).final (.opened σ₀ db₀) as)
      (.queue eventId (.position t)) = (none, _) from
        if_neg (fun hand => hne (Bool.and_eq_true _ _ ▸ hand).1)] at hx
    exact absurd hx (by simp)
  have hordered := (Services rnd K jwt).history_invariant (P := fun xs s => Ordered K xs s)
    (fun _ _ a h => h.step rnd a) (hstore.queuesEmpty.ordered db₀) as
  rw [List.nil_append] at hordered
  have hpasses := Attributed.run rnd hvalid (s := (.opened σ₀ db₀ : ServiceState ι κ))
    (hstore.attributed hvalid K jwt) as
  obtain ⟨z, hz⟩ := hordered.delivered rnd hpasses hx.symm
  -- the pass was signed by a visit of this run
  obtain ⟨xs, y, ys, hpre, hsigns, -⟩ := hz.issued
  have hy : y ∈ (Services rnd K jwt).trace (.opened σ₀ db₀) (as ++ x.action :: cs) := by
    rw [htrace]
    exact List.mem_append_left _ (hpre ▸ List.mem_append_right _ List.mem_cons_self)
  have hjti : hexText z.2.jti.toList = true := by
    obtain ⟨e, i, jti, now, hissue, -, -, hclaims⟩ := ServiceVisit.mem_signs hsigns
    have hhex := hjtis _ (Machine.action_mem_of_mem_trace _ hy)
    rw [hissue] at hhex
    rw [hclaims]
    exact hhex
  obtain ⟨hhonours, hadmitted⟩ := hz.honours httl hroute hvalid hjti (hjwt y hy z hsigns)
  refine ⟨z, hz, hhonours, fun s k now hk hiat hexp => ?_⟩
  simp only [Services, hk, hadmitted now hiat hexp]
  exact Function.update_self _ _ _

/-- One token joins, is let in and collects its pass. -/
theorem what_is_handed_over_is_honoured_of_one_tick :
    let M : Machine (ServiceState Unit Bool) (ServiceAct Unit Bool)
      (Option (Except Redis.Error Answer)) := Services id oneController oneJwt
    let ticks := oneTick.map (ServiceAct.queue "coldplay-mumbai-2026")
    let a : Admission := ⟨oneToken, 1785283260, "/events/coldplay-mumbai-2026/book"⟩
    ∃ z, Delivered oneController oneJwt (M.trace oneOpened ticks) "coldplay-mumbai-2026"
        oneClaims.sub a z
      ∧ Honours oneJwt testSecret a z.2.admitted
      ∧ ∀ (s : ServiceState Unit Bool) (k : Bool) (now : ℚ), s.claims k = none →
        z.2.iat ≤ now → now < z.2.exp →
        (M.step s (.request k a.bookUrl ("Bearer " ++ a.pass) now)).2.claims k
          = some z.2.admitted := by
  intro M ticks a
  have hcompact : oneToken.toList.all compactChar = true := by decide +kernel
  have hne : oneToken.toList ≠ [] := String.toList_eq_nil_iff.not.mpr (by decide +kernel)
  have htrace : M.trace oneOpened (ticks ++ [.queue "coldplay-mumbai-2026"
      (.position oneClaims.sub)]) = M.trace oneOpened ticks ++ _ := Machine.trace_append _ _ _ _
  have hsigned : (M.trace oneOpened (ticks ++ [.queue "coldplay-mumbai-2026"
      (.position oneClaims.sub)])).all (fun x => (ServiceVisit.signs oneController x).all
        (fun z => z.2.payload = oneClaims.payload)) = true := by decide +kernel
  have hroute : joinRoute "/api/queue/coldplay-mumbai-2026/join"
      = some "coldplay-mumbai-2026" := by decide +kernel
  have hhex : ∀ b ∈ oneTick,
      (.queue "coldplay-mumbai-2026" b : ServiceAct Unit Bool).HexJti := by
    unfold oneTick
    simp only [List.forall_mem_cons, List.not_mem_nil, false_implies, implies_true, and_true,
      ServiceAct.HexJti, true_and]
    decide +kernel
  refine what_is_handed_over_is_honoured id oneController (by decide) unused_nothing _ ?_ ?_
    htrace hroute rfl (o := ⟨a, 0, 1⟩) (by decide +kernel)
  · intro act hact
    rcases List.mem_append.mp hact with hact | hact
    · obtain ⟨b, hb, rfl⟩ := List.mem_map.mp hact
      exact hhex b hb
    · rw [List.mem_singleton.mp hact]
      trivial
  · intro x hx z hz
    have hpayload : z.2.payload = oneClaims.payload :=
      of_decide_eq_true (List.all_eq_true.mp (List.all_eq_true.mp hsigned x hx) z hz)
    rw [hpayload]
    exact PyJwt.documented_ofToken (PassClaims.regular_payload _) hne
      (List.all_eq_true.mp hcompact)

end Together
