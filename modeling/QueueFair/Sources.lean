import QueueFair.Isolation
import QueueFair.Services

/-!
# Where passes come from

Every pass is signed for a placement that was popped from the queue of its
event, and every placement in a queue was given by a join. For the admitters
of one event this is a matter of one step (`Sourced.step`). With several
events over one store it is still so, as the steps of the others are not
noticed (`Sourced.frame`), and with booking requests in between, as they do
not touch the store.
-/

open Redis

/-! ## The record of an event, among others -/

/-- What is stored of an event is at its keys, and expires by the clock. -/
theorem Holds.congr {eventId : String} {σ σ' : Store} {v : EventState} (h : Holds eventId σ v)
    (ha : Keyspace.Agree (keysOf eventId) σ σ') : Holds eventId σ' v := by
  have hkey : ∀ s, σ'.entries ((EventKeys.mk eventId).key s)
      = σ.entries ((EventKeys.mk eventId).key s) :=
    fun s => (ha.entries _ (key_mem_keysOf eventId s)).symm
  constructor
  · exact (hkey "queue").trans h.queue
  · exact h.seq.imp (And.imp_left (hkey "seq").trans) (hkey "seq").trans
  · exact h.admitted.imp (And.imp_left (hkey "admitted").trans) (hkey "admitted").trans
  · obtain ⟨f, hf, ht, hl⟩ := h.bucket
    exact ⟨f, hf.imp (And.imp_left (hkey "bucket").trans) (hkey "bucket").trans, ht, hl⟩
  · have hconfig := h.config
    cases hc : v.config with
    | none =>
      rw [hc] at hconfig
      exact (hkey "config").trans hconfig
    | some c =>
      rw [hc] at hconfig
      obtain ⟨f, hf, hfields⟩ := hconfig
      exact ⟨f, (hkey "config").trans hf, hfields⟩
  · exact fun t => (hkey ("pass:" ++ t)).trans (h.passes t)
  · exact ha.clock.symm.trans h.clock

/-- Whoever waits after an operation waited before, or has joined by it. -/
theorem EventState.mem_entries_step (rnd : ℚ → ℚ) (eventId : String) {v : EventState}
    {op : EventOp} {p : Placement} (hp : p ∈ (v.step rnd eventId op).2.queue.entries) :
    p ∈ v.queue.entries ∨ ∃ o, op = .join p.1
      ∧ (v.step rnd eventId op).1 = .ok (.join (.ok (some o))) ∧ o.joined = true
      ∧ o.sequence = p.2 := by
  cases op with
  | join t =>
    replace hp : p ∈ (v.join t).2.queue.entries := hp
    obtain hc | ⟨c, hc⟩ := Option.eq_none_or_eq_some v.config
    · rw [join_of_unconfigured hc] at hp
      exact Or.inl hp
    · cases hs : v.queue.score? t with
      | some s =>
        rw [join_of_queued hc hs] at hp
        exact Or.inl hp
      | none =>
        rw [join_of_new hc hs] at hp
        replace hp : p ∈ (v.queue.entries.filter (fun x => x.1 ≠ t)).orderedInsert ZSet.before
          (t, v.seq + 1) := hp
        rw [List.mem_orderedInsert] at hp
        obtain rfl | hp := hp
        · refine Or.inr ⟨⟨v.seq + 1, true, (v.queue.add t (v.seq + 1)).card, v.admitted,
            c.ratePerMin⟩, rfl, ?_, rfl, rfl⟩
          simp only [step, join_of_new hc hs]
        · exact Or.inl (List.mem_of_mem_filter hp)
  | admitBatch now =>
    obtain ⟨b, n, h⟩ := v.admitBatch_snd rnd now
    replace hp : p ∈ (v.admitBatch rnd now).2.queue.entries := hp
    rw [h] at hp
    exact Or.inl (List.mem_of_mem_drop hp)
  | reset => exact absurd hp List.not_mem_nil
  | recordAdmission q ttl =>
    obtain ⟨ps, h⟩ := v.step_recordAdmission_snd rnd eventId q ttl
    rw [h] at hp
    exact Or.inl hp
  | _ => exact Or.inl hp

/-! ## The admitters of one event -/

section OneEvent

variable {ι : Type} [DecidableEq ι]

/-- **Where placements and passes come from**: whoever waits has joined, and
whoever is to be signed for was popped, and had joined. -/
structure Sourced (eventId : String) (xs : List (AdmitterVisit ι)) (s : AdmitterState ι) :
    Prop where
  line : ∃ v, Holds eventId s.store v ∧ ∀ p ∈ v.queue.entries, p ∈ xs.flatMap AdmitterVisit.joined
  toSign : ∀ i, ∀ z ∈ (s.attempt i).unsigned, z.1 ∈ xs.flatMap (AdmitterVisit.pops eventId)
    ∧ z.1 ∈ xs.flatMap AdmitterVisit.joined

omit [DecidableEq ι] in
/-- What a step pops was waiting. -/
theorem AdmitterVisit.mem_waiters_of_mem_pops {eventId : String} {x : AdmitterVisit ι}
    {p : Placement} (hp : p ∈ AdmitterVisit.pops eventId x) :
    p ∈ waiters eventId x.before.store := by
  have hfrom : ∀ r, p ∈ poppedFrom eventId x.before.store r →
      p ∈ waiters eventId x.before.store := by
    intro r hr
    unfold poppedFrom at hr
    split at hr
    · exact List.mem_of_mem_take hr
    · exact absurd hr List.not_mem_nil
  unfold AdmitterVisit.pops at hp
  split at hp
  · exact hfrom _ hp
  · exact hfrom _ hp
  · exact absurd hp List.not_mem_nil

namespace Sourced

variable {eventId : String} {xs : List (AdmitterVisit ι)} {s s' : AdmitterState ι}

/-- **One step of the admitters or their clients.** -/
theorem step (rnd : ℚ → ℚ) {K : AdmissionController} (encode : PassClaims → String → String)
    (h : Sourced eventId xs s) (a : AdmitterAct ι) :
    Sourced eventId (xs ++ [⟨s, a, ((Admitters rnd K encode eventId).step s a).1⟩])
      ((Admitters rnd K encode eventId).step s a).2 := by
  obtain ⟨v, hv, hjoined⟩ := h.line
  have hmono : ∀ {p : Placement}, p ∈ xs.flatMap AdmitterVisit.joined →
      p ∈ (xs ++ [Visit.mk s a ((Admitters rnd K encode eventId).step s a).1]).flatMap
        AdmitterVisit.joined := by
    intro p hp
    rw [List.flatMap_append]
    exact List.mem_append_left _ hp
  refine ⟨?_, fun i z hz => ?_⟩
  · cases hop : a.op K s with
    | none =>
      rw [Admitters.step_of_none rnd encode hop]
      rw [Admitters.step_of_none rnd encode hop] at hmono
      exact ⟨v, hv, fun p hp => hmono (hjoined p hp)⟩
    | some op =>
      obtain ⟨σ', hσ', hstep⟩ := Admitters.step_of_some rnd encode hv hop
      refine ⟨_, by rw [hstep]; exact hσ', fun p hp => ?_⟩
      obtain hp | ⟨o, rfl, hreply, hnew, hseq⟩ := EventState.mem_entries_step rnd eventId hp
      · exact hmono (hjoined p hp)
      · -- the step is the join itself
        have ha : a = .join p.1 := by
          cases Admitters.asks_of_op hop
          rfl
        rw [List.flatMap_append, hstep, hreply, ha]
        refine List.mem_append_right _ ?_
        rw [List.flatMap_singleton]
        show p ∈ if o.joined then [(p.1, o.sequence)] else []
        rw [if_pos hnew, hseq]
        exact List.mem_singleton_self _
  · obtain hz | hz := Admitters.unsigned_step rnd encode s a i hz
    · refine ⟨?_, hmono (h.toSign i z hz).2⟩
      rw [List.flatMap_append]
      exact List.mem_append_left _ (h.toSign i z hz).1
    · have hpop := AdmitterVisit.map_fst_popsAt_subset _ (List.mem_map_of_mem hz)
      refine ⟨?_, hmono (hjoined _ ?_)⟩
      · rw [List.flatMap_append, List.flatMap_singleton]
        exact List.mem_append_right _ hpop
      · rw [← hv.waiters_eq]
        exact AdmitterVisit.mem_waiters_of_mem_pops hpop

omit [DecidableEq ι] in
/-- **A step that is not noticed.** -/
theorem frame (h : Sourced eventId xs s) (hattempt : s'.attempt = s.attempt)
    (hline : ∀ v, Holds eventId s.store v →
      ∃ v', Holds eventId s'.store v' ∧ v'.queue = v.queue) : Sourced eventId xs s' := by
  obtain ⟨v, hv, hjoined⟩ := h.line
  obtain ⟨v', hv', hqueue⟩ := hline v hv
  refine ⟨⟨v', hv', fun p hp => hjoined p (hqueue ▸ hp)⟩, fun i z hz => h.toSign i z ?_⟩
  rwa [← hattempt]

end Sourced

end OneEvent

/-! ## Several events over one store -/

/-- An operation on another event is not noticed, but for the time it
takes. -/
theorem Holds.other (rnd : ℚ → ℚ) {e e' : String} (he : isValidEventId e = true)
    (he' : isValidEventId e' = true) (hne : e' ≠ e) {σ : Store} {v : EventState}
    (h : Holds e σ v) (op : EventOp) :
    ∃ v', Holds e ((QueueService rnd e').step σ op).2 v' ∧ v'.queue = v.queue
      ∧ v'.config = v.config := by
  cases hwait : op.isWait with
  | true =>
    cases op with
    | wait d =>
      obtain ⟨σ', hrun, hσ'⟩ := h.serve rnd (.wait d)
      have hstep : (QueueService rnd e').step σ (.wait d) = _ := hrun
      rw [hstep]
      exact ⟨_, hσ', rfl, rfl⟩
    | _ => exact Bool.noConfusion hwait
  | false =>
    have hagree : Keyspace.Agree (keysOf e) σ ((QueueService rnd e').step σ op).2 :=
      QueueServer.agree_step rnd he he' hne hwait σ
    exact ⟨v, h.congr hagree, rfl, rfl⟩

section Together

variable {ι κ : Type} [DecidableEq ι] [DecidableEq κ] {K : AdmissionController} {jwt : PyJwt}
  {eventId : String} {xs ys : List (ServiceVisit ι κ)} {x : ServiceVisit ι κ}
  {s : ServiceState ι κ}

omit [DecidableEq ι] [DecidableEq κ] in
theorem eventHistory_append :
    eventHistory eventId (xs ++ ys) = eventHistory eventId xs ++ eventHistory eventId ys :=
  List.filterMap_append

omit [DecidableEq ι] [DecidableEq κ] in
/-- A visit elsewhere is no part of what happened to an event. -/
theorem eventHistory_concat_none (h : ServiceVisit.admitter eventId x = none) :
    eventHistory eventId (xs ++ [x]) = eventHistory eventId xs := by
  rw [eventHistory_append, eventHistory, eventHistory, List.filterMap_cons_none h]
  exact List.append_nil _

omit [DecidableEq ι] [DecidableEq κ] in
theorem eventHistory_concat_some {y : AdmitterVisit ι}
    (h : ServiceVisit.admitter eventId x = some y) :
    eventHistory eventId (xs ++ [x]) = eventHistory eventId xs ++ [y] := by
  rw [eventHistory_append]
  refine congrArg (eventHistory eventId xs ++ ·) ?_
  unfold eventHistory
  rw [List.filterMap_cons_some h]
  rfl

omit [DecidableEq ι] [DecidableEq κ] in
/-- Only the token of a waiter has a placement. -/
theorem isValidQueueToken_of_mem_joinedOf {p : Placement} (hp : p ∈ joinedOf eventId xs) :
    isValidQueueToken p.1 = true := by
  obtain ⟨y, hy, hpy⟩ := List.mem_flatMap.mp hp
  obtain ⟨x, -, hx⟩ := List.mem_filterMap.mp hy
  unfold ServiceVisit.admitter at hx
  split at hx
  · next e act hact =>
    split at hx
    · next hvalid =>
      rw [Bool.and_eq_true] at hvalid
      obtain rfl := Option.some.inj hx
      unfold AdmitterVisit.joined at hpy
      split at hpy
      · next t o ht hr =>
        dsimp only at ht
        rw [ht] at hvalid
        by_cases ho : o.joined
        · rw [if_pos ho] at hpy
          rw [List.mem_singleton.mp hpy]
          exact hvalid.2.2
        · rw [if_neg ho] at hpy
          exact absurd hpy List.not_mem_nil
      · exact absurd hpy List.not_mem_nil
    · exact nomatch hx
  · exact nomatch hx

/-- A step of the booking service leaves the queues alone. -/
theorem Services.queues_step (rnd : ℚ → ℚ) (K : AdmissionController) (jwt : PyJwt)
    (s : ServiceState ι κ) {a : ServiceAct ι κ} (ha : ∀ e act, a ≠ .queue e act) :
    ((Services rnd K jwt).step s a).2.store = s.store
      ∧ ((Services rnd K jwt).step s a).2.attempt = s.attempt
      ∧ ((Services rnd K jwt).step s a).2.issued = s.issued := by
  cases a with
  | queue e act => exact absurd rfl (ha e act)
  | request k path header now =>
    simp only [Services]
    split <;> exact ⟨rfl, rfl, rfl⟩
  | call act =>
    simp only [Services]
    split <;> exact ⟨rfl, rfl, rfl⟩

/-- **One step of either service** leaves it so that placements and passes of
an event come from its joins. -/
theorem Sourced.service_step (rnd : ℚ → ℚ) (he : isValidEventId eventId = true)
    (h : Sourced eventId (eventHistory eventId xs) ⟨s.store, s.attempt eventId⟩)
    (a : ServiceAct ι κ) :
    Sourced eventId (eventHistory eventId (xs ++ [⟨s, a, ((Services rnd K jwt).step s a).1⟩]))
      ⟨((Services rnd K jwt).step s a).2.store,
        ((Services rnd K jwt).step s a).2.attempt eventId⟩ := by
  cases a with
  | queue e act =>
    by_cases hvalid : (isValidEventId e && act.valid) = true
    · have hstep : (Services rnd K jwt).step s (.queue e act) = s.queue rnd K jwt e act :=
        if_pos hvalid
      rw [hstep]
      by_cases hne : e = eventId
      · subst hne
        have hvisit : ServiceVisit.admitter e ⟨s, .queue e act, (s.queue rnd K jwt e act).1⟩
            = some ⟨⟨s.store, s.attempt e⟩, act, (s.queue rnd K jwt e act).1⟩ :=
          if_pos ⟨rfl, hvalid⟩
        rw [eventHistory_concat_some hvisit]
        refine (h.step rnd jwt.sign act).frame ?_ (fun v hv => ⟨v, hv, rfl⟩)
        exact Function.update_self _ _ _
      · have hvisit : ServiceVisit.admitter eventId
            ⟨s, .queue e act, (s.queue rnd K jwt e act).1⟩ = none :=
          if_neg (fun hand => hne hand.1)
        rw [eventHistory_concat_none hvisit]
        refine h.frame (Function.update_of_ne (Ne.symm hne) _ _) (fun v hv => ?_)
        show ∃ v', Holds eventId
          ((Admitters rnd K jwt.sign e).step ⟨s.store, s.attempt e⟩ act).2.store v' ∧ _
        cases hop : act.op K ⟨s.store, s.attempt e⟩ with
        | none =>
          rw [Admitters.step_of_none rnd jwt.sign hop]
          exact ⟨v, hv, rfl⟩
        | some op =>
          rw [Admitters.step_of_op rnd jwt.sign hop]
          rw [Bool.and_eq_true] at hvalid
          obtain ⟨v', hv', hqueue, -⟩ := hv.other rnd he hvalid.1 hne op
          exact ⟨v', hv', hqueue⟩
    · have hstep : (Services rnd K jwt).step s (.queue e act) = (none, s) := if_neg hvalid
      have hvisit : ServiceVisit.admitter eventId ⟨s, .queue e act, none⟩ = none :=
        if_neg (fun hand => hvalid hand.2)
      rw [hstep, eventHistory_concat_none hvisit]
      exact h
  | request k path header now =>
    obtain ⟨hstore, hattempt, -⟩ := Services.queues_step rnd K jwt s
      (a := .request k path header now) (fun e act he => nomatch he)
    rw [eventHistory_concat_none rfl, hstore, hattempt]
    exact h
  | call act =>
    obtain ⟨hstore, hattempt, -⟩ := Services.queues_step rnd K jwt s (a := .call act)
      (fun e act he => nomatch he)
    rw [eventHistory_concat_none rfl, hstore, hattempt]
    exact h

/-! ## The passes signed so far -/

/-- **A pass was signed in a history**, for a placement popped from the queue
of its event before, that a join of the event had given. -/
def IssuedIn (K : AdmissionController) (xs : List (ServiceVisit ι κ))
    (x : Placement × PassClaims) : Prop :=
  ∃ pre y post, xs = pre ++ y :: post ∧ x ∈ ServiceVisit.signs K y
    ∧ x.1 ∈ poppedOf x.2.eventId pre ∧ x.1 ∈ joinedOf x.2.eventId pre

omit [DecidableEq ι] [DecidableEq κ] in
theorem IssuedIn.append {z : Placement × PassClaims} (h : IssuedIn K xs z)
    (ys : List (ServiceVisit ι κ)) : IssuedIn K (xs ++ ys) z := by
  obtain ⟨pre, y, post, rfl, hz⟩ := h
  exact ⟨pre, y, post ++ ys, by rw [List.append_assoc, List.cons_append], hz⟩

omit [DecidableEq ι] [DecidableEq κ] in
/-- What a visit signs: a pass for the next placement of a tick. -/
theorem ServiceVisit.mem_signs {z : Placement × PassClaims} (h : z ∈ ServiceVisit.signs K x) :
    ∃ e i jti nowMs, x.action = .queue e (.issue i jti) ∧ isValidEventId e = true
      ∧ (z.1, nowMs) ∈ (x.before.attempt e i).unsigned
      ∧ z.2 = K.passClaims e nowMs z.1.1 jti := by
  unfold ServiceVisit.signs at h
  split at h
  · next e act hact =>
    split at h
    · next hvalid =>
      rw [Bool.and_eq_true] at hvalid
      cases act with
      | issue i jti =>
        obtain ⟨w, hw, rfl⟩ := List.mem_map.mp h
        exact ⟨e, i, jti, w.2, hact, hvalid.1, List.mem_of_mem_take hw, rfl⟩
      | _ => exact absurd h List.not_mem_nil
    · exact absurd h List.not_mem_nil
  · exact absurd h List.not_mem_nil

omit [DecidableEq ι] [DecidableEq κ] in
/-- A pass that was signed is for the token of a waiter, and for an event. -/
theorem IssuedIn.sub_eq {z : Placement × PassClaims} (h : IssuedIn K xs z) :
    z.2.sub = z.1.1 ∧ isValidQueueToken z.2.sub = true := by
  obtain ⟨pre, y, post, rfl, hz, -, hjoined⟩ := h
  obtain ⟨e, i, jti, now, -, -, -, hclaims⟩ := ServiceVisit.mem_signs hz
  have hsub : z.2.sub = z.1.1 := by
    rw [hclaims]
    rfl
  exact ⟨hsub, hsub ▸ isValidQueueToken_of_mem_joinedOf hjoined⟩

/-- What the state keeps of a step is what the step signed. -/
theorem Services.issued_step (rnd : ℚ → ℚ) (s : ServiceState ι κ) (a : ServiceAct ι κ) :
    ((Services rnd K jwt).step s a).2.issued
      = s.issued ++ ServiceVisit.signs K ⟨s, a, ((Services rnd K jwt).step s a).1⟩ := by
  cases a with
  | queue e act =>
    by_cases hvalid : (isValidEventId e && act.valid) = true
    · have hstep : (Services rnd K jwt).step s (.queue e act) = s.queue rnd K jwt e act :=
        if_pos hvalid
      have hsigns : ServiceVisit.signs K ⟨s, .queue e act, (s.queue rnd K jwt e act).1⟩
          = act.signs K e (s.attempt e) := if_pos hvalid
      rw [hstep, hsigns]
      rfl
    · have hstep : (Services rnd K jwt).step s (.queue e act) = (none, s) := if_neg hvalid
      have hsigns : ServiceVisit.signs K ⟨s, .queue e act, none⟩ = [] := if_neg hvalid
      rw [hstep, hsigns, List.append_nil]
  | request k path header now =>
    obtain ⟨-, -, hissued⟩ := Services.queues_step rnd K jwt s
      (a := .request k path header now) (fun e act he => nomatch he)
    exact hissued.trans (List.append_nil _).symm
  | call act =>
    obtain ⟨-, -, hissued⟩ := Services.queues_step rnd K jwt s (a := .call act)
      (fun e act he => nomatch he)
    exact hissued.trans (List.append_nil _).symm

/-- A pass that was signed stays signed. -/
theorem Services.issued_subset (rnd : ℚ → ℚ) {s : ServiceState ι κ} {acts : List (ServiceAct ι κ)}
    {x : ServiceVisit ι κ} (hx : x ∈ (Services rnd K jwt).trace s acts) :
    s.issued ⊆ x.before.issued := by
  refine Machine.trace_invariant _ (P := fun s' => s.issued ⊆ s'.issued) (fun s' a _ h => ?_)
    (List.Subset.refl _) x hx
  rw [Services.issued_step]
  exact List.subset_append_of_subset_left _ h

/-- **The queues of both services are in order**: of every event, and of every
pass. -/
structure Ordered (K : AdmissionController) (xs : List (ServiceVisit ι κ))
    (s : ServiceState ι κ) : Prop where
  sourced : ∀ eventId, isValidEventId eventId = true →
    Sourced eventId (eventHistory eventId xs) ⟨s.store, s.attempt eventId⟩
  issued : ∀ z ∈ s.issued, IssuedIn K xs z

/-- **Every step of either service** leaves the queues in order. -/
theorem Ordered.step (rnd : ℚ → ℚ) (h : Ordered K xs s) (a : ServiceAct ι κ) :
    Ordered K (xs ++ [⟨s, a, ((Services rnd K jwt).step s a).1⟩])
      ((Services rnd K jwt).step s a).2 where
  sourced eventId he := (h.sourced eventId he).service_step rnd he a
  issued z hz := by
    rw [Services.issued_step] at hz
    obtain hz | hz := List.mem_append.mp hz
    · exact (h.issued z hz).append _
    · refine ⟨xs, _, [], rfl, hz, ?_⟩
      obtain ⟨e, i, jti, now, -, he, hunsigned, hclaims⟩ := ServiceVisit.mem_signs hz
      have hevent : z.2.eventId = e := by
        rw [hclaims]
        rfl
      rw [hevent]
      exact (h.sourced e he).toSign i _ hunsigned

/-- Every queue is empty. -/
def QueuesEmpty (σ : Store) : Prop :=
  ∀ eventId, isValidEventId eventId = true → ∃ v, Holds eventId σ v ∧ v.queue = .empty

omit [DecidableEq ι] [DecidableEq κ] in
/-- Empty queues are in order. -/
theorem QueuesEmpty.ordered {σ : Store} (h : QueuesEmpty σ) (db : BookingDb κ) :
    Ordered K [] (ServiceState.opened σ db : ServiceState ι κ) where
  sourced eventId he := by
    obtain ⟨v, hv, hempty⟩ := h eventId he
    refine ⟨⟨v, hv, fun p hp => ?_⟩, fun i z hz => absurd hz List.not_mem_nil⟩
    rw [hempty] at hp
    exact absurd hp List.not_mem_nil
  issued _ hz := absurd hz List.not_mem_nil

/-- A store that holds nothing has empty queues. -/
theorem queuesEmpty_nothing : QueuesEmpty ⟨fun _ => none, 0⟩ := fun _ _ =>
  ⟨⟨.empty, 0, 0, none, none, fun _ => none, 0⟩, ⟨rfl, Or.inl ⟨rfl, rfl⟩, Or.inl ⟨rfl, rfl⟩,
    ⟨fun _ => none, Or.inl ⟨rfl, rfl⟩, rfl, rfl⟩, rfl, fun _ => rfl, rfl⟩, rfl⟩

end Together
