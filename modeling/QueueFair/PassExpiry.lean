import QueueFair.AdmissionGap

/-!
# The key and the credential

A parked pass dies twice. The credential dies at its `exp`, which counts
whole seconds from the reading its batch was popped at, with the fraction of
the second cut off; the key dies so many seconds after the server ran its
SET. The second is meant never to be the later one.

The fraction cut off and the time between the reading and the SET both delay
the key and not the credential, so the key outlives the credential by their
sum. Where the sum is zero it still does: the credential is refused from its
`exp` on, and the key is still read in the millisecond it expires at. So every
pass is handed out stale if it is asked for late enough
(`key_outlives_credential`).
-/

open Redis

variable {ι : Type} [DecidableEq ι]

/-- A position call of `t` is answered with a pass. -/
def SystemVisit.Collects (x : SystemVisit ι) (t : String) (o : AdmittedOutcome) : Prop :=
  x.action = .position t ∧ x.reply = some (.ok (.position (.ok (.admitted o))))

/-- A position call of `t` is answered with a pass that has reached its `exp`. -/
def SystemVisit.CollectsStale (x : SystemVisit ι) (t : String) : Prop :=
  ∃ o, SystemVisit.Collects x t o ∧ ¬ x.before.store.clock < 1000 * o.admission.expiresAt

/-- No step of a history parks a pass for `t`. -/
def ParksNothing (t : String) (xs : List (SystemVisit ι)) : Prop :=
  ∀ x ∈ xs, ∀ r ∈ SystemVisit.parks x, r.2.queueToken ≠ t

/-- **What is parked for `t` is never collected stale**: whatever happens
next, as long as nothing else is parked for `t`, a pass handed to `t` has not
reached its `exp`. -/
def NeverStale (rnd : ℚ → ℚ) (K : AdmissionController) (encode : PassClaims → String → String)
    (eventId t : String) (s : SystemState ι) : Prop :=
  ∀ acts, ParksNothing t ((AdmissionSystem rnd K encode eventId).trace s acts) →
    ∀ x ∈ (AdmissionSystem rnd K encode eventId).trace s acts, ∀ o,
      SystemVisit.Collects x t o → x.before.store.clock < 1000 * o.admission.expiresAt

/-! ## What is parked for a token -/

namespace EventState

variable {v : EventState} {t : String}

/-- Whoever is answered with a pass is answered with the live one. -/
theorem livePass_of_position {eventId : String} {o : AdmittedOutcome}
    (h : v.position eventId t = .ok (.admitted o)) : v.livePass t = some o.admission := by
  unfold position at h
  cases hc : v.config with
  | none =>
    rw [hc] at h
    exact absurd h (by simp)
  | some c =>
    cases hr : v.queue.rank? t with
    | some r => simp [hc, hr] at h
    | none =>
      cases ha : v.livePass t with
      | none => simp [hc, hr, ha] at h
      | some a =>
        simp only [hc, hr, ha, Except.ok.injEq, Standing.admitted.injEq] at h
        rw [← h]

/-- Nobody in the queue is answered with a pass. -/
theorem notMem_of_position {eventId : String} {o : AdmittedOutcome}
    (h : v.position eventId t = .ok (.admitted o)) : t ∉ v.queue.members := by
  intro ht
  unfold position at h
  cases hc : v.config with
  | none =>
    rw [hc] at h
    exact absurd h (by simp)
  | some c => simp [hc, v.queue.rank?_of_mem ht] at h

/-- Nothing but the parking of a pass changes what is parked. -/
theorem passes_step (rnd : ℚ → ℚ) (eventId : String) {op : EventOp}
    (hop : ∀ p ttl, op = .recordAdmission p ttl → p.queueToken ≠ t) :
    (v.step rnd eventId op).2.passes t = v.passes t := by
  cases op with
  | join t' =>
    obtain ⟨z, n, h⟩ := v.join_snd t'
    show (v.join t').2.passes t = _
    rw [h]
  | admitBatch now =>
    obtain ⟨b, n, h⟩ := v.admitBatch_snd rnd now
    show (v.admitBatch rnd now).2.passes t = _
    rw [h]
  | recordAdmission p ttl =>
    by_cases hpos : ttl ≤ 0
    · rw [step_recordAdmission_of_nonpos rnd eventId v p hpos]
    · rw [step_recordAdmission_of_pos rnd eventId v p hpos]
      exact Function.update_of_ne (hop p ttl rfl).symm _ _
  | _ => rfl

end EventState

/-- A store of a configured event in which this is parked for a token, until
then. -/
def Parked (eventId t : String) (a : Admission) (d : ℤ) (σ : Store) : Prop :=
  ∃ v, Holds eventId σ v ∧ (∃ c, v.config = some c) ∧ v.passes t = some (a, d)

namespace Parked

variable {K : AdmissionController} {eventId t : String} {a : Admission} {d : ℤ}

/-- **One step** that parks nothing for the token. -/
theorem step (rnd : ℚ → ℚ) (encode : PassClaims → String → String) (s : SystemState ι)
    (act : SystemAct ι) (h : Parked eventId t a d s.store)
    (hact : ∀ op ∈ act.op K s, ∀ p ttl, op = .recordAdmission p ttl → p.queueToken ≠ t) :
    Parked eventId t a d ((AdmissionSystem rnd K encode eventId).step s act).2.store := by
  obtain ⟨v, hv, hc, hp⟩ := h
  cases hop : act.op K s with
  | none =>
    rw [AdmissionSystem.step_of_none rnd encode hop]
    exact ⟨v, hv, hc, hp⟩
  | some op =>
    obtain ⟨σ', hσ', hstep⟩ := AdmissionSystem.step_of_some rnd encode hv hop
    rw [hstep]
    exact ⟨_, hσ', EventState.configured_step rnd eventId hc op,
      (EventState.passes_step rnd eventId (hact op hop)).trans hp⟩

omit [DecidableEq ι] in
/-- A step that parks nothing for a token asks the store to park nothing for
it. -/
theorem op_of_parks {x : SystemVisit ι}
    (h : ∀ r ∈ SystemVisit.parks x, r.2.queueToken ≠ t) :
    ∀ op ∈ x.action.op K x.before, ∀ p ttl,
      op = .recordAdmission p ttl → p.queueToken ≠ t := by
  obtain ⟨s, act, reply⟩ := x
  intro op hop p ttl he
  subst he
  cases AdmissionSystem.asks_of_op hop with
  | park hnext => exact h _ hnext

/-- **A whole run** that parks nothing for the token leaves it what it has. -/
theorem run (rnd : ℚ → ℚ) (encode : PassClaims → String → String) {s : SystemState ι}
    (h : Parked eventId t a d s.store) {acts : List (SystemAct ι)}
    (hparks : ParksNothing t ((AdmissionSystem rnd K encode eventId).trace s acts)) :
    ∀ x ∈ (AdmissionSystem rnd K encode eventId).trace s acts,
      Parked eventId t a d x.before.store :=
  Machine.trace_guarded (AdmissionSystem rnd K encode eventId)
    (P := fun s => Parked eventId t a d s.store)
    (C := fun s act => ∀ op ∈ act.op K s, ∀ p ttl,
      op = .recordAdmission p ttl → p.queueToken ≠ t)
    (fun s act hs hact => hs.step rnd encode s act hact) h
    (fun y hy => op_of_parks (hparks y hy))

/-- **What is parked is collected** up to the millisecond its key expires at, by
a position call of a token that is not in the queue. -/
theorem collectsStale_iff (rnd : ℚ → ℚ) (encode : PassClaims → String → String)
    {s : SystemState ι} (h : Parked eventId t a d s.store) {x : SystemVisit ι}
    (hx : x = ⟨s, .position t, ((AdmissionSystem rnd K encode eventId).step s (.position t)).1⟩) :
    SystemVisit.CollectsStale x t
      ↔ ¬ InQueue eventId s.store t ∧ 1000 * a.expiresAt ≤ s.store.clock ∧ s.store.clock ≤ d := by
  obtain ⟨v, hv, ⟨c, hc⟩, hp⟩ := h
  obtain ⟨σ', -, hstep⟩ := AdmissionSystem.step_of_some rnd encode hv
    (rfl : (SystemAct.position t).op K s = some (.position t))
  -- the call is answered as the record answers it
  have hreply : x.reply = some (.ok (.position (v.position eventId t))) := by
    rw [hx]
    exact congrArg Prod.fst hstep
  have hbefore : x.before = s := by rw [hx]
  have hlive : v.livePass t = if v.clock ≤ d then some a else none := by
    rw [EventState.livePass, hp, Option.bind_some]
  rw [hv.inQueue_iff, hv.clock]
  constructor
  · rintro ⟨o, ⟨-, ho⟩, hstale⟩
    have hpos : v.position eventId t = .ok (.admitted o) := by
      simpa using hreply.symm.trans ho
    have hcollected := EventState.livePass_of_position hpos
    rw [hlive] at hcollected
    by_cases hd : v.clock ≤ d
    · rw [if_pos hd] at hcollected
      rw [hbefore, hv.clock, ← Option.some.inj hcollected] at hstale
      exact ⟨EventState.notMem_of_position hpos, not_lt.mp hstale, hd⟩
    · rw [if_neg hd] at hcollected
      exact absurd hcollected (by simp)
  · rintro ⟨ht, hstale, hd⟩
    rw [if_pos hd] at hlive
    have hpos := EventState.position_of_admitted hc eventId (v.queue.rank?_eq_none_iff.mpr ht) hlive
    refine ⟨_, ⟨by rw [hx], by rw [hreply, hpos]⟩, ?_⟩
    rw [hbefore, hv.clock]
    exact not_lt.mpr hstale

end Parked

/-! ## The parking of a pass -/

namespace AdmissionSystem

variable {K : AdmissionController} {eventId : String}

/-- The record a reachable store holds, with the passes of every admitter
dated. -/
theorem holds_final (rnd : ℚ → ℚ) (encode : PassClaims → String → String) {σ : Store}
    {c : QueueConfig} (h : Fresh eventId σ c) (acts : List (SystemAct ι)) :
    (∀ i, (((AdmissionSystem rnd K encode eventId).final ⟨σ, fun _ => .idle⟩ acts).tick i).Dated K)
      ∧ ∃ v, Holds eventId
          ((AdmissionSystem rnd K encode eventId).final ⟨σ, fun _ => .idle⟩ acts).store v
        ∧ ∃ c, v.config = some c := by
  obtain ⟨passes, hv⟩ := h.holds
  refine Machine.final_invariant _ (P := fun s : SystemState ι => (∀ i, (s.tick i).Dated K)
    ∧ ∃ v, Holds eventId s.store v ∧ ∃ c, v.config = some c) (fun s a _ hs => ?_)
    ⟨fun _ => Tick.dated_idle, _, hv, c, rfl⟩
  obtain ⟨hdated, v, hv, hc⟩ := hs
  cases hop : a.op K s with
  | none =>
    rw [step_of_none rnd encode hop]
    exact ⟨SystemAct.ticks_dated hdated encode eventId a none, v, hv, hc⟩
  | some op =>
    obtain ⟨σ', hσ', hstep⟩ := step_of_some rnd encode hv hop
    rw [hstep]
    exact ⟨SystemAct.ticks_dated hdated encode eventId a _, _, hσ',
      EventState.configured_step rnd eventId hc op⟩

/-- **What parking a pass does**: it is kept for its lifetime from now. -/
theorem step_park (rnd : ℚ → ℚ) (encode : PassClaims → String → String) {s : SystemState ι}
    {v : EventState} (hv : Holds eventId s.store v) (hpos : 0 < K.passTtlSeconds) {i : ι}
    {now : ℤ} {p : IssuedPass} (hnext : (s.tick i).next = some (now, p)) :
    Holds eventId ((AdmissionSystem rnd K encode eventId).step s (.park i)).2.store
      (v.recordAdmission eventId p K.passTtlSeconds) := by
  have hop : (SystemAct.park i).op K s = some (.recordAdmission p K.passTtlSeconds) := by
    show (s.tick i).next.map _ = _
    rw [hnext]
    rfl
  obtain ⟨σ', hσ', hstep⟩ := step_of_some rnd encode hv hop
  rw [EventState.step_recordAdmission_of_pos rnd eventId v p (not_le.mpr hpos)] at hσ'
  rw [hstep]
  exact hσ'

/-- Neither time nor a position call parks anything. -/
theorem parksNothing_of_wait (rnd : ℚ → ℚ) (K : AdmissionController)
    (encode : PassClaims → String → String) (eventId t : String) (s : SystemState ι) (n : ℕ) :
    ParksNothing t ((AdmissionSystem rnd K encode eventId).trace s [.wait n, .position t]) := by
  intro y hy r hr
  have hact := Machine.action_mem_of_mem_trace _ hy
  unfold SystemVisit.parks at hr
  rcases List.mem_pair.mp hact with he | he <;> simp [he] at hr

/-- A position call served after a while finds the queue as it was. -/
theorem exists_position_of_wait (rnd : ℚ → ℚ) (K : AdmissionController)
    (encode : PassClaims → String → String) {s : SystemState ι} {v : EventState}
    (hv : Holds eventId s.store v) (t : String) (n : ℕ) :
    ∃ x ∈ (AdmissionSystem rnd K encode eventId).trace s [.wait n, .position t],
      x.action = .position t ∧ x.before.store.clock = v.clock + n
        ∧ (InQueue eventId x.before.store t ↔ t ∈ v.queue.members) := by
  obtain ⟨σ', hσ', hwait⟩ := step_of_some rnd encode hv
    (rfl : (SystemAct.wait n).op K s = some (.wait n))
  refine ⟨_, List.mem_cons_of_mem _ List.mem_cons_self, rfl, ?_⟩
  rw [hwait]
  exact ⟨hσ'.clock, hσ'.inQueue_iff⟩

end AdmissionSystem

/-- **Every key outlives its credential.** In any state some run of joins,
position calls, rewrites of the configuration and admitters reaches, let an
admitter be about to park a pass of a batch popped at `now`, not later than now.
As long as nothing else is parked for the token, the pass is collected stale by
exactly those of its position calls that are served while it is out of the
queue, from the `exp` of the pass up to the end of its key. So unless the token
is back in the queue, some run collects the pass stale, punctual or not. -/
theorem key_outlives_credential (rnd : ℚ → ℚ) (encode : PassClaims → String → String)
    (secret : String) (hsecret : secret ≠ "") {ttlSeconds : ℤ} (httl : 0 < ttlSeconds)
    {eventId : String} {σ : Store} {c : QueueConfig} (h : Fresh eventId σ c)
    (acts : List (SystemAct ι)) {i : ι} {now : ℤ} {p : IssuedPass} :
    let K := buildAdmissionController secret hsecret ttlSeconds
    let M := AdmissionSystem rnd K encode eventId
    let s := M.final ⟨σ, fun _ => .idle⟩ acts
    (s.tick i).next = some (now, p) → now ≤ s.store.clock →
      p.expiresAt = now / 1000 + ttlSeconds
        ∧ (∀ acts, ParksNothing p.queueToken (M.trace (M.step s (.park i)).2 acts) →
          ∀ x ∈ M.trace (M.step s (.park i)).2 acts, x.action = .position p.queueToken →
            (SystemVisit.CollectsStale x p.queueToken
              ↔ ¬ InQueue eventId x.before.store p.queueToken
                ∧ 1000 * p.expiresAt ≤ x.before.store.clock
                ∧ x.before.store.clock ≤ s.store.clock + 1000 * ttlSeconds))
        ∧ (¬ InQueue eventId s.store p.queueToken →
          ¬ NeverStale rnd K encode eventId p.queueToken (M.step s (.park i)).2) := by
  intro K M s hnext hlater
  obtain ⟨hdated, v, hv, hc⟩ := AdmissionSystem.holds_final (K := K) rnd encode h acts
  have hexp : p.expiresAt = now / 1000 + ttlSeconds := (hdated i).next hnext
  have hpark := AdmissionSystem.step_park rnd encode (K := K) hv httl hnext
  have hparked : Parked eventId p.queueToken (RedisQueueRepository.payload eventId p)
      (s.store.clock + 1000 * ttlSeconds) (M.step s (.park i)).2.store := by
    refine ⟨_, hpark, hc, ?_⟩
    rw [hv.clock]
    exact Function.update_self _ _ _
  have hcollects : ∀ acts, ParksNothing p.queueToken (M.trace (M.step s (.park i)).2 acts) →
      ∀ x ∈ M.trace (M.step s (.park i)).2 acts, x.action = .position p.queueToken →
        (SystemVisit.CollectsStale x p.queueToken ↔ ¬ InQueue eventId x.before.store p.queueToken
          ∧ 1000 * p.expiresAt ≤ x.before.store.clock
          ∧ x.before.store.clock ≤ s.store.clock + 1000 * ttlSeconds) := by
    intro acts hparks x hx hact
    refine (hparked.run rnd encode hparks x hx).collectsStale_iff rnd encode (K := K) ?_
    rw [← hact, ← Machine.reply_of_mem_trace _ hx]
  refine ⟨hexp, hcollects, fun hqueue hnever => ?_⟩
  -- asked for in the last millisecond of the key
  obtain ⟨x, hx, hact, hclock, hin⟩ := AdmissionSystem.exists_position_of_wait rnd K encode hpark
    p.queueToken (1000 * ttlSeconds).toNat
  have hparks := AdmissionSystem.parksNothing_of_wait rnd K encode eventId p.queueToken
    (M.step s (.park i)).2 (1000 * ttlSeconds).toNat
  have hlate : x.before.store.clock = s.store.clock + 1000 * ttlSeconds := by
    rw [hclock, hv.clock]
    show v.clock + _ = v.clock + _
    omega
  obtain ⟨o, ho, hstale⟩ := (hcollects _ hparks x hx hact).mpr
    ⟨fun ht => hqueue (hv.inQueue_iff.mpr (hin.mp ht)), by omega, hlate.le⟩
  exact hstale (hnever _ hparks x hx o ho)

/-- A batch popped half a second into a second: the pass is handed out 400
milliseconds after it has expired. -/
theorem collected_after_expiry :
    ∃ x ∈ (AdmissionSystem id (buildAdmissionController "secret" (by decide) 60)
        (fun claims _ => claims.jti) "e").trace ⟨createdStore "e" ⟨60, 1, 5⟩, fun _ : Unit => .idle⟩
          [.join "a", .wait 1500, .admitBatch () 1500, .sign () ["jti"], .park (), .wait 59900,
            .position "a"],
      ∃ o, SystemVisit.Collects x "a" o ∧ x.before.store.clock = 61400
        ∧ o.admission.expiresAt = 1500 / 1000 + 60
        ∧ ¬ x.before.store.clock < 1000 * o.admission.expiresAt := by
  refine ⟨_, List.getLast_mem (by simp [Machine.trace_cons]), ⟨⟨"jti", 61, "/events/e/book"⟩, 0, 1⟩,
    ⟨rfl, ?_⟩, ?_, rfl, ?_⟩
  · decide +kernel
  · decide +kernel
  · decide +kernel

/-- A batch popped on a whole second and parked at once: the pass is still
handed out stale, in the last millisecond of its key. -/
theorem key_outlives_credential_of_whole_second :
    let K := buildAdmissionController "secret" (by decide) 60
    let M := AdmissionSystem id K (fun claims _ => claims.jti) "e"
    let s := M.final ⟨createdStore "e" ⟨60, 1, 5⟩, fun _ : Unit => .idle⟩
      [.join "a", .wait 2000, .admitBatch () 2000, .sign () ["jti"]]
    s.store.clock = 2000 ∧ ¬ NeverStale id K (fun claims _ => claims.jti) "e" "a"
      (M.step s (.park ())).2 := by
  intro K M s
  have hclock : s.store.clock = 2000 := by decide +kernel
  refine ⟨hclock, (key_outlives_credential id (fun claims _ => claims.jti) "secret" (by decide)
    (by decide) (fresh_createdStore "e" ⟨60, 1, 5⟩)
    [.join "a", .wait 2000, .admitBatch () 2000, .sign () ["jti"]] (i := ())
    (p := ⟨"a", "jti", "jti", 62⟩) (show _ = some (2000, _) by decide +kernel)
    (by rw [hclock])).2.2 ?_⟩
  -- the batch emptied the queue
  have hempty : s.store.entries (EventKeys.mk "e").queue = none := by
    rw [← Option.isNone_iff_eq_none]
    decide +kernel
  rintro ⟨W, hW, ha⟩
  have hnil : W.entries = [] := by
    by_contra hne
    rw [Keyspace.HoldsZset, hempty, if_neg hne] at hW
    exact nomatch hW
  rw [ZSet.members, hnil] at ha
  exact absurd ha List.not_mem_nil
