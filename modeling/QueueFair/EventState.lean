import QueueFair.QueueRepository

/-!
# The state of one event

What the store holds about one event, as a record rather than as keys: the
queue, the two counters, the bucket, the configuration and the parked
passes. `Holds` says that a store holds a record, and every operation of the
service on such a store answers what the corresponding function of the record
answers and leaves a store that holds the record it returns
(`Holds.serve`). Invariants are proved of the record; this module is what
makes them statements about the store.
-/

open Redis

/-- The state of a token bucket. -/
structure TokenBucket where
  tokens : ℚ
  lastRefillMs : ℚ
deriving DecidableEq

/-- What the store holds about one event. -/
structure EventState where
  /-- The waiters, by arrival sequence. -/
  queue : ZSet String ℤ
  /-- The last arrival sequence given out. -/
  seq : ℤ
  /-- How many waiters were ever admitted. -/
  admitted : ℤ
  /-- The bucket, once a tick has run. -/
  bucket : Option TokenBucket
  /-- The configuration, once an operator has written one. -/
  config : Option QueueConfig
  /-- Per token, what is parked for it and when that expires. -/
  passes : String → Option (Admission × ℤ)
  /-- The clock of the server, in milliseconds. -/
  clock : ℤ

/-- One operation on an event, each a single step of the server. -/
inductive EventOp where
  /-- A waiter joins, or resumes a place. -/
  | join (queueToken : String)
  /-- A waiter asks where it stands. -/
  | position (queueToken : String)
  /-- An admitter, whose clock reads `nowMs`, runs the batch script. -/
  | admitBatch (nowMs : ℤ)
  /-- An operator rewrites the configuration. -/
  | configure (options : QueueConfig)
  /-- An operator resets the queue state. -/
  | reset
  /-- An admitter parks a pass. -/
  | recordAdmission (issued : IssuedPass) (ttlSeconds : ℤ)
  /-- Time passes. -/
  | wait (ms : ℕ)
deriving DecidableEq

/-- What an operation returns to its caller. -/
inductive Answer where
  | join (outcome : Except QueueError (Option JoinOutcome))
  | position (outcome : Except QueueError Standing)
  | admitBatch (outcome : Except QueueError (Option AdmissionBatch))
  | done
deriving DecidableEq

/-- **An operation on the store**, as the repository and the operator's
command run it. -/
def EventOp.serve (rnd : ℚ → ℚ) (eventId : String) : EventOp → Redis Admission Answer
  | join t => do return .join (← RedisQueueRepository.join eventId t)
  | position t => do return .position (← RedisQueueRepository.position eventId t)
  | admitBatch now => do return .admitBatch (← RedisQueueRepository.admitBatch rnd eventId now)
  | configure c => do CreateEvent.configure eventId c; return .done
  | reset => do CreateEvent.reset eventId; return .done
  | recordAdmission p ttl => do
    RedisQueueRepository.recordAdmission eventId p ttl
    return .done
  | wait d => fun σ => (.ok .done, σ.wait d)

namespace EventState

/-! ## The operations on the record -/

/-- The pass waiting for a token, if one is and it is not past its expiry. -/
def livePass (v : EventState) (t : String) : Option Admission :=
  (v.passes t).bind (fun p => if v.clock ≤ p.2 then some p.1 else none)

/-- A join: the place held, or the next one. -/
def join (v : EventState) (t : String) : Option JoinOutcome × EventState :=
  match v.config with
  | none => (none, v)
  | some c =>
    match v.queue.score? t with
    | some s => (some ⟨s, false, v.queue.card, v.admitted, c.ratePerMin⟩, v)
    | none =>
      let q := v.queue.add t (v.seq + 1)
      (some ⟨v.seq + 1, true, q.card, v.admitted, c.ratePerMin⟩,
        { v with queue := q, seq := v.seq + 1 })

/-- A position call, which writes nothing. -/
def position (v : EventState) (eventId t : String) : Except QueueError Standing :=
  match v.config with
  | none => .error (.unknownEvent eventId)
  | some c =>
    match v.queue.rank? t with
    | some r => .ok (.waiting ⟨r + 1, v.queue.card, v.admitted, c.ratePerMin⟩)
    | none =>
      match v.livePass t with
      | some a => .ok (.admitted ⟨a, v.queue.card, v.admitted⟩)
      | none => .error (.unknownToken t)

/-- The tokens in the bucket once it is refilled, starting full. -/
def budget (rnd : ℚ → ℚ) (c : QueueConfig) (b : Option TokenBucket) (nowMs : ℤ) : ℚ :=
  let b := b.getD ⟨c.burst, rnd nowMs⟩
  refill rnd c.ratePerMin c.burst b.tokens b.lastRefillMs (rnd nowMs)

/-- The three ceilings on a batch: whole tokens, the batch limit, and who is
waiting. -/
def batchSize (tokens : ℚ) (batchMax : ℤ) (waiting : ℕ) : ℤ :=
  min (min ⌊tokens⌋ batchMax) waiting

/-- A tick: refill the bucket, and release as many waiters as the ceilings
allow. -/
def admitBatch (rnd : ℚ → ℚ) (v : EventState) (nowMs : ℤ) :
    Option AdmissionBatch × EventState :=
  match v.config with
  | none => (none, v)
  | some c =>
    if c.ratePerMin ≤ 0 then (some ⟨[], v.admitted⟩, v)
    else
      let tokens := budget rnd c v.bucket nowMs
      let n := batchSize tokens c.batchMax v.queue.card
      (some ⟨(v.queue.popped n.toNat).map Prod.fst, v.admitted + n.toNat⟩,
        { v with
          bucket := some ⟨rnd (tokens - n), rnd nowMs⟩
          queue := v.queue.popMin n.toNat
          admitted := v.admitted + n.toNat })

/-- Parking a pass. -/
def recordAdmission (v : EventState) (eventId : String) (p : IssuedPass) (ttl : ℤ) :
    EventState :=
  { v with
    passes := Function.update v.passes p.queueToken
      (some (RedisQueueRepository.payload eventId p, v.clock + 1000 * ttl)) }

/-- **One operation on the record**: what it answers, and the record after
it. -/
def step (rnd : ℚ → ℚ) (eventId : String) (v : EventState) :
    EventOp → Except Redis.Error Answer × EventState
  | .join t => (.ok (.join (.ok (v.join t).1)), (v.join t).2)
  | .position t => (.ok (.position (v.position eventId t)), v)
  | .admitBatch now => (.ok (.admitBatch (.ok (v.admitBatch rnd now).1)), (v.admitBatch rnd now).2)
  | .configure c => (.ok .done, { v with config := some c })
  | .reset => (.ok .done, { v with queue := .empty, seq := 0, admitted := 0, bucket := none })
  | .recordAdmission p ttl =>
    if ttl ≤ 0 then (.error .invalidExpire, v)
    else (.ok .done, v.recordAdmission eventId p ttl)
  | .wait d => (.ok .done, { v with clock := v.clock + d })

/-! ## What each operation does -/

theorem batchSize_le_card (tokens : ℚ) (batchMax : ℤ) (waiting : ℕ) :
    batchSize tokens batchMax waiting ≤ waiting := min_le_right _ _

/-- The comparisons of the script, one ceiling after the other, are a
minimum. -/
theorem batchCeilings_eq (tokens : ℚ) (batchMax : ℤ) (waiting : ℕ) :
    batchCeilings tokens batchMax waiting
      = ((batchSize tokens batchMax waiting : ℤ) : ℚ) := by
  have hstep : ∀ a b : ℤ, (if (a : ℚ) > b then (b : ℚ) else a) = ((min a b : ℤ) : ℚ) := by
    intro a b
    rcases lt_or_ge b a with h | h
    · rw [if_pos (by exact_mod_cast h), min_eq_right h.le]
    · rw [if_neg (by exact_mod_cast not_lt.mpr h), min_eq_left h]
  simp only [batchCeilings, hstep, batchSize]

variable {v : EventState} {c : QueueConfig}

theorem join_of_unconfigured (hc : v.config = none) (t : String) :
    v.join t = (none, v) := by
  unfold join
  rw [hc]

/-- A waiter in the queue resumes the place held, and nothing changes. -/
theorem join_of_queued (hc : v.config = some c) {t : String} {s : ℤ}
    (hs : v.queue.score? t = some s) :
    v.join t = (some ⟨s, false, v.queue.card, v.admitted, c.ratePerMin⟩, v) := by
  unfold join
  rw [hc]
  dsimp only
  rw [hs]

/-- Anyone else takes the next sequence. -/
theorem join_of_new (hc : v.config = some c) {t : String}
    (hs : v.queue.score? t = none) :
    v.join t = (some ⟨v.seq + 1, true, (v.queue.add t (v.seq + 1)).card, v.admitted,
        c.ratePerMin⟩,
      { v with queue := v.queue.add t (v.seq + 1), seq := v.seq + 1 }) := by
  simp only [join, hc, hs]

/-- A join writes nothing but the queue and the sequence counter. -/
theorem join_snd (v : EventState) (t : String) :
    ∃ z n, (v.join t).2 = { v with queue := z, seq := n } := by
  obtain hc | ⟨c, hc⟩ := Option.eq_none_or_eq_some v.config
  · exact ⟨v.queue, v.seq, congrArg Prod.snd (join_of_unconfigured hc t)⟩
  · cases hs : v.queue.score? t with
    | some s => exact ⟨v.queue, v.seq, congrArg Prod.snd (join_of_queued hc hs)⟩
    | none => exact ⟨_, _, congrArg Prod.snd (join_of_new hc hs)⟩

/-- A join puts the one who joins in the queue, and nobody else. -/
theorem mem_members_join {t : String} (hc : ∃ c, v.config = some c) (t' : String) :
    t ∈ (v.join t').2.queue.members ↔ t = t' ∨ t ∈ v.queue.members := by
  obtain ⟨c, hc⟩ := hc
  cases hs : v.queue.score? t' with
  | some s =>
    rw [join_of_queued hc hs]
    have hmem : t' ∈ v.queue.members :=
      List.mem_map_of_mem (f := Prod.fst) (v.queue.score?_eq_some_iff.mp hs)
    exact ⟨Or.inr, fun h => h.elim (fun he => he ▸ hmem) id⟩
  | none =>
    rw [join_of_new hc hs]
    exact v.queue.mem_members_add

theorem position_of_unconfigured (hc : v.config = none) (eventId t : String) :
    v.position eventId t = .error (.unknownEvent eventId) := by
  simp only [position, hc]

theorem position_of_queued (hc : v.config = some c) (eventId : String) {t : String}
    {r : ℕ} (hr : v.queue.rank? t = some r) : v.position eventId t
      = .ok (.waiting ⟨r + 1, v.queue.card, v.admitted, c.ratePerMin⟩) := by
  simp only [position, hc, hr]

theorem position_of_admitted (hc : v.config = some c) (eventId : String) {t : String}
    (hr : v.queue.rank? t = none) {a : Admission} (ha : v.livePass t = some a) :
    v.position eventId t = .ok (.admitted ⟨a, v.queue.card, v.admitted⟩) := by
  simp only [position, hc, hr, ha]

theorem position_of_stranger (hc : v.config = some c) (eventId : String) {t : String}
    (hr : v.queue.rank? t = none) (ha : v.livePass t = none) :
    v.position eventId t = .error (.unknownToken t) := by
  simp only [position, hc, hr, ha]

theorem admitBatch_of_unconfigured (rnd : ℚ → ℚ) (hc : v.config = none) (now : ℤ) :
    v.admitBatch rnd now = (none, v) := by
  simp only [admitBatch, hc]

/-- A paused tick admits nobody and leaves the bucket alone. -/
theorem admitBatch_of_paused (rnd : ℚ → ℚ) (hc : v.config = some c)
    (hr : c.ratePerMin ≤ 0) (now : ℤ) :
    v.admitBatch rnd now = (some ⟨[], v.admitted⟩, v) := by
  simp only [admitBatch, hc, if_pos hr]

theorem admitBatch_of_active (rnd : ℚ → ℚ) (hc : v.config = some c)
    (hr : 0 < c.ratePerMin) (now : ℤ) :
    let tokens := budget rnd c v.bucket now
    let n := batchSize tokens c.batchMax v.queue.card
    v.admitBatch rnd now = (some ⟨(v.queue.popped n.toNat).map Prod.fst, v.admitted + n.toNat⟩,
      { v with
        bucket := some ⟨rnd (tokens - n), rnd now⟩
        queue := v.queue.popMin n.toNat
        admitted := v.admitted + n.toNat }) := by
  intro tokens n
  simp only [admitBatch, hc, if_neg (not_le.mpr hr)]
  rfl

/-- How many waiters a tick releases. -/
def batch (rnd : ℚ → ℚ) (v : EventState) (nowMs : ℤ) : ℕ :=
  match v.config with
  | none => 0
  | some c =>
    if c.ratePerMin ≤ 0 then 0
    else (batchSize (budget rnd c v.bucket nowMs) c.batchMax v.queue.card).toNat

/-- No tick releases more than there are. -/
theorem batch_le_card (rnd : ℚ → ℚ) (v : EventState) (now : ℤ) :
    v.batch rnd now ≤ v.queue.card := by
  unfold batch
  cases v.config with
  | none => exact Nat.zero_le _
  | some c =>
    dsimp only
    by_cases hr : c.ratePerMin ≤ 0
    · rw [if_pos hr]
      exact Nat.zero_le _
    · rw [if_neg hr]
      exact Int.toNat_le.mpr (batchSize_le_card _ _ _)

/-- **What a tick does**, apart from the bucket: a batch leaves the front of
the queue and is counted. -/
theorem admitBatch_eq (rnd : ℚ → ℚ) (hc : v.config = some c) (now : ℤ) :
    ∃ b, v.admitBatch rnd now
      = (some ⟨(v.queue.popped (v.batch rnd now)).map Prod.fst, v.admitted + v.batch rnd now⟩,
        { v with
          bucket := b
          queue := v.queue.popMin (v.batch rnd now)
          admitted := v.admitted + v.batch rnd now }) := by
  by_cases hr : c.ratePerMin ≤ 0
  · have hb : v.batch rnd now = 0 := by simp only [batch, hc, if_pos hr]
    rw [admitBatch_of_paused rnd hc hr, hb, Nat.cast_zero, add_zero]
    exact ⟨v.bucket, rfl⟩
  · have hb : v.batch rnd now
        = (batchSize (budget rnd c v.bucket now) c.batchMax v.queue.card).toNat := by
      simp only [batch, hc, if_neg hr]
    rw [admitBatch_of_active rnd hc (not_le.mp hr), hb]
    exact ⟨_, rfl⟩

/-- A pass of no lifetime is refused. -/
theorem step_recordAdmission_of_nonpos (rnd : ℚ → ℚ) (eventId : String) (v : EventState)
    (p : IssuedPass) {ttl : ℤ} (h : ttl ≤ 0) :
    v.step rnd eventId (.recordAdmission p ttl) = (.error .invalidExpire, v) := if_pos h

theorem step_recordAdmission_of_pos (rnd : ℚ → ℚ) (eventId : String) (v : EventState)
    (p : IssuedPass) {ttl : ℤ} (h : ¬ ttl ≤ 0) :
    v.step rnd eventId (.recordAdmission p ttl)
      = (.ok .done, v.recordAdmission eventId p ttl) := if_neg h

/-- Parking writes nothing but the passes. -/
theorem step_recordAdmission_snd (rnd : ℚ → ℚ) (eventId : String) (v : EventState)
    (p : IssuedPass) (ttl : ℤ) :
    ∃ ps, (v.step rnd eventId (.recordAdmission p ttl)).2 = { v with passes := ps } := by
  by_cases h : ttl ≤ 0
  · exact ⟨v.passes, by rw [step_recordAdmission_of_nonpos rnd eventId v p h]⟩
  · exact ⟨_, by rw [step_recordAdmission_of_pos rnd eventId v p h]; rfl⟩

/-- An event is not configured or paused, or it is active. -/
theorem idle_or_active (v : EventState) : (∀ c, v.config = some c → c.ratePerMin ≤ 0)
    ∨ ∃ c, v.config = some c ∧ 0 < c.ratePerMin := by
  obtain hc | ⟨c, hc⟩ := Option.eq_none_or_eq_some v.config
  · exact Or.inl (fun c hc' => absurd (hc.symm.trans hc') (by simp))
  · by_cases hr : c.ratePerMin ≤ 0
    · refine Or.inl (fun c' hc' => ?_)
      rwa [← Option.some.inj (hc.symm.trans hc')]
    · exact Or.inr ⟨c, hc, not_le.mp hr⟩

/-- A tick that is not configured or paused leaves the bucket alone and
admits nobody. -/
theorem admitBatch_idle (rnd : ℚ → ℚ) (h : ∀ c, v.config = some c → c.ratePerMin ≤ 0)
    (now : ℤ) : v.batch rnd now = 0 ∧ (v.admitBatch rnd now).2 = v := by
  cases hc : v.config with
  | none => simp only [batch, hc, admitBatch_of_unconfigured rnd hc, and_self]
  | some c =>
    have hr := h c hc
    simp only [batch, hc, if_pos hr, admitBatch_of_paused rnd hc hr, and_self]

/-- A tick writes nothing but the queue, the counter and the bucket, and of
the queue it takes the front. -/
theorem admitBatch_snd (rnd : ℚ → ℚ) (v : EventState) (now : ℤ) :
    ∃ b n, (v.admitBatch rnd now).2
      = { v with bucket := b, queue := v.queue.popMin (v.batch rnd now), admitted := n } := by
  obtain hidle | ⟨c, hc, hr⟩ := v.idle_or_active
  · obtain ⟨hbatch, hstep⟩ := admitBatch_idle rnd hidle now
    rw [hbatch, hstep]
    exact ⟨v.bucket, v.admitted, by rw [show v.queue.popMin 0 = v.queue from ZSet.ext rfl]⟩
  · obtain ⟨b, hb⟩ := admitBatch_eq rnd hc now
    exact ⟨b, _, congrArg Prod.snd hb⟩

/-- Whoever waits and is not let in still waits. -/
theorem mem_members_step (rnd : ℚ → ℚ) (eventId : String) (hc : ∃ c, v.config = some c)
    {t : String} (ht : t ∈ v.queue.members) {op : EventOp} (hop : op ≠ .reset)
    (hstay : ∀ now, op = .admitBatch now →
      t ∉ (v.admitBatch rnd now).1.elim [] AdmissionBatch.admittedTokens) :
    t ∈ (v.step rnd eventId op).2.queue.members := by
  cases op with
  | join t' => exact (mem_members_join hc t').mpr (Or.inr ht)
  | admitBatch now =>
    obtain ⟨c, hc⟩ := hc
    obtain ⟨b, hb⟩ := admitBatch_eq rnd hc now
    have hout := hstay now rfl
    rw [hb] at hout
    show t ∈ (v.admitBatch rnd now).2.queue.members
    rw [hb]
    rw [← v.queue.popped_append_popMin (v.batch rnd now)] at ht
    exact (List.mem_append.mp ht).resolve_left hout
  | reset => exact absurd rfl hop
  | recordAdmission p ttl =>
    obtain ⟨ps, h⟩ := v.step_recordAdmission_snd rnd eventId p ttl
    rw [h]
    exact ht
  | _ => exact ht

/-- Only an operator's rewrite changes the configuration. -/
theorem config_of_not_configure (rnd : ℚ → ℚ) (eventId : String) (op : EventOp)
    (hop : ∀ c, op ≠ .configure c) : (v.step rnd eventId op).2.config = v.config := by
  cases op with
  | join t =>
    obtain ⟨z, n, h⟩ := v.join_snd t
    show (v.join t).2.config = _
    rw [h]
  | admitBatch now =>
    obtain ⟨b, n, h⟩ := v.admitBatch_snd rnd now
    show (v.admitBatch rnd now).2.config = _
    rw [h]
  | configure c => exact absurd rfl (hop c)
  | recordAdmission p ttl =>
    obtain ⟨ps, h⟩ := v.step_recordAdmission_snd rnd eventId p ttl
    rw [h]
  | _ => rfl

/-- A configured event stays configured. -/
theorem configured_step (rnd : ℚ → ℚ) (eventId : String) (hc : ∃ c, v.config = some c)
    (op : EventOp) : ∃ c, (v.step rnd eventId op).2.config = some c := by
  by_cases hop : ∃ c, op = .configure c
  · obtain ⟨c, rfl⟩ := hop
    exact ⟨c, rfl⟩
  · rw [config_of_not_configure rnd eventId op (fun c he => hop ⟨c, he⟩)]
    exact hc

end EventState

/-! ## A store that holds a record -/

/-- An event is configured: the hash of its configuration spells three
integers. -/
def Configured (eventId : String) (σ : Store) (c : QueueConfig) : Prop :=
  ∃ f, σ.entries (EventKeys.mk eventId).config = some ⟨.hash f, none⟩
    ∧ f "rate_per_min" = some (.num c.ratePerMin)
    ∧ f "burst" = some (.num c.burst) ∧ f "batch_max" = some (.num c.batchMax)

/-- **The store holds a record at the keys of an event.** -/
structure Holds (eventId : String) (σ : Store) (v : EventState) : Prop where
  queue : σ.HoldsZset (EventKeys.mk eventId).queue v.queue
  seq : σ.HoldsCount (EventKeys.mk eventId).seq v.seq
  admitted : σ.HoldsCount (EventKeys.mk eventId).admitted v.admitted
  bucket : ∃ f, σ.HoldsHash (EventKeys.mk eventId).bucket f
    ∧ f "tokens" = v.bucket.map (fun b => .num b.tokens)
    ∧ f "last_refill_ms" = v.bucket.map (fun b => .num b.lastRefillMs)
  config : match v.config with
    | none => σ.entries (EventKeys.mk eventId).config = none
    | some c => Configured eventId σ c
  passes : ∀ t, σ.entries ((EventKeys.mk eventId).passFor t)
    = (v.passes t).map (fun p => ⟨.string (.blob p.1), some p.2⟩)
  clock : σ.clock = v.clock

namespace Holds

variable {eventId : String} {σ : Store} {v : EventState}

/-! ## One write at a time

A write to one key of the event is a change of one field of the record: the
other keys are other keys. -/

theorem config_of_ne (h : Holds eventId σ v) {k : String}
    (hk : (EventKeys.mk eventId).config ≠ k) (e : Option (Entry Admission)) :
    match v.config with
    | none => (σ.write k e).entries (EventKeys.mk eventId).config = none
    | some c => Configured eventId (σ.write k e) c := by
  unfold Configured
  rw [Keyspace.write_entries_of_ne σ hk e]
  exact h.config

theorem bucket_of_ne (h : Holds eventId σ v) {k : String}
    (hk : (EventKeys.mk eventId).bucket ≠ k) (e : Option (Entry Admission)) :
    ∃ f, (σ.write k e).HoldsHash (EventKeys.mk eventId).bucket f
      ∧ f "tokens" = v.bucket.map (fun b => .num b.tokens)
      ∧ f "last_refill_ms" = v.bucket.map (fun b => .num b.lastRefillMs) := by
  obtain ⟨f, hf, ht, hl⟩ := h.bucket
  exact ⟨f, hf.write_of_ne hk e, ht, hl⟩

theorem passes_of_ne (h : Holds eventId σ v) {s : String}
    (hs : s.toList.take 5 ≠ "pass:".toList) (e : Option (Entry Admission)) (t : String) :
    (σ.write ((EventKeys.mk eventId).key s) e).entries ((EventKeys.mk eventId).passFor t)
      = (v.passes t).map (fun p => ⟨.string (.blob p.1), some p.2⟩) :=
  (Keyspace.write_entries_of_ne σ (EventKeys.passFor_ne _ t hs) e).trans (h.passes t)

theorem write_queue (h : Holds eventId σ v) (z : ZSet String ℤ) :
    Holds eventId (σ.write (EventKeys.mk eventId).queue
      (if z.entries = [] then none else some ⟨.zset z, none⟩)) { v with queue := z } where
  queue := Keyspace.holdsZset_write z
  seq := h.seq.write_of_ne (EventKeys.key_ne _ (by decide)) _
  admitted := h.admitted.write_of_ne (EventKeys.key_ne _ (by decide)) _
  bucket := h.bucket_of_ne (EventKeys.key_ne _ (by decide)) _
  config := h.config_of_ne (EventKeys.key_ne _ (by decide)) _
  passes := h.passes_of_ne (by decide) _
  clock := h.clock

theorem write_seq (h : Holds eventId σ v) {n : ℤ} {e : Option (Entry Admission)}
    (he : (σ.write (EventKeys.mk eventId).seq e).HoldsCount (EventKeys.mk eventId).seq n) :
    Holds eventId (σ.write (EventKeys.mk eventId).seq e) { v with seq := n } where
  queue := h.queue.write_of_ne (EventKeys.key_ne _ (by decide)) _
  seq := he
  admitted := h.admitted.write_of_ne (EventKeys.key_ne _ (by decide)) _
  bucket := h.bucket_of_ne (EventKeys.key_ne _ (by decide)) _
  config := h.config_of_ne (EventKeys.key_ne _ (by decide)) _
  passes := h.passes_of_ne (by decide) _
  clock := h.clock

theorem write_admitted (h : Holds eventId σ v) {n : ℤ} {e : Option (Entry Admission)}
    (he : (σ.write (EventKeys.mk eventId).admitted e).HoldsCount
      (EventKeys.mk eventId).admitted n) :
    Holds eventId (σ.write (EventKeys.mk eventId).admitted e) { v with admitted := n } where
  queue := h.queue.write_of_ne (EventKeys.key_ne _ (by decide)) _
  seq := h.seq.write_of_ne (EventKeys.key_ne _ (by decide)) _
  admitted := he
  bucket := h.bucket_of_ne (EventKeys.key_ne _ (by decide)) _
  config := h.config_of_ne (EventKeys.key_ne _ (by decide)) _
  passes := h.passes_of_ne (by decide) _
  clock := h.clock

theorem write_bucket (h : Holds eventId σ v) (b : Option TokenBucket)
    {f : String → Option (Cell Admission)} {e : Option (Entry Admission)}
    (he : (σ.write (EventKeys.mk eventId).bucket e).HoldsHash (EventKeys.mk eventId).bucket f)
    (ht : f "tokens" = b.map (fun b => .num b.tokens))
    (hl : f "last_refill_ms" = b.map (fun b => .num b.lastRefillMs)) :
    Holds eventId (σ.write (EventKeys.mk eventId).bucket e) { v with bucket := b } where
  queue := h.queue.write_of_ne (EventKeys.key_ne _ (by decide)) _
  seq := h.seq.write_of_ne (EventKeys.key_ne _ (by decide)) _
  admitted := h.admitted.write_of_ne (EventKeys.key_ne _ (by decide)) _
  bucket := ⟨f, he, ht, hl⟩
  config := h.config_of_ne (EventKeys.key_ne _ (by decide)) _
  passes := h.passes_of_ne (by decide) _
  clock := h.clock

theorem write_config (h : Holds eventId σ v) (c : QueueConfig)
    {f : String → Option (Cell Admission)}
    (hr : f "rate_per_min" = some (.num c.ratePerMin))
    (hb : f "burst" = some (.num c.burst)) (hm : f "batch_max" = some (.num c.batchMax)) :
    Holds eventId (σ.write (EventKeys.mk eventId).config
      (some ⟨.hash f, none⟩)) { v with config := some c } where
  queue := h.queue.write_of_ne (EventKeys.key_ne _ (by decide)) _
  seq := h.seq.write_of_ne (EventKeys.key_ne _ (by decide)) _
  admitted := h.admitted.write_of_ne (EventKeys.key_ne _ (by decide)) _
  bucket := h.bucket_of_ne (EventKeys.key_ne _ (by decide)) _
  config := ⟨f, Keyspace.write_entries_self _ _ _, hr, hb, hm⟩
  passes := h.passes_of_ne (by decide) _
  clock := h.clock

theorem write_pass (h : Holds eventId σ v) (t : String) (a : Admission) (d : ℤ) :
    Holds eventId (σ.write ((EventKeys.mk eventId).passFor t)
      (some ⟨.string (.blob a), some d⟩))
      { v with passes := Function.update v.passes t (some (a, d)) } where
  queue := h.queue.write_of_ne (EventKeys.passFor_ne _ t (by decide)).symm _
  seq := h.seq.write_of_ne (EventKeys.passFor_ne _ t (by decide)).symm _
  admitted := h.admitted.write_of_ne (EventKeys.passFor_ne _ t (by decide)).symm _
  bucket := h.bucket_of_ne (EventKeys.passFor_ne _ t (by decide)).symm _
  config := h.config_of_ne (EventKeys.passFor_ne _ t (by decide)).symm _
  passes := fun t' => by
    show _ = (Function.update v.passes t (some (a, d)) t').map _
    by_cases ht : t' = t
    · subst ht
      rw [Keyspace.write_entries_self, Function.update_self]
      rfl
    · rw [Keyspace.write_entries_of_ne _ (fun he => ht ((EventKeys.passFor_inj _).mp he)),
        Function.update_of_ne ht]
      exact h.passes t'
  clock := h.clock

/-! ## What the scripts read -/

/-- The configuration of the record is the one in force in the store. -/
theorem configured_iff (h : Holds eventId σ v) {c : QueueConfig} :
    Configured eventId σ c ↔ v.config = some c := by
  have hconf := h.config
  constructor
  · rintro ⟨f, hf, hr, hb, hm⟩
    cases hc : v.config with
    | none =>
      rw [hc] at hconf
      rw [hconf] at hf
      exact absurd hf (by simp)
    | some c' =>
      rw [hc] at hconf
      obtain ⟨f', hf', hr', hb', hm'⟩ := hconf
      obtain rfl : f' = f := by simpa [hf'] using hf
      obtain ⟨r, b, m⟩ := c
      obtain ⟨r', b', m'⟩ := c'
      simp only [hr, hb, hm, Option.some.injEq, Cell.num.injEq, Int.cast_inj] at hr' hb' hm'
      rw [hr', hb', hm']
  · intro hc
    rwa [hc] at hconf

/-- The sorted set of the record is the one in the store. -/
theorem queue_eq (h : Holds eventId σ v) {W : ZSet String ℤ}
    (hW : σ.HoldsZset (EventKeys.mk eventId).queue W) : v.queue = W :=
  Except.ok.inj (h.queue.zsetAt.symm.trans hW.zsetAt)

/-- The bucket of the record is the one in the store. -/
theorem bucket_eq (h : Holds eventId σ v) {w : EventState} (h' : Holds eventId σ w) :
    v.bucket = w.bucket := by
  obtain ⟨f, hf, ht, hl⟩ := h.bucket
  obtain ⟨g, hg, ht', hl'⟩ := h'.bucket
  obtain rfl : f = g := Except.ok.inj (hf.hashAt.symm.trans hg.hashAt)
  rw [ht] at ht'
  rw [hl] at hl'
  cases hv : v.bucket with
  | none =>
    rw [hv] at ht'
    exact (Option.map_eq_none_iff.mp ht'.symm).symm
  | some b =>
    rw [hv] at ht' hl'
    cases hw : w.bucket with
    | none =>
      rw [hw] at ht'
      exact absurd ht' (by simp)
    | some b' =>
      rw [hw] at ht' hl'
      have htokens : b.tokens = b'.tokens := Cell.num.inj (Option.some.inj ht')
      have hlast : b.lastRefillMs = b'.lastRefillMs := Cell.num.inj (Option.some.inj hl')
      obtain ⟨tokens, last⟩ := b
      obtain ⟨tokens', last'⟩ := b'
      rw [show tokens = tokens' from htokens, show last = last' from hlast]

theorem exists_config_none (h : Holds eventId σ v) (hc : v.config = none) :
    (EXISTS (EventKeys.mk eventId).config : Redis Admission ℤ).run σ = (.ok 0, σ) := by
  have hconf := h.config
  rw [hc] at hconf
  rw [EXISTS_run, Keyspace.find_of_missing hconf]
  rfl

theorem exists_config_some (h : Holds eventId σ v) {c : QueueConfig}
    (hc : v.config = some c) :
    (EXISTS (EventKeys.mk eventId).config : Redis Admission ℤ).run σ = (.ok 1, σ) := by
  have hconf := h.config
  rw [hc] at hconf
  obtain ⟨f, hf, -⟩ := hconf
  rw [EXISTS_run, Keyspace.find_of_entries hf]
  rfl

theorem get_admitted (h : Holds eventId σ v) :
    ∃ x : Option (Cell Admission),
      (GET (EventKeys.mk eventId).admitted).run σ = (.ok x, σ)
        ∧ counterValue x = some (v.admitted : ℚ) := by
  obtain ⟨x, hx, hv⟩ := GET_run_count h.admitted
  refine ⟨x, hx, ?_⟩
  rw [counterValue, hv]
  rfl

/-- The three fields of the configuration, whichever of them a script asks
for. -/
theorem config_fields (h : Holds eventId σ v) {c : QueueConfig}
    (hc : v.config = some c) :
    ∃ f : String → Option (Cell Admission),
      σ.HoldsHash (EventKeys.mk eventId).config f
        ∧ f "rate_per_min" = some (.num c.ratePerMin)
        ∧ f "burst" = some (.num c.burst) ∧ f "batch_max" = some (.num c.batchMax) := by
  have hconf := h.config
  rw [hc] at hconf
  obtain ⟨f, hf, hr, hb, hm⟩ := hconf
  exact ⟨f, Or.inr hf, hr, hb, hm⟩

/-- What is parked for a token reads as its live pass. -/
theorem find_pass (h : Holds eventId σ v) (t : String) :
    σ.find ((EventKeys.mk eventId).passFor t)
      = (v.livePass t).map (fun a => .string (.blob a)) := by
  unfold EventState.livePass
  have hp := h.passes t
  cases hv : v.passes t with
  | none =>
    rw [hv] at hp
    exact Keyspace.find_of_missing hp
  | some p =>
    rw [hv] at hp
    rw [Keyspace.find_of_expiring hp, h.clock]
    by_cases hd : v.clock ≤ p.2 <;> simp [hd]

theorem get_pass (h : Holds eventId σ v) (t : String) :
    (GET ((EventKeys.mk eventId).passFor t)).run σ
      = (.ok ((v.livePass t).map .blob), σ) := by
  unfold GET
  rw [run_read, h.find_pass]
  cases v.livePass t <;> rfl

/-- The figures every reply about a waiter ends with: the admitted counter,
the rate and the length of the queue. -/
theorem figures_run (h : Holds eventId σ v) {c : QueueConfig} (hc : v.config = some c)
    {α : Type} (k : Option (Cell Admission) → Option (Cell Admission) → ℤ → Redis Admission α) :
    ∃ x y, counterValue x = some (v.admitted : ℚ) ∧ counterValue y = some (c.ratePerMin : ℚ)
      ∧ (do
          let total ← GET (EventKeys.mk eventId).admitted
          let rate ← HGET (EventKeys.mk eventId).config "rate_per_min"
          let waiting ← ZCARD (EventKeys.mk eventId).queue
          k total rate waiting).run σ = (k x y v.queue.card).run σ := by
  obtain ⟨x, hx, hxv⟩ := h.get_admitted
  obtain ⟨f, hf, hr, -⟩ := h.config_fields hc
  refine ⟨x, f "rate_per_min", hxv, ?_, ?_⟩
  · rw [hr]
    rfl
  · rw [run_bind_ok hx, run_bind_ok (HGET_run hf _), run_bind_ok (ZCARD_run h.queue)]

/-! ## The scripts on a store that holds a record -/

theorem joinLua_run_queued (h : Holds eventId σ v) {c : QueueConfig} (hc : v.config = some c)
    {t : String} {s : ℤ} (hs : v.queue.score? t = some s) :
    (joinLua (EventKeys.mk eventId).queue (EventKeys.mk eventId).seq
        (EventKeys.mk eventId).admitted (EventKeys.mk eventId).config t).run σ
      = (.ok (.array [.int 1, .int s, .int 0, .int v.queue.card, .int v.admitted,
          .int c.ratePerMin]), σ) := by
  unfold joinLua
  rw [run_bind_ok (h.exists_config_some hc), if_neg (by decide),
    run_bind_ok (ZSCORE_run h.queue t), hs]
  dsimp only
  rw [run_bind_ok (run_pure _ _)]
  obtain ⟨x, y, hx, hy, hrun⟩ := h.figures_run hc (fun total rate waiting => pure (Reply.table
    [some (.int 1), some (.int s), some (.int 0), some (.int waiting),
      (counterValue total).map .number, (counterValue rate).map .number]))
  rw [hrun, hx, hy, run_pure]
  simp [Reply.table]

theorem joinLua_run_new (h : Holds eventId σ v) {c : QueueConfig} (hc : v.config = some c)
    {t : String} (hs : v.queue.score? t = none) :
    ∃ σ', Holds eventId σ' { v with queue := v.queue.add t (v.seq + 1), seq := v.seq + 1 }
      ∧ (joinLua (EventKeys.mk eventId).queue (EventKeys.mk eventId).seq
          (EventKeys.mk eventId).admitted (EventKeys.mk eventId).config t).run σ
        = (.ok (.array [.int 1, .int (v.seq + 1), .int 1,
            .int (v.queue.add t (v.seq + 1)).card, .int v.admitted, .int c.ratePerMin]), σ') := by
  unfold joinLua
  -- INCR, then ZADD: the record changes one field at a time
  have h₁ := h.write_seq (Keyspace.holdsCount_write (v.seq + 1))
  have h₂ := h₁.write_queue (v.queue.add t (v.seq + 1))
  refine ⟨_, h₂, ?_⟩
  have hincr : (INCR (EventKeys.mk eventId).seq : Redis Admission ℤ).run σ = _ :=
    INCRBY_run (m := 1) h.seq
  rw [run_bind_ok (h.exists_config_some hc), if_neg (by decide),
    run_bind_ok (ZSCORE_run h.queue t), hs]
  dsimp only
  rw [run_bind_ok hincr, run_bind_ok (ZADD_run h₁.queue _ t), run_bind_ok (run_pure _ _)]
  obtain ⟨x, y, hx, hy, hrun⟩ := h₂.figures_run hc (fun total rate waiting => pure (Reply.table
    [some (.int 1), some (.int (v.seq + 1)), some (.int 1), some (.int waiting),
      (counterValue total).map .number, (counterValue rate).map .number]))
  rw [hrun, hx, hy, run_pure]
  simp [Reply.table]

/-- A waiter in the queue resumes the place held, and nothing is written. -/
theorem join_run_queued (h : Holds eventId σ v) {c : QueueConfig} (hc : v.config = some c)
    {t : String} {s : ℤ} (hs : v.queue.score? t = some s) :
    (RedisQueueRepository.join eventId t).run σ
      = (.ok (.ok (some ⟨s, false, v.queue.card, v.admitted, c.ratePerMin⟩)), σ) := by
  unfold RedisQueueRepository.join
  dsimp only
  rw [run_bind_ok (h.joinLua_run_queued hc hs)]
  rfl

/-- **A join, on the store.** -/
theorem join_run (h : Holds eventId σ v) (t : String) :
    ∃ σ', (RedisQueueRepository.join eventId t).run σ = (.ok (.ok (v.join t).1), σ')
      ∧ Holds eventId σ' (v.join t).2 := by
  cases hc : v.config with
  | none =>
    rw [EventState.join_of_unconfigured hc]
    refine ⟨σ, ?_, h⟩
    have hlua : (joinLua (EventKeys.mk eventId).queue (EventKeys.mk eventId).seq
        (EventKeys.mk eventId).admitted (EventKeys.mk eventId).config t).run σ
        = (.ok (.array [.int 0]), σ) := by
      unfold joinLua
      rw [run_bind_ok (h.exists_config_none hc)]
      rfl
    unfold RedisQueueRepository.join
    dsimp only
    rw [run_bind_ok hlua]
    rfl
  | some c =>
    cases hs : v.queue.score? t with
    | some s =>
      rw [EventState.join_of_queued hc hs]
      exact ⟨σ, h.join_run_queued hc hs, h⟩
    | none =>
      rw [EventState.join_of_new hc hs]
      obtain ⟨σ', hσ', hrun⟩ := h.joinLua_run_new hc hs
      refine ⟨σ', ?_, hσ'⟩
      unfold RedisQueueRepository.join
      dsimp only
      rw [run_bind_ok hrun]
      rfl

theorem positionLua_run (h : Holds eventId σ v) {c : QueueConfig} (hc : v.config = some c)
    (t : String) :
    (positionLua (EventKeys.mk eventId).queue (EventKeys.mk eventId).admitted
        (EventKeys.mk eventId).config ((EventKeys.mk eventId).passFor t) t).run σ
      = (.ok (match v.queue.rank? t with
          | some r => .array [.int 2, .int (r + 1), .int v.queue.card, .int v.admitted,
              .int c.ratePerMin]
          | none => match v.livePass t with
            | some a => .array [.int 3, .bulk (.blob a), .int v.queue.card, .int v.admitted]
            | none => .array [.int 1]), σ) := by
  unfold positionLua
  rw [run_bind_ok (h.exists_config_some hc), if_neg (by decide),
    run_bind_ok (ZRANK_run h.queue t)]
  cases v.queue.rank? t with
  | some r =>
    dsimp only
    obtain ⟨x, y, hx, hy, hrun⟩ := h.figures_run hc (fun total rate waiting => pure (Reply.table
      [some (.int 2), some (.int (r + 1)), some (.int waiting),
        (counterValue total).map .number, (counterValue rate).map .number]))
    rw [hrun, hx, hy, run_pure]
    simp [Reply.table]
  | none =>
    dsimp only
    rw [run_bind_ok (h.get_pass t)]
    cases v.livePass t with
    | none => rfl
    | some a =>
      obtain ⟨x, hx, hxv⟩ := h.get_admitted
      dsimp only [Option.map_some]
      rw [run_bind_ok (ZCARD_run h.queue), run_bind_ok hx, hxv, run_pure]
      simp [Reply.table]

/-- **A position call, on the store**: it reads, and writes nothing. -/
theorem position_run (h : Holds eventId σ v) (t : String) :
    (RedisQueueRepository.position eventId t).run σ
      = (.ok (v.position eventId t), σ) := by
  unfold RedisQueueRepository.position
  dsimp only
  cases hc : v.config with
  | none =>
    have hlua : (positionLua (EventKeys.mk eventId).queue (EventKeys.mk eventId).admitted
        (EventKeys.mk eventId).config ((EventKeys.mk eventId).passFor t) t).run σ
        = (.ok (.array [.int 0]), σ) := by
      unfold positionLua
      rw [run_bind_ok (h.exists_config_none hc)]
      rfl
    rw [EventState.position_of_unconfigured hc, run_bind_ok hlua]
    rfl
  | some c =>
    rw [run_bind_ok (h.positionLua_run hc t)]
    cases hr : v.queue.rank? t with
    | some r =>
      rw [EventState.position_of_queued hc eventId hr]
      rfl
    | none =>
      cases ha : v.livePass t with
      | some a =>
        rw [EventState.position_of_admitted hc eventId hr ha]
        rfl
      | none =>
        rw [EventState.position_of_stranger hc eventId hr ha]
        rfl

/-- Popping waiters and counting them: ZPOPMIN, then INCRBY. -/
theorem release_run (h : Holds eventId σ v) (n : ℕ) :
    ∃ σ', Holds eventId σ' { v with
        queue := v.queue.popMin n, admitted := v.admitted + n }
      ∧ ∀ {α : Type} (k : List (String × ℤ) → ℤ → Redis Admission α), (do
          let popped ← ZPOPMIN (EventKeys.mk eventId).queue (n : ℚ)
          let total ← INCRBY (EventKeys.mk eventId).admitted (n : ℚ)
          k popped total).run σ = (k (v.queue.popped n) (v.admitted + n)).run σ' := by
  have h₁ := h.write_queue (v.queue.popMin n)
  refine ⟨_, h₁.write_admitted (Keyspace.holdsCount_write (v.admitted + n)), fun k => ?_⟩
  rw [run_bind_ok (ZPOPMIN_run h.queue n), ← Int.cast_natCast (R := ℚ) n,
    run_bind_ok (INCRBY_run h₁.admitted)]

/-- `admit_batch.lua` on a configured event: the reply lists what was popped,
under its own length. -/
theorem admitBatchLua_run (rnd : ℚ → ℚ) (h : Holds eventId σ v) {c : QueueConfig}
    (hc : v.config = some c) (now : ℤ) :
    ∃ σ', Holds eventId σ' (v.admitBatch rnd now).2
      ∧ (admitBatchLua rnd (EventKeys.mk eventId).queue (EventKeys.mk eventId).admitted
          (EventKeys.mk eventId).bucket (EventKeys.mk eventId).config now).run σ
        = (.ok (.array [.int 1, .int (v.batch rnd now), .int (v.admitted + v.batch rnd now),
            flatReply (v.queue.popped (v.batch rnd now))]), σ') := by
  unfold admitBatchLua EventState.batch
  obtain ⟨f, hf, hr, hb, hm⟩ := h.config_fields hc
  obtain ⟨x, hx, hxv⟩ := h.get_admitted
  rw [run_bind_ok (h.exists_config_some hc), if_neg (by decide),
    run_bind_ok (HMGET_run hf _), hc]
  simp only [List.map_cons, List.map_nil, hr, hb, hm, List.getD_cons_zero, List.getD_cons_succ,
    tonumberOrZero, Option.bind_some, Cell.tonumber, Option.getD_some]
  by_cases hrate : c.ratePerMin ≤ 0
  · -- paused: only the counter is read
    rw [EventState.admitBatch_of_paused rnd hc hrate, if_pos (by exact_mod_cast hrate),
      if_pos hrate]
    refine ⟨σ, h, ?_⟩
    rw [run_bind_ok hx, hxv, run_pure]
    simp [Reply.table, ZSet.popped]
  · rw [EventState.admitBatch_of_active rnd hc (not_le.mp hrate),
      if_neg (by exact_mod_cast hrate), if_neg hrate]
    obtain ⟨g, hg, ht, hl⟩ := h.bucket
    have hbank : readBucket (g "tokens") (g "last_refill_ms") c.burst (rnd now)
        = ((v.bucket.getD ⟨c.burst, rnd now⟩).tokens,
          (v.bucket.getD ⟨c.burst, rnd now⟩).lastRefillMs) := by
      rw [ht, hl]
      cases v.bucket <;> rfl
    have hbud : refill rnd c.ratePerMin c.burst (v.bucket.getD ⟨c.burst, rnd now⟩).tokens
        (v.bucket.getD ⟨c.burst, rnd now⟩).lastRefillMs (rnd now)
        = EventState.budget rnd c v.bucket now := rfl
    rw [run_bind_ok (HMGET_run hg _)]
    simp only [List.map_cons, List.map_nil, List.getD_cons_zero, List.getD_cons_succ, hbank, hbud]
    rw [run_bind_ok (ZCARD_run h.queue)]
    simp only [EventState.batchCeilings_eq]
    generalize EventState.budget rnd c v.bucket now = tokens
    generalize EventState.batchSize tokens c.batchMax v.queue.card = n
    -- the bucket is written back whatever the size of the batch
    have h₁ := h.write_bucket (some ⟨rnd (tokens - n), rnd now⟩) (Keyspace.holdsHash_write
      (Function.update (Function.update g "tokens" (some (.num (rnd (tokens - n)))))
        "last_refill_ms" (some (.num (rnd now))))) rfl rfl
    rw [run_bind_ok (HSET_run hg _)]
    by_cases hn : n ≤ 0
    · obtain ⟨x, hx, hxv⟩ := h₁.get_admitted
      rw [if_pos (by exact_mod_cast hn), Int.toNat_of_nonpos hn,
        show v.queue.popMin 0 = v.queue from ZSet.ext rfl, Nat.cast_zero, add_zero]
      refine ⟨_, h₁, ?_⟩
      refine (run_bind_ok hx).trans ?_
      rw [hxv, run_pure]
      simp [Reply.table, ZSet.popped]
    · obtain ⟨m, rfl⟩ := Int.eq_ofNat_of_zero_le (not_le.mp hn).le
      obtain ⟨σ', hσ', hrun⟩ := h₁.release_run m
      refine ⟨σ', hσ', ?_⟩
      rw [if_neg (by exact_mod_cast hn)]
      refine (hrun _).trans ?_
      rw [run_pure, Reply.number_intCast]
      rfl

/-- The members of a flat reply are what was popped. -/
theorem members_flatReply (popped : List (String × ℤ)) :
    RedisQueueRepository.members
        (popped.flatMap (fun x => [.bulk (.word x.1), .bulk (.num x.2)]))
      = some (popped.map Prod.fst) := by
  induction popped with
  | nil => rfl
  | cons x popped ih =>
    show (RedisQueueRepository.members (popped.flatMap _)).map _ = _
    rw [ih]
    rfl

/-- **A tick, on the store**: the assertion of the repository holds. -/
theorem admitBatch_run (rnd : ℚ → ℚ) (h : Holds eventId σ v) (now : ℤ) :
    ∃ σ', (RedisQueueRepository.admitBatch rnd eventId now).run σ
        = (.ok (.ok (v.admitBatch rnd now).1), σ')
      ∧ Holds eventId σ' (v.admitBatch rnd now).2 := by
  unfold RedisQueueRepository.admitBatch
  dsimp only
  cases hc : v.config with
  | none =>
    rw [EventState.admitBatch_of_unconfigured rnd hc]
    refine ⟨σ, ?_, h⟩
    have hlua : (admitBatchLua rnd (EventKeys.mk eventId).queue (EventKeys.mk eventId).admitted
        (EventKeys.mk eventId).bucket (EventKeys.mk eventId).config now).run σ
        = (.ok (.array [.int 0]), σ) := by
      unfold admitBatchLua
      rw [run_bind_ok (h.exists_config_none hc)]
      rfl
    rw [run_bind_ok hlua]
    rfl
  | some c =>
    obtain ⟨σ', hσ', hrun⟩ := h.admitBatchLua_run rnd hc now
    obtain ⟨b, hb⟩ := EventState.admitBatch_eq rnd hc now
    refine ⟨σ', ?_, hσ'⟩
    rw [run_bind_ok hrun, hb]
    have hlen := ZSet.length_popped_of_le (EventState.batch_le_card rnd v now)
    simp [flatReply, members_flatReply, hlen]

/-! ## The operator's commands and the pipeline -/

theorem configure_run (h : Holds eventId σ v) (c : QueueConfig) :
    ∃ σ', (CreateEvent.configure eventId c).run σ = (.ok (), σ')
      ∧ Holds eventId σ' { v with config := some c } := by
  unfold CreateEvent.configure
  have hf : ∃ f, σ.HoldsHash (EventKeys.mk eventId).config f := by
    cases hc : v.config with
    | none =>
      have hconf := h.config
      rw [hc] at hconf
      exact ⟨_, Or.inl ⟨hconf, rfl⟩⟩
    | some c =>
      obtain ⟨f, hf, -⟩ := h.config_fields hc
      exact ⟨f, hf⟩
  obtain ⟨f, hf⟩ := hf
  exact ⟨_, HSET_run hf _, h.write_config c rfl rfl rfl⟩

theorem reset_run (h : Holds eventId σ v) :
    ∃ σ', (CreateEvent.reset eventId).run σ = (.ok (), σ')
      ∧ Holds eventId σ'
        { v with queue := .empty, seq := 0, admitted := 0, bucket := none } := by
  have h₁ := h.write_queue .empty
  have h₂ := h₁.write_seq (e := none) (Or.inl ⟨Keyspace.write_entries_self _ _ _, rfl⟩)
  have h₃ := h₂.write_admitted (e := none) (Or.inl ⟨Keyspace.write_entries_self _ _ _, rfl⟩)
  exact ⟨_, rfl, h₃.write_bucket none (e := none)
    (Or.inl ⟨Keyspace.write_entries_self _ _ _, rfl⟩) rfl rfl⟩

/-- A SET of no lifetime is refused, and any other parks the pass. -/
theorem recordAdmission_run (h : Holds eventId σ v) (p : IssuedPass) (ttl : ℤ) :
    if ttl ≤ 0 then
      (RedisQueueRepository.recordAdmission eventId p ttl).run σ = (.error .invalidExpire, σ)
    else ∃ σ', (RedisQueueRepository.recordAdmission eventId p ttl).run σ = (.ok (), σ')
      ∧ Holds eventId σ' (v.recordAdmission eventId p ttl) := by
  unfold RedisQueueRepository.recordAdmission SETEX
  by_cases ht : ttl ≤ 0
  · rw [if_pos ht]
    exact run_command_error (if_pos ht)
  · rw [if_neg ht]
    refine ⟨_, run_command_ok (if_neg ht), ?_⟩
    rw [h.clock]
    exact h.write_pass p.queueToken (RedisQueueRepository.payload eventId p)
      (v.clock + 1000 * ttl)

/-! ## Every operation -/

/-- **The record simulates the store.** Whatever operation runs on a store
that holds a record, it answers what the record answers and leaves a store
that holds the record after it. -/
theorem serve (rnd : ℚ → ℚ) (h : Holds eventId σ v) (op : EventOp) :
    ∃ σ', (op.serve rnd eventId).run σ = ((v.step rnd eventId op).1, σ')
      ∧ Holds eventId σ' (v.step rnd eventId op).2 := by
  cases op with
  | join t =>
    obtain ⟨σ', hrun, hσ'⟩ := h.join_run t
    exact ⟨σ', run_bind_ok hrun, hσ'⟩
  | position t => exact ⟨σ, run_bind_ok (h.position_run t), h⟩
  | admitBatch now =>
    obtain ⟨σ', hrun, hσ'⟩ := h.admitBatch_run rnd now
    exact ⟨σ', run_bind_ok hrun, hσ'⟩
  | configure c =>
    obtain ⟨σ', hrun, hσ'⟩ := h.configure_run c
    exact ⟨σ', run_bind_ok hrun, hσ'⟩
  | reset =>
    obtain ⟨σ', hrun, hσ'⟩ := h.reset_run
    exact ⟨σ', run_bind_ok hrun, hσ'⟩
  | recordAdmission p ttl =>
    have hset := h.recordAdmission_run p ttl
    by_cases ht : ttl ≤ 0
    · rw [if_pos ht] at hset
      rw [EventState.step_recordAdmission_of_nonpos rnd eventId v p ht]
      exact ⟨σ, run_bind_error hset, h⟩
    · rw [if_neg ht] at hset
      rw [EventState.step_recordAdmission_of_pos rnd eventId v p ht]
      obtain ⟨σ', hrun, hσ'⟩ := hset
      exact ⟨σ', run_bind_ok hrun, hσ'⟩
  | wait d =>
    refine ⟨σ.wait d, rfl, ?_⟩
    exact { h with clock := congrArg (· + (d : ℤ)) h.clock }

end Holds
