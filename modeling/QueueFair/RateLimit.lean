import QueueFair.EventRun
import QueueFair.RateBucket

/-!
# How many waiters a bucket lets in

The batch script is a draw on a token bucket: it credits the time since the
last refill, caps the level at the burst, and takes whole tokens. Arithmetic
is exact here. Two facts about one call make the account of a whole run: the
level left behind is never negative, and what is admitted together with the
level left is at most the capped level (`EventState.admitBatch_draw`). A
paused call draws nothing and does not move the refill time, so the time it
spans is credited by a later call.

Along a run the calls are therefore draws the bucket can pay for
(`Holds.funded`), and the number admitted is bounded by the burst and by
how far the clock readings climb. Readings in order climb the time elapsed,
which is the rate ceiling. Readings out of order can climb further than the
clock ever spans, and then the ceiling does not hold: the refill time is
overwritten by an older reading, and the span up to the newer one is credited
again.
-/

open Redis RateBucket

/-- The reading of the admitter's clock, of a call that admits. -/
def EventOp.nowMs : EventOp → Option ℤ
  | .admitBatch now => some now
  | _ => none

/-- A call that admits is a run of the batch script. -/
theorem EventOp.eq_admitBatch {op : EventOp} {now : ℤ} (h : op.nowMs = some now) :
    op = .admitBatch now := by
  cases op with
  | admitBatch now' => rw [Option.some.inj h]
  | _ => exact absurd h (by simp [EventOp.nowMs])

/-- A call that leaves the queue of an event in place and the event
configured as it is. -/
def EventOp.Keeps (c : QueueConfig) (op : EventOp) : Prop :=
  op ≠ .reset ∧ ∀ c', op = .configure c' → c' = c

/-- What a visit draws on the bucket. -/
def Visit.draws (x : Visit Store EventOp (Except Redis.Error Answer)) : List (Draw ℚ) :=
  match x.action with
  | .admitBatch now => [⟨now, x.admitted.length⟩]
  | _ => []

/-- A call that does not admit draws nothing. -/
theorem Visit.draws_of_not_tick {x : Visit Store EventOp (Except Redis.Error Answer)}
    (h : x.action.nowMs = none) : x.draws = [] := by
  obtain ⟨σ, op, r⟩ := x
  cases op with
  | admitBatch now => exact absurd h (by simp [EventOp.nowMs])
  | _ => rfl

/-- Only a tick admits anyone. -/
theorem Visit.admitted_of_not_tick {S : Type} {x : Visit S EventOp (Except Redis.Error Answer)}
    (h : x.action.nowMs = none) : x.admitted = [] := by
  obtain ⟨s, op, r⟩ := x
  cases op with
  | admitBatch now => exact absurd h (by simp [EventOp.nowMs])
  | _ => rfl

/-- The draws of a history take as much as the history admits. -/
theorem total_draws (xs : List (Visit Store EventOp (Except Redis.Error Answer))) :
    total (xs.flatMap Visit.draws) = ((xs.flatMap Visit.admitted).length : ℚ) := by
  induction xs with
  | nil => rfl
  | cons x xs ih =>
    rw [List.flatMap_cons, List.flatMap_cons, List.length_append, Nat.cast_add, ← ih]
    obtain ⟨σ, op, r⟩ := x
    cases op with
    | admitBatch now => exact total_cons _ _
    | _ => simp [Visit.draws, Visit.admitted]

/-- The draws of a history carry the readings of its calls. -/
theorem map_now_draws (xs : List (Visit Store EventOp (Except Redis.Error Answer))) :
    (xs.flatMap Visit.draws).map Draw.now
      = ((xs.map Visit.action).filterMap EventOp.nowMs).map (fun t : ℤ => (t : ℚ)) := by
  induction xs with
  | nil => rfl
  | cons x xs ih =>
    rw [List.flatMap_cons, List.map_append, ih, List.map_cons, List.filterMap_cons]
    obtain ⟨σ, op, r⟩ := x
    cases op <;> rfl

namespace EventState

variable {v : EventState} {c : QueueConfig}

/-! ## One call -/

/-- The bucket never owes anything. -/
def Banked (v : EventState) : Prop := ∀ b, v.bucket = some b → 0 ≤ b.tokens

/-- The refill is capped at the burst. -/
theorem budget_le_burst (rnd : ℚ → ℚ) (c : QueueConfig) (b : Option TokenBucket) (now : ℤ) :
    budget rnd c b now ≤ c.burst := min_le_left _ _

/-- The credit of an exact refill. -/
theorem budget_id (c : QueueConfig) (b : TokenBucket) (now : ℤ) :
    budget id c (some b) now
      = min (c.burst : ℚ)
        (b.tokens + (c.ratePerMin : ℚ) / 60000 * max 0 (now - b.lastRefillMs)) := by
  have hclip : (if (now : ℚ) - b.lastRefillMs < 0 then 0 else (now : ℚ) - b.lastRefillMs)
      = max 0 (now - b.lastRefillMs) := by
    by_cases h : (now : ℚ) - b.lastRefillMs < 0
    · rw [if_pos h, max_eq_left h.le]
    · rw [if_neg h, max_eq_right (not_lt.mp h)]
  show min (c.burst : ℚ) (b.tokens
    + (if (now : ℚ) - b.lastRefillMs < 0 then 0 else (now : ℚ) - b.lastRefillMs)
      * c.ratePerMin / 60000) = _
  rw [hclip]
  ring_nf

/-- A tick takes whole tokens, and no more than there are. -/
theorem batchSize_le_tokens (tokens : ℚ) (batchMax : ℤ) (waiting : ℕ) :
    ((batchSize tokens batchMax waiting : ℤ) : ℚ) ≤ tokens := by
  have hfloor : batchSize tokens batchMax waiting ≤ ⌊tokens⌋ :=
    (min_le_left _ _).trans (min_le_left _ _)
  exact le_trans (by exact_mod_cast hfloor) (Int.floor_le tokens)

/-- A bucket that does not exist yet is found full. -/
theorem budget_none (c : QueueConfig) (now : ℤ) : budget id c none now = c.burst := by
  show min (c.burst : ℚ) (c.burst + (if (now : ℚ) - now < 0 then 0 else (now : ℚ) - now)
    * c.ratePerMin / 60000) = c.burst
  rw [sub_self, ite_self, zero_mul, zero_div, add_zero, min_self]

/-- A refill of a bucket that owes nothing is negative only where the burst
is. -/
theorem budget_eq_burst_of_neg (hv : v.Banked) (hr : 0 ≤ c.ratePerMin) (now : ℤ)
    (h : budget id c v.bucket now < 0) : budget id c v.bucket now = c.burst := by
  cases hb : v.bucket with
  | none => exact budget_none c now
  | some b =>
    rw [hb, budget_id] at h
    rw [budget_id]
    have hlevel := hv b hb
    have hcredit : (0 : ℚ) ≤ (c.ratePerMin : ℚ) / 60000 * max 0 (now - b.lastRefillMs) :=
      mul_nonneg (div_nonneg (by exact_mod_cast hr) (by norm_num)) (le_max_left _ _)
    rcases min_choice (c.burst : ℚ) (b.tokens + (c.ratePerMin : ℚ) / 60000
      * max 0 (now - b.lastRefillMs)) with hmin | hmin
    · exact hmin
    · rw [hmin] at h
      linarith

/-- **An active tick is a draw**: it leaves a level that is not negative, and
that level together with what it admits is at most what the refill made. -/
theorem admitBatch_draw (hv : v.Banked) (hc : v.config = some c) (hr : 0 < c.ratePerMin)
    (hm : 0 ≤ c.batchMax) (now : ℤ) :
    ∃ b, (v.admitBatch id now).2.bucket = some b ∧ b.lastRefillMs = now ∧ 0 ≤ b.tokens
      ∧ (v.batch id now : ℚ) + b.tokens ≤ max 0 (budget id c v.bucket now) := by
  have hbatch : v.batch id now
      = (batchSize (budget id c v.bucket now) c.batchMax v.queue.card).toNat := by
    simp only [batch, hc, if_neg (not_le.mpr hr)]
  have hneg := budget_eq_burst_of_neg hv hr.le now
  rw [admitBatch_of_active id hc hr, hbatch]
  generalize budget id c v.bucket now = tokens at hneg ⊢
  refine ⟨_, rfl, rfl, ?_, ?_⟩
  · exact sub_nonneg.mpr (batchSize_le_tokens _ _ _)
  · show ((batchSize tokens c.batchMax v.queue.card).toNat : ℚ)
      + (tokens - batchSize tokens c.batchMax v.queue.card) ≤ max 0 tokens
    by_cases ht : 0 ≤ tokens
    · -- whole tokens are taken, and the rest is left
      have hn : 0 ≤ batchSize tokens c.batchMax v.queue.card :=
        le_min (le_min (Int.floor_nonneg.mpr ht) hm) (Int.natCast_nonneg _)
      have hcast : ((batchSize tokens c.batchMax v.queue.card).toNat : ℚ)
          = (batchSize tokens c.batchMax v.queue.card : ℤ) := by
        exact_mod_cast Int.toNat_of_nonneg hn
      rw [hcast, max_eq_right ht]
      linarith
    · -- a negative burst: nothing is taken, and nothing is left
      have ht := not_le.mp ht
      obtain rfl : tokens = c.burst := hneg ht
      have hburst : c.burst < 0 := by exact_mod_cast ht
      have hn : batchSize (c.burst : ℚ) c.batchMax v.queue.card = c.burst := by
        unfold batchSize
        rw [Int.floor_intCast, min_eq_left (hburst.le.trans hm),
          min_eq_left (hburst.le.trans (Int.natCast_nonneg _))]
      rw [hn, Int.toNat_of_nonpos hburst.le, sub_self, Nat.cast_zero, add_zero]
      exact le_max_left _ _

/-- An active tick leaves a bucket refilled at its reading. -/
theorem exists_bucket_admitBatch (hc : v.config = some c) (hr : 0 < c.ratePerMin) (now : ℤ) :
    ∃ b, (v.admitBatch id now).2.bucket = some b ∧ b.lastRefillMs = now := by
  rw [admitBatch_of_active id hc hr]
  exact ⟨_, rfl, rfl⟩

/-- No operation makes the bucket owe anything. -/
theorem Banked.step (hv : v.Banked) (eventId : String) (op : EventOp) :
    (v.step id eventId op).2.Banked := by
  cases op with
  | join t =>
    obtain ⟨z, n, h⟩ := v.join_snd t
    show (v.join t).2.Banked
    rw [h]
    exact hv
  | position t => exact hv
  | admitBatch now =>
    show (v.admitBatch id now).2.Banked
    obtain h | ⟨c, hc, hr⟩ := v.idle_or_active
    · rw [(admitBatch_idle id h now).2]
      exact hv
    · rw [admitBatch_of_active id hc hr]
      intro b hb
      rw [← Option.some.inj hb]
      exact sub_nonneg.mpr (batchSize_le_tokens _ _ _)
  | configure c => exact hv
  | reset => exact fun b hb => absurd hb (by simp [EventState.step])
  | recordAdmission p ttl =>
    obtain ⟨ps, h⟩ := v.step_recordAdmission_snd id eventId p ttl
    rw [h]
    exact hv
  | wait d => exact hv

/-- **No batch is larger than any of its ceilings**, a negative one counting
as zero. -/
theorem batch_le (rnd : ℚ → ℚ) (hc : v.config = some c) (now : ℤ) :
    (v.batch rnd now : ℤ) ≤ max 0 (min (min c.burst c.batchMax) v.queue.card) := by
  unfold batch
  rw [hc]
  dsimp only
  by_cases hr : c.ratePerMin ≤ 0
  · rw [if_pos hr]
    exact le_max_left _ _
  · rw [if_neg hr, Int.toNat_eq_max, max_comm]
    have hfloor : ⌊budget rnd c v.bucket now⌋ ≤ c.burst := by
      have := Int.floor_mono (budget_le_burst rnd c v.bucket now)
      rwa [Int.floor_intCast] at this
    exact max_le_max le_rfl (min_le_min (min_le_min hfloor le_rfl) le_rfl)

/-- A call that keeps the configuration keeps it. -/
theorem config_of_keeps (rnd : ℚ → ℚ) (eventId : String) (hc : v.config = some c)
    {op : EventOp} (hop : op.Keeps c) : (v.step rnd eventId op).2.config = some c := by
  by_cases h : ∃ c', op = .configure c'
  · obtain ⟨c', rfl⟩ := h
    exact congrArg some (hop.2 c' rfl)
  · rw [config_of_not_configure rnd eventId op (fun c' he => h ⟨c', he⟩), hc]

/-- A tick, as a draw: idle where the event is not configured or paused, and
otherwise paid for by the refill. -/
theorem tick_cases (eventId : String) (hv : v.Banked) {B R : ℤ} (hR : 0 ≤ R) {now : ℤ}
    (hcfg : ∀ c, v.config = some c → c.burst ≤ B ∧ c.ratePerMin ≤ R ∧ 0 ≤ c.batchMax) :
    (v.batch id now = 0 ∧ (v.step id eventId (.admitBatch now)).2 = v)
      ∨ ∃ b, (v.step id eventId (.admitBatch now)).2.bucket = some b
        ∧ b.lastRefillMs = now ∧ 0 ≤ b.tokens
        ∧ (v.batch id now : ℚ) + b.tokens ≤ max 0 (B : ℚ)
        ∧ ∀ b₀, v.bucket = some b₀ → (v.batch id now : ℚ) + b.tokens
          ≤ b₀.tokens + (R : ℚ) / 60000 * max 0 (now - b₀.lastRefillMs) := by
  obtain hidle | ⟨c, hc, hr⟩ := v.idle_or_active
  · exact Or.inl (admitBatch_idle id hidle now)
  · obtain ⟨hB, hR', hm⟩ := hcfg c hc
    obtain ⟨b, hb, hlast, hlevel, hdraw⟩ := admitBatch_draw hv hc hr hm now
    refine Or.inr ⟨b, hb, hlast, hlevel, ?_, fun b₀ hb₀ => ?_⟩
    · have hburst : (c.burst : ℚ) ≤ B := by exact_mod_cast hB
      exact hdraw.trans (max_le_max le_rfl
        ((budget_le_burst id c v.bucket now).trans hburst))
    · rw [hb₀, budget_id] at hdraw
      have hlevel₀ := hv b₀ hb₀
      have hrate : (c.ratePerMin : ℚ) / 60000 ≤ (R : ℚ) / 60000 :=
        div_le_div_of_nonneg_right (by exact_mod_cast hR') (by norm_num)
      have hcredit := mul_le_mul_of_nonneg_right hrate
        (le_max_left (0 : ℚ) (now - b₀.lastRefillMs))
      have hpos : (0 : ℚ) ≤ (R : ℚ) / 60000 * max 0 (now - b₀.lastRefillMs) :=
        mul_nonneg (div_nonneg (by exact_mod_cast hR) (by norm_num)) (le_max_left _ _)
      refine hdraw.trans (max_le (add_nonneg hlevel₀ hpos) ((min_le_right _ _).trans ?_))
      linarith

/-- A call that is no tick draws nothing and, unless it is a reset, leaves the
bucket alone. -/
theorem bucket_of_not_tick (eventId : String) (op : EventOp) (hop : op ≠ .reset)
    (hnow : op.nowMs = none) :
    (v.step id eventId op).2.bucket = v.bucket := by
  cases op with
  | join t =>
    obtain ⟨z, n, h⟩ := v.join_snd t
    show (v.join t).2.bucket = _
    rw [h]
  | admitBatch now => exact absurd hnow (by simp [EventOp.nowMs])
  | reset => exact absurd rfl hop
  | recordAdmission p ttl =>
    obtain ⟨ps, h⟩ := v.step_recordAdmission_snd id eventId p ttl
    rw [h]
  | _ => rfl

end EventState

/-! ## A run -/

/-- `B` and `R` bound the bursts and the rates in force at the calls of a
history, and no batch limit in force is negative. -/
def ConfigsBelow (eventId : String) (B R : ℤ)
    (xs : List (Visit Store EventOp (Except Redis.Error Answer))) : Prop :=
  ∀ x ∈ xs, ∀ now c, x.action = .admitBatch now → Configured eventId x.before c →
    c.burst ≤ B ∧ c.ratePerMin ≤ R ∧ 0 ≤ c.batchMax

namespace Holds

variable {eventId : String} {σ : Store} {v : EventState}

/-- Whom a tick on the store lets in, as the record answers it. -/
theorem admitted_eq (rnd : ℚ → ℚ) (h : Holds eventId σ v) (now : ℤ) :
    Visit.admitted ⟨σ, .admitBatch now,
        ((QueueService rnd eventId).step σ (.admitBatch now)).1⟩
      = (v.admitBatch rnd now).1.elim [] AdmissionBatch.admittedTokens := by
  obtain ⟨σ', hrun, -⟩ := h.serve rnd (.admitBatch now)
  rw [show (QueueService rnd eventId).step σ (.admitBatch now) = _ from hrun]
  cases hb : (v.admitBatch rnd now).1 <;> simp only [EventState.step, hb, Visit.admitted] <;> rfl

/-- What a call admits is the batch of the record. -/
theorem admitted_length (rnd : ℚ → ℚ) (h : Holds eventId σ v) (now : ℤ) :
    (Visit.admitted ⟨σ, .admitBatch now,
      ((QueueService rnd eventId).step σ (.admitBatch now)).1⟩).length = v.batch rnd now := by
  rw [h.admitted_eq]
  cases hc : v.config with
  | none => simp [EventState.admitBatch_of_unconfigured rnd hc, EventState.batch, hc]
  | some c =>
    obtain ⟨b, hb⟩ := EventState.admitBatch_eq rnd hc now
    have hlen := ZSet.length_popped_of_le (EventState.batch_le_card rnd v now)
    simp only [hb, Option.elim_some, List.length_map, hlen]

/-- A tick draws the batch of the record. -/
theorem draws_admitBatch (h : Holds eventId σ v) (now : ℤ) :
    Visit.draws ⟨σ, .admitBatch now, ((QueueService id eventId).step σ (.admitBatch now)).1⟩
      = [⟨(now : ℚ), (v.batch id now : ℚ)⟩] := by
  rw [← h.admitted_length id now]
  rfl

/-- **The calls of a run are draws the bucket can pay for**: from the bucket
on record, if there is one, and from a full one in any case. -/
theorem funded (h : Holds eventId σ v) (hv : v.Banked) {B R : ℤ} (hR : 0 ≤ R)
    {ops : List EventOp} (hops : EventOp.reset ∉ ops)
    (hcfg : ConfigsBelow eventId B R ((QueueService id eventId).trace σ ops)) :
    (∀ b, v.bucket = some b → Funded ((R : ℚ) / 60000) b.tokens b.lastRefillMs
        (((QueueService id eventId).trace σ ops).flatMap Visit.draws))
      ∧ FundedFrom (max 0 (B : ℚ)) ((R : ℚ) / 60000)
        (((QueueService id eventId).trace σ ops).flatMap Visit.draws) := by
  induction ops generalizing σ v with
  | nil => exact ⟨fun _ _ => trivial, trivial⟩
  | cons op ops ih =>
    rw [Machine.trace_cons] at hcfg ⊢
    rw [List.flatMap_cons]
    have hop : op ≠ .reset := fun he => hops (he ▸ List.mem_cons_self)
    obtain ⟨σ', hrun, hσ'⟩ := h.serve id op
    have hsnd : ((QueueService id eventId).step σ op).2 = σ' := congrArg Prod.snd hrun
    obtain ⟨ihb, ihf⟩ := ih (hsnd ▸ hσ') (hv.step eventId op)
      (fun he => hops (List.mem_cons_of_mem op he))
      (fun x hx => hcfg x (List.mem_cons_of_mem _ hx))
    cases hnow : op.nowMs with
    | none =>
      rw [Visit.draws_of_not_tick hnow, List.nil_append]
      rw [EventState.bucket_of_not_tick eventId op hop hnow] at ihb
      exact ⟨ihb, ihf⟩
    | some now =>
      obtain rfl := EventOp.eq_admitBatch hnow
      rw [h.draws_admitBatch, List.singleton_append]
      obtain ⟨hbatch, hstep⟩ | ⟨b, hb, hlast, hlevel, hcap, hpay⟩ :=
        EventState.tick_cases eventId hv hR (fun c hc =>
          hcfg _ List.mem_cons_self now c rfl (h.configured_iff.mpr hc))
      · rw [hstep] at ihb
        rw [hbatch, Nat.cast_zero]
        exact ⟨fun b hb => Or.inl ⟨rfl, ihb b hb⟩, Or.inl ⟨rfl, ihf⟩⟩
      · have hrest := ihb b hb
        rw [hlast] at hrest
        exact ⟨fun b₀ hb₀ => Or.inr ⟨b.tokens, hlevel, hpay b₀ hb₀, hrest⟩,
          Or.inr ⟨b.tokens, hlevel, hcap, hrest⟩⟩

/-- Where nobody rewrites the configuration, it bounds itself. -/
theorem configsBelow (h : Holds eventId σ v) {c : QueueConfig} (hc : v.config = some c)
    (hm : 0 ≤ c.batchMax) {ops : List EventOp} (hops : ∀ op ∈ ops, ∀ c', op ≠ .configure c') :
    ConfigsBelow eventId c.burst c.ratePerMin ((QueueService id eventId).trace σ ops) := by
  intro x hx now c' _ hconf
  have hinv := Machine.trace_invariant (QueueService id eventId)
    (P := fun σ => ∃ v, Holds eventId σ v ∧ v.config = some c)
    (fun σ op hop hσ => ?_) ⟨v, h, hc⟩ x hx
  · obtain ⟨v', hv', hc'⟩ := hinv
    obtain rfl : c' = c := Option.some.inj ((hv'.configured_iff.mp hconf).symm.trans hc')
    exact ⟨le_rfl, le_rfl, hm⟩
  · obtain ⟨v, hv, hc⟩ := hσ
    obtain ⟨σ', hrun, hσ'⟩ := hv.serve id op
    rw [show (QueueService id eventId).step σ op = _ from hrun]
    exact ⟨_, hσ', (EventState.config_of_not_configure id eventId op (hops op hop)).trans hc⟩

/-- **What a run admits**: the burst, and the climb of its clock readings at
the rate. -/
theorem admitted_le (h : Holds eventId σ v) (hv : v.Banked) {B R : ℤ} (hB : 0 ≤ B)
    (hR : 0 ≤ R) {ops : List EventOp} (hops : EventOp.reset ∉ ops)
    (hcfg : ConfigsBelow eventId B R ((QueueService id eventId).trace σ ops)) :
    ((((QueueService id eventId).trace σ ops).flatMap Visit.admitted).length : ℚ)
      ≤ B + R * (climb (ops.filterMap EventOp.nowMs) : ℤ) / 60000 := by
  have hfund := (h.funded hv hR hops hcfg).2.total_le (le_max_left _ _)
    (div_nonneg (by exact_mod_cast hR) (by norm_num))
  rw [total_draws, map_now_draws, Machine.map_action_trace, climb_map_cast,
    max_eq_right (by exact_mod_cast hB), div_mul_eq_mul_div] at hfund
  exact hfund

end Holds

/-- A reachable store holds a record whose bucket owes nothing. -/
theorem Reachable.holds_banked {eventId : String} {σ : Store}
    (h : Reachable id eventId σ) : ∃ v, Holds eventId σ v ∧ v.Banked := by
  obtain ⟨σ₀, c, ops, hfresh, rfl⟩ := h
  obtain ⟨passes, hv⟩ := hfresh.holds
  refine Machine.final_invariant _ (P := fun σ => ∃ v, Holds eventId σ v ∧ v.Banked)
    (fun σ op _ hσ => ?_) ⟨_, hv, fun b hb => absurd hb (by simp [EventState.created])⟩
  obtain ⟨v, hv, hbank⟩ := hσ
  obtain ⟨σ', hrun, hσ'⟩ := hv.serve id op
  rw [show (QueueService id eventId).step σ op = _ from hrun]
  exact ⟨_, hσ', hbank.step eventId op⟩

/-! ## The rate ceiling -/

variable {eventId : String} {σ : Store} {c : QueueConfig}

/-- **The rate ceiling, under any operator schedule.** Whatever processes
admit and whatever operators write, every batch is within its ceilings, and
over every stretch of a history without a reset, whose clock readings are in
order, the number admitted is at most the largest burst plus the largest rate
times the time elapsed. -/
theorem rate_ceiling (h : Fresh eventId σ c) (ops : List EventOp) :
    (∀ x ∈ (QueueService id eventId).trace σ ops, ∀ now c W, x.action = .admitBatch now →
        Configured eventId x.before c → x.before.HoldsZset (EventKeys.mk eventId).queue W →
        (x.admitted.length : ℤ) ≤ max 0 (min (min c.burst c.batchMax) W.card))
      ∧ ∀ pre win post, (QueueService id eventId).trace σ ops = pre ++ (win ++ post) →
        (∀ x ∈ win, x.action ≠ .reset) →
        ∀ B R : ℤ, 0 ≤ B → 0 ≤ R → ConfigsBelow eventId B R win →
        ((win.map Visit.action).filterMap EventOp.nowMs).Pairwise (· ≤ ·) →
        ∀ tᵢ tⱼ, ((win.map Visit.action).filterMap EventOp.nowMs).head? = some tᵢ →
          ((win.map Visit.action).filterMap EventOp.nowMs).getLast? = some tⱼ →
          ((win.flatMap Visit.admitted).length : ℚ) ≤ B + R * (tⱼ - tᵢ) / 60000 := by
  constructor
  · intro x hx now c' W hnow hconf hW
    obtain ⟨pre, post, htrace⟩ := List.append_of_mem hx
    obtain ⟨as, bs, rfl, -, hys⟩ := Machine.trace_eq_append _ htrace
    obtain ⟨cs, rfl, hbefore, hreply, -⟩ := Machine.trace_eq_cons _ hys.symm
    obtain ⟨v, hv, -⟩ := Reachable.holds_banked ⟨σ, c, as, h, rfl⟩
    rw [← hbefore] at hv hreply
    have hlen := hv.admitted_length id now
    rw [← hnow, ← hreply] at hlen
    rw [hlen, ← hv.queue_eq hW]
    exact EventState.batch_le id (hv.configured_iff.mp hconf) now
  · intro pre win post htrace hreset B R hB hR hcfg hsorted tᵢ tⱼ hfirst hlast
    obtain ⟨as, bs, rfl, -, hys⟩ := Machine.trace_eq_append _ htrace
    obtain ⟨ds, es, rfl, rfl, -⟩ := Machine.trace_eq_append _ hys.symm
    obtain ⟨v, hv, hbank⟩ := Reachable.holds_banked ⟨σ, c, as, h, rfl⟩
    have hds : EventOp.reset ∉ ds := by
      intro hmem
      rw [← Machine.map_action_trace (QueueService id eventId) _ ds] at hmem
      obtain ⟨z, hz, he⟩ := List.mem_map.mp hmem
      exact hreset z hz he
    have hle := hv.admitted_le hbank hB hR hds hcfg
    rw [Machine.map_action_trace] at hsorted hfirst hlast
    rw [climb_of_pairwise hsorted hfirst hlast, Int.cast_sub] at hle
    exact hle

/-- An event whose burst an operator made negative admits a batch of nobody,
and that is more than the burst. -/
theorem rate_ceiling_negative_burst :
    ∃ x ∈ (QueueService id "e").trace (createdStore "e" ⟨60, -1, 5⟩)
        [.join "a", .admitBatch 0],
      x.action = .admitBatch 0 ∧ Configured "e" x.before ⟨60, -1, 5⟩
        ∧ x.before.HoldsZset (EventKeys.mk "e").queue (ZSet.empty.add "a" 1)
        ∧ ¬ (x.admitted.length : ℤ)
            ≤ min (min (-1 : ℤ) 5) ((ZSet.empty.add "a" (1 : ℤ)).card : ℤ) := by
  refine ⟨_, List.mem_cons_of_mem _ List.mem_cons_self, rfl, ?_, ?_, ?_⟩
  · exact ⟨_, rfl, rfl, rfl, rfl⟩
  · rfl
  · decide +kernel

/-- Two waiters let in by two calls, half a minute apart. -/
theorem rate_ceiling_of_two_calls :
    ((((QueueService id "e").trace (createdStore "e" ⟨2, 1, 5⟩)
        [.join "a", .join "b", .admitBatch 0, .admitBatch 30000]).flatMap
          Visit.admitted).length : ℚ) ≤ (1 : ℤ) + (2 : ℤ) * ((30000 : ℤ) - (0 : ℤ)) / 60000 := by
  obtain ⟨passes, hv⟩ := (fresh_createdStore "e" ⟨2, 1, 5⟩).holds
  exact (rate_ceiling (fresh_createdStore "e" ⟨2, 1, 5⟩)
    [.join "a", .join "b", .admitBatch 0, .admitBatch 30000]).2 [] _ []
    (List.append_nil _).symm (by decide +kernel) 1 2 (by decide) (by decide)
    (hv.configsBelow rfl (by decide) (by simp)) (by decide +kernel) 0 30000 rfl rfl
