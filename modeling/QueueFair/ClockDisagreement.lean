import QueueFair.ClockSteps
import QueueFair.FifoRefinement
import QueueFair.RateLimit

/-!
# Admitters whose clocks disagree

Every admitter passes the reading of its own clock, and the script writes the
reading down as the time of the last refill, also where it is older than the
one on record. A negative interval credits nothing – but the next call, from
an admitter whose clock was not behind, is then credited the time since the
older reading, which had been credited before.

So with readings out of order the number admitted is bounded by the burst and
the *climb* of the readings, and not by their span; and a queue long enough,
under a burst large enough, does admit that many (`drain`), in any stretch of
the calls. The promise of the design – the span of the clock bounds what is
admitted, and no part of it is credited twice – therefore holds of a sequence
of readings exactly where every stretch of them climbs no further than it spans
(`clock_disagreement_iff`).
-/

open Redis RateBucket

/-! ## A queue that never runs short -/

namespace EventState

variable {v : EventState} {c : QueueConfig}

/-- Where the refill makes a whole number of tokens, and neither the batch
limit nor the queue is shorter, the tick takes them all. -/
theorem admitBatch_of_plenty (hc : v.config = some c) (hr : 0 < c.ratePerMin) {now : ℤ}
    {k : ℕ} (hbudget : budget id c v.bucket now = k) (hm : (k : ℤ) ≤ c.batchMax)
    (hcard : k ≤ v.queue.card) :
    v.batch id now = k ∧ (v.admitBatch id now).2.bucket = some ⟨0, now⟩
      ∧ (v.admitBatch id now).2.queue = v.queue.popMin k
      ∧ (v.admitBatch id now).2.config = some c := by
  have hn : batchSize (budget id c v.bucket now) c.batchMax v.queue.card = k := by
    unfold batchSize
    rw [hbudget, Int.floor_natCast, min_eq_left hm, min_eq_left (by exact_mod_cast hcard)]
  have hbatch : v.batch id now = k := by
    simp only [batch, hc, if_neg (not_le.mpr hr), hn, Int.toNat_natCast]
  rw [admitBatch_of_active id hc hr, hn, hbudget]
  refine ⟨hbatch, ?_, rfl, hc⟩
  show some (TokenBucket.mk (id ((k : ℚ) - ((k : ℤ) : ℚ))) (id (now : ℚ))) = _
  rw [Int.cast_natCast, sub_self]
  rfl

/-- One token accrues each millisecond at sixty thousand a minute. -/
theorem budget_of_empty (B : ℤ) {t₀ t : ℤ} (hB : max 0 (t - t₀) ≤ B) :
    budget id ⟨60000, B, B⟩ (some ⟨0, t₀⟩) t = ((max 0 (t - t₀)).toNat : ℚ) := by
  have hcast : (((max 0 (t - t₀)).toNat : ℤ) : ℚ) = max 0 ((t : ℚ) - t₀) := by
    rw [Int.toNat_of_nonneg (le_max_left _ _)]
    push_cast
    rfl
  have hle : max 0 ((t : ℚ) - t₀) ≤ B := by
    rw [← hcast, Int.toNat_of_nonneg (le_max_left _ _)]
    exact_mod_cast hB
  rw [budget_id, ← Int.cast_natCast (R := ℚ), hcast]
  show min (B : ℚ) (0 + ((60000 : ℤ) : ℚ) / 60000 * max 0 ((t : ℚ) - t₀)) = _
  rw [show ((60000 : ℤ) : ℚ) / 60000 = 1 by norm_num, zero_add, one_mul, min_eq_right hle]

end EventState

/-- A bucket that is full, or none yet. -/
def EventState.FullOf (v : EventState) (B : ℕ) : Prop := ∀ b, v.bucket = some b → b.tokens = B

/-- A full bucket is refilled to what it holds. -/
theorem EventState.budget_of_full {v : EventState} {B : ℕ} (hb : v.FullOf B) (t : ℤ) :
    budget id ⟨60000, B, B⟩ v.bucket t = B := by
  cases hv : v.bucket with
  | none =>
    show min ((B : ℤ) : ℚ) ((B : ℤ) + (if (t : ℚ) - t < 0 then 0 else (t : ℚ) - t)
      * ((60000 : ℤ) : ℚ) / 60000) = B
    rw [sub_self, ite_self, zero_mul, zero_div, add_zero, min_self, Int.cast_natCast]
  | some b =>
    rw [budget_id, hb b hv]
    refine min_eq_left (le_add_of_nonneg_right (mul_nonneg ?_ (le_max_left _ _)))
    norm_num

namespace Holds

variable {eventId : String} {σ : Store} {v : EventState}

/-- **A queue that never runs short is admitted the whole climb.** -/
theorem drain (h : Holds eventId σ v) {B t₀ : ℤ} (hc : v.config = some ⟨60000, B, B⟩)
    (hb : v.bucket = some ⟨0, t₀⟩) {ts : List ℤ} (hB : climbFrom t₀ ts ≤ B)
    (hcard : climbFrom t₀ ts ≤ v.queue.card) :
    ((((QueueService id eventId).trace σ (ts.map .admitBatch)).flatMap Visit.admitted).length
      : ℤ) = climbFrom t₀ ts := by
  induction ts generalizing σ v t₀ with
  | nil => rfl
  | cons t ts ih =>
    have hstep : climbFrom t₀ (t :: ts) = max 0 (t - t₀) + climbFrom t ts := rfl
    have hrest := climbFrom_nonneg t ts
    have hk : ((max 0 (t - t₀)).toNat : ℤ) = max 0 (t - t₀) :=
      Int.toNat_of_nonneg (le_max_left _ _)
    obtain ⟨hbatch, hb', hq', hc'⟩ := EventState.admitBatch_of_plenty hc (by norm_num)
      (hb ▸ EventState.budget_of_empty B (by omega)) (by rw [hk]; show _ ≤ B; omega)
      (by omega)
    obtain ⟨σ', hrun, hσ'⟩ := h.serve id (.admitBatch t)
    have hsnd : ((QueueService id eventId).step σ (.admitBatch t)).2 = σ' :=
      congrArg Prod.snd hrun
    have hcard' : climbFrom t ts ≤ ((v.step id eventId (.admitBatch t)).2.queue.card : ℤ) := by
      show _ ≤ ((v.admitBatch id t).2.queue.card : ℤ)
      rw [hq', ← ZSet.length_members, ZSet.members_popMin, List.length_drop,
        ZSet.length_members]
      omega
    have := ih (hsnd ▸ hσ') hc' hb' (by omega) hcard'
    rw [List.map_cons, Machine.trace_cons, List.flatMap_cons, List.length_append,
      h.admitted_length id t, hbatch, Nat.cast_add, this, hstep, hk]

/-- Newcomers join behind each other, and nobody is let in. -/
theorem joins (h : Holds eventId σ v) {q : FifoQueue String} (hq : v.Lines q)
    {l : List String} (hl : (q.waiting ++ l).Nodup) :
    ∃ v' q', Holds eventId ((QueueService id eventId).final σ (l.map .join)) v'
      ∧ v'.Lines q' ∧ q'.waiting = q.waiting ++ l ∧ v'.config = v.config
      ∧ v'.bucket = v.bucket := by
  induction l generalizing σ v q with
  | nil => exact ⟨v, q, h, hq, (List.append_nil _).symm, rfl, rfl⟩
  | cons t l ih =>
    have ht : t ∉ q.waiting := fun hmem =>
      (List.nodup_append.mp hl).2.2 t hmem t List.mem_cons_self rfl
    obtain ⟨-, hlines⟩ := hq.join_new ht
    obtain ⟨σ', hrun, hσ'⟩ := h.serve id (.join t)
    have hsnd : ((QueueService id eventId).step σ (.join t)).2 = σ' := congrArg Prod.snd hrun
    have hwait := q.waiting_join ht
    obtain ⟨v', q', hv', hq', hw', hc', hb'⟩ := ih (hsnd ▸ hσ') hlines (by
      rw [hwait, List.append_assoc]
      exact hl)
    refine ⟨v', q', hv', hq', ?_, ?_, ?_⟩
    · rw [hw', hwait, List.append_assoc]
      rfl
    · exact hc'.trans (EventState.config_of_not_configure id eventId (.join t) (by simp))
    · exact hb'.trans (EventState.bucket_of_not_tick eventId (.join t) (by simp) rfl)

/-- **A bucket nobody draws on stays full.** -/
theorem idle (h : Holds eventId σ v) {q : FifoQueue String} (hq : v.Lines q)
    (hempty : q.waiting = []) {B : ℕ} (hc : v.config = some ⟨60000, B, B⟩) (hb : v.FullOf B)
    (ts : List ℤ) :
    ∃ v' q', Holds eventId ((QueueService id eventId).final σ (ts.map .admitBatch)) v'
      ∧ v'.Lines q' ∧ q'.waiting = [] ∧ v'.config = some ⟨60000, B, B⟩ ∧ v'.FullOf B := by
  induction ts generalizing σ v q with
  | nil => exact ⟨v, q, h, hq, hempty, hc, hb⟩
  | cons t ts ih =>
    obtain ⟨σ', hrun, hσ'⟩ := h.serve id (.admitBatch t)
    have hsnd : ((QueueService id eventId).step σ (.admitBatch t)).2 = σ' := congrArg Prod.snd hrun
    obtain ⟨hn, -, hlines⟩ := hq.admitBatch id t
    have hnobody : v.queue.card = 0 := by rw [hq.card_eq, hempty, List.length_nil]
    have hnone : EventState.batchSize B B 0 = 0 := by
      unfold EventState.batchSize
      rw [Int.floor_natCast, min_self, Nat.cast_zero, min_eq_right (Int.natCast_nonneg B)]
    have htick := EventState.admitBatch_of_active id hc (by norm_num) t
    rw [hnobody, EventState.budget_of_full hb t] at htick
    refine ih (hsnd ▸ hσ') hlines ?_ ?_ ?_
    · show q.log.drop (q.served + v.batch id t) = []
      rw [← List.drop_drop, show q.log.drop q.served = [] from hempty, List.drop_nil]
    · exact (EventState.config_of_not_configure id eventId (.admitBatch t) (by simp)).trans hc
    · intro b hb'
      have hbucket := (congrArg (fun r => r.2.bucket) htick).symm.trans hb'
      rw [← Option.some.inj hbucket]
      show ((B : ℕ) : ℚ) - (EventState.batchSize B B 0 : ℤ) = B
      rw [hnone, Int.cast_zero, sub_zero]

end Holds

/-- As many tokens as one likes. -/
def manyTokens (n : ℕ) : List String :=
  (List.range n).map (fun i => String.ofList (List.replicate i 'a'))

theorem manyTokens_nodup (n : ℕ) : (manyTokens n).Nodup := by
  refine List.Nodup.map (fun i j hij => ?_) List.nodup_range
  have := congrArg List.length (String.ofList_injective hij)
  rwa [List.length_replicate, List.length_replicate] at this

/-- **The climb is attained** in any stretch of the calls: with enough waiters
and a burst of the climb, its calls admit the burst and the climb. The calls
before it find nobody. -/
theorem admitted_of_many (eventId : String) (as : List ℤ) (t : ℤ) (ts : List ℤ) {B : ℕ}
    (hB : climbFrom t ts = B) :
    ((((QueueService id eventId).trace ((QueueService id eventId).final
        (createdStore eventId ⟨60000, B, B⟩)
        (as.map .admitBatch ++ (manyTokens (B + B)).map .join)) ((t :: ts).map .admitBatch)).flatMap
          Visit.admitted).length : ℤ) = B + B := by
  obtain ⟨passes, hv⟩ := (fresh_createdStore eventId ⟨60000, B, B⟩).holds
  obtain ⟨v₁, q₁, hv₁, hq₁, hempty, hc₁, hb₁⟩ := hv.idle (q := .empty) ⟨rfl, rfl, rfl, _, rfl⟩ rfl
    (B := B) rfl (fun b hb => nomatch hb) as
  obtain ⟨v, q, hv, hq, hw, hc, hb⟩ := hv₁.joins hq₁ (l := manyTokens (B + B)) (by
    rw [hempty]
    exact manyTokens_nodup _)
  rw [← Machine.final_append] at hv
  have hcard : v.queue.card = B + B := by
    rw [hq.card_eq, hw, hempty]
    simp [manyTokens]
  -- the first call takes the burst
  obtain ⟨hbatch, hb', hq', hc'⟩ := EventState.admitBatch_of_plenty (hc.trans hc₁) (by norm_num)
    (EventState.budget_of_full (v := v) (fun b hvb => hb₁ b (hb ▸ hvb)) t) le_rfl (by omega)
  obtain ⟨σ', hrun, hσ'⟩ := hv.serve id (.admitBatch t)
  have hsnd : ((QueueService id eventId).step _ (.admitBatch t)).2 = σ' := congrArg Prod.snd hrun
  have hcard' : (v.admitBatch id t).2.queue.card = B := by
    rw [hq', ← ZSet.length_members, ZSet.members_popMin, List.length_drop, ZSet.length_members,
      hcard, Nat.add_sub_cancel]
  have hdrain := Holds.drain (hsnd ▸ hσ') hc' hb' hB.le (by rw [hcard', hB])
  rw [List.map_cons, Machine.trace_cons, List.flatMap_cons, List.length_append,
    hv.admitted_length id t, hbatch, Nat.cast_add, hdrain, hB]

/-! ## The spans that are credited -/

/-- The time of the last refill, as the store has it. -/
def refilledAt (eventId : String) (σ : Store) : Option ℚ :=
  match σ.hashAt (EventKeys.mk eventId).bucket with
  | .ok f => (f "last_refill_ms").bind Cell.tonumber
  | .error _ => none

/-- The span of clock time a call of the batch script credits: from the refill
time on record to its own reading, where this is later. -/
def Visit.span (eventId : String) (x : Visit Store EventOp (Except Redis.Error Answer)) :
    Option (ℚ × ℚ) :=
  match x.action.nowMs, refilledAt eventId x.before with
  | some now, some since => some (since, now)
  | _, _ => none

/-- The calls of the batch script, of a history. -/
def ticksOf (xs : List (Visit Store EventOp (Except Redis.Error Answer))) :
    List (Visit Store EventOp (Except Redis.Error Answer)) :=
  xs.filter (fun x => x.action.nowMs.isSome)

/-- **The spans credited between the calls** of a history, in their order. What
the first call is credited counts as part of the burst; of a new event it is
nothing. -/
def spansBetween (eventId : String)
    (xs : List (Visit Store EventOp (Except Redis.Error Answer))) : List (ℚ × ℚ) :=
  (ticksOf xs).tail.filterMap (Visit.span eventId)

/-- A step between two readings, as the script's numbers. -/
def castStep (x : ℤ × ℤ) : ℚ × ℚ := (x.1, x.2)

theorem apart_map_castStep (xs : List (ℤ × ℤ)) : Apart (xs.map castStep) ↔ Apart xs := by
  unfold Apart
  rw [List.pairwise_map]
  refine List.Pairwise.iff (fun {x y} => ?_)
  rw [Set.Ioc_disjoint_Ioc, Set.Ioc_disjoint_Ioc]
  show min (x.2 : ℚ) y.2 ≤ max (x.1 : ℚ) y.1 ↔ _
  exact_mod_cast Iff.rfl

theorem ticksOf_cons_of_tick {x : Visit Store EventOp (Except Redis.Error Answer)} {now : ℤ}
    (h : x.action.nowMs = some now)
    (xs : List (Visit Store EventOp (Except Redis.Error Answer))) :
    ticksOf (x :: xs) = x :: ticksOf xs :=
  List.filter_cons_of_pos (by rw [h]; rfl)

theorem ticksOf_cons_of_not_tick {x : Visit Store EventOp (Except Redis.Error Answer)}
    (h : x.action.nowMs = none) (xs : List (Visit Store EventOp (Except Redis.Error Answer))) :
    ticksOf (x :: xs) = ticksOf xs :=
  List.filter_cons_of_neg (by rw [h]; simp)

namespace Holds

variable {eventId : String} {σ : Store} {v : EventState} {c : QueueConfig}

theorem refilledAt_eq (h : Holds eventId σ v) :
    refilledAt eventId σ = v.bucket.map TokenBucket.lastRefillMs := by
  obtain ⟨f, hf, -, hlast⟩ := h.bucket
  unfold refilledAt
  rw [hf.hashAt]
  show (f "last_refill_ms").bind Cell.tonumber = _
  rw [hlast]
  cases v.bucket <;> rfl

/-- **From a refill time on record**, every call credits the step from the
reading before it to its own. -/
theorem spans_eq (h : Holds eventId σ v) (hc : v.config = some c) (hr : 0 < c.ratePerMin)
    {b : TokenBucket} {t₀ : ℤ} (hb : v.bucket = some b) (ht : b.lastRefillMs = t₀)
    {ops : List EventOp}
    (hops : ∀ op ∈ ops, op ≠ .reset ∧ ∀ c', op ≠ .configure c') :
    (ticksOf ((QueueService id eventId).trace σ ops)).filterMap (Visit.span eventId)
      = (steps (t₀ :: ops.filterMap EventOp.nowMs)).map castStep := by
  induction ops generalizing σ v b t₀ with
  | nil => rfl
  | cons op ops ih =>
    obtain ⟨⟨hreset, hconf⟩, hrest⟩ := List.forall_mem_cons.mp hops
    obtain ⟨σ', hrun, hσ'⟩ := h.serve id op
    have hsnd : ((QueueService id eventId).step σ op).2 = σ' := congrArg Prod.snd hrun
    have hc' := (EventState.config_of_not_configure id eventId op hconf).trans hc
    rw [Machine.trace_cons]
    cases hnow : op.nowMs with
    | none =>
      rw [ticksOf_cons_of_not_tick hnow, List.filterMap_cons_none hnow]
      exact ih (hsnd ▸ hσ') hc'
        ((EventState.bucket_of_not_tick eventId op hreset hnow).trans hb) ht hrest
    | some now =>
      obtain rfl := EventOp.eq_admitBatch hnow
      obtain ⟨b', hb', ht'⟩ := EventState.exists_bucket_admitBatch hc hr now
      have hspan : Visit.span eventId ⟨σ, .admitBatch now,
          ((QueueService id eventId).step σ (.admitBatch now)).1⟩ = some ((t₀ : ℚ), (now : ℚ)) := by
        unfold Visit.span
        rw [h.refilledAt_eq, hb, Option.map_some, ht]
        rfl
      rw [ticksOf_cons_of_tick hnow, List.filterMap_cons_some hspan,
        List.filterMap_cons_some hnow, ih (hsnd ▸ hσ') hc' hb' ht' hrest]
      rfl

/-- **Between the calls of a run**, the steps of its readings are credited. -/
theorem spansBetween_eq (h : Holds eventId σ v) (hc : v.config = some c)
    (hr : 0 < c.ratePerMin) {ops : List EventOp}
    (hops : ∀ op ∈ ops, op ≠ .reset ∧ ∀ c', op ≠ .configure c') :
    spansBetween eventId ((QueueService id eventId).trace σ ops)
      = (steps (ops.filterMap EventOp.nowMs)).map castStep := by
  unfold spansBetween
  induction ops generalizing σ v with
  | nil => rfl
  | cons op ops ih =>
    obtain ⟨⟨-, hconf⟩, hrest⟩ := List.forall_mem_cons.mp hops
    obtain ⟨σ', hrun, hσ'⟩ := h.serve id op
    have hsnd : ((QueueService id eventId).step σ op).2 = σ' := congrArg Prod.snd hrun
    have hc' := (EventState.config_of_not_configure id eventId op hconf).trans hc
    rw [Machine.trace_cons]
    cases hnow : op.nowMs with
    | none =>
      rw [ticksOf_cons_of_not_tick hnow, List.filterMap_cons_none hnow]
      exact ih (hsnd ▸ hσ') hc' hrest
    | some now =>
      obtain rfl := EventOp.eq_admitBatch hnow
      obtain ⟨b, hb, ht⟩ := EventState.exists_bucket_admitBatch hc hr now
      rw [ticksOf_cons_of_tick hnow, List.tail_cons, List.filterMap_cons_some hnow]
      exact spans_eq (hsnd ▸ hσ') hc' hr hb ht hrest

end Holds

/-! ## Exactly which readings keep the promise -/

/-- **A run of an event under one configuration**, with these readings of the
admitters' clocks: from any reachable state, with any joins in between. -/
structure FixedRun (eventId : String) (σ : Store) (c : QueueConfig) (ops : List EventOp)
    (ts : List ℤ) : Prop where
  reachable : Reachable id eventId σ
  configured : Configured eventId σ c
  rate_pos : 0 < c.ratePerMin
  burst_nonneg : 0 ≤ c.burst
  batchMax_nonneg : 0 ≤ c.batchMax
  fixed : ∀ op ∈ ops, op ≠ .reset ∧ ∀ c', op ≠ .configure c'
  readings : ops.filterMap EventOp.nowMs = ts

/-- How many waiters the calls of a run admit. -/
def admittedBy (eventId : String) (σ : Store) (ops : List EventOp) : ℕ :=
  (((QueueService id eventId).trace σ ops).flatMap Visit.admitted).length

/-- **The span of the clock bounds what a run with these readings admits.** -/
def SpanBounds (ts : List ℤ) : Prop :=
  ∀ eventId σ c ops, FixedRun eventId σ c ops ts →
    (admittedBy eventId σ ops : ℚ) ≤ c.burst + c.ratePerMin * (spread ts : ℤ) / 60000

/-- It bounds what every stretch of the run admits, by its own span. -/
def SpanBoundsStretches (ts : List ℤ) : Prop :=
  ∀ eventId σ c ops, FixedRun eventId σ c ops ts → ∀ pre mid post, ops = pre ++ mid ++ post →
    (admittedBy eventId ((QueueService id eventId).final σ pre) mid : ℚ)
      ≤ c.burst + c.ratePerMin * (spread (mid.filterMap EventOp.nowMs) : ℤ) / 60000

/-- **No span of the clock is credited twice** between the calls of a run with
these readings. -/
def CreditedOnce (ts : List ℤ) : Prop :=
  ∀ eventId σ c ops, FixedRun eventId σ c ops ts →
    Apart (spansBetween eventId ((QueueService id eventId).trace σ ops))

theorem admittedBy_append (eventId : String) (σ : Store) (pre mid : List EventOp) :
    admittedBy eventId σ (pre ++ mid) = admittedBy eventId σ pre
      + admittedBy eventId ((QueueService id eventId).final σ pre) mid := by
  unfold admittedBy
  rw [Machine.trace_append, List.flatMap_append, List.length_append]

theorem readings_of_calls (ts : List ℤ) :
    (ts.map EventOp.admitBatch).filterMap EventOp.nowMs = ts := by
  rw [List.filterMap_map]
  exact List.filterMap_some

namespace FixedRun

variable {eventId : String} {σ : Store} {c : QueueConfig} {ops : List EventOp} {ts : List ℤ}

/-- **A run admits the burst and the climb** of its readings at the rate, at
most. -/
theorem admittedBy_le (h : FixedRun eventId σ c ops ts) :
    (admittedBy eventId σ ops : ℚ) ≤ c.burst + c.ratePerMin * (climb ts : ℤ) / 60000 := by
  obtain ⟨v, hv, hbank⟩ := h.reachable.holds_banked
  have hle := hv.admitted_le hbank h.burst_nonneg h.rate_pos.le
    (fun he => (h.fixed _ he).1 rfl) (hv.configsBelow (hv.configured_iff.mp h.configured)
      h.batchMax_nonneg (fun op hop => (h.fixed op hop).2))
  rwa [h.readings] at hle

/-- So the span bounds it where the readings climb no further. -/
theorem admittedBy_le_of_climb (h : FixedRun eventId σ c ops ts) (hclimb : climb ts ≤ spread ts) :
    (admittedBy eventId σ ops : ℚ) ≤ c.burst + c.ratePerMin * (spread ts : ℤ) / 60000 := by
  have hspan : ((climb ts : ℤ) : ℚ) ≤ (spread ts : ℤ) := by exact_mod_cast hclimb
  have hrate : (0 : ℚ) ≤ c.ratePerMin := by exact_mod_cast h.rate_pos.le
  refine h.admittedBy_le.trans (add_le_add le_rfl ?_)
  exact div_le_div_of_nonneg_right (mul_le_mul_of_nonneg_left hspan hrate) (by norm_num)

/-- A stretch of a run is a run. -/
theorem stretch {pre mid post : List EventOp} (h : FixedRun eventId σ c (pre ++ mid ++ post) ts) :
    FixedRun eventId ((QueueService id eventId).final σ pre) c mid
      (mid.filterMap EventOp.nowMs) where
  reachable := by
    obtain ⟨σ₀, c₀, ops₀, hfresh, rfl⟩ := h.reachable
    exact ⟨σ₀, c₀, ops₀ ++ pre, hfresh, (Machine.final_append _ _ _ _).symm⟩
  configured := by
    obtain ⟨v, hv, -⟩ := h.reachable.holds_banked
    have hinv : ∃ w, Holds eventId ((QueueService id eventId).final σ pre) w
        ∧ w.config = some c := by
      refine Machine.final_invariant (QueueService id eventId)
        (P := fun σ => ∃ w, Holds eventId σ w ∧ w.config = some c) (fun σ op hop hσ => ?_)
        ⟨v, hv, hv.configured_iff.mp h.configured⟩
      obtain ⟨w, hw, hc⟩ := hσ
      obtain ⟨σ', hrun, hσ'⟩ := hw.serve id op
      rw [show (QueueService id eventId).step σ op = _ from hrun]
      refine ⟨_, hσ', (EventState.config_of_not_configure id eventId op ?_).trans hc⟩
      exact (h.fixed op (List.mem_append_left _ (List.mem_append_left _ hop))).2
    obtain ⟨w, hw, hc⟩ := hinv
    exact hw.configured_iff.mpr hc
  rate_pos := h.rate_pos
  burst_nonneg := h.burst_nonneg
  batchMax_nonneg := h.batchMax_nonneg
  fixed op hop := h.fixed op (List.mem_append_left _ (List.mem_append_right _ hop))
  readings := rfl

/-- The calls of a stretch of the readings, with a crowd joining before it. -/
theorem of_crowd (as mid bs : List ℤ) (B : ℕ) :
    FixedRun "e" (createdStore "e" ⟨60000, B, B⟩) ⟨60000, B, B⟩
      (as.map .admitBatch ++ (manyTokens (B + B)).map .join ++ mid.map .admitBatch
        ++ bs.map .admitBatch) (as ++ mid ++ bs) where
  reachable := ⟨_, _, [], fresh_createdStore "e" ⟨60000, B, B⟩, rfl⟩
  configured := (fresh_createdStore "e" ⟨60000, B, B⟩).config
  rate_pos := by norm_num
  burst_nonneg := Int.natCast_nonneg B
  batchMax_nonneg := Int.natCast_nonneg B
  fixed op hop := by
    simp only [List.mem_append, List.mem_map] at hop
    rcases hop with ((⟨t, -, rfl⟩ | ⟨t, -, rfl⟩) | ⟨t, -, rfl⟩) | ⟨t, -, rfl⟩ <;>
      exact ⟨by simp, by simp⟩
  readings := by
    have hjoins (l : List String) : (l.map EventOp.join).filterMap EventOp.nowMs = [] := by
      rw [List.filterMap_map]
      exact List.filterMap_eq_nil_iff.mpr (fun _ _ => rfl)
    rw [List.filterMap_append, List.filterMap_append, List.filterMap_append, readings_of_calls,
      hjoins, readings_of_calls, readings_of_calls, List.append_nil]

end FixedRun

/-- A crowd that is admitted twice the climb, within the burst and a span, leaves
the climb within the span. -/
theorem climb_le_of_crowd {B n : ℕ} {span : ℤ} (hn : B + B ≤ n)
    (hle : (n : ℚ) ≤ ((B : ℤ) : ℚ) + ((60000 : ℤ) : ℚ) * (span : ℤ) / 60000) : (B : ℤ) ≤ span := by
  have hcast : (B : ℚ) + B ≤ n := by exact_mod_cast hn
  have hrate : ((B : ℤ) : ℚ) + ((60000 : ℤ) : ℚ) * (span : ℤ) / 60000 = B + span := by
    push_cast
    ring
  rw [hrate] at hle
  have hspan : (B : ℚ) ≤ span := by linarith
  exact_mod_cast hspan

/-- **A stretch is bounded by its span exactly if it climbs no further.** -/
theorem spanBoundsStretches_iff (ts : List ℤ) :
    SpanBoundsStretches ts ↔ ∀ mid, mid <:+: ts → climb mid ≤ spread mid := by
  constructor
  · rintro hbound mid ⟨as, bs, rfl⟩
    cases mid with
    | nil => exact le_rfl
    | cons t mid =>
      obtain ⟨B, hB⟩ := Int.eq_ofNat_of_zero_le (climbFrom_nonneg t mid)
      have hle := hbound _ _ _ _ (FixedRun.of_crowd as (t :: mid) bs B)
        (as.map .admitBatch ++ (manyTokens (B + B)).map .join) ((t :: mid).map .admitBatch)
        (bs.map .admitBatch) rfl
      rw [readings_of_calls] at hle
      have hmany : (admittedBy "e" _ _ : ℤ) = B + B := admitted_of_many "e" as t mid hB
      exact hB.le.trans (climb_le_of_crowd (by omega) hle)
  · intro hclimb eventId σ c ops h pre mid post hops
    subst hops
    refine h.stretch.admittedBy_le_of_climb (hclimb _ ?_)
    rw [← h.readings, List.filterMap_append, List.filterMap_append]
    exact ⟨_, _, rfl⟩

/-- **The clock is credited once exactly if no two steps of the readings go over
the same span.** -/
theorem creditedOnce_iff (ts : List ℤ) :
    CreditedOnce ts ↔ ∀ mid, mid <:+: ts → climb mid ≤ spread mid := by
  have hrun {eventId : String} {σ : Store} {c : QueueConfig} {ops : List EventOp}
      (h : FixedRun eventId σ c ops ts) :
      Apart (spansBetween eventId ((QueueService id eventId).trace σ ops)) ↔ Apart (steps ts) := by
    obtain ⟨v, hv, -⟩ := h.reachable.holds_banked
    rw [hv.spansBetween_eq (hv.configured_iff.mp h.configured) h.rate_pos h.fixed, h.readings,
      apart_map_castStep]
  rw [← apart_iff]
  refine ⟨fun honce => ?_, fun h eventId σ c ops hfixed => (hrun hfixed).mpr h⟩
  have hcrowd := FixedRun.of_crowd [] ts [] 0
  rw [List.nil_append, List.append_nil] at hcrowd
  exact (hrun hcrowd).mp (honce _ _ _ _ hcrowd)

/-- **The span bounds a whole run exactly if the readings climb no further.** -/
theorem spanBounds_iff (ts : List ℤ) : SpanBounds ts ↔ climb ts ≤ spread ts := by
  refine ⟨fun hbound => ?_, fun hclimb eventId σ c ops h => h.admittedBy_le_of_climb hclimb⟩
  cases ts with
  | nil => exact le_rfl
  | cons t ts =>
    obtain ⟨B, hB⟩ := Int.eq_ofNat_of_zero_le (climbFrom_nonneg t ts)
    have hcrowd := FixedRun.of_crowd [] (t :: ts) [] B
    rw [List.nil_append, List.append_nil, List.map_nil, List.nil_append, List.append_nil] at hcrowd
    have hle := hbound _ _ _ _ hcrowd
    rw [admittedBy_append] at hle
    have hmany : (admittedBy "e" _ _ : ℤ) = B + B := admitted_of_many "e" [] t ts hB
    rw [List.map_nil, List.nil_append] at hmany
    exact hB.le.trans (climb_le_of_crowd (by omega) hle)

/-- **Clock disagreement buys no extra admission exactly where every stretch of
the readings climbs no further than it spans.** For a sequence of clock
readings, take the runs with these readings – from any reachable state, under
any one configuration, with any joins in between. All of them admit at most the
burst plus the rate times the span of the readings, and credit no span of the
clock twice between their calls, if and only if every stretch of the readings
climbs no further than it spans. The same condition says that every stretch of
the calls is bounded by its own span; that the whole is bounded by the whole
span takes it of the whole sequence only. -/
theorem clock_disagreement_iff (ts : List ℤ) :
    (SpanBounds ts ∧ CreditedOnce ts ↔ ∀ mid, mid <:+: ts → climb mid ≤ spread mid)
      ∧ (SpanBoundsStretches ts ↔ ∀ mid, mid <:+: ts → climb mid ≤ spread mid)
      ∧ (SpanBounds ts ↔ climb ts ≤ spread ts) := by
  refine ⟨⟨fun h => (creditedOnce_iff ts).mp h.2, fun h => ⟨?_, (creditedOnce_iff ts).mpr h⟩⟩,
    spanBoundsStretches_iff ts, spanBounds_iff ts⟩
  exact (spanBounds_iff ts).mpr (h ts List.infix_rfl)

/-- The whole can climb no further than it spans where a stretch of it does. -/
example : climb [3000, 2000, 3000, 2000, 3000, 0] ≤ spread [3000, 2000, 3000, 2000, 3000, (0 : ℤ)]
    ∧ ¬ climb [2000, 3000, 2000, 3000] ≤ spread [2000, 3000, 2000, (3000 : ℤ)] := by
  decide

/-- Two admitters whose clocks are a second apart take turns, and the second
between them is credited twice: three waiters are let in where the burst and
the second allow two. -/
theorem clock_disagreement_takes_turns :
    Reachable id "e" (createdStore "e" ⟨60, 1, 5⟩)
      ∧ Configured "e" (createdStore "e" ⟨60, 1, 5⟩) ⟨60, 1, 5⟩
      ∧ ¬ ((((QueueService id "e").trace (createdStore "e" ⟨60, 1, 5⟩)
          [.join "a", .join "b", .join "c", .join "d", .admitBatch 1000, .admitBatch 0,
            .admitBatch 1000, .admitBatch 0, .admitBatch 1000]).flatMap
              Visit.admitted).length : ℚ)
        ≤ 1 + 60 * (1000 - 0) / 60000 := by
  have hfresh := fresh_createdStore "e" ⟨60, 1, 5⟩
  exact ⟨⟨_, _, [], hfresh, rfl⟩, hfresh.config, by decide +kernel⟩
