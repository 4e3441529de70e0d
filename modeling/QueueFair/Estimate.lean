import QueueFair.ExactRate
import QueueFair.NoStall
import Mathlib.Data.List.Pairwise

/-!
# The estimate is honest

With a position a waiter is shown how long it takes until its turn: the position
at the rate, rounded up to a second. What lets a waiter in is the bucket, and
whoever is in front. The two agree.

A call that leaves a waiter waiting has taken every whole token there was, so less
than a token is left, and from then on the tokens come at the rate. The tokens for
those in front and for the waiter are there once the estimate has elapsed, and were
not there a token's time before. So a waiter who is shown an estimate after a call is
let in by a call that comes once it has elapsed, and by none that comes much earlier
(`eta_is_honest`) – as long as the configuration is left as it is, the readings of
the clocks are in order, and no two calls are so far apart that the bucket overflows.
Arithmetic is exact here.
-/

open Redis RateBucket

namespace EventState

variable {v : EventState} {c : QueueConfig}

/-- A bucket that owes nothing is not refilled to less. -/
theorem Banked.budget_nonneg (hv : v.Banked) (hr : 0 ≤ c.ratePerMin) (hburst : 0 ≤ c.burst)
    (now : ℤ) : 0 ≤ budget id c v.bucket now := by
  by_contra hneg
  have hcap := budget_eq_burst_of_neg hv hr now (not_le.mp hneg)
  rw [hcap] at hneg
  exact hneg (by exact_mod_cast hburst)

/-- **A tick that leaves somebody waiting** was not short of waiters. -/
theorem floor_budget_le_card (hc : v.config = some c) (hr : 0 < c.ratePerMin)
    (hm : c.burst ≤ c.batchMax) {now : ℤ} {t : String}
    (ht : t ∈ (v.admitBatch id now).2.queue.members) :
    ⌊budget id c v.bucket now⌋ ≤ v.queue.card := by
  by_contra hshort
  have hfloor : ⌊budget id c v.bucket now⌋ ≤ c.batchMax := by
    have hmono := Int.floor_mono (budget_le_burst id c v.bucket now)
    rw [Int.floor_intCast] at hmono
    exact hmono.trans hm
  have hbatch : v.batch id now = v.queue.card := by
    simp only [batch, hc, if_neg (not_le.mpr hr)]
    unfold batchSize
    rw [min_eq_left hfloor, min_eq_right (not_le.mp hshort).le, Int.toNat_natCast]
  -- everybody is let in
  obtain ⟨b, n, hsnd⟩ := v.admitBatch_snd id now
  rw [hsnd, hbatch, ZSet.members_popMin, ← v.queue.length_members, List.drop_length] at ht
  exact absurd ht List.not_mem_nil

end EventState

namespace Holds

variable {eventId : String} {σ : Store} {v : EventState} {c : QueueConfig}

/-- **While a waiter waits, the queue never runs short.** -/
theorem supplied_of_stays (h : Holds eventId σ v) (hc : v.config = some c)
    (hr : 0 < c.ratePerMin) (hm : c.burst ≤ c.batchMax) {t : String}
    (ht : t ∈ v.queue.members) {ops : List EventOp} (hkeeps : ∀ op ∈ ops, op.Keeps c)
    (hstay : ∀ z ∈ (QueueService id eventId).trace σ ops, t ∉ z.admitted) :
    ∀ x ∈ (QueueService id eventId).trace σ ops, ∀ now, x.action = .admitBatch now →
      QueueSuffices eventId x.before now := by
  induction ops generalizing σ v with
  | nil => exact fun x hx => absurd hx List.not_mem_nil
  | cons op ops ih =>
    rw [Machine.trace_cons] at hstay ⊢
    obtain ⟨hhead, hrest⟩ := List.forall_mem_cons.mp hstay
    have hop := hkeeps op List.mem_cons_self
    obtain ⟨σ', hrun, hσ'⟩ := h.serve id op
    have hsnd : ((QueueService id eventId).step σ op).2 = σ' := congrArg Prod.snd hrun
    have ht' : t ∈ (v.step id eventId op).2.queue.members := by
      refine EventState.mem_members_step id eventId ⟨c, hc⟩ ht hop.1 (fun now he => ?_)
      rw [← h.admitted_eq, ← he]
      exact hhead
    refine List.forall_mem_cons.mpr ⟨fun now he => ?_, ?_⟩
    · replace he : op = .admitBatch now := he
      rw [he] at ht'
      exact (h.queueSuffices_iff hc).mpr (EventState.floor_budget_le_card hc hr hm ht')
    · exact ih (hsnd ▸ hσ') (EventState.config_of_keeps id eventId hc hop) ht'
        (fun op' hop' => hkeeps op' (List.mem_cons_of_mem op hop')) hrest

/-- Where everybody keeps the configuration, it bounds itself. -/
theorem configsBelow_of_keeps (h : Holds eventId σ v) (hc : v.config = some c)
    (hm : 0 ≤ c.batchMax) {ops : List EventOp} (hkeeps : ∀ op ∈ ops, op.Keeps c) :
    ConfigsBelow eventId c.burst c.ratePerMin ((QueueService id eventId).trace σ ops) := by
  intro x hx now c' _ hconf
  obtain ⟨v', hv', hc'⟩ := Machine.trace_invariant (QueueService id eventId)
    (P := fun σ => ∃ v, Holds eventId σ v ∧ v.config = some c) (fun σ op hop hσ => by
      obtain ⟨v, hv, hc⟩ := hσ
      obtain ⟨σ', hrun, hσ'⟩ := hv.serve id op
      rw [show (QueueService id eventId).step σ op = _ from hrun]
      exact ⟨_, hσ', EventState.config_of_keeps id eventId hc (hkeeps op hop)⟩) ⟨v, h, hc⟩ x hx
  obtain rfl : c' = c := Option.some.inj ((hv'.configured_iff.mp hconf).symm.trans hc')
  exact ⟨le_rfl, le_rfl, hm⟩

end Holds

/-! ## The two bounds -/

section Bounds

variable {eventId : String} {σ : Store} {v : EventState} {c : QueueConfig} {q : FifoQueue String}

/-- **Whoever is let in was in front**: a run that lets a waiter in lets in as many as
its position. -/
theorem Queues.position_le_of_admitted (h : Queues eventId σ q) {t : String}
    (ht : t ∈ q.waiting) {ops : List EventOp} (hops : EventOp.reset ∉ ops)
    (hin : t ∈ ((QueueService id eventId).trace σ ops).flatMap Visit.admitted) :
    q.position t ≤ (((QueueService id eventId).trace σ ops).flatMap Visit.admitted).length := by
  obtain ⟨q', hq', hnum, hrel⟩ := h.run id hops
  have hlog := congrArg (List.map Prod.fst) hnum
  rw [List.map_append, FifoQueue.map_fst_number, FifoQueue.map_fst_number] at hlog
  have hline := FifoQueue.released_since hlog hrel
  have hidx := congrArg (List.idxOf t) hline
  rw [List.idxOf_append_of_mem hin, List.idxOf_append_of_mem ht] at hidx
  unfold FifoQueue.position
  rw [← hidx]
  exact List.idxOf_lt_length_of_mem hin

/-- **Not much earlier**: with less than a token in the bucket at `t₀`, a waiter is not
let in before the tokens of those in front have come. -/
theorem Holds.turn_not_before (h : Holds eventId σ v) (hv : v.Banked) (hc : v.config = some c)
    (hr : 0 < c.ratePerMin) (hm : 0 ≤ c.batchMax) (hq : v.Lines q) {t : String}
    (ht : t ∈ q.waiting) {b : TokenBucket} (hb : v.bucket = some b) (hlt : b.tokens < 1) {t₀ : ℤ}
    (hlast : b.lastRefillMs = t₀) {ops : List EventOp} (hkeeps : ∀ op ∈ ops, op.Keeps c)
    (horder : (t₀ :: ops.filterMap EventOp.nowMs).Pairwise (· ≤ ·)) {now : ℤ}
    (hnow : (t₀ :: ops.filterMap EventOp.nowMs).getLast? = some now)
    (hin : t ∈ ((QueueService id eventId).trace σ ops).flatMap Visit.admitted) :
    60000 * ((q.position t : ℤ) - 1) < c.ratePerMin * (now - t₀) := by
  have hops : EventOp.reset ∉ ops := fun hmem => (hkeeps _ hmem).1 rfl
  have hfunded := (h.funded hv hr.le hops (h.configsBelow_of_keeps hc hm hkeeps)).1 b hb
  have hrate : (0 : ℚ) ≤ (c.ratePerMin : ℚ) / 60000 :=
    div_nonneg (by exact_mod_cast hr.le) (by norm_num)
  have htotal := hfunded.total_le hrate (hv b hb)
  rw [total_draws, map_now_draws, Machine.map_action_trace, hlast, climbFrom_map_cast,
    climbFrom_of_pairwise horder hnow] at htotal
  have hfront : (q.position t : ℚ)
      ≤ (((QueueService id eventId).trace σ ops).flatMap Visit.admitted).length := by
    exact_mod_cast Queues.position_le_of_admitted ⟨v, h, hq⟩ ht hops hin
  have hbound : (60000 : ℚ) * ((q.position t : ℚ) - 1) < c.ratePerMin * ((now - t₀ : ℤ) : ℚ) := by
    linarith
  exact_mod_cast hbound

/-- **Not later**: once the tokens of those in front and its own have come, a waiter has
been let in. -/
theorem Holds.turn_by (h : Holds eventId σ v) (hc : v.config = some c)
    (hr : 0 < c.ratePerMin) (hburst : 1 ≤ c.burst) (hm : c.burst ≤ c.batchMax) (hq : v.Lines q)
    {t : String} (ht : t ∈ q.waiting) {b : TokenBucket} (hb : v.bucket = some b)
    (h₀ : 0 ≤ b.tokens) (h₁ : b.tokens < 1) {t₀ : ℤ} (hlast : b.lastRefillMs = t₀)
    {ops : List EventOp} (hkeeps : ∀ op ∈ ops, op.Keeps c)
    (horder : (t₀ :: ops.filterMap EventOp.nowMs).IsChain (· ≤ ·))
    (hspaced : (t₀ :: ops.filterMap EventOp.nowMs).IsChain
      (fun t t' => c.ratePerMin * (t' - t) ≤ 60000 * (c.burst - 1))) {T : ℤ}
    (hT : (t₀ :: ops.filterMap EventOp.nowMs).getLast? = some T)
    (hdue : 60000 * (q.position t : ℤ) ≤ c.ratePerMin * (T - t₀)) :
    t ∈ ((QueueService id eventId).trace σ ops).flatMap Visit.admitted := by
  by_contra hout
  have hstay : ∀ z ∈ (QueueService id eventId).trace σ ops, t ∉ z.admitted :=
    fun z hz he => hout (List.mem_flatMap.mpr ⟨z, hz, he⟩)
  have hops : EventOp.reset ∉ ops := fun hmem => (hkeeps _ hmem).1 rfl
  have hsupplied := h.supplied_of_stays hc hr hm (hq.members_eq ▸ ht) hkeeps hstay
  have hdrained := (h.drained hc hr hburst hm hkeeps hsupplied).1 b t₀ hb hlast h₀ h₁ horder hspaced
  have hnows := map_now_draws ((QueueService id eventId).trace σ ops)
  rw [Machine.map_action_trace] at hnows
  have hend : (b.lastRefillMs :: (((QueueService id eventId).trace σ ops).flatMap
      Visit.draws).map Draw.now).getLast? = some (T : ℚ) := by
    rw [hnows, hlast, ← List.map_cons, List.getLast?_map, hT]
    rfl
  obtain ⟨level, hlevel₀, hlevel₁, htotal⟩ := hdrained.total_add h₀ h₁ hend
  rw [total_draws, hlast] at htotal
  obtain ⟨q', -, -, hadvance⟩ := Queues.position_run id ⟨v, h, hq⟩ ht hops hstay
  have hone := q'.one_le_position t
  have hfew : ((((QueueService id eventId).trace σ ops).flatMap Visit.admitted).length : ℚ)
      + 1 ≤ q.position t := by
    have : (((QueueService id eventId).trace σ ops).flatMap Visit.admitted).length + 1
        ≤ q.position t := by omega
    exact_mod_cast this
  have hdue' : (60000 : ℚ) * q.position t ≤ c.ratePerMin * (T - t₀) := by exact_mod_cast hdue
  linarith

end Bounds

/-- **The estimate**: the time of the tokens up to a position, rounded up to a second. -/
theorem etaSecondsFor_id {p r eta : ℤ} (h : etaSecondsFor id p r = some eta) :
    60 * p ≤ r * eta ∧ r * (eta - 1) < 60 * p := by
  unfold etaSecondsFor at h
  by_cases hr : r ≤ 0
  · rw [if_pos hr] at h
    exact absurd h (by simp)
  rw [if_neg hr] at h
  have hceil : ⌈(p : ℚ) / r * 60⌉ = eta := Option.some.inj h
  have hpos : (0 : ℚ) < r := by exact_mod_cast not_le.mp hr
  have hscaled : (r : ℚ) * ((p : ℚ) / r * 60) = 60 * p := by
    rw [← mul_assoc, mul_div_cancel₀ _ hpos.ne', mul_comm]
  have hle : (p : ℚ) / r * 60 ≤ eta := hceil ▸ Int.le_ceil _
  have hlt : (eta : ℚ) - 1 < (p : ℚ) / r * 60 := by
    have := Int.ceil_lt_add_one ((p : ℚ) / r * 60)
    rw [hceil] at this
    linarith
  constructor
  · have := mul_le_mul_of_nonneg_left hle hpos.le
    rw [hscaled] at this
    exact_mod_cast this
  · have := mul_lt_mul_of_pos_left hlt hpos
    rw [hscaled] at this
    exact_mod_cast this

/-- **The estimate is honest.** A waiter who still waits after a call at `t₀`, and is
then shown an estimate, is let in by the time a call comes that is the estimate later,
if no two calls in a row are so far apart that the bucket overflows – that more than the
burst less one comes in between; and no call lets the waiter in that comes a second and
the time of a token before. The configuration is left as it is, and the readings of the
clocks are in order. -/
theorem eta_is_honest {eventId : String} {σ : Store} (h : Reachable id eventId σ)
    {c : QueueConfig} (hconf : Configured eventId σ c) (hr : 0 < c.ratePerMin)
    (hburst : 1 ≤ c.burst) (hm : c.burst ≤ c.batchMax) {t : String} {t₀ : ℤ}
    {o : PositionOutcome} (hpos : ((RedisQueueRepository.position eventId t).run
      ((QueueService id eventId).step σ (.admitBatch t₀)).2).1 = .ok (.ok (.waiting o)))
    {eta : ℤ} (heta : (stateFromPosition id o).etaSeconds = some eta) {ops : List EventOp}
    (hkeeps : ∀ op ∈ ops, op.Keeps c)
    (horder : (t₀ :: ops.filterMap EventOp.nowMs).IsChain (· ≤ ·)) :
    let xs := (QueueService id eventId).trace
      ((QueueService id eventId).step σ (.admitBatch t₀)).2 ops
    ((t₀ :: ops.filterMap EventOp.nowMs).IsChain
        (fun t t' => c.ratePerMin * (t' - t) ≤ 60000 * (c.burst - 1)) →
        (∃ T ∈ t₀ :: ops.filterMap EventOp.nowMs, t₀ + 1000 * eta ≤ T) →
        t ∈ xs.flatMap Visit.admitted)
      ∧ ∀ x ∈ xs, ∀ now, x.action = .admitBatch now → t ∈ x.admitted →
        c.ratePerMin * (1000 * (eta - 1)) < c.ratePerMin * (now - t₀) + 60000 := by
  intro xs
  obtain ⟨u, hu, hbank⟩ := h.holds_banked
  obtain ⟨σ₀, c₀, ops₀, hfresh, rfl⟩ := h
  obtain ⟨q₀, v, hv, hq₀⟩ := hfresh.queues.reachable id ops₀
  have hbanked : v.Banked := fun b hb => hbank b ((hu.bucket_eq hv).trans hb)
  have hc := hv.configured_iff.mp hconf
  obtain ⟨hn, -, hq⟩ := hq₀.admitBatch id t₀
  obtain ⟨σ₁, hrun, hσ₁⟩ := hv.serve id (.admitBatch t₀)
  have hsnd : ((QueueService id eventId).step ((QueueService id eventId).final σ₀ ops₀)
      (.admitBatch t₀)).2 = σ₁ := congrArg Prod.snd hrun
  have hcfg : (v.step id eventId (.admitBatch t₀)).2.config = some c :=
    EventState.config_of_keeps id eventId hc ⟨by simp, fun c' he => absurd he (by simp)⟩
  have hbanked₁ := hbanked.step eventId (.admitBatch t₀)
  rw [hsnd] at hpos
  replace hq : (v.step id eventId (.admitBatch t₀)).2.Lines (q₀.release _ hn) := hq
  have ht : t ∈ (q₀.release _ hn).waiting := by
    by_contra ht
    exact Queues.position_ne_waiting ⟨_, hσ₁, hq⟩ ht o hpos
  -- the call has taken every whole token there was
  obtain ⟨b, hb, hlast, h₀, h₁, -⟩ := EventState.admitBatch_drains hc hr hm
    (hbanked.budget_nonneg hr.le (zero_le_one.trans hburst) t₀)
    (EventState.floor_budget_le_card hc hr hm (hq.members_eq ▸ ht))
  replace hb : (v.step id eventId (.admitBatch t₀)).2.bucket = some b := hb
  have ho : o.position = (q₀.release _ hn).position t ∧ o.ratePerMin = c.ratePerMin := by
    have hrank := (v.step id eventId (.admitBatch t₀)).2.queue.rank?_of_mem (hq.members_eq ▸ ht)
    rw [hσ₁.position_run, EventState.position_of_queued hcfg eventId hrank] at hpos
    rw [← Standing.waiting.inj (Except.ok.inj (Except.ok.inj hpos)), hq.members_eq]
    exact ⟨rfl, rfl⟩
  replace heta : etaSecondsFor id o.position o.ratePerMin = some eta := heta
  rw [ho.1, ho.2] at heta
  obtain ⟨hdue, hearly⟩ := etaSecondsFor_id heta
  have hxs : xs = (QueueService id eventId).trace σ₁ ops :=
    congrArg (fun σ => (QueueService id eventId).trace σ ops) hsnd
  rw [hxs]
  constructor
  · rintro hspaced ⟨T, hT, hlate⟩
    have hend := List.getLast?_eq_some_getLast (List.cons_ne_nil t₀ (ops.filterMap EventOp.nowMs))
    have hTend : T ≤ (t₀ :: ops.filterMap EventOp.nowMs).getLast (List.cons_ne_nil _ _) := by
      exact (List.isChain_iff_pairwise.mp horder).rel_getLast_of_rel_getLast_getLast hT le_rfl
    refine hσ₁.turn_by hcfg hr hburst hm hq ht hb h₀ h₁ hlast hkeeps horder hspaced hend ?_
    have := mul_le_mul_of_nonneg_left (show 1000 * eta ≤ _ - t₀ by linarith) hr.le
    linarith
  · intro x hx now hnow hin
    -- the run up to the call that lets the waiter in
    obtain ⟨pre, post, htrace⟩ := List.append_of_mem hx
    obtain ⟨as, bs, rfl, rfl, hys⟩ := Machine.trace_eq_append _ htrace
    obtain ⟨cs, rfl, hbefore, hreply, -⟩ := Machine.trace_eq_cons _ hys.symm
    have hlet : t ∈ ((QueueService id eventId).trace σ₁ (as ++ [x.action])).flatMap
        Visit.admitted := by
      rw [Machine.trace_append, List.flatMap_append]
      refine List.mem_append_right _ (List.mem_flatMap.mpr ⟨x, ?_, hin⟩)
      refine List.mem_singleton.mpr (show x = ⟨_, _, _⟩ from ?_)
      rw [← hreply, ← hbefore]
    have hreadings : (t₀ :: (as ++ x.action :: cs).filterMap EventOp.nowMs)
        = (t₀ :: (as ++ [x.action]).filterMap EventOp.nowMs) ++ cs.filterMap EventOp.nowMs := by
      rw [List.append_cons, List.filterMap_append, List.cons_append]
    rw [hreadings] at horder
    have hsorted := (List.pairwise_append.mp (List.isChain_iff_pairwise.mp horder)).1
    have hend : (t₀ :: (as ++ [x.action]).filterMap EventOp.nowMs).getLast? = some now := by
      rw [List.filterMap_append, hnow, ← List.cons_append]
      exact List.getLast?_concat
    have hturn := hσ₁.turn_not_before hbanked₁ hcfg hr (zero_le_one.trans (hburst.trans hm)) hq ht
      hb h₁ hlast (fun op hop => hkeeps op (by
        rw [List.append_cons]
        exact List.mem_append_left _ hop)) hsorted hend hlet
    linarith

/-- The third of three waiters, shown three seconds: it is let in by a call that comes
three seconds later. -/
theorem eta_is_honest_of_three :
    let σ := (QueueService id "e").final (createdStore "e" ⟨60, 2, 2⟩)
      [.join "z", .join "y", .join "a", .join "b", .join "c", .admitBatch 0]
    let xs := (QueueService id "e").trace ((QueueService id "e").step σ (.admitBatch 500)).2
      [.admitBatch 1500, .admitBatch 2500, .admitBatch 3500]
    "c" ∈ xs.flatMap Visit.admitted
      ∧ ∀ x ∈ xs, ∀ now, x.action = .admitBatch now → "c" ∈ x.admitted →
        (60 : ℤ) * (1000 * (3 - 1)) < 60 * (now - 500) + 60000 := by
  intro σ xs
  have hσ := (holds_createdStore "e" ⟨60, 2, 2⟩).final id
    [.join "z", .join "y", .join "a", .join "b", .join "c", .admitBatch 0]
  have hreach : Reachable id "e" σ := ⟨_, _, _, fresh_createdStore "e" ⟨60, 2, 2⟩, rfl⟩
  have hpos : ((RedisQueueRepository.position "e" "c").run
      ((QueueService id "e").step σ (.admitBatch 500)).2).1
      = .ok (.ok (.waiting ⟨3, 3, 2, 60⟩)) := by decide +kernel
  have heta : (stateFromPosition id ⟨3, 3, 2, 60⟩).etaSeconds = some 3 := by decide +kernel
  have hkeeps : ∀ op ∈ [EventOp.admitBatch 1500, .admitBatch 2500, .admitBatch 3500],
      op.Keeps ⟨60, 2, 2⟩ := by simp [EventOp.Keeps]
  have hhonest := eta_is_honest hreach (hσ.configured_iff.mpr rfl) (by decide) (by decide)
    (by decide) hpos heta hkeeps (by decide)
  exact ⟨hhonest.1 (by decide) ⟨3500, by decide, by decide⟩, hhonest.2⟩
