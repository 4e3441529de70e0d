import QueueFair.FifoRefinement
import QueueFair.RateLimit
import Mathlib.Data.List.Infix

/-!
# The rate is exact

The ceiling on what a bucket lets in is attained where nothing else is in the
way: the batch limit is no smaller than the burst, the queue never runs
short, and the calls are close enough together for the bucket not to
overflow between two of them. Every call then takes every whole token there
is, and leaves a fraction that the next one finds again. The fractions are
what an account of such a run has to carry, and they cancel: after any number
of calls the number let in is the whole part of the burst and of the time
elapsed at the rate, whoever called and however often (`admission_exact`).

Who is let in is then known as well, since the queue is first in, first out.
-/

open Redis RateBucket

/-- At a call the queue holds as many waiters as the bucket could let in. -/
def QueueSuffices (eventId : String) (σ : Store) (now : ℤ) : Prop :=
  ∀ v c, Holds eventId σ v → v.config = some c →
    ⌊EventState.budget id c v.bucket now⌋ ≤ v.queue.card

/-- **A schedule of calls** on an event of configuration `c` whose bucket does
not exist before the first: readings in order, no two of them so far apart
that the bucket overflows, and always enough waiters. -/
structure Schedule (eventId : String) (c : QueueConfig) (σ : Store) (ops : List EventOp) :
    Prop where
  reachable : Reachable id eventId σ
  configured : Configured eventId σ c
  bucket : σ.entries (EventKeys.mk eventId).bucket = none
  keeps : ∀ op ∈ ops, op.Keeps c
  inOrder : (ops.filterMap EventOp.nowMs).IsChain (· ≤ ·)
  spaced : (ops.filterMap EventOp.nowMs).IsChain
    (fun t t' => c.ratePerMin * (t' - t) ≤ 60000 * (c.burst - 1))
  supplied : ∀ x ∈ (QueueService id eventId).trace σ ops, ∀ now,
    x.action = .admitBatch now → QueueSuffices eventId x.before now

/-- The first and the last reading of a schedule. -/
def Spans (t₀ tₖ : ℤ) (ops : List EventOp) : Prop :=
  (ops.filterMap EventOp.nowMs).head? = some t₀ ∧ (ops.filterMap EventOp.nowMs).getLast? = some tₖ

/-- The line over a stretch of a history: those who waited, and those given a
place since. -/
def lineUp (W : ZSet String ℤ) (xs : List (Visit Store EventOp (Except Redis.Error Answer))) :
    List String :=
  W.members ++ (xs.flatMap Visit.joined).map Prod.fst

namespace EventState

variable {v : EventState} {c : QueueConfig}

/-- A tick that nothing else holds back takes every whole token. -/
theorem admitBatch_drains (hc : v.config = some c) (hr : 0 < c.ratePerMin)
    (hm : c.burst ≤ c.batchMax) {now : ℤ} (hpos : 0 ≤ budget id c v.bucket now)
    (hqueue : ⌊budget id c v.bucket now⌋ ≤ v.queue.card) :
    ∃ b, (v.admitBatch id now).2.bucket = some b ∧ b.lastRefillMs = now ∧ 0 ≤ b.tokens
      ∧ b.tokens < 1 ∧ (v.batch id now : ℚ) + b.tokens = budget id c v.bucket now := by
  have hbatch : v.batch id now
      = (batchSize (budget id c v.bucket now) c.batchMax v.queue.card).toNat := by
    simp only [batch, hc, if_neg (not_le.mpr hr)]
  have hburst := budget_le_burst id c v.bucket now
  rw [admitBatch_of_active id hc hr, hbatch]
  generalize budget id c v.bucket now = tokens at hpos hqueue hburst ⊢
  have hfloor : ⌊tokens⌋ ≤ c.batchMax := by
    have := Int.floor_mono hburst
    rw [Int.floor_intCast] at this
    exact this.trans hm
  have hsize : batchSize tokens c.batchMax v.queue.card = ⌊tokens⌋ := by
    unfold batchSize
    rw [min_eq_left hfloor, min_eq_left hqueue]
  rw [hsize]
  refine ⟨_, rfl, rfl, ?_, ?_, ?_⟩
  · exact sub_nonneg.mpr (Int.floor_le tokens)
  · exact sub_lt_iff_lt_add'.mpr (Int.lt_floor_add_one tokens)
  · show ((⌊tokens⌋.toNat : ℕ) : ℚ) + (tokens - ⌊tokens⌋) = tokens
    have hcast : ((⌊tokens⌋.toNat : ℕ) : ℚ) = (⌊tokens⌋ : ℤ) := by
      exact_mod_cast Int.toNat_of_nonneg (Int.floor_nonneg.mpr hpos)
    rw [hcast]
    exact add_sub_cancel _ _

/-- A bucket that holds less than a token does not overflow over a short
interval. -/
theorem budget_of_close {b : TokenBucket} (hlt : b.tokens < 1)
    {a now : ℤ} (hb : b.lastRefillMs = a) (hle : a ≤ now)
    (hclose : c.ratePerMin * (now - a) ≤ 60000 * (c.burst - 1)) :
    budget id c (some b) now
      = b.tokens + (c.ratePerMin : ℚ) / 60000 * (now - b.lastRefillMs) := by
  have hle' : (a : ℚ) ≤ now := by exact_mod_cast hle
  have hclose' : (c.ratePerMin : ℚ) * (now - a) ≤ 60000 * (c.burst - 1) := by
    exact_mod_cast hclose
  have hcredit : (c.ratePerMin : ℚ) / 60000 * (now - a) ≤ c.burst - 1 := by
    rw [div_mul_eq_mul_div, div_le_iff₀ (by norm_num)]
    linarith
  rw [budget_id, hb, max_eq_right (sub_nonneg.mpr hle')]
  exact min_eq_right (by linarith)

end EventState

namespace Holds

variable {eventId : String} {σ : Store} {v : EventState} {c : QueueConfig}

/-- Whether the queue suffices is read off the record. -/
theorem queueSuffices_iff (h : Holds eventId σ v) (hc : v.config = some c) {now : ℤ} :
    QueueSuffices eventId σ now
      ↔ ⌊EventState.budget id c v.bucket now⌋ ≤ v.queue.card := by
  constructor
  · exact fun hsup => hsup v c h hc
  · intro hsup w c' hw hc'
    obtain rfl : c = c' :=
      Option.some.inj (hc.symm.trans (h.configured_iff.mp (hw.configured_iff.mpr hc')))
    rw [hw.bucket_eq h, hw.queue_eq h.queue]
    exact hsup

/-- The record of a run tells whether its queue never runs short. -/
theorem supplied (h : Holds eventId σ v) {ops : List EventOp}
    (hrun : ∀ bs ∈ ops.inits, ∀ now ∈ ops.filterMap EventOp.nowMs,
      bs ++ [.admitBatch now] <+: ops → (v.run id eventId bs).config = some c
        ∧ ⌊EventState.budget id c (v.run id eventId bs).bucket now⌋
          ≤ (v.run id eventId bs).queue.card) :
    ∀ x ∈ (QueueService id eventId).trace σ ops, ∀ now, x.action = .admitBatch now →
      QueueSuffices eventId x.before now := by
  intro x hx now hnow
  obtain ⟨bs, hbs, hbefore⟩ := Machine.exists_final_of_mem_trace _ hx
  rw [hnow] at hbs
  have hmem : now ∈ ops.filterMap EventOp.nowMs := by
    refine List.mem_filterMap.mpr ⟨.admitBatch now, hbs.subset ?_, rfl⟩
    exact List.mem_append_right _ List.mem_cons_self
  obtain ⟨hconf, hsup⟩ := hrun bs ((List.mem_inits _ _).mpr ((List.prefix_append _ _).trans hbs))
    now hmem hbs
  rw [hbefore]
  exact ((h.final id bs).queueSuffices_iff hconf).mpr hsup

/-- **The calls of a schedule drain the bucket**: the one on record, where it
holds less than a token, and a full one where there is none. -/
theorem drained (h : Holds eventId σ v) (hc : v.config = some c) (hr : 0 < c.ratePerMin)
    (hburst : 1 ≤ c.burst) (hm : c.burst ≤ c.batchMax) {ops : List EventOp}
    (hkeeps : ∀ op ∈ ops, op.Keeps c)
    (hqueue : ∀ x ∈ (QueueService id eventId).trace σ ops, ∀ now,
      x.action = .admitBatch now → QueueSuffices eventId x.before now) :
    (∀ b (a : ℤ), v.bucket = some b → b.lastRefillMs = a → 0 ≤ b.tokens → b.tokens < 1 →
        (a :: ops.filterMap EventOp.nowMs).IsChain (· ≤ ·) →
        (a :: ops.filterMap EventOp.nowMs).IsChain
          (fun t t' => c.ratePerMin * (t' - t) ≤ 60000 * (c.burst - 1)) →
        Drained ((c.ratePerMin : ℚ) / 60000) b.tokens b.lastRefillMs
          (((QueueService id eventId).trace σ ops).flatMap Visit.draws))
      ∧ (v.bucket = none → (ops.filterMap EventOp.nowMs).IsChain (· ≤ ·) →
        (ops.filterMap EventOp.nowMs).IsChain
          (fun t t' => c.ratePerMin * (t' - t) ≤ 60000 * (c.burst - 1)) →
        DrainedFrom (c.burst : ℚ) ((c.ratePerMin : ℚ) / 60000)
          (((QueueService id eventId).trace σ ops).flatMap Visit.draws)) := by
  induction ops generalizing σ v with
  | nil => exact ⟨fun _ _ _ _ _ _ _ _ => trivial, fun _ _ _ => trivial⟩
  | cons op ops ih =>
    rw [Machine.trace_cons] at hqueue ⊢
    rw [List.flatMap_cons, List.filterMap_cons]
    have hop := hkeeps op List.mem_cons_self
    obtain ⟨σ', hrun, hσ'⟩ := h.serve id op
    have hsnd : ((QueueService id eventId).step σ op).2 = σ' := congrArg Prod.snd hrun
    obtain ⟨ihb, ihf⟩ := ih (hsnd ▸ hσ') (EventState.config_of_keeps id eventId hc hop)
      (fun op' hop' => hkeeps op' (List.mem_cons_of_mem op hop'))
      (fun x hx => hqueue x (List.mem_cons_of_mem _ hx))
    cases hnow : op.nowMs with
    | none =>
      dsimp only
      rw [Visit.draws_of_not_tick hnow, List.nil_append]
      rw [EventState.bucket_of_not_tick eventId op hop.1 hnow] at ihb ihf
      exact ⟨ihb, ihf⟩
    | some now =>
      obtain rfl := EventOp.eq_admitBatch hnow
      have hsup := hqueue _ List.mem_cons_self now rfl v c h hc
      dsimp only
      rw [h.draws_admitBatch, List.singleton_append]
      constructor
      · intro b a hb ha h₀ h₁ horder hspaced
        rw [List.isChain_cons_cons] at horder hspaced
        have hbudget := EventState.budget_of_close h₁ ha horder.1 hspaced.1
        rw [← hb] at hbudget
        have hpos : 0 ≤ EventState.budget id c v.bucket now := by
          rw [hbudget, ha]
          have hle : (a : ℚ) ≤ now := by exact_mod_cast horder.1
          have hrate : (0 : ℚ) ≤ (c.ratePerMin : ℚ) / 60000 :=
            div_nonneg (by exact_mod_cast hr.le) (by norm_num)
          exact add_nonneg h₀ (mul_nonneg hrate (sub_nonneg.mpr hle))
        obtain ⟨b', hb', hlast, h₀', h₁', hsum⟩ :=
          EventState.admitBatch_drains hc hr hm hpos hsup
        refine ⟨b'.tokens, h₀', h₁', hsum.trans hbudget, ?_⟩
        have hrest := ihb b' now hb' hlast h₀' h₁' horder.2 hspaced.2
        rwa [hlast] at hrest
      · intro hb horder hspaced
        have hbudget : EventState.budget id c v.bucket now = c.burst := by
          rw [hb, EventState.budget_none]
        have hpos : 0 ≤ EventState.budget id c v.bucket now := by
          rw [hbudget]
          exact_mod_cast (zero_le_one.trans hburst)
        obtain ⟨b', hb', hlast, h₀', h₁', hsum⟩ :=
          EventState.admitBatch_drains hc hr hm hpos hsup
        refine ⟨b'.tokens, h₀', h₁', hsum.trans hbudget, ?_⟩
        have hrest := ihb b' now hb' hlast h₀' h₁' horder hspaced
        rwa [hlast] at hrest

end Holds

namespace Schedule

variable {eventId : String} {σ : Store} {c : QueueConfig} {ops : List EventOp}

/-- **What a schedule lets in.** -/
theorem length_admitted (h : Schedule eventId c σ ops) (hr : 0 < c.ratePerMin)
    (hburst : 1 ≤ c.burst) (hm : c.burst ≤ c.batchMax) {t₀ tₖ : ℤ} (hspan : Spans t₀ tₖ ops) :
    ((((QueueService id eventId).trace σ ops).flatMap Visit.admitted).length : ℤ)
      = ⌊(c.burst : ℚ) + c.ratePerMin * (tₖ - t₀) / 60000⌋ := by
  obtain ⟨v, hv, -⟩ := h.reachable.holds_banked
  have hbucket : v.bucket = none := by
    obtain ⟨f, hf, htokens, -⟩ := hv.bucket
    rcases hf with ⟨-, rfl⟩ | hf
    · exact Option.map_eq_none_iff.mp htokens.symm
    · rw [h.bucket] at hf
      exact absurd hf (by simp)
  have hdrain := (hv.drained (hv.configured_iff.mp h.configured) hr hburst hm h.keeps
    h.supplied).2 hbucket h.inOrder h.spaced
  have hnows := map_now_draws ((QueueService id eventId).trace σ ops)
  rw [Machine.map_action_trace] at hnows
  have hfloor := hdrain.total_eq
    (by rw [hnows, List.head?_map, hspan.1]; rfl)
    (by rw [hnows, List.getLast?_map, hspan.2]; rfl)
    ((total_draws _).trans (Int.cast_natCast _).symm)
  rw [hfloor, div_mul_eq_mul_div]

/-- **Whom a schedule lets in**: the front of its line. -/
theorem admitted_eq (h : Schedule eventId c σ ops) {W : ZSet String ℤ}
    (hW : σ.HoldsZset (EventKeys.mk eventId).queue W) :
    ((QueueService id eventId).trace σ ops).flatMap Visit.admitted
      = (lineUp W ((QueueService id eventId).trace σ ops)).take
        (((QueueService id eventId).trace σ ops).flatMap Visit.admitted).length := by
  obtain ⟨σ₀, c₀, ops₀, hfresh, rfl⟩ := h.reachable
  obtain ⟨q, hq⟩ := hfresh.queues.reachable id ops₀
  obtain ⟨q', hq', hnum, hrel⟩ := hq.run id (fun he => (h.keeps _ he).1 rfl)
  obtain ⟨v, hv, hlines⟩ := hq
  have hlog := congrArg (List.map Prod.fst) hnum
  rw [List.map_append, FifoQueue.map_fst_number, FifoQueue.map_fst_number] at hlog
  unfold lineUp
  rw [← hv.queue_eq hW, hlines.members_eq, ← FifoQueue.released_since hlog hrel,
    List.take_left]

end Schedule

/-- **Admission is exact, and independent of how it is split into calls.** On
an event of rate, burst and batch limit as below, every schedule lets in
exactly the whole part of the burst and of the time from its first to its
last call at the rate, and whom it lets in are the first of its line. So two
schedules with the same first and last instant, in whose lines the same
waiters stand so far in front, let in the same waiters. -/
theorem admission_exact {eventId : String} {c : QueueConfig} (hr : 0 < c.ratePerMin)
    (hburst : 1 ≤ c.burst) (hm : c.burst ≤ c.batchMax) {t₀ tₖ : ℤ} :
    (∀ σ ops, Schedule eventId c σ ops → Spans t₀ tₖ ops →
        ((((QueueService id eventId).trace σ ops).flatMap Visit.admitted).length : ℤ)
            = ⌊(c.burst : ℚ) + c.ratePerMin * (tₖ - t₀) / 60000⌋
          ∧ ∀ W, σ.HoldsZset (EventKeys.mk eventId).queue W →
            ((QueueService id eventId).trace σ ops).flatMap Visit.admitted
              = (lineUp W ((QueueService id eventId).trace σ ops)).take
                ⌊(c.burst : ℚ) + c.ratePerMin * (tₖ - t₀) / 60000⌋.toNat)
      ∧ ∀ σ ops σ' ops' W W', Schedule eventId c σ ops → Schedule eventId c σ' ops' →
        Spans t₀ tₖ ops → Spans t₀ tₖ ops' →
        σ.HoldsZset (EventKeys.mk eventId).queue W →
        σ'.HoldsZset (EventKeys.mk eventId).queue W' →
        (lineUp W ((QueueService id eventId).trace σ ops)).take
            ⌊(c.burst : ℚ) + c.ratePerMin * (tₖ - t₀) / 60000⌋.toNat
          = (lineUp W' ((QueueService id eventId).trace σ' ops')).take
            ⌊(c.burst : ℚ) + c.ratePerMin * (tₖ - t₀) / 60000⌋.toNat →
        ((QueueService id eventId).trace σ ops).flatMap Visit.admitted
          = ((QueueService id eventId).trace σ' ops').flatMap Visit.admitted := by
  have hfront : ∀ σ ops W, Schedule eventId c σ ops → Spans t₀ tₖ ops →
      σ.HoldsZset (EventKeys.mk eventId).queue W →
      ((QueueService id eventId).trace σ ops).flatMap Visit.admitted
        = (lineUp W ((QueueService id eventId).trace σ ops)).take
          ⌊(c.burst : ℚ) + c.ratePerMin * (tₖ - t₀) / 60000⌋.toNat := by
    intro σ ops W h hspan hW
    have hlen := h.length_admitted hr hburst hm hspan
    rw [← hlen, Int.toNat_natCast]
    exact h.admitted_eq hW
  refine ⟨fun σ ops h hspan => ⟨h.length_admitted hr hburst hm hspan,
    fun W hW => hfront σ ops W h hspan hW⟩, ?_⟩
  intro σ ops σ' ops' W W' h h' hspan hspan' hW hW' hline
  rw [hfront σ ops W h hspan hW, hfront σ' ops' W' h' hspan' hW', hline]

/-- Three waiters, let in by two calls two seconds apart, or by three calls a
second apart. -/
theorem admission_exact_of_two_splits :
    ((((QueueService id "e").trace
        ((QueueService id "e").final (createdStore "e" ⟨30, 2, 2⟩)
          [.join "a", .join "b", .join "c"])
        [.admitBatch 0, .admitBatch 1000, .admitBatch 2000]).flatMap Visit.admitted).length : ℤ)
        = ⌊((2 : ℤ) : ℚ) + (30 : ℤ) * ((2000 : ℤ) - (0 : ℤ)) / 60000⌋
      ∧ ((QueueService id "e").trace
          ((QueueService id "e").final (createdStore "e" ⟨30, 2, 2⟩)
            [.join "a", .join "b", .join "c"])
          [.admitBatch 0, .admitBatch 1000, .admitBatch 2000]).flatMap Visit.admitted
        = ((QueueService id "e").trace
          ((QueueService id "e").final (createdStore "e" ⟨30, 2, 2⟩)
            [.join "a", .join "b", .join "c"])
          [.admitBatch 0, .admitBatch 2000]).flatMap Visit.admitted := by
  have hσ := (holds_createdStore "e" ⟨30, 2, 2⟩).final id [.join "a", .join "b", .join "c"]
  have hreach : Reachable id "e" ((QueueService id "e").final (createdStore "e" ⟨30, 2, 2⟩)
      [.join "a", .join "b", .join "c"]) := ⟨_, _, _, fresh_createdStore "e" ⟨30, 2, 2⟩, rfl⟩
  have hthree : Schedule "e" ⟨30, 2, 2⟩ ((QueueService id "e").final
      (createdStore "e" ⟨30, 2, 2⟩) [.join "a", .join "b", .join "c"])
      [.admitBatch 0, .admitBatch 1000, .admitBatch 2000] :=
    ⟨hreach, hσ.configured_iff.mpr rfl,
      Option.isNone_iff_eq_none.mp (by decide +kernel), by simp [EventOp.Keeps], by decide,
      by decide, hσ.supplied (c := ⟨30, 2, 2⟩) (by decide +kernel)⟩
  have htwo : Schedule "e" ⟨30, 2, 2⟩ ((QueueService id "e").final
      (createdStore "e" ⟨30, 2, 2⟩) [.join "a", .join "b", .join "c"])
      [.admitBatch 0, .admitBatch 2000] :=
    ⟨hreach, hσ.configured_iff.mpr rfl,
      Option.isNone_iff_eq_none.mp (by decide +kernel), by simp [EventOp.Keeps], by decide,
      by decide, hσ.supplied (c := ⟨30, 2, 2⟩) (by decide +kernel)⟩
  have hexact := @admission_exact "e" ⟨30, 2, 2⟩ (by decide) (by decide) (by decide) 0 2000
  refine ⟨(hexact.1 _ _ hthree ⟨rfl, rfl⟩).1, ?_⟩
  exact hexact.2 _ _ _ _ _ _ hthree htwo ⟨rfl, rfl⟩ ⟨rfl, rfl⟩ hσ.queue hσ.queue
    (by decide +kernel)
