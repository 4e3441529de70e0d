import QueueFair.Positions
import QueueFair.RateLimit

/-!
# The queue does not stall

Clocks may disagree by any amount, and an operator may have written any
integers. Whatever happened, the bucket owes nothing (`Banked`), so an active
call that comes a token's time after another finds at least one token: the
earlier call left a level that is not negative, at its own reading, and the
refill in between is worth a token. Each such call lets in somebody while
somebody waits.

Only the first of a sequence of such calls may find the bucket empty, since
what was there before it is anyone's guess. A waiter at position `p` is
therefore let in by the last of `p + 1` calls (`no_stall`).
-/

open Redis

/-- A reading at least the time of one token after another. -/
def Spaced (c : QueueConfig) (t t' : ℤ) : Prop := (60000 : ℚ) / c.ratePerMin ≤ t' - t

namespace EventState

variable {v : EventState} {c : QueueConfig}

/-- **A token's time is worth a token**, to whoever waits. -/
theorem one_le_batch (hv : v.Banked) (hc : v.config = some c) (hr : 0 < c.ratePerMin)
    (hburst : 1 ≤ c.burst) (hm : 1 ≤ c.batchMax) (hwait : v.queue.members ≠ [])
    {b : TokenBucket} (hb : v.bucket = some b) {a now : ℤ} (ha : b.lastRefillMs = a)
    (hspaced : Spaced c a now) : 1 ≤ v.batch id now := by
  have hrate : (0 : ℚ) < c.ratePerMin := by exact_mod_cast hr
  have hcredit : (1 : ℚ) ≤ (c.ratePerMin : ℚ) / 60000 * max 0 (now - b.lastRefillMs) := by
    have hstep : (60000 : ℚ) / c.ratePerMin ≤ max 0 (now - b.lastRefillMs) := by
      rw [ha]
      exact hspaced.trans (le_max_right _ _)
    calc (1 : ℚ) = (c.ratePerMin : ℚ) / 60000 * (60000 / c.ratePerMin) := by
          rw [div_mul_div_cancel₀' hrate.ne', div_self (by norm_num)]
      _ ≤ _ := mul_le_mul_of_nonneg_left hstep (div_nonneg hrate.le (by norm_num))
  have hbudget : (1 : ℚ) ≤ budget id c v.bucket now := by
    rw [hb, budget_id]
    refine le_min (by exact_mod_cast hburst) ?_
    exact hcredit.trans (le_add_of_nonneg_left (hv b hb))
  have hcard : (1 : ℤ) ≤ v.queue.card := by
    rw [← v.queue.length_members]
    exact_mod_cast List.length_pos_iff.mpr hwait
  have hsize : 1 ≤ batchSize (budget id c v.bucket now) c.batchMax v.queue.card := by
    refine le_min (le_min ?_ hm) hcard
    exact Int.le_floor.mpr (by exact_mod_cast hbudget)
  have hbatch : v.batch id now
      = (batchSize (budget id c v.bucket now) c.batchMax v.queue.card).toNat := by
    simp only [batch, hc, if_neg (not_le.mpr hr)]
  rw [hbatch]
  omega

end EventState

namespace Holds

variable {eventId : String} {σ : Store} {v : EventState} {c : QueueConfig}

/-- **While a waiter waits, every call lets in somebody**, but perhaps for the
first. -/
theorem readings_le (h : Holds eventId σ v) (hv : v.Banked) (hc : v.config = some c)
    (hr : 0 < c.ratePerMin) (hburst : 1 ≤ c.burst) (hm : 1 ≤ c.batchMax) {t : String}
    (ht : t ∈ v.queue.members) {ops : List EventOp} (hkeeps : ∀ op ∈ ops, op.Keeps c)
    (hstay : ∀ z ∈ (QueueService id eventId).trace σ ops, t ∉ z.admitted) :
    (∀ b (a : ℤ), v.bucket = some b → b.lastRefillMs = a →
        (a :: ops.filterMap EventOp.nowMs).IsChain (Spaced c) →
        (ops.filterMap EventOp.nowMs).length
          ≤ (((QueueService id eventId).trace σ ops).flatMap Visit.admitted).length)
      ∧ ((ops.filterMap EventOp.nowMs).IsChain (Spaced c) →
        (ops.filterMap EventOp.nowMs).length
          ≤ (((QueueService id eventId).trace σ ops).flatMap Visit.admitted).length + 1) := by
  induction ops generalizing σ v with
  | nil => exact ⟨fun _ _ _ _ _ => le_rfl, fun _ => Nat.zero_le _⟩
  | cons op ops ih =>
    rw [Machine.trace_cons] at hstay ⊢
    rw [List.flatMap_cons, List.filterMap_cons, List.length_append]
    have hop := hkeeps op List.mem_cons_self
    have hhead := hstay _ List.mem_cons_self
    obtain ⟨σ', hrun, hσ'⟩ := h.serve id op
    have hsnd : ((QueueService id eventId).step σ op).2 = σ' := congrArg Prod.snd hrun
    have ht' : t ∈ (v.step id eventId op).2.queue.members := by
      refine EventState.mem_members_step id eventId ⟨c, hc⟩ ht hop.1 (fun now he => ?_)
      rw [← h.admitted_eq, ← he]
      exact hhead
    obtain ⟨ihb, ihf⟩ := ih (hsnd ▸ hσ') (hv.step eventId op)
      (EventState.config_of_keeps id eventId hc hop) ht'
      (fun op' hop' => hkeeps op' (List.mem_cons_of_mem op hop'))
      (fun z hz => hstay z (List.mem_cons_of_mem _ hz))
    cases hnow : op.nowMs with
    | none =>
      dsimp only
      rw [Visit.admitted_of_not_tick hnow, List.length_nil, Nat.zero_add]
      rw [EventState.bucket_of_not_tick eventId op hop.1 hnow] at ihb
      exact ⟨ihb, ihf⟩
    | some now =>
      obtain rfl := EventOp.eq_admitBatch hnow
      obtain ⟨b', hb', hlast⟩ := EventState.exists_bucket_admitBatch hc hr now
      dsimp only
      rw [h.admitted_length, List.length_cons]
      constructor
      · intro b a hb ha hspaced
        rw [List.isChain_cons_cons] at hspaced
        have hone := EventState.one_le_batch hv hc hr hburst hm (List.ne_nil_of_mem ht) hb ha
          hspaced.1
        have hrest := ihb b' now hb' hlast hspaced.2
        omega
      · intro hspaced
        have hrest := ihb b' now hb' hlast hspaced
        omega

end Holds

/-- **No stall, whatever the clocks did before.** In every reachable state the
stored token count is not negative; and a waiter shown position `p` is let in
by the last of the next `p + 1` calls, each of them a token's time after the
one before, if the configuration in force releases anybody at all and is left
as it is. -/
theorem no_stall {eventId : String} {σ : Store} (h : Reachable id eventId σ) :
    (∀ f d q, σ.entries (EventKeys.mk eventId).bucket = some ⟨.hash f, d⟩ →
        f "tokens" = some (.num q) → 0 ≤ q)
      ∧ ∀ c t o ops, Configured eventId σ c → 0 < c.ratePerMin → 1 ≤ c.burst →
        1 ≤ c.batchMax →
        ((RedisQueueRepository.position eventId t).run σ).1 = .ok (.ok (.waiting o)) →
        (∀ op ∈ ops, op.Keeps c) → (ops.filterMap EventOp.nowMs).IsChain (Spaced c) →
        ((ops.filterMap EventOp.nowMs).length : ℤ) = o.position + 1 →
        t ∈ ((QueueService id eventId).trace σ ops).flatMap Visit.admitted := by
  obtain ⟨v, hv, hbank⟩ := h.holds_banked
  constructor
  · intro f d q hentry hq
    obtain ⟨g, hg, htokens, -⟩ := hv.bucket
    rcases hg with ⟨hnone, -⟩ | hsome
    · rw [hnone] at hentry
      exact absurd hentry (by simp)
    · obtain rfl : g = f := by
        rw [hsome] at hentry
        exact Value.hash.inj (Entry.mk.inj (Option.some.inj hentry)).1
      obtain ⟨b, hb, hnum⟩ := Option.map_eq_some_iff.mp (htokens.symm.trans hq)
      rw [← Cell.num.inj hnum]
      exact hbank b hb
  · intro c t o ops hconf hr hburst hm hpos hkeeps hspaced hlen
    obtain ⟨σ₀, c₀, ops₀, hfresh, rfl⟩ := h
    obtain ⟨q, hq⟩ := hfresh.queues.reachable id ops₀
    have ht : t ∈ q.waiting := by
      by_contra ht
      exact hq.position_ne_waiting ht o hpos
    obtain ⟨s, rate, -, -, hans⟩ := hq.answers ht
    rw [hans] at hpos
    have hposition : o.position = q.position t := by
      rw [← Standing.waiting.inj (Except.ok.inj (Except.ok.inj hpos))]
    by_contra hout
    have hstay : ∀ z ∈ (QueueService id eventId).trace _ ops, t ∉ z.admitted :=
      fun z hz he => hout (List.mem_flatMap.mpr ⟨z, hz, he⟩)
    -- those in front are not enough for the calls to let in while the waiter waits
    obtain ⟨q', -, -, hadv⟩ := hq.position_run id ht (fun he => (hkeeps _ he).1 rfl) hstay
    obtain ⟨w, hw, hlines⟩ := hq
    have hbank' : w.Banked := fun b hb => hbank b ((hv.bucket_eq hw).trans hb)
    have hfront := (hw.readings_le hbank' (hw.configured_iff.mp hconf) hr hburst hm
      (hlines.members_eq ▸ ht) hkeeps hstay).2 hspaced
    have hone := q'.one_le_position t
    omega

/-- The second of two waiters, let in by the last of three calls, after a
clock that was a day ahead emptied the bucket. -/
theorem no_stall_after_a_day_ahead :
    "b" ∈ ((QueueService id "e").trace
        ((QueueService id "e").final (createdStore "e" ⟨60, 1, 1⟩)
          [.join "z", .join "a", .join "b", .admitBatch 86400000])
        [.admitBatch 0, .admitBatch 1000, .admitBatch 2000]).flatMap Visit.admitted := by
  have hσ := (holds_createdStore "e" ⟨60, 1, 1⟩).final id
    [.join "z", .join "a", .join "b", .admitBatch 86400000]
  have hreach : Reachable id "e" ((QueueService id "e").final (createdStore "e" ⟨60, 1, 1⟩)
      [.join "z", .join "a", .join "b", .admitBatch 86400000]) :=
    ⟨_, _, _, fresh_createdStore "e" ⟨60, 1, 1⟩, rfl⟩
  exact (no_stall hreach).2 ⟨60, 1, 1⟩ "b" ⟨2, 2, 1, 60⟩ _ (hσ.configured_iff.mpr rfl)
    (by decide) (by decide) (by decide) (by decide +kernel) (by simp [EventOp.Keeps])
    (by unfold Spaced; decide +kernel) (by decide)
