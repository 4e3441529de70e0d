import QueueFair.EventRun
import QueueFair.FifoQueue

/-!
# The queue of an event is a first-in first-out queue

The store keeps no log: it has a sorted set, a counter of the sequences given
out and a counter of the waiters admitted, each written by different
commands. `Queues` says that the three together are one first-in first-out
queue: the sorted set holds its line, ticket by ticket, and the counters are
the length of its log and of the part released. The queue is not in the
store; it is what the history adds up to.

Every call keeps the relation (`Queues.step`), extending the log by the place
a join gave and the released part by the batch a tick let in – so along a run
the log is the sequence of joins and the released part is the sequence of
batches (`Queues.run`). Everything about order, density and counting follows
from what a first-in first-out queue is.
-/

open Redis

namespace EventState

/-- The record is a first-in first-out queue, of a configured event. -/
structure Lines (v : EventState) (q : FifoQueue String) : Prop where
  queue : v.queue.entries = q.line
  seq : v.seq = q.log.length
  admitted : v.admitted = q.served
  configured : ∃ c, v.config = some c

namespace Lines

variable {v : EventState} {q : FifoQueue String}

theorem members_eq (h : v.Lines q) : v.queue.members = q.waiting := by
  unfold ZSet.members
  rw [h.queue, q.map_fst_line]

theorem card_eq (h : v.Lines q) : v.queue.card = q.waiting.length := by
  rw [← ZSet.length_members, h.members_eq]

/-- A waiter who waits is scored by the number of the ticket held. -/
theorem score_of_waiting (h : v.Lines q) {t : String} (ht : t ∈ q.waiting) :
    ∃ s, (t, s) ∈ q.line ∧ v.queue.score? t = some s := by
  rw [← q.map_fst_line] at ht
  obtain ⟨x, hx, rfl⟩ := List.mem_map.mp ht
  refine ⟨x.2, hx, v.queue.score?_eq_some_iff.mpr ?_⟩
  rw [h.queue]
  exact hx

/-- Anyone else is given the next ticket, at the end of the line. -/
theorem join_new (h : v.Lines q) {t : String} (ht : t ∉ q.waiting) :
    (∃ c, v.config = some c ∧ (v.join t).1 = some ⟨q.log.length + 1, true,
        (q.join t ht).waiting.length, q.served, c.ratePerMin⟩)
      ∧ (v.join t).2.Lines (q.join t ht) := by
  obtain ⟨c, hc⟩ := h.configured
  have hm : t ∉ v.queue.members := by rwa [h.members_eq]
  -- the counter is above every score, so ZADD appends
  have hlast : ∀ x ∈ v.queue.entries, x.2 < v.seq + 1 := by
    intro x hx
    rw [h.queue] at hx
    rw [h.seq]
    exact Int.lt_add_one_of_le (q.snd_le_of_mem_line hx)
  have hentries : (v.queue.add t (v.seq + 1)).entries = (q.join t ht).line := by
    rw [v.queue.add_entries_of_last hm hlast, h.queue, q.line_join, h.seq]
  rw [join_of_new hc (v.queue.score?_eq_none_iff.mpr hm)]
  refine ⟨⟨c, hc, ?_⟩, ⟨hentries, ?_, h.admitted, ⟨c, hc⟩⟩⟩
  · rw [ZSet.card, hentries, FifoQueue.length_line, h.seq, h.admitted]
  · show v.seq + 1 = ((q.log ++ [t]).length : ℤ)
    rw [h.seq, List.length_append]
    rfl

/-- A tick releases from the front, and counts what it releases. -/
theorem admitBatch (rnd : ℚ → ℚ) (h : v.Lines q) (now : ℤ) :
    ∃ hn : v.batch rnd now ≤ q.waiting.length,
      (v.admitBatch rnd now).1
        = some ⟨q.waiting.take (v.batch rnd now), q.served + v.batch rnd now⟩
      ∧ (v.admitBatch rnd now).2.Lines (q.release (v.batch rnd now) hn) := by
  obtain ⟨c, hc⟩ := h.configured
  obtain ⟨b, hb⟩ := admitBatch_eq rnd hc now
  have hn : v.batch rnd now ≤ q.waiting.length := h.card_eq ▸ batch_le_card rnd v now
  rw [hb]
  refine ⟨hn, ?_, ?_, h.seq, ?_, ⟨c, hc⟩⟩
  · rw [ZSet.map_fst_popped, h.members_eq, h.admitted]
  · rw [q.line_release, ← h.queue]
    rfl
  · show v.admitted + v.batch rnd now = ((q.served + v.batch rnd now : ℕ) : ℤ)
    rw [h.admitted, Nat.cast_add]

end Lines

end EventState

/-- **The store is a first-in first-out queue** at the keys of an event. -/
def Queues (eventId : String) (σ : Store) (q : FifoQueue String) : Prop :=
  ∃ v, Holds eventId σ v ∧ v.Lines q

theorem Fresh.queues {eventId : String} {σ : Store} {c : QueueConfig}
    (h : Fresh eventId σ c) : Queues eventId σ .empty := by
  obtain ⟨passes, hv⟩ := h.holds
  exact ⟨_, hv, rfl, rfl, rfl, ⟨c, rfl⟩⟩

namespace Queues

variable {eventId : String} {σ : Store} {q : FifoQueue String}

/-- **One call.** A call other than a reset extends the log by the place it
gave and the released part by the batch it let in. -/
theorem step (rnd : ℚ → ℚ) (h : Queues eventId σ q) {op : EventOp} (hop : op ≠ .reset) :
    ∃ q', Queues eventId ((QueueService rnd eventId).step σ op).2 q'
      ∧ FifoQueue.number q'.log = FifoQueue.number q.log
        ++ Visit.joined ⟨σ, op, ((QueueService rnd eventId).step σ op).1⟩
      ∧ q'.released = q.released
        ++ Visit.admitted ⟨σ, op, ((QueueService rnd eventId).step σ op).1⟩ := by
  obtain ⟨v, hv, hq⟩ := h
  obtain ⟨σ', hrun, hσ'⟩ := hv.serve rnd op
  rw [show (QueueService rnd eventId).step σ op = _ from hrun]
  cases op with
  | join t =>
    by_cases ht : t ∈ q.waiting
    · obtain ⟨c, hc⟩ := hq.configured
      obtain ⟨s, -, hs⟩ := hq.score_of_waiting ht
      simp only [EventState.step, EventState.join_of_queued hc hs] at hσ' ⊢
      exact ⟨q, ⟨v, hσ', hq⟩, (List.append_nil _).symm, (List.append_nil _).symm⟩
    · obtain ⟨⟨c, -, hj⟩, hlines⟩ := hq.join_new ht
      refine ⟨q.join t ht, ⟨_, hσ', hlines⟩, ?_, ?_⟩
      · simp only [EventState.step, hj]
        exact FifoQueue.number_append_singleton _ _
      · rw [q.released_join ht]
        exact (List.append_nil _).symm
  | admitBatch now =>
    obtain ⟨hn, hb, hlines⟩ := hq.admitBatch rnd now
    refine ⟨q.release _ hn, ⟨_, hσ', hlines⟩, (List.append_nil _).symm, ?_⟩
    simp only [EventState.step, hb]
    exact q.released_release _ hn
  | position t =>
    refine ⟨q, ⟨v, hσ', hq⟩, ?_, (List.append_nil _).symm⟩
    exact (List.append_nil _).symm
  | configure c =>
    exact ⟨q, ⟨_, hσ', hq.queue, hq.seq, hq.admitted, ⟨c, rfl⟩⟩, (List.append_nil _).symm,
      (List.append_nil _).symm⟩
  | reset => exact absurd rfl hop
  | recordAdmission p ttl =>
    by_cases ht : ttl ≤ 0
    · rw [EventState.step_recordAdmission_of_nonpos rnd eventId v p ht] at hσ' ⊢
      exact ⟨q, ⟨v, hσ', hq⟩, (List.append_nil _).symm, (List.append_nil _).symm⟩
    · rw [EventState.step_recordAdmission_of_pos rnd eventId v p ht] at hσ' ⊢
      exact ⟨q, ⟨_, hσ', hq.queue, hq.seq, hq.admitted, hq.configured⟩,
        (List.append_nil _).symm, (List.append_nil _).symm⟩
  | wait d =>
    exact ⟨q, ⟨_, hσ', hq.queue, hq.seq, hq.admitted, hq.configured⟩,
      (List.append_nil _).symm, (List.append_nil _).symm⟩

/-- What those who wait are answered, by either endpoint; neither call writes
anything. -/
theorem answers (h : Queues eventId σ q) {t : String} (ht : t ∈ q.waiting) :
    ∃ s rate, (t, s) ∈ q.line
      ∧ (RedisQueueRepository.join eventId t).run σ
        = (.ok (.ok (some ⟨s, false, q.waiting.length, q.served, rate⟩)), σ)
      ∧ (RedisQueueRepository.position eventId t).run σ
        = (.ok (.ok (.waiting ⟨q.position t, q.waiting.length, q.served, rate⟩)), σ) := by
  obtain ⟨v, hv, hq⟩ := h
  obtain ⟨c, hc⟩ := hq.configured
  obtain ⟨s, hx, hs⟩ := hq.score_of_waiting ht
  refine ⟨s, c.ratePerMin, hx, ?_, ?_⟩
  · rw [hv.join_run_queued hc hs, hq.card_eq, hq.admitted]
  · have hr : v.queue.rank? t = some (q.waiting.idxOf t) := by
      rw [← hq.members_eq] at ht ⊢
      exact v.queue.rank?_of_mem ht
    rw [hv.position_run, EventState.position_of_queued hc eventId hr, hq.card_eq, hq.admitted]
    rfl

/-- What a newcomer is answered. -/
theorem join_new (h : Queues eventId σ q) {t : String} (ht : t ∉ q.waiting) :
    ∃ σ' rate, (RedisQueueRepository.join eventId t).run σ
        = (.ok (.ok (some ⟨q.log.length + 1, true, (q.join t ht).waiting.length, q.served,
            rate⟩)), σ')
      ∧ Queues eventId σ' (q.join t ht) := by
  obtain ⟨v, hv, hq⟩ := h
  obtain ⟨⟨c, -, hj⟩, hlines⟩ := hq.join_new ht
  obtain ⟨σ', hrun, hσ'⟩ := hv.join_run t
  rw [hj] at hrun
  exact ⟨σ', c.ratePerMin, hrun, _, hσ', hlines⟩

/-- What a tick answers: the script's reply, and what the repository makes of
it. -/
theorem admitBatch (rnd : ℚ → ℚ) (h : Queues eventId σ q) (now : ℤ) :
    ∃ n, n ≤ q.waiting.length
      ∧ ((admitBatchLua rnd (EventKeys.mk eventId).queue (EventKeys.mk eventId).admitted
          (EventKeys.mk eventId).bucket (EventKeys.mk eventId).config now).run σ).1
        = .ok (.array [.int 1, .int n, .int (q.served + n), flatReply (q.line.take n)])
      ∧ ((RedisQueueRepository.admitBatch rnd eventId now).run σ).1
        = .ok (.ok (some ⟨q.waiting.take n, q.served + n⟩)) := by
  obtain ⟨v, hv, hq⟩ := h
  obtain ⟨c, hc⟩ := hq.configured
  obtain ⟨hn, hb, -⟩ := hq.admitBatch rnd now
  obtain ⟨σ₁, -, hlua⟩ := hv.admitBatchLua_run rnd hc now
  obtain ⟨σ₂, hrun, -⟩ := hv.admitBatch_run rnd now
  refine ⟨v.batch rnd now, hn, ?_, ?_⟩
  · rw [hlua, hq.admitted, ZSet.popped, hq.queue]
  · rw [hrun, hb]

/-- A reset leaves the empty queue. -/
theorem step_reset (rnd : ℚ → ℚ) (h : Queues eventId σ q) :
    Queues eventId ((QueueService rnd eventId).step σ .reset).2 .empty := by
  obtain ⟨v, hv, hq⟩ := h
  obtain ⟨σ', hrun, hσ'⟩ := hv.serve rnd .reset
  rw [show (QueueService rnd eventId).step σ .reset = _ from hrun]
  exact ⟨_, hσ', rfl, rfl, rfl, hq.configured⟩

/-- **A whole run** without a reset: the log is the joins, the released part
is the batches. -/
theorem run (rnd : ℚ → ℚ) (h : Queues eventId σ q) {ops : List EventOp}
    (hops : EventOp.reset ∉ ops) :
    ∃ q', Queues eventId ((QueueService rnd eventId).final σ ops) q'
      ∧ FifoQueue.number q'.log = FifoQueue.number q.log
        ++ ((QueueService rnd eventId).trace σ ops).flatMap Visit.joined
      ∧ q'.released = q.released
        ++ ((QueueService rnd eventId).trace σ ops).flatMap Visit.admitted := by
  induction ops generalizing σ q with
  | nil => exact ⟨q, h, (List.append_nil _).symm, (List.append_nil _).symm⟩
  | cons op ops ih =>
    obtain ⟨q₁, h₁, hlog₁, hrel₁⟩ := h.step rnd (fun he => hops (he ▸ List.mem_cons_self))
    obtain ⟨q₂, h₂, hlog₂, hrel₂⟩ := ih h₁ (fun he => hops (List.mem_cons_of_mem op he))
    refine ⟨q₂, h₂, ?_, ?_⟩
    · rw [hlog₂, hlog₁, Machine.trace_cons, List.flatMap_cons, List.append_assoc]
    · rw [hrel₂, hrel₁, Machine.trace_cons, List.flatMap_cons, List.append_assoc]

/-- Whatever operators and clients do, the store stays a first-in first-out
queue. -/
theorem reachable (rnd : ℚ → ℚ) (h : Queues eventId σ q) (ops : List EventOp) :
    ∃ q', Queues eventId ((QueueService rnd eventId).final σ ops) q' := by
  refine Machine.final_invariant _ (P := fun σ => ∃ q, Queues eventId σ q)
    (fun σ op _ hσ => ?_) ⟨q, h⟩
  obtain ⟨q, hσ⟩ := hσ
  by_cases hop : op = .reset
  · rw [hop]
    exact ⟨_, hσ.step_reset rnd⟩
  · obtain ⟨q', hq', -⟩ := hσ.step rnd hop
    exact ⟨q', hq'⟩

end Queues

/-! ## First in, first out -/

/-- **What a store looks like after a history** in which the joins `J` were
given a place and the waiters `A` were let in, both in order: the sorted set
`W` is what is left of the joins, and the next calls will answer
accordingly. -/
structure FirstInFirstOut (rnd : ℚ → ℚ) (eventId : String) (J : List (String × ℤ))
    (A : List String) (W : ZSet String ℤ) (σ : Store) : Prop where
  queue : σ.HoldsZset (EventKeys.mk eventId).queue W
  /-- Whoever joined was let in, or waits, in the order of the joins. -/
  log : J.map Prod.fst = A ++ W.members
  /-- The first join was given sequence `1`, the next one `2`, and so on. -/
  dense : J.map Prod.snd = (List.range J.length).map (fun i : ℕ => (i : ℤ) + 1)
  seq : σ.HoldsCount (EventKeys.mk eventId).seq J.length
  admitted : σ.HoldsCount (EventKeys.mk eventId).admitted A.length
  nodup : W.members.Nodup
  /-- Whoever waits is scored by the sequence the join gave. -/
  places : W.entries = J.drop A.length
  /-- A join by someone who waits answers that sequence, and writes nothing. -/
  rejoin : ∀ t s, (t, s) ∈ W.entries → ∃ o,
    (RedisQueueRepository.join eventId t).run σ = (.ok (.ok (some o)), σ)
      ∧ o.sequence = s ∧ o.joined = false
  /-- A tick pops as many members as it says, and counts them; the assertion
  of the repository holds. -/
  tick : ∀ now, ∃ n ≤ W.card,
    ((admitBatchLua rnd (EventKeys.mk eventId).queue (EventKeys.mk eventId).admitted
        (EventKeys.mk eventId).bucket (EventKeys.mk eventId).config now).run σ).1
      = .ok (.array [.int 1, .int n, .int (A.length + n), flatReply (W.popped n)])
    ∧ ((RedisQueueRepository.admitBatch rnd eventId now).run σ).1
      = .ok (.ok (some ⟨W.members.take n, A.length + n⟩))

/-- A store that is a first-in first-out queue looks like its history. -/
theorem Queues.firstInFirstOut (rnd : ℚ → ℚ) {eventId : String} {σ : Store}
    {q : FifoQueue String} (h : Queues eventId σ q) {J : List (String × ℤ)}
    {A : List String} (hJ : FifoQueue.number q.log = J) (hA : q.released = A) :
    ∃ W, FirstInFirstOut rnd eventId J A W σ := by
  have hlen : J.length = q.log.length := by rw [← hJ, FifoQueue.length_number]
  have hserved : A.length = q.served := by rw [← hA, q.length_released]
  obtain ⟨v, hv, hq⟩ := h
  refine ⟨v.queue, {
    queue := hv.queue
    log := ?_
    dense := ?_
    seq := ?_
    admitted := ?_
    nodup := v.queue.members_nodup
    places := ?_
    rejoin := fun t s hts => ?_
    tick := fun now => ?_ }⟩
  · rw [← hJ, FifoQueue.map_fst_number, ← hA, hq.members_eq, q.released_append_waiting]
  · rw [hlen, ← hJ, FifoQueue.map_snd_number]
  · rw [hlen, ← hq.seq]
    exact hv.seq
  · rw [hserved, ← hq.admitted]
    exact hv.admitted
  · rw [hq.queue, hserved, ← hJ]
    rfl
  · obtain ⟨c, hc⟩ := hq.configured
    exact ⟨_, hv.join_run_queued hc (v.queue.score?_eq_some_iff.mpr hts), rfl, rfl⟩
  · obtain ⟨n, hn, hlua, hrepo⟩ := Queues.admitBatch rnd ⟨v, hv, hq⟩ now
    have hpop : v.queue.popped n = q.line.take n := by rw [ZSet.popped, hq.queue]
    rw [hserved, hq.card_eq, hq.members_eq]
    exact ⟨n, hn, by rw [hpop, hlua], hrepo⟩

variable {eventId : String} {σ : Store} {c : QueueConfig}

/-- **The queue is first in, first out.** After any run of joins, position
calls, ticks, rewrites of the configuration and parkings of passes, from any
number of processes and with any clocks, the store is what the history of
joins and batches makes of it; and every tick along the run answered how many
waiters had been let in up to it, its own batch included. -/
theorem fifo_refinement (rnd : ℚ → ℚ) (h : Fresh eventId σ c) (ops : List EventOp)
    (hops : EventOp.reset ∉ ops) :
    (∃ W, FirstInFirstOut rnd eventId
        (((QueueService rnd eventId).trace σ ops).flatMap Visit.joined)
        (((QueueService rnd eventId).trace σ ops).flatMap Visit.admitted) W
        ((QueueService rnd eventId).final σ ops))
      ∧ ∀ pre x post now, (QueueService rnd eventId).trace σ ops = pre ++ x :: post →
        x.action = .admitBatch now →
        ∃ b, x.reply = .ok (.admitBatch (.ok (some b)))
          ∧ b.admittedTotal = (((pre ++ [x]).flatMap Visit.admitted).length : ℤ) := by
  constructor
  · obtain ⟨q, hq, hlog, hrel⟩ := h.queues.run rnd hops
    exact hq.firstInFirstOut rnd hlog hrel
  · intro pre x post now htrace hx
    obtain ⟨as, bs, rfl, rfl, hpost⟩ := Machine.trace_eq_append _ htrace
    obtain ⟨cs, rfl, hbefore, hreply, -⟩ := Machine.trace_eq_cons _ hpost.symm
    obtain ⟨q, ⟨v, hv, hq⟩, -, hrel⟩ :=
      h.queues.run rnd (fun he => hops (List.mem_append_left _ he))
    obtain ⟨σ', hrun, -⟩ := hv.serve rnd x.action
    obtain ⟨hn, hb, -⟩ := hq.admitBatch rnd now
    have hans : x.reply = .ok (.admitBatch (.ok (some ⟨q.waiting.take (v.batch rnd now),
        q.served + v.batch rnd now⟩))) := by
      rw [hreply, show (QueueService rnd eventId).step _ x.action = _ from hrun, hx]
      simp only [EventState.step, hb]
    refine ⟨_, hans, ?_⟩
    have hadm : x.admitted = q.waiting.take (v.batch rnd now) := by
      unfold Visit.admitted
      rw [hans, hx]
    have hA : q.released = ((QueueService rnd eventId).trace σ as).flatMap Visit.admitted := by
      rw [hrel]
      rfl
    rw [List.flatMap_append, List.flatMap_singleton, hadm, ← hA, List.length_append,
      q.length_released, List.length_take_of_le hn, Nat.cast_add]

/-- A run in which a waiter comes back once let in, and another one while
waiting. -/
theorem fifo_refinement_of_rejoins :
    (∃ W, FirstInFirstOut id "e"
        (((QueueService id "e").trace (createdStore "e" ⟨60, 1, 5⟩)
          [.join "a", .join "b", .admitBatch 0, .join "b", .join "a"]).flatMap Visit.joined)
        (((QueueService id "e").trace (createdStore "e" ⟨60, 1, 5⟩)
          [.join "a", .join "b", .admitBatch 0, .join "b", .join "a"]).flatMap Visit.admitted) W
        ((QueueService id "e").final (createdStore "e" ⟨60, 1, 5⟩)
          [.join "a", .join "b", .admitBatch 0, .join "b", .join "a"])) :=
  (fifo_refinement id (fresh_createdStore "e" ⟨60, 1, 5⟩)
    [.join "a", .join "b", .admitBatch 0, .join "b", .join "a"] (by decide)).1
