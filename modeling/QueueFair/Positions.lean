import QueueFair.FifoRefinement

/-!
# The positions a waiter is shown

A waiter is shown a position by either of two endpoints. A join subtracts the
admitted counter from the waiter's sequence; a position call counts the
members in front. Both come to the position in the first-in first-out queue
the store is (`Queues.stateFrom_eq`), so in every reachable state – a reset
at any point included – the two agree and the clamp of `positionFrom` never
decides the value.

The same identification turns the promise made to a waiter, that a position
only ever improves, into the law of the queue: over a stretch of the history
in which nobody let this waiter in, the position drops by exactly the number
let in (`position_only_improves`).
-/

open Redis

variable {eventId : String} {σ : Store} {q : FifoQueue String} {c : QueueConfig}

namespace FifoQueue

/-- The clamp of `positionFrom` does not decide the position of a ticket. -/
theorem positionFrom_of_mem_line {t : String} {s : ℤ} (h : (t, s) ∈ q.line) :
    positionFrom s q.served = q.position t := by
  rw [positionFrom, q.number_sub_served h]
  exact max_eq_right (by exact_mod_cast q.one_le_position t)

end FifoQueue

namespace Queues

/-- **The two ways to a position agree**: what a waiter is told after a join
is what the waiter is told after a position call in the same state. -/
theorem stateFrom_eq (rnd : ℚ → ℚ) (h : Queues eventId σ q) {t : String}
    (ht : t ∈ q.waiting) :
    ∃ o p, (RedisQueueRepository.join eventId t).run σ = (.ok (.ok (some o)), σ)
      ∧ (RedisQueueRepository.position eventId t).run σ = (.ok (.ok (.waiting p)), σ)
      ∧ (t, o.sequence) ∈ q.line ∧ o.admittedTotal = q.served
      ∧ p.position = q.position t ∧ p.totalWaiting = q.waiting.length
      ∧ stateFrom rnd o = stateFromPosition rnd p := by
  obtain ⟨s, rate, hs, hjoin, hposition⟩ := h.answers ht
  have hone : (1 : ℤ) ≤ q.position t := by exact_mod_cast q.one_le_position t
  exact ⟨_, _, hjoin, hposition, hs, rfl, rfl, rfl,
    stateFrom_eq_stateFromPosition rnd (q.number_sub_served hs) hone rfl rfl rfl⟩

/-- A reading by someone who waits shows the position in the queue, whichever
endpoint it used, and writes nothing. -/
theorem shown_of_waiting (rnd : ℚ → ℚ) (h : Queues eventId σ q) {t : String}
    (ht : t ∈ q.waiting) {x : Visit Store EventOp (Except Redis.Error Answer)}
    (hx : x.reply = ((QueueService rnd eventId).step σ x.action).1) {p : ℤ}
    (hp : x.shown rnd t = some p) :
    p = q.position t ∧ ((QueueService rnd eventId).step σ x.action).2 = σ := by
  obtain ⟨o', p', hjoin, hposition, -, -, hpos, -, hagree⟩ := h.stateFrom_eq rnd ht
  have hq : (stateFromPosition rnd p').position = q.position t := hpos
  rcases Visit.shown_eq_some hp with ⟨ha, o, hr, rfl⟩ | ⟨ha, o, hr, rfl⟩
  · have hrun : (QueueService rnd eventId).step σ (.join t) = _ := run_bind_ok hjoin
    rw [ha, hrun, hr] at hx
    have ho := Answer.join.inj (Except.ok.inj hx)
    rw [Option.some.inj (Except.ok.inj ho), hagree, hq, ha, hrun]
    exact ⟨rfl, rfl⟩
  · have hrun : (QueueService rnd eventId).step σ (.position t) = _ := run_bind_ok hposition
    rw [ha, hrun, hr] at hx
    have ho := Answer.position.inj (Except.ok.inj hx)
    rw [Standing.waiting.inj (Except.ok.inj ho), hq, ha, hrun]
    exact ⟨rfl, rfl⟩

/-- A position call by someone who does not wait shows no position. -/
theorem position_ne_waiting (h : Queues eventId σ q) {t : String} (ht : t ∉ q.waiting)
    (p : PositionOutcome) :
    ((RedisQueueRepository.position eventId t).run σ).1 ≠ .ok (.ok (.waiting p)) := by
  obtain ⟨v, hv, hq⟩ := h
  obtain ⟨c, hc⟩ := hq.configured
  have hr : v.queue.rank? t = none := by
    rw [v.queue.rank?_eq_none_iff, hq.members_eq]
    exact ht
  rw [hv.position_run]
  cases ha : v.livePass t with
  | some a =>
    rw [EventState.position_of_admitted hc eventId hr ha]
    exact fun he => Standing.noConfusion (Except.ok.inj (Except.ok.inj he))
  | none =>
    rw [EventState.position_of_stranger hc eventId hr ha]
    exact fun he => absurd (Except.ok.inj he) (by simp)

/-- **Whoever is shown a position waits**, and the position is the one in the
queue once the reading is served – also where the reading is the join that
made the place. -/
theorem waiting_of_shown (rnd : ℚ → ℚ) (h : Queues eventId σ q) {t : String}
    {x : Visit Store EventOp (Except Redis.Error Answer)}
    (hx : x.reply = ((QueueService rnd eventId).step σ x.action).1) {p : ℤ}
    (hp : x.shown rnd t = some p) :
    ∃ q', Queues eventId ((QueueService rnd eventId).step σ x.action).2 q'
      ∧ t ∈ q'.waiting ∧ p = q'.position t := by
  by_cases ht : t ∈ q.waiting
  · obtain ⟨hpos, hstep⟩ := h.shown_of_waiting rnd ht hx hp
    rw [hstep]
    exact ⟨q, h, ht, hpos⟩
  · rcases Visit.shown_eq_some hp with ⟨ha, o, hr, rfl⟩ | ⟨ha, o, hr, rfl⟩
    · obtain ⟨σ', rate, hjoin, hσ'⟩ := h.join_new ht
      have hrun : (QueueService rnd eventId).step σ (.join t) = _ := run_bind_ok hjoin
      rw [ha, hrun, hr] at hx
      have ho := Answer.join.inj (Except.ok.inj hx)
      rw [Option.some.inj (Except.ok.inj ho), ha, hrun]
      have hwait : t ∈ (q.join t ht).waiting := by
        rw [q.waiting_join]
        exact List.mem_append_right _ (List.mem_singleton_self t)
      refine ⟨_, hσ', hwait, ?_⟩
      have hline : (t, (q.log.length : ℤ) + 1) ∈ (q.join t ht).line := by
        rw [q.line_join]
        exact List.mem_append_right _ (List.mem_singleton_self _)
      exact FifoQueue.positionFrom_of_mem_line hline
    · exfalso
      rw [ha, hr] at hx
      refine h.position_ne_waiting ht o ?_
      obtain ⟨v, hv, hq⟩ := h
      have hrun : (QueueService rnd eventId).step σ (.position t) = _ :=
        run_bind_ok (hv.position_run t)
      rw [hrun] at hx
      rw [hv.position_run]
      exact congrArg Except.ok (Answer.position.inj (Except.ok.inj hx)).symm

end Queues

/-! ## The two endpoints agree -/

/-- The position a position call would show now. -/
def positionNow (rnd : ℚ → ℚ) (eventId : String) (σ : Store) (t : String) : Option ℤ :=
  Visit.shown ⟨σ, .position t, ((QueueService rnd eventId).step σ (.position t)).1⟩ rnd t

/-- **The subtraction and the count agree**, for everyone in the sorted set
`W` of a store whose counters are `seq` and `admitted`. -/
structure PositionsAgree (rnd : ℚ → ℚ) (eventId : String) (σ : Store)
    (W : ZSet String ℤ) (seq admitted : ℤ) : Prop where
  holdsQueue : σ.HoldsZset (EventKeys.mk eventId).queue W
  holdsSeq : σ.HoldsCount (EventKeys.mk eventId).seq seq
  holdsAdmitted : σ.HoldsCount (EventKeys.mk eventId).admitted admitted
  /-- The sequence less the admitted counter is the rank plus one, so the
  clamp never decides; and both endpoints tell the same state. -/
  agree : ∀ t ∈ W.members, ∃ s rank o p, W.score? t = some s ∧ W.rank? t = some rank
    ∧ s - admitted = rank + 1
    ∧ (RedisQueueRepository.join eventId t).run σ = (.ok (.ok (some o)), σ)
    ∧ o.sequence = s ∧ o.admittedTotal = admitted ∧ positionFrom s admitted = s - admitted
    ∧ (RedisQueueRepository.position eventId t).run σ = (.ok (.ok (.waiting p)), σ)
    ∧ p.totalWaiting = W.card ∧ stateFrom rnd o = stateFromPosition rnd p
  /-- Those who wait are shown `1` up to the number waiting, each once. -/
  positions : W.members.map (positionNow rnd eventId σ)
    = (List.range W.card).map (fun i : ℕ => some ((i : ℤ) + 1))
  total : W.card + admitted = seq
  /-- A join that makes a place shows the last position. -/
  newcomer : ∀ t o, ((RedisQueueRepository.join eventId t).run σ).1 = .ok (.ok (some o)) →
    o.joined = true → (stateFrom rnd o).position = o.totalWaiting

theorem Queues.positionNow_eq (rnd : ℚ → ℚ) (h : Queues eventId σ q) {t : String}
    (ht : t ∈ q.waiting) : positionNow rnd eventId σ t = some (q.position t : ℤ) := by
  obtain ⟨o, p, -, hposition, -, -, hpos, -⟩ := h.stateFrom_eq rnd ht
  have hrun : (QueueService rnd eventId).step σ (.position t) = _ := run_bind_ok hposition
  unfold positionNow
  rw [hrun, ← hpos]
  simp [Visit.shown, stateFromPosition]

/-- A store that is a first-in first-out queue shows everyone its
positions. -/
theorem Queues.positionsAgree (rnd : ℚ → ℚ) (h : Queues eventId σ q) :
    ∃ W, PositionsAgree rnd eventId σ W q.log.length q.served := by
  have hq := h
  obtain ⟨v, hv, hlines⟩ := hq
  refine ⟨v.queue, {
    holdsQueue := hv.queue
    holdsSeq := hlines.seq ▸ hv.seq
    holdsAdmitted := hlines.admitted ▸ hv.admitted
    agree := fun t ht => ?_
    positions := ?_
    total := ?_
    newcomer := fun t o hjoin hjoined => ?_ }⟩
  · have hrank := v.queue.rank?_of_mem ht
    rw [hlines.members_eq] at ht hrank
    obtain ⟨o, p, hjoin, hposition, hline, hadm, hpos, htotal, hagree⟩ := h.stateFrom_eq rnd ht
    have hnum := q.number_sub_served hline
    refine ⟨o.sequence, q.waiting.idxOf t, o, p, ?_, hrank, hnum, hjoin, rfl, hadm, ?_,
      hposition, ?_, hagree⟩
    · exact v.queue.score?_eq_some_iff.mpr (hlines.queue ▸ hline)
    · rw [FifoQueue.positionFrom_of_mem_line hline, hnum]
    · rw [htotal, hlines.card_eq]
  · rw [hlines.members_eq, hlines.card_eq]
    have hmap := congrArg (List.map (fun n : ℕ => some (n : ℤ))) q.map_position_waiting
    rw [List.map_map, List.map_map] at hmap
    rw [List.map_congr_left (fun t ht => h.positionNow_eq rnd ht)]
    refine hmap.trans (List.map_congr_left (fun i _ => ?_))
    simp
  · rw [hlines.card_eq, ← q.served_add_length_waiting]
    push_cast
    ring
  · by_cases ht : t ∈ q.waiting
    · -- someone who waits resumes, so this is no new place
      obtain ⟨s, rate, -, hans, -⟩ := h.answers ht
      rw [hans] at hjoin
      rw [← Option.some.inj (Except.ok.inj (Except.ok.inj hjoin))] at hjoined
      exact absurd hjoined (by simp)
    · obtain ⟨σ', rate, hans, -⟩ := h.join_new ht
      rw [hans] at hjoin
      rw [← Option.some.inj (Except.ok.inj (Except.ok.inj hjoin))]
      have hline : (t, (q.log.length : ℤ) + 1) ∈ (q.join t ht).line := by
        rw [q.line_join]
        exact List.mem_append_right _ (List.mem_singleton_self _)
      have hpos := FifoQueue.positionFrom_of_mem_line hline
      rw [q.position_last ht] at hpos
      exact hpos

/-- **The cheap arithmetic is the authoritative rank.** In every state a run
reaches from a fresh event – resets, rewrites of the configuration and ticks
with any clocks included – the two ways to a position agree. -/
theorem position_arithmetic_agrees (rnd : ℚ → ℚ) (h : Fresh eventId σ c)
    (ops : List EventOp) :
    ∃ W seq admitted, PositionsAgree rnd eventId
      ((QueueService rnd eventId).final σ ops) W seq admitted := by
  obtain ⟨q, hq⟩ := h.queues.reachable rnd ops
  obtain ⟨W, hW⟩ := hq.positionsAgree rnd
  exact ⟨W, _, _, hW⟩

/-- Two waiters, one of them let in, a reset, and the other back. -/
theorem position_arithmetic_agrees_after_reset :
    ∃ W seq admitted, PositionsAgree id "e" ((QueueService id "e").final
      (createdStore "e" ⟨60, 1, 5⟩)
      [.join "a", .join "b", .admitBatch 0, .reset, .join "b"]) W seq admitted :=
  position_arithmetic_agrees id (fresh_createdStore "e" ⟨60, 1, 5⟩) _

/-! ## Positions over a history -/

/-- Over a run that lets a waiter wait, the waiter moves up by exactly the
number let in. -/
theorem Queues.position_run (rnd : ℚ → ℚ) (h : Queues eventId σ q) {t : String}
    (ht : t ∈ q.waiting) {ops : List EventOp} (hops : EventOp.reset ∉ ops)
    (hstay : ∀ z ∈ (QueueService rnd eventId).trace σ ops, t ∉ z.admitted) :
    ∃ q', Queues eventId ((QueueService rnd eventId).final σ ops) q' ∧ t ∈ q'.waiting
      ∧ q'.position t
          + (((QueueService rnd eventId).trace σ ops).flatMap Visit.admitted).length
        = q.position t := by
  obtain ⟨q', hq', hnum, hrel⟩ := h.run rnd hops
  have hlog := congrArg (List.map Prod.fst) hnum
  rw [List.map_append, FifoQueue.map_fst_number, FifoQueue.map_fst_number] at hlog
  have hnot : t ∉ ((QueueService rnd eventId).trace σ ops).flatMap Visit.admitted := by
    intro hmem
    obtain ⟨z, hz, he⟩ := List.mem_flatMap.mp hmem
    exact hstay z hz he
  exact ⟨q', hq', FifoQueue.position_advance hlog hrel ht hnot⟩

/-- **A position only ever improves.** Between two readings by one waiter, by
whichever endpoints, with no reset and no batch that lets this waiter in
between them, the position drops by exactly the number let in. -/
theorem position_only_improves (rnd : ℚ → ℚ) (h : Fresh eventId σ c) (t : String)
    (ops : List EventOp)
    (pre mid post : List (Visit Store EventOp (Except Redis.Error Answer)))
    (x y : Visit Store EventOp (Except Redis.Error Answer))
    (htrace : (QueueService rnd eventId).trace σ ops = pre ++ x :: (mid ++ y :: post))
    (hreset : ∀ z ∈ mid, z.action ≠ .reset) (hstay : ∀ z ∈ mid, t ∉ z.admitted)
    (p r : ℤ) (hx : x.shown rnd t = some p) (hy : y.shown rnd t = some r) :
    r = p - (mid.flatMap Visit.admitted).length ∧ 1 ≤ r ∧ r ≤ p := by
  obtain ⟨as, bs, rfl, rfl, hxs⟩ := Machine.trace_eq_append _ htrace
  obtain ⟨cs, rfl, -, hxreply, hmid⟩ := Machine.trace_eq_cons _ hxs.symm
  obtain ⟨ds, es, rfl, rfl, hys⟩ := Machine.trace_eq_append _ hmid.symm
  obtain ⟨fs, rfl, -, hyreply, -⟩ := Machine.trace_eq_cons _ hys.symm
  have hds : EventOp.reset ∉ ds := by
    intro hmem
    rw [← Machine.map_action_trace (QueueService rnd eventId) _ ds] at hmem
    obtain ⟨z, hz, he⟩ := List.mem_map.mp hmem
    exact hreset z hz he
  -- the first reading, the stretch between, the second reading
  obtain ⟨q₀, hq₀⟩ := h.queues.reachable rnd as
  obtain ⟨q₁, hq₁, ht₁, rfl⟩ := hq₀.waiting_of_shown rnd hxreply hx
  obtain ⟨q₂, hq₂, ht₂, hpos⟩ := hq₁.position_run rnd ht₁ hds hstay
  obtain ⟨rfl, -⟩ := hq₂.shown_of_waiting rnd ht₂ hyreply hy
  have hone := q₂.one_le_position t
  omega

/-- A waiter who joins second and asks again once the first is let in. -/
theorem position_only_improves_of_batch :
    let M := QueueService id "e"
    let σ₀ := createdStore "e" ⟨60, 1, 5⟩
    let σ₁ := M.final σ₀ [.join "a"]
    let σ₂ := M.final σ₁ [.join "b"]
    let σ₃ := M.final σ₂ [.admitBatch 0]
    let x := Visit.mk σ₁ (.join "b") (M.step σ₁ (.join "b")).1
    let z := Visit.mk σ₂ (.admitBatch 0) (M.step σ₂ (.admitBatch 0)).1
    let y := Visit.mk σ₃ (.position "b") (M.step σ₃ (.position "b")).1
    x.shown id "b" = some 2 ∧ y.shown id "b" = some 1
      ∧ (1 : ℤ) = 2 - ([z].flatMap Visit.admitted).length ∧ (1 : ℤ) ≤ 1 ∧ (1 : ℤ) ≤ 2 := by
  intro M σ₀ σ₁ σ₂ σ₃ x z y
  have hx : x.shown id "b" = some 2 := by decide +kernel
  have hy : y.shown id "b" = some 1 := by decide +kernel
  exact ⟨hx, hy, position_only_improves id (fresh_createdStore "e" ⟨60, 1, 5⟩) "b"
    [.join "a", .join "b", .admitBatch 0, .position "b"]
    [⟨σ₀, .join "a", (M.step σ₀ (.join "a")).1⟩] [z] [] x y rfl
    (by decide +kernel) (by decide +kernel) 2 1 hx hy⟩
