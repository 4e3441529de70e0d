import QueueFair.RateLimit

/-!
# A pause, and what it earns

An operator pauses an event by setting its rate to nothing. A paused tick
returns before it touches the bucket, so what was banked stays banked – and
so does the instant of the last refill. The tick that follows the pause
credits the whole time since then, the pause included: the bucket resumes as
if the event had never been paused.

A pause is therefore neutral exactly where it takes no time, or where the
bucket would be full without it (`pause_neutral_iff`). Where it is, a longer
pause only moves the rest of the history to later clock readings: the ticks
let in the same waiters.
-/

open Redis

namespace EventOp

/-- The token a call brings to the queue. -/
def joiner : EventOp → Option String
  | .join t => some t
  | _ => none

/-- A call that neither admits, nor configures, nor resets. -/
def Quiet (op : EventOp) : Prop :=
  op.nowMs = none ∧ op ≠ .reset ∧ ∀ c, op ≠ .configure c

/-- A call that leaves a paused event paused. -/
def Paused (op : EventOp) : Prop :=
  op ≠ .reset ∧ ∀ c, op = .configure c → c.ratePerMin ≤ 0

/-- The same call, by a clock that reads `d` later. -/
def postpone (d : ℤ) : EventOp → EventOp
  | .admitBatch now => .admitBatch (now + d)
  | op => op

end EventOp

/-- **A pause in a history**: the last tick at the rate of `config`, the rate
set to nothing, the calls of the pause, the rate restored with the same
burst, and the calls until the next tick. Clock readings are in order. -/
structure Pause where
  config : QueueConfig
  /-- The instant of the last tick before the pause. -/
  lastTick : ℤ
  /-- The calls from that tick to the pause. -/
  before : List EventOp
  paused : QueueConfig
  pausedAt : ℤ
  during : List EventOp
  resumed : QueueConfig
  resumedAt : ℤ
  /-- The calls from the resumption to the next tick. -/
  after : List EventOp
  /-- The instant of the next tick. -/
  nextTick : ℤ
  config_rate : 0 < config.ratePerMin
  paused_rate : paused.ratePerMin ≤ 0
  resumed_rate : resumed.ratePerMin = config.ratePerMin
  resumed_burst : resumed.burst = config.burst
  before_quiet : ∀ op ∈ before, op.Quiet
  during_paused : ∀ op ∈ during, op.Paused
  after_quiet : ∀ op ∈ after, op.Quiet
  inOrder : (lastTick :: pausedAt ::
    (during.filterMap EventOp.nowMs ++ [resumedAt, nextTick])).Pairwise (· ≤ ·)

namespace Pause

variable (p : Pause)

/-- The calls of a pause, from the last tick before it to the next one. -/
def ops : List EventOp :=
  .admitBatch p.lastTick :: (p.before ++ .configure p.paused ::
    (p.during ++ .configure p.resumed :: p.after))

/-- What the bucket would come to if the time of the pause did not count. -/
def earned (b : TokenBucket) : ℚ :=
  b.tokens + p.config.ratePerMin
    * ((p.pausedAt - p.lastTick) + (p.nextTick - p.resumedAt)) / 60000

/-- **The pause is neutral**: it takes no time, or the bucket would be full
without it. -/
def Neutral (b : TokenBucket) : Prop :=
  p.resumedAt = p.pausedAt ∨ (p.config.burst : ℚ) ≤ p.earned b

/-- `p'` is the same pause, longer by `d`: whoever joins during it joins in
the same order, and what follows is later by `d`. -/
structure Longer (p p' : Pause) (d : ℤ) : Prop where
  config : p'.config = p.config
  lastTick : p'.lastTick = p.lastTick
  before : p'.before = p.before
  pausedAt : p'.pausedAt = p.pausedAt
  joiners : p'.during.filterMap EventOp.joiner = p.during.filterMap EventOp.joiner
  resumed : p'.resumed = p.resumed
  resumedAt : p'.resumedAt = p.resumedAt + d
  after : p'.after = p.after
  nextTick : p'.nextTick = p.nextTick + d

end Pause

/-- The bucket in the store. -/
def Banks (eventId : String) (σ : Store) (b : TokenBucket) : Prop :=
  ∃ v, Holds eventId σ v ∧ v.bucket = some b

/-- The budget, before its other ceilings, of a tick at `now`. -/
def BudgetAt (eventId : String) (σ : Store) (now : ℤ) (tokens : ℚ) : Prop :=
  ∃ v c, Holds eventId σ v ∧ v.config = some c ∧ EventState.budget id c v.bucket now = tokens

namespace EventState

variable {v w : EventState} {c : QueueConfig}

/-! ## The bucket across a pause -/

/-- A quiet stretch leaves the bucket and the configuration alone. -/
theorem run_quiet (eventId : String) {ops : List EventOp} (h : ∀ op ∈ ops, op.Quiet) :
    (v.run id eventId ops).bucket = v.bucket ∧ (v.run id eventId ops).config = v.config := by
  induction ops generalizing v with
  | nil => exact ⟨rfl, rfl⟩
  | cons op ops ih =>
    obtain ⟨hnow, hreset, hconf⟩ := h op List.mem_cons_self
    obtain ⟨hb, hc⟩ := ih (v := (v.step id eventId op).2)
      (fun op' hop' => h op' (List.mem_cons_of_mem op hop'))
    rw [bucket_of_not_tick eventId op hreset hnow] at hb
    rw [config_of_not_configure id eventId op hconf] at hc
    exact ⟨hb, hc⟩

/-- One call of a pause leaves the bucket alone and the event paused. -/
theorem step_paused (eventId : String) (hc : v.config = some c) (hr : c.ratePerMin ≤ 0)
    {op : EventOp} (hop : op.Paused) :
    (v.step id eventId op).2.bucket = v.bucket
      ∧ ∃ c', (v.step id eventId op).2.config = some c' ∧ c'.ratePerMin ≤ 0 := by
  by_cases hconf : ∃ c', op = .configure c'
  · obtain ⟨c', rfl⟩ := hconf
    exact ⟨rfl, c', rfl, hop.2 c' rfl⟩
  · have hkeep := config_of_not_configure (v := v) id eventId op (fun c' he => hconf ⟨c', he⟩)
    refine ⟨?_, c, hkeep.trans hc, hr⟩
    cases hnow : op.nowMs with
    | none => exact bucket_of_not_tick eventId op hop.1 hnow
    | some now =>
      obtain rfl := EventOp.eq_admitBatch hnow
      show (v.admitBatch id now).2.bucket = v.bucket
      rw [admitBatch_of_paused id hc hr]

/-- A pause leaves the bucket alone. -/
theorem run_paused (eventId : String) (hc : v.config = some c) (hr : c.ratePerMin ≤ 0)
    {ops : List EventOp} (h : ∀ op ∈ ops, op.Paused) :
    (v.run id eventId ops).bucket = v.bucket := by
  induction ops generalizing v c with
  | nil => rfl
  | cons op ops ih =>
    obtain ⟨hb, c', hc', hr'⟩ := step_paused eventId hc hr (h op List.mem_cons_self)
    have hrest := ih hc' hr' (fun op' hop' => h op' (List.mem_cons_of_mem op hop'))
    exact hrest.trans hb

/-- **What the tick after a pause finds**: the bucket the last tick before it
left. -/
theorem run_pause (eventId : String) (p : Pause) (v : EventState) :
    (v.run id eventId p.ops).bucket = (v.admitBatch id p.lastTick).2.bucket
      ∧ (v.run id eventId p.ops).config = some p.resumed := by
  unfold Pause.ops
  rw [run_cons, run_append, run_cons, run_append, run_cons]
  obtain ⟨hafter, hresumed⟩ := run_quiet
    (v := ((((((v.step id eventId (.admitBatch p.lastTick)).2.run id eventId p.before).step id
      eventId (.configure p.paused)).2.run id eventId p.during).step id eventId
        (.configure p.resumed)).2)) eventId p.after_quiet
  refine ⟨hafter.trans ?_, hresumed⟩
  refine (run_paused eventId rfl p.paused_rate p.during_paused).trans ?_
  exact (run_quiet eventId p.before_quiet).1

/-! ## The queue across a pause -/

/-- What a join makes of a queue and its sequence counter. -/
def joinLine (l : ZSet String ℤ × ℤ) (t : String) : ZSet String ℤ × ℤ :=
  match l.1.score? t with
  | some _ => l
  | none => (l.1.add t (l.2 + 1), l.2 + 1)

theorem line_join (hc : v.config = some c) (t : String) :
    ((v.join t).2.queue, (v.join t).2.seq) = joinLine (v.queue, v.seq) t
      ∧ (v.join t).2.admitted = v.admitted := by
  unfold joinLine
  cases hs : v.queue.score? t with
  | some s =>
    rw [join_of_queued hc hs]
    exact ⟨rfl, rfl⟩
  | none =>
    rw [join_of_new hc hs]
    exact ⟨rfl, rfl⟩

/-- One call of a pause brings a waiter, or leaves the queue alone. -/
theorem line_paused (eventId : String) (hc : v.config = some c) (hr : c.ratePerMin ≤ 0)
    {op : EventOp} (hop : op.Paused) :
    ((v.step id eventId op).2.queue, (v.step id eventId op).2.seq)
        = op.joiner.toList.foldl joinLine (v.queue, v.seq)
      ∧ (v.step id eventId op).2.admitted = v.admitted := by
  cases op with
  | join t => exact line_join hc t
  | admitBatch now =>
    show ((v.admitBatch id now).2.queue, (v.admitBatch id now).2.seq) = _
      ∧ (v.admitBatch id now).2.admitted = _
    rw [admitBatch_of_paused id hc hr]
    exact ⟨rfl, rfl⟩
  | reset => exact absurd rfl hop.1
  | recordAdmission p ttl =>
    obtain ⟨ps, h⟩ := v.step_recordAdmission_snd id eventId p ttl
    rw [h]
    exact ⟨rfl, rfl⟩
  | _ => exact ⟨rfl, rfl⟩

/-- **The queue after a pause** is what those who joined made of it. -/
theorem line_run_paused (eventId : String) (hc : v.config = some c) (hr : c.ratePerMin ≤ 0)
    {ops : List EventOp} (h : ∀ op ∈ ops, op.Paused) :
    ((v.run id eventId ops).queue, (v.run id eventId ops).seq)
        = (ops.filterMap EventOp.joiner).foldl joinLine (v.queue, v.seq)
      ∧ (v.run id eventId ops).admitted = v.admitted := by
  induction ops generalizing v c with
  | nil => exact ⟨rfl, rfl⟩
  | cons op ops ih =>
    have hop := h op List.mem_cons_self
    obtain ⟨-, c', hc', hr'⟩ := step_paused eventId hc hr hop
    obtain ⟨hline, hadm⟩ := line_paused eventId hc hr hop
    obtain ⟨hlines, hadms⟩ := ih hc' hr' (fun op' hop' => h op' (List.mem_cons_of_mem op hop'))
    have hcons : (op :: ops).filterMap EventOp.joiner
        = op.joiner.toList ++ ops.filterMap EventOp.joiner := by
      rw [List.filterMap_cons]
      cases op.joiner <;> rfl
    rw [run_cons, hcons, List.foldl_append, ← hline]
    exact ⟨hlines, hadms.trans hadm⟩

end EventState

/-! ## Two runs, one later than the other -/

/-- Two records agree, the bucket, the parked passes and the clock apart. -/
structure SameLine (v w : EventState) : Prop where
  queue : w.queue = v.queue
  seq : w.seq = v.seq
  admitted : w.admitted = v.admitted
  config : w.config = v.config

/-- **`w` is `v` later by `d`**: the bucket was refilled that much later. -/
structure Postponed (d : ℤ) (v w : EventState) : Prop extends SameLine v w where
  bucket : w.bucket = v.bucket.map (fun b => ⟨b.tokens, b.lastRefillMs + d⟩)

namespace SameLine

variable {v w : EventState} {c : QueueConfig}

theorem join (h : SameLine v w) (t : String) : SameLine (v.join t).2 (w.join t).2 := by
  cases hc : v.config with
  | none =>
    rw [EventState.join_of_unconfigured hc, EventState.join_of_unconfigured (h.config.trans hc)]
    exact h
  | some c =>
    have hline := EventState.line_join hc t
    have hline' := EventState.line_join (h.config.trans hc) t
    rw [h.queue, h.seq, ← hline.1, h.admitted] at hline'
    obtain ⟨z, n, hv⟩ := v.join_snd t
    obtain ⟨z', n', hw⟩ := w.join_snd t
    refine ⟨congrArg Prod.fst hline'.1, congrArg Prod.snd hline'.1,
      hline'.2.trans hline.2.symm, ?_⟩
    rw [hv, hw]
    exact h.config

/-- A call that does not admit does the same on both. -/
theorem step (h : SameLine v w) (eventId : String) {op : EventOp} (hop : op.nowMs = none) :
    SameLine (v.step id eventId op).2 (w.step id eventId op).2 := by
  cases op with
  | join t => exact h.join t
  | position t => exact h
  | admitBatch now => exact absurd hop (by simp [EventOp.nowMs])
  | configure c => exact ⟨h.queue, h.seq, h.admitted, rfl⟩
  | reset => exact ⟨rfl, rfl, rfl, h.config⟩
  | recordAdmission p ttl =>
    obtain ⟨ps, hv⟩ := v.step_recordAdmission_snd id eventId p ttl
    obtain ⟨ps', hw⟩ := w.step_recordAdmission_snd id eventId p ttl
    rw [hv, hw]
    exact ⟨h.queue, h.seq, h.admitted, h.config⟩
  | wait d => exact ⟨h.queue, h.seq, h.admitted, h.config⟩

theorem run (h : SameLine v w) (eventId : String) {ops : List EventOp}
    (hops : ∀ op ∈ ops, op.nowMs = none) :
    SameLine (v.run id eventId ops) (w.run id eventId ops) := by
  induction ops generalizing v w with
  | nil => exact h
  | cons op ops ih =>
    exact ih (h.step eventId (hops op List.mem_cons_self))
      (fun op' hop' => hops op' (List.mem_cons_of_mem op hop'))

/-- **Two active ticks of one budget** let in the same waiters. -/
theorem admitBatch (h : SameLine v w) (hc : v.config = some c) (hr : 0 < c.ratePerMin)
    {now d : ℤ} (hbudget : EventState.budget id c w.bucket (now + d)
      = EventState.budget id c v.bucket now) :
    (w.admitBatch id (now + d)).1 = (v.admitBatch id now).1
      ∧ Postponed d (v.admitBatch id now).2 (w.admitBatch id (now + d)).2 := by
  rw [EventState.admitBatch_of_active id hc hr,
    EventState.admitBatch_of_active id (h.config.trans hc) hr, hbudget, h.queue, h.admitted]
  refine ⟨rfl, ⟨rfl, h.seq, rfl, h.config⟩, ?_⟩
  show some _ = some _
  simp

end SameLine

namespace Postponed

variable {v w : EventState} {d : ℤ}

/-- A bucket refilled later is, so much later, as full. -/
theorem budget_eq (h : Postponed d v w) (c : QueueConfig) (now : ℤ) :
    EventState.budget id c w.bucket (now + d) = EventState.budget id c v.bucket now := by
  rw [h.bucket]
  cases v.bucket with
  | none => exact (EventState.budget_none c _).trans (EventState.budget_none c _).symm
  | some b =>
    show EventState.budget id c (some ⟨b.tokens, b.lastRefillMs + d⟩) _ = _
    rw [EventState.budget_id, EventState.budget_id]
    push_cast
    rw [add_sub_add_right_eq_sub]

/-- **One call** on the later record, so much later, lets in the same. -/
theorem step (h : Postponed d v w) (eventId : String) (op : EventOp) :
    (∀ now, op = .admitBatch now → (w.admitBatch id (now + d)).1 = (v.admitBatch id now).1)
      ∧ Postponed d (v.step id eventId op).2 (w.step id eventId (op.postpone d)).2 := by
  cases hnow : op.nowMs with
  | none =>
    have hsame : op.postpone d = op := by
      cases op with
      | admitBatch now => exact absurd hnow (by simp [EventOp.nowMs])
      | _ => rfl
    rw [hsame]
    refine ⟨fun now he => absurd hnow (by simp [he, EventOp.nowMs]),
      h.toSameLine.step eventId hnow, ?_⟩
    by_cases hreset : op = .reset
    · rw [hreset]
      rfl
    · rw [EventState.bucket_of_not_tick eventId op hreset hnow,
        EventState.bucket_of_not_tick eventId op hreset hnow]
      exact h.bucket
  | some now =>
    obtain rfl := EventOp.eq_admitBatch hnow
    have htick : (w.admitBatch id (now + d)).1 = (v.admitBatch id now).1
        ∧ Postponed d (v.admitBatch id now).2 (w.admitBatch id (now + d)).2 := by
      cases hc : v.config with
      | none =>
        rw [EventState.admitBatch_of_unconfigured id hc,
          EventState.admitBatch_of_unconfigured id (h.config.trans hc)]
        exact ⟨rfl, h⟩
      | some c =>
        by_cases hr : c.ratePerMin ≤ 0
        · rw [EventState.admitBatch_of_paused id hc hr,
            EventState.admitBatch_of_paused id (h.config.trans hc) hr, h.admitted]
          exact ⟨rfl, h⟩
        · exact h.toSameLine.admitBatch hc (not_le.mp hr) (h.budget_eq c now)
    exact ⟨fun now' he => by rw [← EventOp.admitBatch.inj he]; exact htick.1, htick.2⟩

end Postponed

/-- Two runs, one later than the other, let in the same waiters. -/
theorem Postponed.trace_admitted {eventId : String} {σ σ' : Store} {v w : EventState} {d : ℤ}
    (h : Postponed d v w) (hv : Holds eventId σ v) (hw : Holds eventId σ' w)
    (ops : List EventOp) :
    ((QueueService id eventId).trace σ ops).map Visit.admitted
      = ((QueueService id eventId).trace σ' (ops.map (.postpone d))).map Visit.admitted := by
  refine Machine.trace_simulation _ (T := fun σ σ' => ∃ v w, Holds eventId σ v ∧ Holds eventId σ' w
    ∧ Postponed d v w) (fun σ σ' op hT => ?_) ⟨v, w, hv, hw, h⟩ ops
  obtain ⟨v, w, hv, hw, h⟩ := hT
  obtain ⟨htick, hpost⟩ := h.step eventId op
  have hnext := hv.final id [op]
  have hnext' := hw.final id [op.postpone d]
  refine ⟨?_, _, _, hnext, hnext', hpost⟩
  cases hnow : op.nowMs with
  | none =>
    have hnow' : (op.postpone d).nowMs = none := by
      cases op with
      | admitBatch now => exact absurd hnow (by simp [EventOp.nowMs])
      | _ => rfl
    rw [Visit.admitted_of_not_tick hnow, Visit.admitted_of_not_tick hnow']
  | some now =>
    obtain rfl := EventOp.eq_admitBatch hnow
    rw [hv.admitted_eq id]
    exact (congrArg (·.elim [] AdmissionBatch.admittedTokens) (htick now rfl)).symm.trans
      (hw.admitted_eq id (now + d)).symm

/-! ## What a pause earns -/

namespace Pause

variable (p : Pause)

theorem lastTick_le : p.lastTick ≤ p.pausedAt :=
  (List.pairwise_cons.mp p.inOrder).1 _ List.mem_cons_self

theorem pausedAt_le : p.pausedAt ≤ p.resumedAt := by
  have htail := (List.pairwise_cons.mp (List.pairwise_cons.mp p.inOrder).2).1
  exact htail _ (List.mem_append_right _ List.mem_cons_self)

theorem resumedAt_le : p.resumedAt ≤ p.nextTick := by
  have hlast := List.pairwise_append.mp
    (List.pairwise_cons.mp (List.pairwise_cons.mp p.inOrder).2).2
  exact (List.pairwise_cons.mp hlast.2.1).1 _ List.mem_cons_self

/-- The budget of the tick after a pause: the time of the pause is credited
too. -/
theorem budget_nextTick {b : TokenBucket} (hb : b.lastRefillMs = p.lastTick) :
    EventState.budget id p.resumed (some b) p.nextTick
      = min (p.config.burst : ℚ)
        (p.earned b + p.config.ratePerMin * (p.resumedAt - p.pausedAt) / 60000) := by
  have hle : (p.lastTick : ℚ) ≤ p.nextTick := by
    exact_mod_cast p.lastTick_le.trans (p.pausedAt_le.trans p.resumedAt_le)
  rw [EventState.budget_id, p.resumed_rate, p.resumed_burst, hb,
    max_eq_right (sub_nonneg.mpr hle)]
  unfold earned
  ring_nf

/-- A bucket that would be full without the pause is full. -/
theorem budget_of_full {b : TokenBucket} (hb : b.lastRefillMs = p.lastTick)
    (hfull : (p.config.burst : ℚ) ≤ p.earned b) :
    EventState.budget id p.resumed (some b) p.nextTick = p.config.burst := by
  rw [p.budget_nextTick hb]
  refine min_eq_left (hfull.trans (le_add_of_nonneg_right ?_))
  have hpause : (p.pausedAt : ℚ) ≤ p.resumedAt := by exact_mod_cast p.pausedAt_le
  have hrate : (0 : ℚ) ≤ p.config.ratePerMin := by exact_mod_cast p.config_rate.le
  exact div_nonneg (mul_nonneg hrate (sub_nonneg.mpr hpause)) (by norm_num)

/-- **The budget after a pause is the one earned outside of it exactly where
the pause is neutral.** -/
theorem budget_eq_iff {b : TokenBucket} (hb : b.lastRefillMs = p.lastTick) :
    EventState.budget id p.resumed (some b) p.nextTick = min (p.config.burst : ℚ) (p.earned b)
      ↔ p.Neutral b := by
  unfold Neutral
  by_cases hfull : (p.config.burst : ℚ) ≤ p.earned b
  · rw [p.budget_of_full hb hfull, min_eq_left hfull]
    exact iff_of_true rfl (Or.inr hfull)
  · have hlt := not_le.mp hfull
    rw [p.budget_nextTick hb, min_eq_right hlt.le, or_iff_left hfull]
    constructor
    · intro heq
      have hpause : (p.pausedAt : ℚ) ≤ p.resumedAt := by exact_mod_cast p.pausedAt_le
      have hrate : (0 : ℚ) < p.config.ratePerMin := by exact_mod_cast p.config_rate
      -- the burst is not what the minimum is, so the credit of the pause is none
      have hcredit : (p.config.ratePerMin : ℚ) * (p.resumedAt - p.pausedAt) / 60000 = 0 := by
        rcases min_choice (p.config.burst : ℚ)
          (p.earned b + p.config.ratePerMin * (p.resumedAt - p.pausedAt) / 60000) with hmin | hmin
        · rw [hmin] at heq
          exact absurd heq hlt.ne'
        · rw [hmin] at heq
          exact left_eq_add.mp heq.symm
      rw [div_eq_zero_iff, mul_eq_zero] at hcredit
      have hzero : (p.resumedAt : ℚ) - p.pausedAt = 0 :=
        (hcredit.resolve_right (by norm_num)).resolve_left hrate.ne'
      exact_mod_cast sub_eq_zero.mp hzero
    · intro heq
      rw [heq, sub_self, mul_zero, zero_div, add_zero, min_eq_right hlt.le]

variable {p} {p' : Pause} {d : ℤ}

/-- A pause and a longer one leave the same queue. -/
theorem Longer.sameLine (h : p.Longer p' d) (eventId : String) (v : EventState) :
    SameLine (v.run id eventId p.ops) (v.run id eventId p'.ops) := by
  unfold Pause.ops
  simp only [EventState.run_cons, EventState.run_append]
  rw [h.lastTick, h.before, h.resumed, h.after]
  refine SameLine.run ?_ eventId (fun op hop => (p.after_quiet op hop).1)
  generalize (v.step id eventId (.admitBatch p.lastTick)).2.run id eventId p.before = u
  obtain ⟨hline, hadm⟩ := EventState.line_run_paused
    (v := (u.step id eventId (.configure p.paused)).2) eventId rfl p.paused_rate p.during_paused
  obtain ⟨hline', hadm'⟩ := EventState.line_run_paused
    (v := (u.step id eventId (.configure p'.paused)).2) eventId rfl p'.paused_rate p'.during_paused
  rw [h.joiners] at hline'
  have heq := hline'.trans hline.symm
  exact ⟨congrArg Prod.fst heq, congrArg Prod.snd heq, hadm'.trans hadm.symm, rfl⟩

/-- What is earned outside of a longer pause is the same. -/
theorem Longer.earned_eq (h : p.Longer p' d) (b : TokenBucket) : p'.earned b = p.earned b := by
  unfold earned
  rw [h.config, h.pausedAt, h.lastTick, h.nextTick, h.resumedAt]
  push_cast
  ring

end Pause

/-- **A pause neither spends nor earns exactly where it is neutral.** The tick
before the pause leaves a bucket `b`, and the budget of the tick after it is
what `b` and the time outside of the pause come to, up to the burst, if and
only if the pause takes no time or the bucket would be full without it. A
pause and a longer one that are both neutral are followed by the same
admissions, so much later. -/
theorem pause_neutral_iff (p : Pause) {eventId : String} {σ : Store}
    (h : Reachable id eventId σ) (hc : Configured eventId σ p.config) :
    ∃ b, Banks eventId ((QueueService id eventId).final σ [.admitBatch p.lastTick]) b
      ∧ (BudgetAt eventId ((QueueService id eventId).final σ p.ops) p.nextTick
          (min (p.config.burst : ℚ) (p.earned b)) ↔ p.Neutral b)
      ∧ ∀ p' d, p.Longer p' d → p.Neutral b → p'.Neutral b → ∀ ops,
        ((QueueService id eventId).trace ((QueueService id eventId).final σ p.ops)
            (.admitBatch p.nextTick :: ops)).map Visit.admitted
          = ((QueueService id eventId).trace ((QueueService id eventId).final σ p'.ops)
            ((.admitBatch p.nextTick :: ops).map (.postpone d))).map Visit.admitted := by
  obtain ⟨v, hv, -⟩ := h.holds_banked
  obtain ⟨b, hb, hlast⟩ := EventState.exists_bucket_admitBatch (hv.configured_iff.mp hc)
    p.config_rate p.lastTick
  have hw := hv.final id p.ops
  obtain ⟨hbucket, hconfig⟩ := EventState.run_pause eventId p v
  rw [hb] at hbucket
  refine ⟨b, ⟨_, hv.final id [.admitBatch p.lastTick], hb⟩, ?_, ?_⟩
  · rw [← p.budget_eq_iff hlast, ← hbucket]
    constructor
    · rintro ⟨u, c, hu, huc, hbudget⟩
      obtain rfl : c = p.resumed := Option.some.inj
        ((hw.configured_iff.mp (hu.configured_iff.mpr huc)).symm.trans hconfig)
      rwa [hw.bucket_eq hu]
    · exact fun hbudget => ⟨_, _, hw, hconfig, hbudget⟩
  · intro p' d hlonger hneutral hneutral' ops
    have hw' := hv.final id p'.ops
    obtain ⟨hbucket', hconfig'⟩ := EventState.run_pause eventId p' v
    rw [hlonger.lastTick, hb] at hbucket'
    have hsame := hlonger.sameLine eventId v
    by_cases hfull : (p.config.burst : ℚ) ≤ p.earned b
    · -- both buckets are full, and what follows is later by `d`
      have hfull' := hfull
      rw [← hlonger.config, ← hlonger.earned_eq] at hfull'
      have hbudget : EventState.budget id p.resumed (v.run id eventId p.ops).bucket p.nextTick
          = p.config.burst := by
        rw [hbucket]
        exact p.budget_of_full hlast hfull
      have hbudget' : EventState.budget id p.resumed (v.run id eventId p'.ops).bucket
          (p.nextTick + d) = p.config.burst := by
        rw [hbucket', ← hlonger.resumed, ← hlonger.nextTick, ← hlonger.config]
        exact p'.budget_of_full (hlast.trans (by rw [hlonger.lastTick])) hfull'
      obtain ⟨hreply, hpost⟩ := hsame.admitBatch hconfig (p.resumed_rate ▸ p.config_rate)
        (hbudget'.trans hbudget.symm)
      have hrest := hpost.trace_admitted (hw.final id [.admitBatch p.nextTick])
        (hw'.final id [.admitBatch (p.nextTick + d)]) ops
      show Visit.admitted _ :: List.map _ _ = Visit.admitted _ :: List.map _ _
      refine List.cons_eq_cons.mpr ⟨?_, hrest⟩
      refine (hw.admitted_eq id p.nextTick).trans ?_
      rw [← hreply]
      exact (hw'.admitted_eq id (p.nextTick + d)).symm
    · -- neither pause takes any time
      have hfull' := hfull
      rw [← hlonger.config, ← hlonger.earned_eq] at hfull'
      have hzero := hneutral.resolve_right hfull
      have hzero' := hneutral'.resolve_right hfull'
      rw [hlonger.resumedAt, hlonger.pausedAt, hzero] at hzero'
      obtain rfl : d = 0 := by omega
      refine Postponed.trace_admitted ⟨hsame, ?_⟩ hw hw' _
      rw [hbucket, hbucket']
      simp

/-- A pause of `d` milliseconds, on an event of one token a minute and a burst
of one. -/
def briefPause (d : ℕ) : Pause where
  config := ⟨1, 1, 1⟩
  lastTick := 0
  before := []
  paused := ⟨0, 1, 1⟩
  pausedAt := 0
  during := []
  resumed := ⟨1, 1, 1⟩
  resumedAt := d
  after := []
  nextTick := d
  config_rate := by decide
  paused_rate := by decide
  resumed_rate := rfl
  resumed_burst := rfl
  before_quiet := fun _ h => absurd h List.not_mem_nil
  during_paused := fun _ h => absurd h List.not_mem_nil
  after_quiet := fun _ h => absurd h List.not_mem_nil
  inOrder := by simp

/-- The first waiter takes the only token, and the event is paused for a
minute: the tick right after the pause has a token for the second waiter,
which a pause of no length would not have given. -/
theorem pause_earns_its_length :
    let σ := (QueueService id "e").final (createdStore "e" ⟨1, 1, 1⟩) [.join "a", .join "b"]
    Banks "e" ((QueueService id "e").final σ [.admitBatch 0]) ⟨0, 0⟩
      ∧ BudgetAt "e" ((QueueService id "e").final σ (briefPause 60000).ops) 60000 1
      ∧ ¬ BudgetAt "e" ((QueueService id "e").final σ (briefPause 60000).ops) 60000
          (min 1 ((briefPause 60000).earned ⟨0, 0⟩))
      ∧ (briefPause 0).Longer (briefPause 60000) 60000
      ∧ ((QueueService id "e").trace ((QueueService id "e").final σ (briefPause 0).ops)
          [.admitBatch 0]).map Visit.admitted = [[]]
      ∧ ((QueueService id "e").trace ((QueueService id "e").final σ (briefPause 60000).ops)
          [.admitBatch 60000]).map Visit.admitted = [["b"]] := by
  intro σ
  have hσ := (holds_createdStore "e" ⟨1, 1, 1⟩).final id [.join "a", .join "b"]
  have hend := hσ.final id (briefPause 60000).ops
  refine ⟨⟨_, hσ.final id [.admitBatch 0], by decide +kernel⟩,
    ⟨_, ⟨1, 1, 1⟩, hend, by decide +kernel, by decide +kernel⟩, ?_,
    ⟨rfl, rfl, rfl, rfl, rfl, rfl, rfl, rfl, rfl⟩, by decide +kernel, by decide +kernel⟩
  rintro ⟨u, c, hu, huc, hbudget⟩
  have hconfig := (hend.configured_iff.mp (hu.configured_iff.mpr huc)).symm
  rw [hu.bucket_eq hend, Option.some.inj (hconfig.trans (show _ = some ⟨1, 1, 1⟩ by
    decide +kernel))] at hbudget
  revert hbudget
  decide +kernel

/-- The exact condition, for a pause of a minute. -/
theorem pause_neutral_iff_of_minute :
    let σ := (QueueService id "e").final (createdStore "e" ⟨1, 1, 1⟩) [.join "a", .join "b"]
    ∃ b, Banks "e" ((QueueService id "e").final σ [.admitBatch 0]) b
      ∧ (BudgetAt "e" ((QueueService id "e").final σ (briefPause 60000).ops) 60000
          (min ((1 : ℤ) : ℚ) ((briefPause 60000).earned b)) ↔ (briefPause 60000).Neutral b) := by
  intro σ
  have hσ := (holds_createdStore "e" ⟨1, 1, 1⟩).final id [.join "a", .join "b"]
  obtain ⟨b, hb, hiff, -⟩ := pause_neutral_iff (briefPause 60000)
    ⟨_, _, _, fresh_createdStore "e" ⟨1, 1, 1⟩, rfl⟩ (hσ.configured_iff.mpr rfl)
  exact ⟨b, hb, hiff⟩
