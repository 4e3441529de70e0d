import QueueFair.EventRun

/-!
# Collecting a pass

A pass is parked under a key of its own, and a position call looks at that
key only for a token that is not in the queue. A join looks only at the
queue. So the pass of an admitted waiter is out of reach while the token is
back in the queue, and two things put it there: a join by a waiter whose pass
is live, which queues the token anew, and the parking of a pass for a token
that has been queued again since it was let in.

A waiter who holds a live pass is therefore answered with that pass in every
state of a run exactly where no step of the run is one of these two
(`keeps_turn_iff`).
-/

open Redis

/-- The pass waiting for a token now, if one is. -/
def livePass (eventId : String) (σ : Store) (t : String) : Option Admission :=
  match σ.find ((EventKeys.mk eventId).passFor t) with
  | some (.string (.blob a)) => some a
  | _ => none

/-- A token has a place in the queue. -/
def InQueue (eventId : String) (σ : Store) (t : String) : Prop :=
  ∃ W, σ.HoldsZset (EventKeys.mk eventId).queue W ∧ t ∈ W.members

/-- **Whoever has a live pass is answered with it.** -/
def KeepsTurn (eventId t : String) (σ : Store) : Prop :=
  ∀ a, livePass eventId σ t = some a → ∃ o,
    (RedisQueueRepository.position eventId t).run σ = (.ok (.ok (.admitted o)), σ)
      ∧ o.admission = a

/-- A step that keeps a token and its live pass apart: no join by a token
that has a live pass, and no pass parked for a token in the queue. -/
def KeepsApart (eventId t : String) (σ : Store) (op : EventOp) : Prop :=
  (op = .join t → livePass eventId σ t = none)
    ∧ ∀ p ttl, op = .recordAdmission p ttl → p.queueToken = t → 0 < ttl →
      ¬ InQueue eventId σ t

namespace EventState

variable {v : EventState} {t : String}

/-- A pass is live as long as neither the passes nor the clock move. -/
theorem livePass_congr {w : EventState} (hp : w.passes t = v.passes t)
    (hclock : w.clock = v.clock) : w.livePass t = v.livePass t := by
  unfold livePass
  rw [hp, hclock]

theorem livePass_recordAdmission_self (eventId : String) {p : IssuedPass} {ttl : ℤ}
    (ht : p.queueToken = t) (hpos : 0 < ttl) :
    (v.recordAdmission eventId p ttl).livePass t
      = some (RedisQueueRepository.payload eventId p) := by
  have hp : (v.recordAdmission eventId p ttl).passes t
      = some (RedisQueueRepository.payload eventId p, v.clock + 1000 * ttl) := by
    rw [← ht]
    exact Function.update_self _ _ _
  have hlive : (v.recordAdmission eventId p ttl).clock ≤ v.clock + 1000 * ttl := by
    show v.clock ≤ v.clock + 1000 * ttl
    omega
  unfold livePass
  rw [hp, Option.bind_some, if_pos hlive]

theorem livePass_recordAdmission_of_ne (eventId : String) {p : IssuedPass} (ttl : ℤ)
    (ht : t ≠ p.queueToken) :
    (v.recordAdmission eventId p ttl).livePass t = v.livePass t :=
  livePass_congr (Function.update_of_ne ht _ _) rfl

/-- No pass comes to life by waiting. -/
theorem livePass_wait (h : v.livePass t = none) (d : ℕ) :
    { v with clock := v.clock + d }.livePass t = none := by
  unfold livePass at h ⊢
  cases hp : v.passes t with
  | none => rfl
  | some p =>
    rw [hp, Option.bind_some] at h
    by_cases hle : v.clock ≤ p.2
    · rw [if_pos hle] at h
      exact absurd h (by simp)
    · exact if_neg (fun hle' => hle (le_trans (by simp) hle'))

end EventState

namespace Holds

variable {eventId t : String} {σ : Store} {v : EventState} {c : QueueConfig}

theorem livePass_eq (h : Holds eventId σ v) : livePass eventId σ t = v.livePass t := by
  unfold livePass
  rw [h.find_pass]
  cases v.livePass t <;> rfl

theorem inQueue_iff (h : Holds eventId σ v) : InQueue eventId σ t ↔ t ∈ v.queue.members := by
  constructor
  · rintro ⟨W, hW, ht⟩
    rwa [h.queue_eq hW]
  · exact fun ht => ⟨v.queue, h.queue, ht⟩

/-- The pass is out of reach exactly where its token is in the queue. -/
theorem keepsTurn_iff (h : Holds eventId σ v) (hc : ∃ c, v.config = some c) :
    KeepsTurn eventId t σ ↔ (v.livePass t = none ∨ t ∉ v.queue.members) := by
  obtain ⟨c, hc⟩ := hc
  unfold KeepsTurn
  rw [h.livePass_eq, h.position_run]
  constructor
  · intro hturn
    cases ha : v.livePass t with
    | none => exact Or.inl rfl
    | some a =>
      refine Or.inr (fun ht => ?_)
      obtain ⟨o, ho, -⟩ := hturn a ha
      rw [EventState.position_of_queued hc eventId (v.queue.rank?_of_mem ht)] at ho
      simp at ho
  · intro hapart a ha
    have ht : t ∉ v.queue.members := hapart.resolve_left (by rw [ha]; simp)
    rw [EventState.position_of_admitted hc eventId (v.queue.rank?_eq_none_iff.mpr ht) ha]
    exact ⟨_, rfl, rfl⟩

end Holds

/-- **One step** keeps a live pass in reach exactly where it keeps the token
and its pass apart. -/
theorem Holds.step_keepsTurn_iff (rnd : ℚ → ℚ) {eventId : String} {σ : Store}
    {v : EventState} (h : Holds eventId σ v) (hc : ∃ c, v.config = some c) (t : String)
    (hturn : KeepsTurn eventId t σ) (op : EventOp) :
    KeepsTurn eventId t ((QueueService rnd eventId).step σ op).2
      ↔ KeepsApart eventId t σ op := by
  obtain ⟨σ', hrun, hσ'⟩ := h.serve rnd op
  rw [show (QueueService rnd eventId).step σ op = _ from hrun,
    hσ'.keepsTurn_iff (EventState.configured_step rnd eventId hc op)]
  rw [h.keepsTurn_iff hc] at hturn
  unfold KeepsApart
  rw [h.livePass_eq, h.inQueue_iff]
  cases op with
  | join t' =>
    obtain ⟨z, n, hsame⟩ := v.join_snd t'
    have hlive : (v.join t').2.livePass t = v.livePass t := by
      rw [hsame]
      exact EventState.livePass_congr rfl rfl
    show ((v.join t').2.livePass t = none ∨ t ∉ (v.join t').2.queue.members) ↔ _
    rw [hlive, EventState.mem_members_join hc]
    by_cases ht : t = t'
    · -- the token is in the queue after its join
      subst ht
      simp
    · simp [ht, hturn, Ne.symm ht]
  | position t' => exact iff_of_true hturn ⟨by simp, by simp⟩
  | admitBatch now =>
    obtain ⟨b, n, hsame⟩ := v.admitBatch_snd rnd now
    have hlive : (v.admitBatch rnd now).2.livePass t = v.livePass t := by
      rw [hsame]
      exact EventState.livePass_congr rfl rfl
    have hmem : t ∈ (v.admitBatch rnd now).2.queue.members → t ∈ v.queue.members := by
      rw [hsame, ZSet.members_popMin]
      exact List.mem_of_mem_drop
    have hkeep : (v.admitBatch rnd now).2.livePass t = none
        ∨ t ∉ (v.admitBatch rnd now).2.queue.members := by
      rw [hlive]
      exact hturn.imp_right (fun hn hm => hn (hmem hm))
    exact iff_of_true hkeep ⟨by simp, by simp⟩
  | configure c => exact iff_of_true hturn ⟨by simp, by simp⟩
  | reset => exact iff_of_true (Or.inr List.not_mem_nil) ⟨by simp, by simp⟩
  | recordAdmission p ttl =>
    by_cases hpos : 0 < ttl
    · rw [EventState.step_recordAdmission_of_pos rnd eventId v p (not_le.mpr hpos)]
      have hqueue : (v.recordAdmission eventId p ttl).queue = v.queue := rfl
      by_cases ht : p.queueToken = t
      · have hlive := EventState.livePass_recordAdmission_self (v := v) eventId ht hpos
        rw [hlive, hqueue]
        simp [ht, hpos]
      · have hlive := EventState.livePass_recordAdmission_of_ne (v := v) eventId ttl (Ne.symm ht)
        rw [hlive, hqueue]
        refine iff_of_true hturn ⟨by simp, fun p' ttl' he ht' => ?_⟩
        rw [(EventOp.recordAdmission.inj he).1] at ht
        exact absurd ht' ht
    · rw [EventState.step_recordAdmission_of_nonpos rnd eventId v p (not_lt.mp hpos)]
      refine iff_of_true hturn ⟨by simp, fun p' ttl' he _ hpos' => ?_⟩
      rw [(EventOp.recordAdmission.inj he).2] at hpos
      exact absurd hpos' hpos
  | wait d =>
    have hkeep : (v.step rnd eventId (.wait d)).2.livePass t = none ∨ t ∉ v.queue.members :=
      hturn.imp_left (fun hn => EventState.livePass_wait hn d)
    exact iff_of_true hkeep ⟨by simp, by simp⟩

/-- **An admitted waiter keeps the turn exactly where no step puts the token
back beside its pass.** In every state of a run from a fresh event a live
pass of a token is what a position call answers, if and only if no step of
the run is a join by the token while a pass of it is live, or the parking of
a pass for the token while it is in the queue. -/
theorem keeps_turn_iff (rnd : ℚ → ℚ) {eventId : String} {σ : Store} {c : QueueConfig}
    (h : Fresh eventId σ c) (t : String) (ops : List EventOp) :
    (∀ bs, bs <+: ops → KeepsTurn eventId t ((QueueService rnd eventId).final σ bs))
      ↔ ∀ bs op, bs ++ [op] <+: ops →
        KeepsApart eventId t ((QueueService rnd eventId).final σ bs) op := by
  obtain ⟨passes, hv⟩ := h.holds
  refine Machine.prefix_iff _
    (P := fun σ => ∃ v, Holds eventId σ v ∧ ∃ c, v.config = some c)
    (fun σ op hσ => ?_) (fun σ op hσ hturn => ?_) ⟨_, hv, c, rfl⟩ ?_ ops
  · obtain ⟨v, hv, hc⟩ := hσ
    obtain ⟨σ', hrun, hσ'⟩ := hv.serve rnd op
    rw [show (QueueService rnd eventId).step σ op = _ from hrun]
    exact ⟨_, hσ', EventState.configured_step rnd eventId hc op⟩
  · obtain ⟨v, hv, hc⟩ := hσ
    exact hv.step_keepsTurn_iff rnd hc t hturn op
  · exact (hv.keepsTurn_iff ⟨c, rfl⟩).mpr (Or.inr List.not_mem_nil)

/-- A waiter is let in, is parked a pass for a minute, and refreshes the
page. -/
theorem keeps_turn_fails_on_refresh :
    let σ := (QueueService id "e").final (createdStore "e" ⟨60, 1, 5⟩)
      [.join "a", .admitBatch 0, .recordAdmission ⟨"a", "jwt", "jti", 60⟩ 60, .join "a"]
    livePass "e" σ "a" = some ⟨"jwt", 60, "/events/e/book"⟩
      ∧ ((RedisQueueRepository.position "e" "a").run σ).1
        = .ok (.ok (.waiting ⟨1, 1, 1, 60⟩))
      ∧ ¬ KeepsTurn "e" "a" σ := by
  intro σ
  have hlive : livePass "e" σ "a" = some ⟨"jwt", 60, "/events/e/book"⟩ := by decide +kernel
  have hpos : ((RedisQueueRepository.position "e" "a").run σ).1
      = .ok (.ok (.waiting ⟨1, 1, 1, 60⟩)) := by decide +kernel
  refine ⟨hlive, hpos, fun hturn => ?_⟩
  obtain ⟨o, ho, -⟩ := hturn _ hlive
  rw [ho] at hpos
  simp at hpos

/-- A waiter who is let in, is parked a pass and does not join again. -/
theorem keeps_turn_iff_of_patience :
    (∀ bs, bs <+: [.join "a", .admitBatch 0, .recordAdmission ⟨"a", "jwt", "jti", 60⟩ 60] →
        KeepsTurn "e" "a" ((QueueService id "e").final (createdStore "e" ⟨60, 1, 5⟩) bs))
      ↔ ∀ bs op, bs ++ [op] <+:
          [.join "a", .admitBatch 0, .recordAdmission ⟨"a", "jwt", "jti", 60⟩ 60] →
        KeepsApart "e" "a" ((QueueService id "e").final (createdStore "e" ⟨60, 1, 5⟩) bs) op :=
  keeps_turn_iff id (fresh_createdStore "e" ⟨60, 1, 5⟩) "a" _
