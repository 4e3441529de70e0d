import QueueFair.Admission
import QueueFair.LivePass

/-!
# Between the pop and the pass

A position call tells an admitted waiter from a stranger by the pass parked
for the token. The batch script takes the token out of the queue, and the
pass is parked by a later call; a position call served between the two finds
neither, and answers that the token is unknown.

Each placement of a waiter is followed by a `Phase` of its own: queued by a
join, popped by some admitter's batch, parked once that admitter's pass is
stored. From the join until the pass of the placement expires the waiter is
owed an answer, whatever becomes of a later placement of the same token.
`never_unknown_iff` says that this promise is kept exactly by the runs in
which no position call of the waiter is served while the token is out of the
queue, none of its passes is live, and one of its placements is either popped
and not parked yet, or parked under a key that is gone before the pass. The
second takes an admitter whose clock is ahead of the store's when it parks the
pass: it dates the pass past the key.
-/

open Redis

variable {ι : Type} [DecidableEq ι]

/-- The visits of the system. -/
abbrev SystemVisit (ι : Type) : Type :=
  Visit (SystemState ι) (SystemAct ι) (Option (Except Redis.Error Answer))

/-- The pass a step parks, with the reading its batch was popped at. -/
def SystemVisit.parks (x : SystemVisit ι) : Option (ℤ × IssuedPass) :=
  match x.action with
  | .park i => (x.before.tick i).next
  | _ => none

/-- Where one placement of a waiter stands. -/
inductive Phase (ι : Type) where
  /-- Placed by a join. -/
  | queued
  /-- Popped by an admitter whose clock read `nowMs`. -/
  | popped (i : ι) (nowMs : ℤ)
  /-- The pass issued for the placement is parked, under a key that is kept
  until then. -/
  | parked (expiresAt keptUntil : ℤ)
deriving DecidableEq

namespace Phase

/-- What one step makes of a placement of `t`. -/
def after (K : AdmissionController) (t : String) (x : SystemVisit ι) (φ : Phase ι) : Phase ι :=
  match φ, x.action, x.reply with
  | .queued, .admitBatch i nowMs, some (.ok (.admitBatch (.ok (some b)))) =>
    if t ∈ b.admittedTokens then .popped i nowMs else .queued
  | .popped j nowMs, .park i, some (.ok _) =>
    match x.parks with
    | some (_, p) =>
      if j = i ∧ p.queueToken = t then
        .parked p.expiresAt (x.before.store.clock + 1000 * K.passTtlSeconds)
      else .popped j nowMs
    | none => .popped j nowMs
  | φ, _, _ => φ

/-- The placement a step gives `t`, if it gives one. -/
def placed (t : String) (x : SystemVisit ι) : List (Phase ι) :=
  match x.action, x.reply with
  | .join t', some (.ok (.join (.ok (some o)))) => if t' = t ∧ o.joined then [.queued] else []
  | _, _ => []

/-- What one step makes of the placements of `t`. -/
def next (K : AdmissionController) (t : String) (φs : List (Phase ι)) (x : SystemVisit ι) :
    List (Phase ι) :=
  φs.map (after K t x) ++ placed t x

/-- **The placements of `t`** in a history, each where it stands at the end. -/
def of (K : AdmissionController) (t : String) (xs : List (SystemVisit ι)) : List (Phase ι) :=
  xs.foldl (next K t) []

/-- **The waiter is owed an answer** for a placement: from the join until the
pass issued for it expires. -/
def Owed (K : AdmissionController) (clock : ℤ) : Phase ι → Prop
  | .queued => True
  | .popped _ nowMs => clock < 1000 * (nowMs / 1000 + K.issuer.ttlSeconds)
  | .parked expiresAt _ => clock < 1000 * expiresAt

instance (K : AdmissionController) (clock : ℤ) :
    (φ : Phase ι) → Decidable (φ.Owed K clock)
  | .queued => isTrue trivial
  | .popped _ _ => inferInstanceAs (Decidable (_ < _))
  | .parked _ _ => inferInstanceAs (Decidable (_ < _))

end Phase

/-! ## The promise, and where it is at risk -/

/-- A token is out of the queue, and none of its passes is live. -/
def OutOfSight (eventId t : String) (σ : Store) : Prop :=
  ¬ InQueue eventId σ t ∧ livePass eventId σ t = none

/-- **The gap**: a placement that is owed an answer is popped and not parked
yet, and nothing else shows for the token. -/
def InGap (K : AdmissionController) (eventId t : String) (σ : Store) (φs : List (Phase ι)) :
    Prop :=
  (∃ i nowMs, .popped i nowMs ∈ φs ∧ (Phase.popped i nowMs).Owed K σ.clock)
    ∧ OutOfSight eventId t σ

/-- **Past the key**: a placement that is owed an answer is parked under a key
that is gone, and nothing else shows for the token. -/
def PastKey (K : AdmissionController) (eventId t : String) (σ : Store) (φs : List (Phase ι)) :
    Prop :=
  (∃ e d, .parked e d ∈ φs ∧ (Phase.parked e d : Phase ι).Owed K σ.clock ∧ d < σ.clock)
    ∧ OutOfSight eventId t σ

/-- **A waiter who reached the front is never told it is unknown**: no
position call of a history answers so while the waiter is owed an answer, for
whichever of its placements. -/
def NeverUnknown (K : AdmissionController) (t : String) (xs : List (SystemVisit ι)) : Prop :=
  ∀ pre x post, xs = pre ++ x :: post → x.action = .position t →
    (∃ φ ∈ Phase.of K t pre, φ.Owed K x.before.store.clock) →
    x.reply ≠ some (.ok (.position (.error (.unknownToken t))))

/-- No position call of the waiter falls in the gap. -/
def NoCallInGap (K : AdmissionController) (eventId t : String) (xs : List (SystemVisit ι)) :
    Prop :=
  ∀ pre x post, xs = pre ++ x :: post → x.action = .position t →
    ¬ InGap K eventId t x.before.store (Phase.of K t pre)

/-- No position call of the waiter falls between the end of a key and the end of
its pass. -/
def NoCallPastKey (K : AdmissionController) (eventId t : String) (xs : List (SystemVisit ι)) :
    Prop :=
  ∀ pre x post, xs = pre ++ x :: post → x.action = .position t →
    ¬ PastKey K eventId t x.before.store (Phase.of K t pre)

/-- No admitter that parks a pass for the waiter popped its batch at a
reading ahead of the store's clock. -/
def ClocksBehind (t : String) (xs : List (SystemVisit ι)) : Prop :=
  ∀ x ∈ xs, ∀ r ∈ SystemVisit.parks x, r.2.queueToken = t → r.1 ≤ x.before.store.clock

/-! ## What a step makes of the placements -/

namespace Phase

variable {K : AdmissionController} {t : String} {φs : List (Phase ι)} {x : SystemVisit ι}
  {e d : ℤ}

/-- Only a batch and a parking change where a placement stands. -/
theorem map_after_of_idle (hbatch : ∀ i now, x.action ≠ .admitBatch i now)
    (hpark : ∀ i, x.action ≠ .park i) : φs.map (after K t x) = φs := by
  refine List.map_id'' (fun φ => ?_) φs
  obtain ⟨s, a, r⟩ := x
  cases a with
  | admitBatch i now => exact absurd rfl (hbatch i now)
  | park i => exact absurd rfl (hpark i)
  | _ => cases φ <;> rfl

/-- A step that is not served, or not done, changes nothing. -/
theorem next_of_unanswered (s : SystemState ι) (a : SystemAct ι)
    {r : Option (Except Redis.Error Answer)} (hr : ∀ answer, r ≠ some (.ok answer)) :
    next K t φs ⟨s, a, r⟩ = φs := by
  have hmap : φs.map (after K t ⟨s, a, r⟩) = φs := by
    refine List.map_id'' (fun φ => ?_) φs
    rcases r with _ | (e | answer)
    · cases φ <;> cases a <;> rfl
    · cases φ <;> cases a <;> rfl
    · exact absurd rfl (hr answer)
  have hplaced : placed t ⟨s, a, r⟩ = [] := by
    rcases r with _ | (e | answer)
    · cases a <;> rfl
    · cases a <;> rfl
    · exact absurd rfl (hr answer)
  unfold next
  rw [hmap, hplaced, List.append_nil]

/-- A batch that leaves the waiter out changes nothing for it. -/
theorem map_after_admitBatch_of_notMem {b : AdmissionBatch} (ht : t ∉ b.admittedTokens)
    (s : SystemState ι) (i : ι) (now : ℤ) :
    φs.map (after K t ⟨s, .admitBatch i now, some (.ok (.admitBatch (.ok (some b))))⟩) = φs := by
  refine List.map_id'' (fun φ => ?_) φs
  cases φ with
  | queued => exact if_neg ht
  | _ => rfl

/-- A batch with the waiter in it leaves no placement queued. -/
theorem queued_notMem_of_batch {b : AdmissionBatch} (ht : t ∈ b.admittedTokens)
    (s : SystemState ι) (i : ι) (now : ℤ) :
    .queued ∉ φs.map
      (after K t ⟨s, .admitBatch i now, some (.ok (.admitBatch (.ok (some b))))⟩) := by
  intro hmem
  obtain ⟨φ, hφ, he⟩ := List.mem_map.mp hmem
  cases φ with
  | queued => exact nomatch (if_pos ht).symm.trans he
  | _ => exact nomatch he

/-- **A placement is parked** by the step that parks a pass for the waiter, and
stays so. -/
theorem parked_of_after {φ : Phase ι} (h : φ.after K t x = .parked e d) :
    φ = .parked e d ∨ ∃ r ∈ x.parks, r.2.queueToken = t ∧ e = r.2.expiresAt
      ∧ d = x.before.store.clock + 1000 * K.passTtlSeconds := by
  unfold after at h
  split at h
  · split at h <;> exact nomatch h
  · split at h
    · rename_i now p hparks
      split at h
      · rename_i hp
        obtain ⟨rfl, rfl⟩ := Phase.parked.inj h
        exact Or.inr ⟨(now, p), hparks, hp.2, rfl, rfl⟩
      · exact nomatch h
    · exact nomatch h
  · exact Or.inl h

theorem parked_of_mem_next (h : .parked e d ∈ next K t φs x) :
    .parked e d ∈ φs ∨ ∃ r ∈ x.parks, r.2.queueToken = t ∧ e = r.2.expiresAt
      ∧ d = x.before.store.clock + 1000 * K.passTtlSeconds := by
  rcases List.mem_append.mp h with h | h
  · obtain ⟨φ, hφ, he⟩ := List.mem_map.mp h
    exact (parked_of_after he).imp_left (fun hold => by rwa [← hold])
  · unfold placed at h
    split at h
    · split at h <;> simp at h
    · exact absurd h List.not_mem_nil

/-- Nothing that is popped is queued again. -/
theorem queued_of_after {φ : Phase ι} (h : φ.after K t x = .queued) : φ = .queued := by
  unfold after at h
  split at h
  · rfl
  · split at h
    · split at h <;> exact nomatch h
    · exact nomatch h
  · exact h

/-- Parking a pass queues nobody. -/
theorem queued_mem_of_park (s : SystemState ι) (i : ι)
    (r : Option (Except Redis.Error Answer)) :
    .queued ∈ φs.map (after K t ⟨s, .park i, r⟩) ↔ .queued ∈ φs := by
  refine ⟨fun hmem => ?_, fun hmem => List.mem_map.mpr ⟨.queued, hmem, rfl⟩⟩
  obtain ⟨φ, hφ, he⟩ := List.mem_map.mp hmem
  rwa [queued_of_after he] at hφ

end Phase

/-! ## What the placements say about the record -/

/-- What the placements of a waiter say about the record. -/
structure Follows (K : AdmissionController) (t : String) (v : EventState)
    (φs : List (Phase ι)) : Prop where
  configured : ∃ c, v.config = some c
  queued : .queued ∈ φs ↔ t ∈ v.queue.members
  parked : ∀ e d, .parked e d ∈ φs → d ≤ v.clock + 1000 * K.passTtlSeconds
    ∧ ∃ a d', v.passes t = some (a, d') ∧ d ≤ d'

/-- A state of the system follows the placements of a waiter. -/
def Tracks (K : AdmissionController) (eventId t : String) (s : SystemState ι)
    (φs : List (Phase ι)) : Prop :=
  (∀ i, (s.tick i).Dated K) ∧ ∃ v, Holds eventId s.store v ∧ Follows K t v φs

/-- No placement outlives its key. -/
def Timely (φs : List (Phase ι)) : Prop := ∀ e d, .parked e d ∈ φs → 1000 * e ≤ d

/-- A position call finds nothing exactly for a token that is not in the queue
and has no live pass. -/
theorem EventState.position_eq_unknown_iff {v : EventState} (hc : ∃ c, v.config = some c)
    (eventId t : String) :
    v.position eventId t = .error (.unknownToken t)
      ↔ t ∉ v.queue.members ∧ v.livePass t = none := by
  obtain ⟨c, hc⟩ := hc
  by_cases ht : t ∈ v.queue.members
  · rw [EventState.position_of_queued hc eventId (v.queue.rank?_of_mem ht)]
    exact iff_of_false (by simp) (fun h => h.1 ht)
  · have hr := v.queue.rank?_eq_none_iff.mpr ht
    cases ha : v.livePass t with
    | some a =>
      rw [EventState.position_of_admitted hc eventId hr ha]
      exact iff_of_false (by simp) (fun h => nomatch h.2)
    | none => exact iff_of_true (EventState.position_of_stranger hc eventId hr ha) ⟨ht, rfl⟩

namespace Follows

variable {K : AdmissionController} {eventId t : String} {v : EventState} {φs : List (Phase ι)}

omit [DecidableEq ι] in
/-- Nothing about the waiter changes where neither the queue nor the passes
change for it. -/
theorem congr (h : Follows K t v φs) {w : EventState} (hc : ∃ c, w.config = some c)
    (hq : t ∈ w.queue.members ↔ t ∈ v.queue.members) (hp : w.passes t = v.passes t)
    (hclock : v.clock ≤ w.clock) : Follows K t w φs where
  configured := hc
  queued := h.queued.trans hq.symm
  parked e d he := by
    obtain ⟨hle, a, d', ha, hd⟩ := h.parked e d he
    exact ⟨by omega, a, d', hp.trans ha, hd⟩

omit [DecidableEq ι] in
/-- **Who is owed an answer and would get none**: a token out of sight with a
placement in the gap or past its key. -/
theorem owed_iff (h : Follows K t v φs) (ht : t ∉ v.queue.members) (hp : v.livePass t = none) :
    (∃ φ ∈ φs, φ.Owed K v.clock)
      ↔ (∃ i now, .popped i now ∈ φs ∧ (Phase.popped i now).Owed K v.clock)
        ∨ ∃ e d, .parked e d ∈ φs ∧ (Phase.parked e d : Phase ι).Owed K v.clock
          ∧ d < v.clock := by
  constructor
  · rintro ⟨φ, hφ, howed⟩
    cases φ with
    | queued => exact absurd (h.queued.mp hφ) ht
    | popped i now => exact Or.inl ⟨i, now, hφ, howed⟩
    | parked e d =>
      refine Or.inr ⟨e, d, hφ, howed, ?_⟩
      -- a later parking keeps its key for longer
      obtain ⟨-, a, d', ha, hd⟩ := h.parked e d hφ
      rw [EventState.livePass, ha, Option.bind_some] at hp
      by_contra hlive
      rw [if_pos (by show v.clock ≤ d'; omega)] at hp
      exact nomatch hp
  · rintro (⟨i, now, hφ, howed⟩ | ⟨e, d, hφ, howed, -⟩)
    · exact ⟨_, hφ, howed⟩
    · exact ⟨_, hφ, howed⟩

/-- A join queues the one who joins, unless already queued. -/
theorem join (h : Follows K t v φs) (s : SystemState ι) (t' : String) :
    Follows K t (v.join t').2
      (Phase.next K t φs ⟨s, .join t', some (.ok (.join (.ok (v.join t').1)))⟩) := by
  unfold Phase.next
  rw [Phase.map_after_of_idle (by simp) (by simp)]
  obtain ⟨c, hc⟩ := h.configured
  cases hs : v.queue.score? t' with
  | some n =>
    rw [EventState.join_of_queued hc hs]
    simpa [Phase.placed] using h
  | none =>
    have hmem := EventState.mem_members_join (t := t) ⟨c, hc⟩ t'
    rw [EventState.join_of_new hc hs] at hmem ⊢
    by_cases ht : t' = t
    · simp only [Phase.placed, ht, and_self, if_true]
      refine ⟨⟨c, hc⟩, iff_of_true (by simp) (by rw [ht] at hmem; exact hmem.mpr (Or.inl rfl)),
        fun e d he => ?_⟩
      exact h.parked e d (by simpa using he)
    · simp only [Phase.placed, ht, false_and, if_false, List.append_nil]
      refine h.congr ⟨c, hc⟩ (hmem.trans ?_) rfl le_rfl
      exact or_iff_right (Ne.symm ht)

/-- A tick pops those at the front, and leaves the others where they are. -/
theorem admitBatch (h : Follows K t v φs) (rnd : ℚ → ℚ) (s : SystemState ι) (i : ι) (now : ℤ) :
    Follows K t (v.admitBatch rnd now).2 (Phase.next K t φs
      ⟨s, .admitBatch i now, some (.ok (.admitBatch (.ok (v.admitBatch rnd now).1)))⟩) := by
  obtain ⟨c, hc⟩ := h.configured
  obtain ⟨b, hb⟩ := EventState.admitBatch_eq rnd hc now
  rw [hb]
  have hsplit := v.queue.popped_append_popMin (v.batch rnd now)
  have hnodup := v.queue.members_nodup
  rw [← hsplit] at hnodup
  by_cases ht : t ∈ (v.queue.popped (v.batch rnd now)).map Prod.fst
  · refine ⟨⟨c, hc⟩, iff_of_false (fun hmem => ?_) (fun hm => ?_), fun e d he => ?_⟩
    · rw [Phase.next, Phase.placed, List.append_nil] at hmem
      exact Phase.queued_notMem_of_batch ht s i now hmem
    · exact (List.nodup_append.mp hnodup).2.2 t ht t hm rfl
    · obtain hold | ⟨r, hr, -⟩ := Phase.parked_of_mem_next he
      · exact h.parked e d hold
      · exact nomatch hr
  · rw [Phase.next, Phase.map_after_admitBatch_of_notMem ht, Phase.placed, List.append_nil]
    refine h.congr ⟨c, hc⟩ ?_ rfl le_rfl
    rw [← hsplit, List.mem_append]
    exact (or_iff_right ht).symm

/-- A pass parked for the waiter is kept for at least as long as any before. -/
theorem park (h : Follows K t v φs) {s : SystemState ι} (hv : s.store.clock = v.clock) (i : ι)
    {now : ℤ} {p : IssuedPass} (hnext : (s.tick i).next = some (now, p)) :
    Follows K t (v.recordAdmission eventId p K.passTtlSeconds)
      (Phase.next K t φs ⟨s, .park i, some (.ok .done)⟩) := by
  have hqueued : .queued ∈ Phase.next K t φs ⟨s, .park i, some (.ok .done)⟩ ↔ .queued ∈ φs := by
    rw [Phase.next, Phase.placed, List.append_nil, Phase.queued_mem_of_park]
  refine ⟨h.configured, hqueued.trans h.queued, fun e d he => ?_⟩
  have hparked : .parked e d ∈ φs
      ∨ p.queueToken = t ∧ d = v.clock + 1000 * K.passTtlSeconds := by
    refine (Phase.parked_of_mem_next he).imp_right ?_
    rintro ⟨r, hr, ht, -, hd⟩
    obtain rfl := Option.some.inj (hnext.symm.trans hr)
    exact ⟨ht, hv ▸ hd⟩
  have hle : d ≤ v.clock + 1000 * K.passTtlSeconds := by
    rcases hparked with hold | ⟨-, rfl⟩
    · exact (h.parked e d hold).1
    · exact le_rfl
  refine ⟨hle, ?_⟩
  by_cases ht : p.queueToken = t
  · refine ⟨RedisQueueRepository.payload eventId p, _, ?_, hle⟩
    rw [← ht]
    exact Function.update_self _ _ _
  · obtain ⟨-, a, d', ha, hd⟩ := h.parked e d (hparked.resolve_right (fun hp => ht hp.1))
    exact ⟨a, d', (Function.update_of_ne (Ne.symm ht) _ _).trans ha, hd⟩

end Follows

namespace Tracks

variable {K : AdmissionController} {eventId t : String} {s : SystemState ι} {φs : List (Phase ι)}

/-- **One step** of the system, from a state that follows the placements. -/
theorem step (rnd : ℚ → ℚ) (encode : PassClaims → String → String)
    (h : Tracks K eventId t s φs) (a : SystemAct ι) :
    Tracks K eventId t ((AdmissionSystem rnd K encode eventId).step s a).2
      (Phase.next K t φs ⟨s, a, ((AdmissionSystem rnd K encode eventId).step s a).1⟩) := by
  obtain ⟨hdated, v, hv, hφ⟩ := h
  have hticks : ∀ r j, (a.ticks K encode eventId s.tick r j).Dated K :=
    SystemAct.ticks_dated hdated encode eventId a
  cases hop : a.op K s with
  | none =>
    rw [AdmissionSystem.step_of_none rnd encode hop, Phase.next_of_unanswered s a (by simp)]
    exact ⟨hticks none, v, hv, hφ⟩
  | some op =>
    obtain ⟨σ', hσ', hstep⟩ := AdmissionSystem.step_of_some rnd encode hv hop
    rw [hstep]
    refine ⟨hticks _, _, hσ', ?_⟩
    cases AdmissionSystem.asks_of_op hop with
    | join t' => exact hφ.join s t'
    | position t' =>
      rwa [Phase.next, Phase.map_after_of_idle (by simp) (by simp), Phase.placed, List.append_nil]
    | configure c =>
      rw [Phase.next, Phase.map_after_of_idle (by simp) (by simp), Phase.placed, List.append_nil]
      exact hφ.congr ⟨c, rfl⟩ Iff.rfl rfl le_rfl
    | wait d =>
      rw [Phase.next, Phase.map_after_of_idle (by simp) (by simp), Phase.placed, List.append_nil]
      refine hφ.congr hφ.configured Iff.rfl rfl ?_
      show v.clock ≤ v.clock + (d : ℤ)
      omega
    | @admitBatch i now hidle => exact hφ.admitBatch rnd s i now
    | @park i now p hnext =>
      by_cases hpos : K.passTtlSeconds ≤ 0
      · rw [EventState.step_recordAdmission_of_nonpos rnd eventId v p hpos,
          Phase.next_of_unanswered s _ (by simp)]
        exact hφ
      · rw [EventState.step_recordAdmission_of_pos rnd eventId v p hpos]
        exact hφ.park hv.clock i hnext

/-- A whole run follows the placements. -/
theorem run (rnd : ℚ → ℚ) (encode : PassClaims → String → String)
    (h : Tracks K eventId t s φs) (acts : List (SystemAct ι)) :
    Tracks K eventId t ((AdmissionSystem rnd K encode eventId).final s acts)
      (((AdmissionSystem rnd K encode eventId).trace s acts).foldl (Phase.next K t) φs) := by
  induction acts generalizing s φs with
  | nil => exact h
  | cons a acts ih =>
    rw [Machine.trace_cons]
    exact ih (h.step rnd encode a)

/-- A parking by an admitter whose clock is not ahead leaves no placement to
outlive its key. -/
theorem timely_step (hK : K.issuer.ttlSeconds = K.passTtlSeconds) (h : Tracks K eventId t s φs)
    (htimely : Timely φs) (a : SystemAct ι) (r : Option (Except Redis.Error Answer))
    (hclock : ∀ p ∈ SystemVisit.parks ⟨s, a, r⟩, p.2.queueToken = t → p.1 ≤ s.store.clock) :
    Timely (Phase.next K t φs ⟨s, a, r⟩) := by
  intro e d he
  obtain hold | ⟨⟨now, p⟩, hp, ht, rfl, rfl⟩ := Phase.parked_of_mem_next he
  · exact htimely e d hold
  · have hlate : now ≤ s.store.clock := hclock _ hp ht
    cases a with
    | park i =>
      have hexp : p.expiresAt = now / 1000 + K.issuer.ttlSeconds := (h.1 i).next hp
      show 1000 * p.expiresAt ≤ s.store.clock + 1000 * K.passTtlSeconds
      omega
    | _ => exact nomatch hp

/-- **A whole run** does not, if none of them is ahead. -/
theorem timely_run (rnd : ℚ → ℚ) (encode : PassClaims → String → String)
    (hK : K.issuer.ttlSeconds = K.passTtlSeconds) (h : Tracks K eventId t s φs)
    (htimely : Timely φs) (acts : List (SystemAct ι))
    (hclock : ClocksBehind t ((AdmissionSystem rnd K encode eventId).trace s acts)) :
    Timely (((AdmissionSystem rnd K encode eventId).trace s acts).foldl (Phase.next K t) φs) := by
  induction acts generalizing s φs with
  | nil => exact htimely
  | cons a acts ih =>
    rw [Machine.trace_cons] at hclock ⊢
    exact ih (h.step rnd encode a) (h.timely_step hK htimely a _ (hclock _ List.mem_cons_self))
      (fun x hx => hclock x (List.mem_cons_of_mem _ hx))

end Tracks

omit [DecidableEq ι] in
/-- A fresh event, with every admitter between two ticks. -/
theorem Fresh.tracks {eventId : String} {σ : Store} {c : QueueConfig} (h : Fresh eventId σ c)
    (K : AdmissionController) (t : String) :
    Tracks K eventId t (SystemState.mk σ (fun _ : ι => .idle)) [] := by
  obtain ⟨passes, hv⟩ := h.holds
  exact ⟨fun _ => Tick.dated_idle, _, hv, ⟨c, rfl⟩, iff_of_false List.not_mem_nil List.not_mem_nil,
    fun e d he => absurd he List.not_mem_nil⟩

/-- **What one position call is told** while the waiter is owed an answer. -/
theorem Tracks.owed_unknown_iff {K : AdmissionController} {eventId t : String}
    {s : SystemState ι} {φs : List (Phase ι)} (rnd : ℚ → ℚ)
    (encode : PassClaims → String → String) (h : Tracks K eventId t s φs) :
    ((∃ φ ∈ φs, φ.Owed K s.store.clock)
        ∧ ((AdmissionSystem rnd K encode eventId).step s (.position t)).1
          = some (.ok (.position (.error (.unknownToken t)))))
      ↔ InGap K eventId t s.store φs ∨ PastKey K eventId t s.store φs := by
  obtain ⟨-, v, hv, hφ⟩ := h
  obtain ⟨σ', -, hstep⟩ := AdmissionSystem.step_of_some rnd encode hv
    (rfl : (SystemAct.position t).op K s = some (.position t))
  -- the call is answered as the record answers it
  have hanswer : ((AdmissionSystem rnd K encode eventId).step s (.position t)).1
        = some (.ok (.position (.error (.unknownToken t)))) ↔ OutOfSight eventId t s.store := by
    rw [hstep, OutOfSight, hv.inQueue_iff, hv.livePass_eq,
      ← EventState.position_eq_unknown_iff hφ.configured eventId t]
    simp [EventState.step]
  rw [hanswer, InGap, PastKey, ← or_and_right]
  refine and_congr_left (fun hout => ?_)
  rw [OutOfSight, hv.inQueue_iff, hv.livePass_eq] at hout
  rw [hv.clock]
  exact hφ.owed_iff hout.1 hout.2

/-- **A waiter who reached the front is called unknown exactly in the gap, or
past its key.** Take any run of joins, position calls, rewrites of the
configuration and any number of admitters. No position call of `t` is answered
that the token is unknown while `t` is owed an answer for one of its placements,
if and only if no such call is served while `t` is out of the queue without a
live pass and either a placement of it is popped and not parked yet, or the
key of one is gone before its pass expires. The second never happens where no
admitter's clock is ahead of the store's when it parks a pass for `t`. -/
theorem never_unknown_iff (rnd : ℚ → ℚ) (encode : PassClaims → String → String)
    (secret : String) (hsecret : secret ≠ "") (ttlSeconds : ℤ) {eventId : String} {σ : Store}
    {c : QueueConfig} (h : Fresh eventId σ c) (t : String) (acts : List (SystemAct ι)) :
    let K := buildAdmissionController secret hsecret ttlSeconds
    let xs := (AdmissionSystem rnd K encode eventId).trace ⟨σ, fun _ => .idle⟩ acts
    (NeverUnknown K t xs ↔ NoCallInGap K eventId t xs ∧ NoCallPastKey K eventId t xs)
      ∧ (ClocksBehind t xs → NoCallPastKey K eventId t xs) := by
  intro K xs
  have htracks := h.tracks (ι := ι) K t
  have hcall : ∀ pre x post, xs = pre ++ x :: post → x.action = .position t →
      ((∃ φ ∈ Phase.of K t pre, φ.Owed K x.before.store.clock)
          ∧ x.reply = some (.ok (.position (.error (.unknownToken t))))
        ↔ InGap K eventId t x.before.store (Phase.of K t pre)
          ∨ PastKey K eventId t x.before.store (Phase.of K t pre)) := by
    intro pre x post htrace hx
    obtain ⟨as, bs, rfl, rfl, hys⟩ := Machine.trace_eq_append _ htrace
    obtain ⟨cs, rfl, hbefore, hreply, -⟩ := Machine.trace_eq_cons _ hys.symm
    rw [← hbefore, hx] at hreply
    rw [hreply, hbefore]
    exact (htracks.run rnd encode as).owed_unknown_iff rnd encode
  refine ⟨⟨fun hnever => ⟨?_, ?_⟩, ?_⟩, ?_⟩
  · intro pre x post htrace hx hgap
    obtain ⟨howed, hreply⟩ := (hcall pre x post htrace hx).mpr (Or.inl hgap)
    exact hnever pre x post htrace hx howed hreply
  · intro pre x post htrace hx hpast
    obtain ⟨howed, hreply⟩ := (hcall pre x post htrace hx).mpr (Or.inr hpast)
    exact hnever pre x post htrace hx howed hreply
  · rintro ⟨hgap, hpast⟩ pre x post htrace hx howed hreply
    rcases (hcall pre x post htrace hx).mp ⟨howed, hreply⟩ with hin | hin
    · exact hgap pre x post htrace hx hin
    · exact hpast pre x post htrace hx hin
  · rintro hclock pre x post htrace hx ⟨⟨e, d, hφ, howed, hlate⟩, -⟩
    obtain ⟨as, bs, rfl, rfl, hys⟩ := Machine.trace_eq_append _ htrace
    have htimely := htracks.timely_run rnd encode rfl (fun e d he => absurd he List.not_mem_nil) as
      (fun y hy => hclock y (htrace ▸ List.mem_append_left _ hy)) e d hφ
    have howed : x.before.store.clock < 1000 * e := howed
    omega

/-- A waiter joins, an admitter pops the batch, and the waiter asks before the
pass is parked. -/
theorem never_unknown_fails_in_gap :
    ¬ NeverUnknown (buildAdmissionController "secret" (by decide) 60) "a"
      ((AdmissionSystem id (buildAdmissionController "secret" (by decide) 60)
        (fun claims _ => claims.jti) "e").trace
          ⟨createdStore "e" ⟨60, 1, 5⟩, fun _ : Unit => .idle⟩
          [.join "a", .admitBatch () 0, .position "a"]) := by
  intro h
  refine h [_, _] _ [] rfl rfl ⟨.popped () 0, ?_, ?_⟩ ?_
  · decide +kernel
  · decide +kernel
  · decide +kernel

/-- A waiter is popped, joins again and is popped by a second admitter, and asks
once the first admitter has parked its pass. -/
theorem never_unknown_iff_of_two_placements :
    let K := buildAdmissionController "secret" (by decide) 60
    let xs := (AdmissionSystem id K (fun claims _ => claims.jti) "e").trace
      ⟨createdStore "e" ⟨60, 2, 5⟩, fun _ : Bool => .idle⟩
      [.join "a", .wait 500, .admitBatch false 500, .join "a", .admitBatch true 400,
        .sign false ["jti"], .park false, .position "a"]
    (NeverUnknown K "a" xs ↔ NoCallInGap K "e" "a" xs) ∧ Phase.of K "a" xs
      = [.parked 60 60500, .popped true 400] := by
  intro K xs
  obtain ⟨hiff, hpast⟩ := never_unknown_iff id (fun claims _ => claims.jti) "secret" (by decide) 60
    (fresh_createdStore "e" ⟨60, 2, 5⟩) "a" [.join "a", .wait 500, .admitBatch false 500,
      .join "a", .admitBatch true 400, .sign false ["jti"], .park false, .position "a"]
  refine ⟨hiff.trans (and_iff_left (hpast ?_)), ?_⟩
  · unfold ClocksBehind
    decide +kernel
  · decide +kernel
