import QueueFair.Accounting
import Mathlib.Algebra.Order.BigOperators.Group.List

/-!
# How many passes live at once

A pass that has not expired was signed for a placement popped less than a
lifetime ago: the seconds cut off the reading of the clock only bring its
`exp` forward. A placement is signed for once, by the tick that popped it.
So there are no more live passes than placements popped within the last
lifetime, and those the bucket bounds: the runs of the script within a
lifetime are a stretch of the history, over which it lets in at most a burst
and what the rate earns in that time (`live_passes_le`).
-/

open Redis FifoQueue RateBucket

variable {ι : Type} [DecidableEq ι]

namespace AdmitterVisit

variable {K : AdmissionController} {encode : PassClaims → String → String} {eventId : String}
  {x : AdmitterVisit ι}

/-! ## The calls of the script -/

/-- **A step runs the script or does not.** -/
theorem runs_script_or_not (rnd : ℚ → ℚ)
    (hx : x.reply = ((Admitters rnd K encode eventId).step x.before x.action).1) :
    (reading x = none ∧ pops eventId x = [] ∧ ∀ y ∈ call K x, y.action.nowMs = none)
      ∨ ∃ now reply, reading x = some now
        ∧ pops eventId x = poppedFrom eventId x.before.store reply
        ∧ call K x = some ⟨x.before.store, .admitBatch now, reply⟩
        ∧ reply = ((QueueService rnd eventId).step x.before.store (.admitBatch now)).1 := by
  obtain ⟨s, a, r⟩ := x
  dsimp only at hx ⊢
  unfold call
  dsimp only
  cases hop : a.op K s with
  | none =>
    rw [Admitters.step_of_none rnd encode hop] at hx
    rw [hx]
    refine Or.inl ⟨?_, ?_, fun y hy => nomatch hy⟩
    · cases a <;> rfl
    · cases a <;> rfl
  | some op =>
    rw [Admitters.step_of_op rnd encode hop] at hx
    rw [hx]
    have hquiet : op.nowMs = none →
        ∀ y ∈ some (Visit.mk s.store op ((QueueService rnd eventId).step s.store op).1),
          y.action.nowMs = none := by
      intro hop y hy
      rw [← Option.some.inj hy]
      exact hop
    cases Admitters.asks_of_op hop with
    | admitBatch now hidle => exact Or.inr ⟨now, _, rfl, rfl, rfl, rfl⟩
    | loseReply now hidle => exact Or.inr ⟨now, _, rfl, rfl, rfl, rfl⟩
    | _ => exact Or.inl ⟨rfl, rfl, hquiet rfl⟩

omit [DecidableEq ι] in
/-- A call meets the store its step met. -/
theorem before_of_call {y : Visit Store EventOp (Except Redis.Error Answer)}
    (h : call K x = some y) : y.before = x.before.store := by
  unfold call at h
  split at h
  · rw [← Option.some.inj h]
  · exact nomatch h

/-- The script runs at a reading exactly where a step calls it at that
reading. -/
theorem bind_call_nowMs (rnd : ℚ → ℚ)
    (hx : x.reply = ((Admitters rnd K encode eventId).step x.before x.action).1) :
    (call K x).bind (fun y => y.action.nowMs) = reading x := by
  obtain ⟨hreading, -, hcall⟩ | ⟨now, reply, hreading, -, hcall, -⟩ := runs_script_or_not rnd hx
  · rw [hreading]
    exact Option.bind_eq_none_iff.mpr hcall
  · rw [hreading, hcall]
    rfl

/-- Whom a call of the service lets in are the tokens of what is popped. -/
theorem call_admitted (rnd : ℚ → ℚ)
    (hx : x.reply = ((Admitters rnd K encode eventId).step x.before x.action).1)
    {v : EventState} (hv : Holds eventId x.before.store v) :
    (call K x).toList.flatMap Visit.admitted = (pops eventId x).map Prod.fst := by
  obtain ⟨-, hpops, hcall⟩ | ⟨now, reply, -, hpops, hcall, hreply⟩ := runs_script_or_not rnd hx
  · rw [hpops]
    refine List.flatMap_eq_nil_iff.mpr (fun y hy => ?_)
    exact Visit.admitted_of_not_tick (hcall y (Option.mem_toList.mp hy))
  · rw [hpops, hcall]
    show [_].flatMap Visit.admitted = _
    obtain ⟨σ', hrun, -⟩ := hv.serve rnd (.admitBatch now)
    rw [List.flatMap_singleton, hreply, hv.admitted_eq,
      show (QueueService rnd eventId).step x.before.store (.admitBatch now) = _ from hrun,
      (hv.poppedFrom_eq rnd now).1, (hv.poppedFrom_eq rnd now).2]

/-! ## What is signed, and what was popped -/

/-- The placement a step signs a pass for, with the reading its batch was
popped at. -/
def signs (x : AdmitterVisit ι) : List (Placement × ℤ) :=
  match x.action with
  | .issue i _ => (x.before.attempt i).unsigned.take 1
  | _ => []

/-- The pass a step issues. -/
def issued (K : AdmissionController) (encode : PassClaims → String → String)
    (eventId : String) (x : AdmitterVisit ι) : List IssuedPass :=
  match x.action with
  | .issue _ jti =>
    (signs x).map (fun z => K.issuer.issue encode eventId z.1.1 (z.2 / 1000) jti)
  | _ => []

/-- The placements a step pops, with the reading they are popped at. -/
def popsAt (eventId : String) (x : AdmitterVisit ι) : List (Placement × ℤ) :=
  (reading x).elim [] (fun now => (pops eventId x).map (fun p => (p, now)))

omit [DecidableEq ι] in
/-- A pass expires a lifetime after the second its batch was popped in. -/
theorem map_expiresAt_issued (K : AdmissionController) (encode : PassClaims → String → String)
    (eventId : String) (x : AdmitterVisit ι) :
    (issued K encode eventId x).map IssuedPass.expiresAt
      = (signs x).map (fun z => z.2 / 1000 + K.issuer.ttlSeconds) := by
  obtain ⟨s, a, r⟩ := x
  cases a with
  | issue i jti => exact List.map_map
  | _ => rfl

omit [DecidableEq ι] in
theorem length_popsAt_le (x : AdmitterVisit ι) :
    (popsAt eventId x).length ≤ (pops eventId x).length := by
  unfold popsAt
  cases reading x with
  | none => exact Nat.zero_le _
  | some now => exact (List.length_map _).le

omit [DecidableEq ι] in
theorem reading_of_mem_popsAt {z : Placement × ℤ} (h : z ∈ popsAt eventId x) :
    reading x = some z.2 := by
  unfold popsAt at h
  cases hreading : reading x with
  | none =>
    rw [hreading] at h
    exact absurd h List.not_mem_nil
  | some now =>
    rw [hreading, Option.elim_some] at h
    obtain ⟨p, -, rfl⟩ := List.mem_map.mp h
    rfl

omit [DecidableEq ι] in
theorem map_fst_popsAt_subset (x : AdmitterVisit ι) :
    (popsAt eventId x).map Prod.fst ⊆ pops eventId x := by
  unfold popsAt
  cases reading x with
  | none => exact List.nil_subset _
  | some now =>
    rw [Option.elim_some, List.map_map]
    show (pops eventId x).map id ⊆ _
    rw [List.map_id]
    exact List.Subset.refl _

end AdmitterVisit

namespace Attempt

variable {K : AdmissionController} {encode : PassClaims → String → String} {eventId : String}

@[simp] theorem unsigned_afterBatch (now : ℤ) (popped : List Placement) :
    (afterBatch now popped).unsigned = popped.map (fun p => (p, now)) := by
  cases popped <;> rfl

@[simp] theorem unsigned_issue (jti : String) (attempt : Attempt) :
    (attempt.issue K encode eventId jti).unsigned = attempt.unsigned.drop 1 := by
  unfold issue
  split
  · rfl
  · next h =>
    cases attempt with
    | issuing now signed rest =>
      cases rest with
      | nil => rfl
      | cons p rest => exact absurd rfl (h now signed p rest)
    | _ => rfl

@[simp] theorem unsigned_send (attempt : Attempt) : attempt.send.unsigned = attempt.unsigned := by
  unfold send
  split <;> rfl

@[simp] theorem unsigned_settle (n : ℕ) (attempt : Attempt) :
    (attempt.settle n).unsigned = attempt.unsigned := by
  cases attempt <;> rfl

@[simp] theorem unsigned_finish (attempt : Attempt) :
    attempt.finish.unsigned = attempt.unsigned := by
  unfold finish
  split <;> rfl

/-- What is not signed for is held. -/
theorem map_fst_unsigned_sublist (attempt : Attempt) :
    (attempt.unsigned.map Prod.fst).Sublist attempt.unsaved := by
  cases attempt with
  | issuing now signed rest =>
    show ((rest.map (fun p => (p, now))).map Prod.fst).Sublist (signed.map Prod.fst ++ rest)
    rw [List.map_map, show rest.map (Prod.fst ∘ fun p => (p, now)) = rest from List.map_id _]
    exact List.sublist_append_right _ _
  | _ => exact List.nil_sublist _

end Attempt

/-- **No placement is signed for twice.** What was signed for was popped, at
the reading it was signed with, and what is still to be signed for was popped
too and not signed for yet. -/
structure SignedOnce (eventId : String) (xs : List (AdmitterVisit ι)) (s : AdmitterState ι) :
    Prop where
  once : ((xs.flatMap AdmitterVisit.signs).map Prod.fst).Nodup
  popped : xs.flatMap AdmitterVisit.signs ⊆ xs.flatMap (AdmitterVisit.popsAt eventId)
  toSign : ∀ i, ∀ z ∈ (s.attempt i).unsigned, z ∈ xs.flatMap (AdmitterVisit.popsAt eventId)
    ∧ z.1 ∉ (xs.flatMap AdmitterVisit.signs).map Prod.fst

/-- What a tick has still to sign for after a step, it had before or has just
popped. -/
theorem Admitters.unsigned_step (rnd : ℚ → ℚ) {K : AdmissionController}
    (encode : PassClaims → String → String) {eventId : String} (s : AdmitterState ι)
    (a : AdmitterAct ι) (j : ι) {z : Placement × ℤ}
    (hz : z ∈ (((Admitters rnd K encode eventId).step s a).2.attempt j).unsigned) :
    z ∈ (s.attempt j).unsigned ∨ z ∈ AdmitterVisit.popsAt eventId
      ⟨s, a, ((Admitters rnd K encode eventId).step s a).1⟩ := by
  rw [Admitters.attempt_step] at hz
  generalize ((Admitters rnd K encode eventId).step s a).1 = r at hz ⊢
  have hupd : ∀ (i : ι) (attempt : Attempt),
      (∀ z ∈ attempt.unsigned, z ∈ (s.attempt i).unsigned
        ∨ z ∈ AdmitterVisit.popsAt eventId ⟨s, a, r⟩) →
      z ∈ (Function.update s.attempt i attempt j).unsigned →
      z ∈ (s.attempt j).unsigned ∨ z ∈ AdmitterVisit.popsAt eventId ⟨s, a, r⟩ := by
    intro i attempt hattempt hz
    by_cases hj : j = i
    · subst hj
      rw [Function.update_self] at hz
      exact hattempt z hz
    · rw [Function.update_of_ne hj] at hz
      exact Or.inl hz
  cases a with
  | admitBatch i now =>
    cases r with
    | none => exact Or.inl hz
    | some reply =>
      refine hupd i _ (fun z hz => Or.inr ?_) hz
      rwa [Attempt.unsigned_afterBatch] at hz
  | issue i jti =>
    refine hupd i _ (fun z hz => Or.inl ?_) hz
    rw [Attempt.unsigned_issue] at hz
    exact List.mem_of_mem_drop hz
  | send i => exact hupd i _ (fun z hz => Or.inl (Attempt.unsigned_send _ ▸ hz)) hz
  | finish i => exact hupd i _ (fun z hz => Or.inl (Attempt.unsigned_finish _ ▸ hz)) hz
  | fail i => exact hupd i _ (fun z hz => absurd hz List.not_mem_nil) hz
  | set i n =>
    cases r with
    | none => exact Or.inl hz
    | some reply =>
      cases reply with
      | error e => exact Or.inl hz
      | ok answer =>
        exact hupd i _ (fun z hz => Or.inl (Attempt.unsigned_settle n _ ▸ hz)) hz
  | _ => exact Or.inl hz

namespace SignedOnce

variable {K : AdmissionController} {encode : PassClaims → String → String} {eventId : String}
  {xs : List (AdmitterVisit ι)} {s s' : AdmitterState ι} {q q' : FifoQueue String}
  {x : AdmitterVisit ι}

omit [DecidableEq ι] in
/-- What was signed for was popped. -/
theorem subset_pops (h : SignedOnce eventId xs s) :
    (xs.flatMap AdmitterVisit.signs).map Prod.fst
      ⊆ xs.flatMap (AdmitterVisit.pops eventId) := by
  intro p hp
  obtain ⟨z, hz, rfl⟩ := List.mem_map.mp hp
  obtain ⟨y, hy, hzy⟩ := List.mem_flatMap.mp (h.popped hz)
  exact List.mem_flatMap.mpr ⟨y, hy, AdmitterVisit.map_fst_popsAt_subset y
    (List.mem_map_of_mem hzy)⟩

omit [DecidableEq ι] in
/-- Where nothing is signed. -/
theorem still (h : SignedOnce eventId xs s)
    (hq' : Accounts K encode eventId (xs ++ [x]) s' q')
    (hsigns : AdmitterVisit.signs x = [])
    (htoSign : ∀ j, ∀ z ∈ (s'.attempt j).unsigned,
      z ∈ (s.attempt j).unsigned ∨ z ∈ AdmitterVisit.popsAt eventId x) :
    SignedOnce eventId (xs ++ [x]) s' := by
  have hsame : (xs ++ [x]).flatMap AdmitterVisit.signs = xs.flatMap AdmitterVisit.signs := by
    rw [List.flatMap_append, List.flatMap_singleton, hsigns, List.append_nil]
  have hpops : (xs ++ [x]).flatMap (AdmitterVisit.popsAt eventId)
      = xs.flatMap (AdmitterVisit.popsAt eventId) ++ AdmitterVisit.popsAt eventId x := by
    rw [List.flatMap_append, List.flatMap_singleton]
  refine ⟨hsame ▸ h.once, ?_, fun j z hz => ?_⟩
  · rw [hsame, hpops]
    exact List.subset_append_of_subset_left _ h.popped
  rw [hsame, hpops, List.mem_append]
  obtain hz | hz := htoSign j z hz
  · exact ⟨Or.inl (h.toSign j z hz).1, (h.toSign j z hz).2⟩
  · -- what is popped now was never popped before
    have hnodup := (number_nodup q'.log).sublist (List.take_sublist q'.served _)
    rw [← hq'.popped, List.flatMap_append, List.flatMap_singleton, List.nodup_append] at hnodup
    refine ⟨Or.inr hz, fun hsigned => ?_⟩
    exact hnodup.2.2 z.1 (h.subset_pops hsigned) z.1
      (AdmitterVisit.map_fst_popsAt_subset x (List.mem_map_of_mem hz)) rfl

/-- The next placement of a batch is signed for. -/
theorem issue (h : SignedOnce eventId xs s) (hq : Accounts K encode eventId xs s q) (i : ι)
    (jti : String) :
    SignedOnce eventId (xs ++ [⟨s, .issue i jti, none⟩]) ⟨s.store,
      Function.update s.attempt i ((s.attempt i).issue K encode eventId jti)⟩ := by
  have hsigns : (xs ++ [Visit.mk s (AdmitterAct.issue i jti) none]).flatMap AdmitterVisit.signs
      = xs.flatMap AdmitterVisit.signs ++ (s.attempt i).unsigned.take 1 := by
    rw [List.flatMap_append, List.flatMap_singleton]
    rfl
  have hpops : (xs ++ [Visit.mk s (AdmitterAct.issue i jti) none]).flatMap
        (AdmitterVisit.popsAt eventId)
      = xs.flatMap (AdmitterVisit.popsAt eventId) := by
    rw [List.flatMap_append, List.flatMap_singleton]
    exact List.append_nil _
  have hnodup : ((s.attempt i).unsigned.map Prod.fst).Nodup :=
    (hq.inHand i).nodup.sublist (Attempt.map_fst_unsigned_sublist _)
  have htake : ∀ z ∈ (s.attempt i).unsigned.take 1, z ∈ (s.attempt i).unsigned :=
    fun z hz => List.mem_of_mem_take hz
  refine ⟨?_, ?_, fun j z hz => ?_⟩
  · rw [hsigns, List.map_append, List.nodup_append]
    refine ⟨h.once, hnodup.sublist ((List.take_sublist 1 _).map _), fun p hp p' hp' he => ?_⟩
    obtain ⟨z, hz, rfl⟩ := List.mem_map.mp hp'
    exact (h.toSign i z (htake z hz)).2 (he ▸ hp)
  · rw [hsigns, hpops]
    exact List.append_subset.mpr ⟨h.popped, fun z hz => (h.toSign i z (htake z hz)).1⟩
  · rw [hsigns, hpops, List.map_append, List.mem_append]
    dsimp only at hz
    by_cases hj : j = i
    · subst hj
      rw [Function.update_self, Attempt.unsigned_issue] at hz
      have hold := h.toSign j z (List.mem_of_mem_drop hz)
      refine ⟨hold.1, fun hsigned => hsigned.elim hold.2 (fun hnew => ?_)⟩
      rw [← List.take_append_drop 1 (s.attempt j).unsigned, List.map_append,
        List.nodup_append] at hnodup
      exact hnodup.2.2 z.1 hnew z.1 (List.mem_map_of_mem hz) rfl
    · rw [Function.update_of_ne hj] at hz
      have hold := h.toSign j z hz
      refine ⟨hold.1, fun hsigned => hsigned.elim hold.2 (fun hnew => hj ?_)⟩
      -- a placement is in the hands of one tick
      obtain ⟨z', hz', he⟩ := List.mem_map.mp hnew
      have hheld : ∀ {k : ι} {w : Placement × ℤ}, w ∈ (s.attempt k).unsigned →
          Lies eventId xs s (.held k) w.1 := fun hw =>
        (Attempt.map_fst_unsigned_sublist _).subset (List.mem_map_of_mem hw)
      exact Place.held.inj (hq.exclusive z.1 _ _ (hheld hz) (he ▸ hheld (htake z' hz')))

/-- **One step** signs for a placement not signed for yet, or for none. -/
theorem step (rnd : ℚ → ℚ) (h : SignedOnce eventId xs s) (hq : Accounts K encode eventId xs s q)
    (a : AdmitterAct ι) (hq' : Accounts K encode eventId
      (xs ++ [⟨s, a, ((Admitters rnd K encode eventId).step s a).1⟩])
      ((Admitters rnd K encode eventId).step s a).2 q') :
    SignedOnce eventId (xs ++ [⟨s, a, ((Admitters rnd K encode eventId).step s a).1⟩])
      ((Admitters rnd K encode eventId).step s a).2 := by
  have hstill : AdmitterVisit.signs ⟨s, a, ((Admitters rnd K encode eventId).step s a).1⟩ = [] →
      SignedOnce eventId (xs ++ [⟨s, a, ((Admitters rnd K encode eventId).step s a).1⟩])
        ((Admitters rnd K encode eventId).step s a).2 :=
    fun hsigns => h.still hq' hsigns (fun j z hz => Admitters.unsigned_step rnd encode s a j hz)
  cases a with
  | issue i jti => exact h.issue hq i jti
  | _ => exact hstill rfl

/-- **A whole run** signs for no placement twice. -/
theorem run (rnd : ℚ → ℚ) (K : AdmissionController) (encode : PassClaims → String → String)
    {c : QueueConfig} {σ : Store} (h : Fresh eventId σ c) (acts : List (AdmitterAct ι)) :
    SignedOnce eventId ((Admitters rnd K encode eventId).trace ⟨σ, fun _ => .idle⟩ acts)
      ((Admitters rnd K encode eventId).final ⟨σ, fun _ => .idle⟩ acts) := by
  have hrun := Machine.history_invariant (Admitters rnd K encode eventId)
    (P := fun xs (s : AdmitterState ι) => ∃ q, Accounts K encode eventId xs s q
      ∧ SignedOnce eventId xs s)
    (fun xs s a ⟨q, hq, hsigned⟩ => ?_) ⟨_, Accounts.opened h, ?_⟩ acts
  · obtain ⟨q, -, hsigned⟩ := hrun
    exact hsigned
  · obtain ⟨q', hq'⟩ := hq.step rnd a
    exact ⟨q', hq', hsigned.step rnd hq a hq'⟩
  · exact ⟨List.nodup_nil, List.nil_subset _, fun i z hz => absurd hz List.not_mem_nil⟩

end SignedOnce

/-! ## The last lifetime -/

/-- The readings above a bound are a stretch at the end of readings in
order. -/
theorem exists_window {α : Type} (f : α → Option ℤ) (θ : ℚ) {xs : List α}
    (h : (xs.filterMap f).Pairwise (· ≤ ·)) :
    ∃ pre win, xs = pre ++ win ∧ (∀ x ∈ pre, ∀ t ∈ f x, (t : ℚ) ≤ θ)
      ∧ ∀ x ∈ win, ∀ t ∈ f x, θ < (t : ℚ) := by
  induction xs with
  | nil => exact ⟨[], [], rfl, by simp, by simp⟩
  | cons x xs ih =>
    cases hx : f x with
    | none =>
      rw [List.filterMap_cons_none hx] at h
      obtain ⟨pre, win, rfl, hpre, hwin⟩ := ih h
      refine ⟨x :: pre, win, rfl, List.forall_mem_cons.mpr ⟨?_, hpre⟩, hwin⟩
      simp [hx]
    | some now =>
      rw [List.filterMap_cons_some hx] at h
      obtain ⟨hfirst, hrest⟩ := List.pairwise_cons.mp h
      by_cases hnow : θ < (now : ℚ)
      · refine ⟨[], x :: xs, rfl, by simp, List.forall_mem_cons.mpr ⟨by simpa [hx], ?_⟩⟩
        intro y hy t ht
        have hle : (now : ℚ) ≤ t := by
          exact_mod_cast hfirst t (List.mem_filterMap.mpr ⟨y, hy, ht⟩)
        exact hnow.trans_le hle
      · obtain ⟨pre, win, rfl, hpre, hwin⟩ := ih hrest
        exact ⟨x :: pre, win, rfl, List.forall_mem_cons.mpr ⟨by simpa [hx] using hnow, hpre⟩, hwin⟩

/-- `B` and `R` bound the bursts and the rates in force at the runs of the
script at readings above `θ`, and no batch limit in force at one is
negative. -/
def CeilingsAbove (eventId : String) (θ : ℚ) (B R : ℤ) (xs : List (AdmitterVisit ι)) : Prop :=
  ∀ x ∈ xs, ∀ now ∈ AdmitterVisit.reading x, θ < (now : ℚ) →
    ∀ c, Configured eventId x.before.store c → c.burst ≤ B ∧ c.ratePerMin ≤ R ∧ 0 ≤ c.batchMax

/-- Where nobody rewrites the configuration, it bounds itself. -/
theorem CeilingsAbove.of_unchanged {K : AdmissionController}
    {encode : PassClaims → String → String} {eventId : String} {σ : Store} {c : QueueConfig}
    (h : Fresh eventId σ c) (hm : 0 ≤ c.batchMax) {acts : List (AdmitterAct ι)}
    (hacts : ∀ a ∈ acts, ∀ c', a ≠ .configure c') (θ : ℚ) :
    CeilingsAbove eventId θ c.burst c.ratePerMin
      ((Admitters id K encode eventId).trace ⟨σ, fun _ => .idle⟩ acts) := by
  intro x hx now _ _ c' hconf
  obtain ⟨passes, hv⟩ := h.holds
  have hinv := Machine.trace_invariant (Admitters id K encode eventId)
    (P := fun s : AdmitterState ι => ∃ v, Holds eventId s.store v ∧ v.config = some c)
    (fun s a ha hs => ?_) ⟨_, hv, rfl⟩ x hx
  · obtain ⟨v, hv, hc⟩ := hinv
    obtain rfl : c' = c := Option.some.inj ((hv.configured_iff.mp hconf).symm.trans hc)
    exact ⟨le_rfl, le_rfl, hm⟩
  · obtain ⟨v, hv, hc⟩ := hs
    cases hop : a.op K s with
    | none =>
      rw [Admitters.step_of_none id encode hop]
      exact ⟨v, hv, hc⟩
    | some op =>
      obtain ⟨σ', hσ', hstep⟩ := Admitters.step_of_some id encode hv hop
      rw [hstep]
      refine ⟨_, hσ', (EventState.config_of_not_configure id eventId op ?_).trans hc⟩
      rintro c' rfl
      exact hacts a ha c' (Admitters.eq_configure_of_op hop)

/-- **What a stretch of a run pops**: the burst, and the climb of its readings
at the rate. -/
theorem Accounts.length_pops_trace_le {K : AdmissionController}
    {encode : PassClaims → String → String} {eventId : String} {σ : Store} {c : QueueConfig}
    (h : Fresh eventId σ c) (acts acts' : List (AdmitterAct ι)) {B R : ℤ} (hB : 0 ≤ B)
    (hR : 0 ≤ R) {win : List (AdmitterVisit ι)}
    (hwin : win = (Admitters id K encode eventId).trace
      ((Admitters id K encode eventId).final ⟨σ, fun _ => .idle⟩ acts) acts')
    (hcfg : ∀ x ∈ win, ∀ now ∈ AdmitterVisit.reading x,
      ∀ c, Configured eventId x.before.store c →
        c.burst ≤ B ∧ c.ratePerMin ≤ R ∧ 0 ≤ c.batchMax) :
    ((win.flatMap (AdmitterVisit.pops eventId)).length : ℚ)
      ≤ B + R * (climb (win.filterMap AdmitterVisit.reading) : ℤ) / 60000 := by
  obtain ⟨ops, -, -, hfinal⟩ := Admitters.trace_call id encode K eventId
    (AdmitterState.mk σ (fun _ : ι => .idle)) acts
  obtain ⟨ops', hreset, htrace, -⟩ := Admitters.trace_call id encode K eventId
    ((Admitters id K encode eventId).final ⟨σ, fun _ => .idle⟩ acts) acts'
  rw [← hwin] at htrace
  obtain ⟨v, hv, hbank⟩ := Reachable.holds_banked ⟨σ, c, ops, h, hfinal⟩
  have hvisit : ∀ x ∈ win, (∃ v, Holds eventId x.before.store v)
      ∧ x.reply = ((Admitters id K encode eventId).step x.before x.action).1 := by
    intro x hx
    obtain ⟨pre, post, rfl⟩ := List.append_of_mem hx
    have hsplit : (Admitters id K encode eventId).trace ⟨σ, fun _ => .idle⟩ (acts ++ acts')
        = ((Admitters id K encode eventId).trace ⟨σ, fun _ => .idle⟩ acts ++ pre)
          ++ x :: post := by
      rw [Machine.trace_append, ← hwin, List.append_assoc]
    obtain ⟨⟨q, hq⟩, hreply⟩ := Accounts.of_visit id h hsplit
    obtain ⟨v, hv, -⟩ := hq.line
    exact ⟨⟨v, hv⟩, hreply⟩
  have hpops : ((win.filterMap (AdmitterVisit.call K)).flatMap Visit.admitted).length
      = (win.flatMap (AdmitterVisit.pops eventId)).length := by
    rw [List.filterMap_eq_flatMap_toList, List.flatMap_assoc, List.length_flatMap,
      List.length_flatMap]
    refine congrArg List.sum (List.map_congr_left (fun x hx => ?_))
    obtain ⟨⟨v, hv⟩, hreply⟩ := hvisit x hx
    rw [AdmitterVisit.call_admitted id hreply hv, List.length_map]
  have hreadings : ops'.filterMap EventOp.nowMs = win.filterMap AdmitterVisit.reading := by
    rw [← Machine.map_action_trace (QueueService id eventId) _ ops', ← htrace, List.filterMap_map,
      List.filterMap_filterMap]
    exact List.filterMap_congr (fun x hx => AdmitterVisit.bind_call_nowMs id (hvisit x hx).2)
  rw [← hpops, htrace, ← hreadings]
  refine hv.admitted_le hbank hB hR hreset ?_
  rw [← htrace]
  intro y hy now c' hact hconf
  obtain ⟨x, hx, hcall⟩ := List.mem_filterMap.mp hy
  have hreading := AdmitterVisit.bind_call_nowMs id (hvisit x hx).2
  rw [hcall, Option.bind_some, hact] at hreading
  refine hcfg x hx now hreading.symm c' ?_
  rw [← AdmitterVisit.before_of_call hcall]
  exact hconf

omit [DecidableEq ι] in
/-- **A live pass was signed for a placement popped less than a lifetime
ago**, and no two for one placement. -/
theorem SignedOnce.countP_live_le {eventId : String} {xs : List (AdmitterVisit ι)}
    {s : AdmitterState ι} (h : SignedOnce eventId xs s) (K : AdmissionController)
    (encode : PassClaims → String → String) (T : ℚ) :
    (xs.flatMap (AdmitterVisit.issued K encode eventId)).countP
        (fun p => T / 1000 < (p.expiresAt : ℚ))
      ≤ (xs.flatMap (AdmitterVisit.popsAt eventId)).countP
        (fun z => T - 1000 * K.issuer.ttlSeconds < (z.2 : ℚ)) := by
  have hexp : (xs.flatMap (AdmitterVisit.issued K encode eventId)).map IssuedPass.expiresAt
      = (xs.flatMap AdmitterVisit.signs).map (fun z => z.2 / 1000 + K.issuer.ttlSeconds) := by
    rw [List.map_flatMap, List.map_flatMap]
    exact congrArg xs.flatMap (funext (AdmitterVisit.map_expiresAt_issued K encode eventId))
  calc (xs.flatMap (AdmitterVisit.issued K encode eventId)).countP
        (fun p => T / 1000 < (p.expiresAt : ℚ))
      = ((xs.flatMap (AdmitterVisit.issued K encode eventId)).map IssuedPass.expiresAt).countP
        (fun e : ℤ => T / 1000 < (e : ℚ)) := by
          rw [List.countP_map]
          rfl
    _ = (xs.flatMap AdmitterVisit.signs).countP
        (fun z => T / 1000 < ((z.2 / 1000 + K.issuer.ttlSeconds : ℤ) : ℚ)) := by
          rw [hexp, List.countP_map]
          rfl
    _ ≤ (xs.flatMap AdmitterVisit.signs).countP
        (fun z => T - 1000 * K.issuer.ttlSeconds < (z.2 : ℚ)) := by
          refine List.countP_mono_left (fun z _ hz => ?_)
          rw [decide_eq_true_eq] at hz ⊢
          -- the second begins no later than the reading
          have hsecond : ((1000 * (z.2 / 1000) : ℤ) : ℚ) ≤ z.2 := by
            exact_mod_cast (by omega : 1000 * (z.2 / 1000) ≤ z.2)
          push_cast at hz hsecond
          linarith
    _ ≤ (xs.flatMap (AdmitterVisit.popsAt eventId)).countP
        (fun z => T - 1000 * K.issuer.ttlSeconds < (z.2 : ℚ)) :=
          (List.subperm_of_subset (h.once.of_map _) h.popped).countP_le _

omit [DecidableEq ι] in
/-- What was popped at a reading above a bound was popped in the stretch of
the readings above it. -/
theorem countP_popsAt_le (eventId : String) {θ : ℚ} {pre win : List (AdmitterVisit ι)}
    (hpre : ∀ x ∈ pre, ∀ t ∈ AdmitterVisit.reading x, (t : ℚ) ≤ θ) :
    ((pre ++ win).flatMap (AdmitterVisit.popsAt eventId)).countP (fun z => θ < (z.2 : ℚ))
      ≤ (win.flatMap (AdmitterVisit.pops eventId)).length := by
  have hzero : (pre.flatMap (AdmitterVisit.popsAt eventId)).countP (fun z => θ < (z.2 : ℚ))
      = 0 := by
    refine List.countP_eq_zero.mpr (fun z hz => ?_)
    obtain ⟨x, hx, hzx⟩ := List.mem_flatMap.mp hz
    rw [decide_eq_true_eq]
    exact not_lt.mpr (hpre x hx _ (AdmitterVisit.reading_of_mem_popsAt hzx))
  rw [List.flatMap_append, List.countP_append, hzero, Nat.zero_add]
  refine List.countP_le_length.trans ?_
  rw [List.length_flatMap, List.length_flatMap]
  exact List.sum_le_sum (fun x _ => AdmitterVisit.length_popsAt_le x)

/-- **No stampede of live passes.** Take any run of joins, position calls,
rewrites of the configuration and admitters, any of whose ticks may fail, and
whose clocks read no earlier from one run of the script to the next. At any
instant `T` from the last reading on, the passes issued and not expired
number at most the burst and what the rate earns in a lifetime, for the
largest burst and the largest rate in force at the runs of the script within
the last lifetime. -/
theorem live_passes_le (encode : PassClaims → String → String) (secret : String)
    (hsecret : secret ≠ "") {ttlSeconds : ℤ} (httl : 0 < ttlSeconds) {eventId : String}
    {σ : Store} {c : QueueConfig} (h : Fresh eventId σ c) (acts : List (AdmitterAct ι))
    (hsorted : (((Admitters id (buildAdmissionController secret hsecret ttlSeconds) encode
      eventId).trace ⟨σ, fun _ => .idle⟩ acts).filterMap AdmitterVisit.reading).Pairwise (· ≤ ·))
    {T : ℚ} (hT : ∀ t ∈ ((Admitters id (buildAdmissionController secret hsecret ttlSeconds) encode
      eventId).trace ⟨σ, fun _ => .idle⟩ acts).filterMap AdmitterVisit.reading, (t : ℚ) ≤ T)
    {B R : ℤ} (hB : 0 ≤ B) (hR : 0 ≤ R)
    (hcfg : CeilingsAbove eventId (T - 1000 * ttlSeconds) B R
      ((Admitters id (buildAdmissionController secret hsecret ttlSeconds) encode eventId).trace
        ⟨σ, fun _ => .idle⟩ acts)) :
    (((((Admitters id (buildAdmissionController secret hsecret ttlSeconds) encode eventId).trace
        ⟨σ, fun _ => .idle⟩ acts).flatMap
          (AdmitterVisit.issued (buildAdmissionController secret hsecret ttlSeconds) encode
            eventId)).countP (fun p => T / 1000 < (p.expiresAt : ℚ)) : ℕ) : ℚ)
      ≤ B + R * ttlSeconds / 60 := by
  have hsigned := SignedOnce.run id (buildAdmissionController secret hsecret ttlSeconds) encode
    h acts
  obtain ⟨pre, win, htrace, hpre, hwin⟩ :=
    exists_window AdmitterVisit.reading (T - 1000 * ttlSeconds) hsorted
  obtain ⟨as, bs, rfl, -, hbs⟩ := Machine.trace_eq_append _ htrace
  have hrate := Accounts.length_pops_trace_le h as bs hB hR hbs (fun x hx now hnow c' hc' => by
    exact hcfg x (htrace ▸ List.mem_append_right _ hx) now hnow (hwin x hx now hnow) c' hc')
  have hcount : (((Admitters id (buildAdmissionController secret hsecret ttlSeconds) encode
      eventId).trace ⟨σ, fun _ => .idle⟩ (as ++ bs)).flatMap (AdmitterVisit.issued
        (buildAdmissionController secret hsecret ttlSeconds) encode eventId)).countP
          (fun p => T / 1000 < (p.expiresAt : ℚ))
      ≤ (win.flatMap (AdmitterVisit.pops eventId)).length := by
    refine (hsigned.countP_live_le (buildAdmissionController secret hsecret ttlSeconds) encode
      T).trans ?_
    rw [htrace]
    exact countP_popsAt_le eventId hpre
  have hclimb : ((climb (win.filterMap AdmitterVisit.reading) : ℤ) : ℚ) ≤ 1000 * ttlSeconds := by
    have hlast : ∀ t ∈ win.filterMap AdmitterVisit.reading, (t : ℚ) ≤ T := by
      intro t ht
      refine hT t ?_
      rw [htrace, List.filterMap_append]
      exact List.mem_append_right _ ht
    rw [← climb_map_cast]
    refine (climb_le_of_pairwise (a := T - 1000 * ttlSeconds) (b := T) ?_ ?_ ?_).trans ?_
    · have : (0 : ℚ) ≤ ttlSeconds := by exact_mod_cast httl.le
      linarith
    · rw [htrace, List.filterMap_append] at hsorted
      exact (List.pairwise_append.mp hsorted).2.1.map _ (fun a b hab => by exact_mod_cast hab)
    · intro t ht
      obtain ⟨u, hu, rfl⟩ := List.mem_map.mp ht
      obtain ⟨x, hx, hux⟩ := List.mem_filterMap.mp hu
      exact ⟨(hwin x hx u hux).le, hlast u hu⟩
    · exact (sub_sub_cancel _ _).le
  have hspan : (R : ℚ) * (climb (win.filterMap AdmitterVisit.reading) : ℤ) / 60000
      ≤ R * ttlSeconds / 60 := by
    have hR' : (0 : ℚ) ≤ R := by exact_mod_cast hR
    have := mul_le_mul_of_nonneg_left hclimb hR'
    linarith
  calc _ ≤ ((win.flatMap (AdmitterVisit.pops eventId)).length : ℚ) := by exact_mod_cast hcount
    _ ≤ B + R * (climb (win.filterMap AdmitterVisit.reading) : ℤ) / 60000 := hrate
    _ ≤ B + R * ttlSeconds / 60 := by linarith

/-- Two passes of one batch, popped half a second into a second, in the last
millisecond of their life. -/
theorem live_passes_le_of_one_batch :
    (((((Admitters id (buildAdmissionController "secret" (by decide) 60)
        (fun claims _ => claims.jti) "e").trace
          ⟨createdStore "e" ⟨60, 2, 5⟩, fun _ : Unit => .idle⟩
          [.join "a", .join "b", .join "c", .admitBatch () 500, .issue () "j",
            .issue () "k"]).flatMap (AdmitterVisit.issued
              (buildAdmissionController "secret" (by decide) 60) (fun claims _ => claims.jti)
              "e")).countP (fun p => (59999 : ℚ) / 1000 < (p.expiresAt : ℚ)) : ℕ) : ℚ)
      ≤ (2 : ℤ) + (60 : ℤ) * (60 : ℤ) / 60 := by
  refine live_passes_le (fun claims _ => claims.jti) "secret" (by decide) (by decide)
    (fresh_createdStore "e" ⟨60, 2, 5⟩) _ (by decide +kernel) (by decide +kernel) (by decide)
    (by decide) ?_
  exact CeilingsAbove.of_unchanged (fresh_createdStore "e" ⟨60, 2, 5⟩) (by decide) (by simp) _
