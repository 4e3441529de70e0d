import QueueFair.Admitters
import QueueFair.Custody
import QueueFair.RateLimit

/-!
# What becomes of a placement

A tick that fails leaves waiters behind: popped, and with no pass. How many,
and which, is a matter of what was popped and what was stored, whatever the
point at which the tick failed.

Every placement is followed from the join that made it. It is in the queue;
or it is held by a tick in progress, that popped it and has not stored its
pass; or its pass was stored by some step of the history; or it was stranded
by some step, a failure. A step moves placements from one of these places to
another, and it moves them all from one place to one place, so nothing is
lost sight of and nothing is in two places (`Accounts.step`). The rest is
bookkeeping of one tick: what it holds is what it popped, less what it
stored.
-/

open Redis FifoQueue

variable {ι : Type} [DecidableEq ι]

/-! ## Where a placement lies -/

/-- Where a placement may lie. -/
inductive Place (ι : Type) where
  | queued
  /-- Held by a tick in progress. -/
  | held (i : ι)
  /-- Stored, by the `k`-th step of the history. -/
  | stored (k : ℕ)
  /-- Stranded, by the `k`-th step of the history. -/
  | stranded (k : ℕ)

/-- **Where a placement lies**, after a history. -/
def Lies (eventId : String) (xs : List (AdmitterVisit ι)) (s : AdmitterState ι) :
    Place ι → Placement → Prop
  | .queued, p => p ∈ waiters eventId s.store
  | .held i, p => p ∈ (s.attempt i).unsaved
  | .stored k, p => ∃ x, xs[k]? = some x ∧ p ∈ AdmitterVisit.stores x
  | .stranded k, p => ∃ x, xs[k]? = some x ∧ p ∈ AdmitterVisit.strands eventId x

/-- Whatever a history did, it did before its last step or at it. -/
theorem exists_getElem?_concat {α β : Type} (S : α → List β) (xs : List α) (x : α) (k : ℕ)
    (p : β) :
    (∃ y, (xs ++ [x])[k]? = some y ∧ p ∈ S y)
      ↔ (∃ y, xs[k]? = some y ∧ p ∈ S y) ∨ (k = xs.length ∧ p ∈ S x) := by
  by_cases hk : k < xs.length
  · rw [List.getElem?_append_left hk]
    exact (or_iff_left (fun h => hk.ne h.1)).symm
  · rw [List.getElem?_append_right (not_lt.mp hk), List.getElem?_eq_none (not_lt.mp hk)]
    by_cases he : k = xs.length
    · simp [he]
    · rw [List.getElem?_eq_none (by rw [List.length_singleton]; omega)]
      simp [he]

namespace Lies

variable {eventId : String} {xs : List (AdmitterVisit ι)} {s s' : AdmitterState ι}
  {x : AdmitterVisit ι} {k : ℕ} {p : Placement}

omit [DecidableEq ι] in
theorem stored_concat : Lies eventId (xs ++ [x]) s' (.stored k) p
    ↔ Lies eventId xs s (.stored k) p ∨ (k = xs.length ∧ p ∈ AdmitterVisit.stores x) :=
  exists_getElem?_concat AdmitterVisit.stores xs x k p

omit [DecidableEq ι] in
theorem stranded_concat : Lies eventId (xs ++ [x]) s' (.stranded k) p
    ↔ Lies eventId xs s (.stranded k) p
      ∨ (k = xs.length ∧ p ∈ AdmitterVisit.strands eventId x) :=
  exists_getElem?_concat (AdmitterVisit.strands eventId) xs x k p

end Lies

/-! ## The books of one tick -/

/-- **The books of one tick.** Its signed passes name the token they are for
and the event; its batch was popped by a step of the history; and what it
holds is of its batch, of which the rest was stored. -/
structure InHand (K : AdmissionController) (encode : PassClaims → String → String)
    (eventId : String) (xs : List (AdmitterVisit ι)) (i : ι) (attempt : Attempt) : Prop where
  signed : ∀ p ∈ attempt.signed, ∃ now jti,
    p.2 = K.issuer.issue encode eventId p.1.1 (now / 1000) jti
  popped : attempt = .idle ∨ ∃ y ∈ xs, (∃ now, y.action = .admitBatch i now)
    ∧ AdmitterVisit.pops eventId y = attempt.batch
  nodup : attempt.unsaved.Nodup
  unsaved : attempt.unsaved.Sublist attempt.batch
  saved : ∀ p ∈ attempt.batch, p ∈ attempt.unsaved ∨ ∃ y ∈ xs, p ∈ AdmitterVisit.stores y

namespace InHand

variable {K : AdmissionController} {encode : PassClaims → String → String} {eventId : String}
  {xs : List (AdmitterVisit ι)} {i : ι} {attempt : Attempt}

omit [DecidableEq ι] in
theorem mono (h : InHand K encode eventId xs i attempt) {ys : List (AdmitterVisit ι)}
    (hsub : xs ⊆ ys) : InHand K encode eventId ys i attempt where
  signed := h.signed
  popped := h.popped.imp_right (fun ⟨y, hy, hpop⟩ => ⟨y, hsub hy, hpop⟩)
  nodup := h.nodup
  unsaved := h.unsaved
  saved p hp := (h.saved p hp).imp_right (fun ⟨y, hy, hs⟩ => ⟨y, hsub hy, hs⟩)

omit [DecidableEq ι] in
theorem idle : InHand K encode eventId xs i .idle where
  signed _ hp := absurd hp List.not_mem_nil
  popped := Or.inl rfl
  nodup := List.nodup_nil
  unsaved := List.Sublist.refl _
  saved _ hp := Or.inl hp

omit [DecidableEq ι] in
/-- A batch popped just now is held whole. -/
theorem afterBatch {y : AdmitterVisit ι} (hy : y ∈ xs) {now : ℤ}
    (hact : y.action = .admitBatch i now) {popped : List Placement}
    (hpops : AdmitterVisit.pops eventId y = popped) (hnodup : popped.Nodup) :
    InHand K encode eventId xs i (.afterBatch now popped) := by
  cases popped with
  | nil => exact idle
  | cons p rest =>
    exact ⟨fun q hq => absurd hq List.not_mem_nil, Or.inr ⟨y, hy, ⟨now, hact⟩, hpops⟩, hnodup,
      List.Sublist.refl _, fun q hq => Or.inl hq⟩

omit [DecidableEq ι] in
theorem issue (h : InHand K encode eventId xs i attempt) (jti : String) :
    InHand K encode eventId xs i (attempt.issue K encode eventId jti) := by
  unfold Attempt.issue
  split
  · next now signed p rest =>
    have hbatch : (Attempt.issuing now
        (signed ++ [(p, K.issuer.issue encode eventId p.1 (now / 1000) jti)]) rest).batch
          = (Attempt.issuing now signed (p :: rest)).batch := by
      show List.map Prod.fst (signed ++ [_]) ++ rest = signed.map Prod.fst ++ p :: rest
      rw [List.map_append, List.append_assoc]
      rfl
    refine ⟨fun q hq => ?_, Or.inr ?_, ?_, List.Sublist.refl _, fun q hq => Or.inl hq⟩
    · rcases List.mem_append.mp hq with hq | hq
      · exact h.signed q hq
      · rw [List.mem_singleton.mp hq]
        exact ⟨now, jti, rfl⟩
    · obtain ⟨y, hy, hact, hpops⟩ := h.popped.resolve_left (by simp)
      exact ⟨y, hy, hact, hpops.trans hbatch.symm⟩
    · have hnodup := h.nodup
      rwa [show (Attempt.issuing now signed (p :: rest)).unsaved = _ from hbatch.symm] at hnodup
  · exact h

omit [DecidableEq ι] in
theorem send (h : InHand K encode eventId xs i attempt) :
    InHand K encode eventId xs i attempt.send := by
  unfold Attempt.send
  split
  · next now signed =>
    have hbatch : (Attempt.issuing now signed []).batch = signed.map Prod.fst :=
      List.append_nil _
    refine ⟨h.signed, Or.inr ?_, ?_, List.Sublist.refl _, fun q hq => Or.inl hq⟩
    · obtain ⟨y, hy, hact, hpops⟩ := h.popped.resolve_left (by simp)
      exact ⟨y, hy, hact, hpops.trans hbatch⟩
    · show (signed.map Prod.fst).Nodup
      rw [← hbatch]
      exact h.nodup
  · exact h

omit [DecidableEq ι] in
theorem finish (h : InHand K encode eventId xs i attempt) :
    InHand K encode eventId xs i attempt.finish := by
  unfold Attempt.finish
  split
  · exact idle
  · exact h

end InHand

/-- What is left of a list of different things once the `n`-th is gone. -/
theorem List.Nodup.mem_eraseIdx_iff {α : Type} {l : List α} (h : l.Nodup) {n : ℕ} {a : α}
    (hn : l[n]? = some a) {b : α} : b ∈ l.eraseIdx n ↔ b ∈ l ∧ b ≠ a := by
  obtain ⟨hlt, rfl⟩ := List.getElem?_eq_some_iff.mp hn
  have hperm := List.getElem_cons_eraseIdx_perm hlt
  have hnot := (List.nodup_cons.mp (hperm.nodup_iff.mpr h)).1
  rw [← hperm.mem_iff, List.mem_cons]
  constructor
  · exact fun hb => ⟨Or.inr hb, fun he => hnot (he ▸ hb)⟩
  · exact fun hb => hb.1.resolve_left hb.2

namespace Attempt

/-- Signing, sending and returning hold on to what is held. -/
@[simp] theorem unsaved_afterBatch (nowMs : ℤ) (popped : List Placement) :
    (afterBatch nowMs popped).unsaved = popped := by
  cases popped <;> rfl

@[simp] theorem unsaved_issue (K : AdmissionController) (encode : PassClaims → String → String)
    (eventId jti : String) (attempt : Attempt) :
    (attempt.issue K encode eventId jti).unsaved = attempt.unsaved := by
  unfold issue
  split
  · show List.map Prod.fst (_ ++ [_]) ++ _ = List.map Prod.fst _ ++ _ :: _
    rw [List.map_append, List.append_assoc]
    rfl
  · rfl

@[simp] theorem unsaved_send (attempt : Attempt) : attempt.send.unsaved = attempt.unsaved := by
  unfold send
  split
  · exact (List.append_nil _).symm
  · rfl

@[simp] theorem unsaved_finish (attempt : Attempt) :
    attempt.finish.unsaved = attempt.unsaved := by
  unfold finish
  split <;> rfl

/-- A SET in flight is one of a pipeline. -/
theorem exists_recording {attempt : Attempt} {n : ℕ} {p : Placement × IssuedPass}
    (h : attempt.pending[n]? = some p) :
    ∃ batch pending, attempt = .recording batch pending ∧ pending[n]? = some p := by
  cases attempt with
  | recording batch pending => exact ⟨batch, pending, rfl, h⟩
  | _ => exact absurd h (by simp [pending])

/-- A SET that is answered settles the placement its pass is for. -/
theorem mem_unsaved_settle {attempt : Attempt} {n : ℕ} {p : Placement × IssuedPass}
    (h : attempt.pending[n]? = some p) (hnodup : attempt.unsaved.Nodup) :
    p.1 ∈ attempt.unsaved
      ∧ ∀ q, q ∈ (attempt.settle n).unsaved ↔ q ∈ attempt.unsaved ∧ q ≠ p.1 := by
  obtain ⟨batch, pending, rfl, hn⟩ := exists_recording h
  have hget : (pending.map Prod.fst)[n]? = some p.1 := by rw [List.getElem?_map, hn]; rfl
  refine ⟨List.mem_of_getElem? hget, fun q => ?_⟩
  show q ∈ (pending.eraseIdx n).map Prod.fst ↔ q ∈ pending.map Prod.fst ∧ q ≠ p.1
  rw [← List.eraseIdx_map]
  exact List.Nodup.mem_eraseIdx_iff hnodup hget

end Attempt

omit [DecidableEq ι] in
/-- A SET that is answered is entered in the books of its tick. -/
theorem InHand.settle {K : AdmissionController} {encode : PassClaims → String → String}
    {eventId : String} {xs : List (AdmitterVisit ι)} {i : ι} {attempt : Attempt}
    (h : InHand K encode eventId xs i attempt) {n : ℕ} {p : Placement × IssuedPass}
    (hn : attempt.pending[n]? = some p) {y : AdmitterVisit ι} (hy : y ∈ xs)
    (hstores : p.1 ∈ AdmitterVisit.stores y) :
    InHand K encode eventId xs i (attempt.settle n) := by
  obtain ⟨-, hmem⟩ := Attempt.mem_unsaved_settle hn h.nodup
  obtain ⟨batch, pending, rfl, -⟩ := Attempt.exists_recording hn
  have hsub : (pending.eraseIdx n).Sublist pending := List.eraseIdx_sublist _ n
  refine ⟨fun q hq => h.signed q (hsub.subset hq), h.popped.imp_left (fun he => nomatch he),
    h.nodup.sublist (hsub.map _), (hsub.map _).trans h.unsaved, fun q hq => ?_⟩
  rcases h.saved q hq with hq | hq
  · by_cases hqp : q = p.1
    · exact Or.inr ⟨y, hy, hqp ▸ hstores⟩
    · exact Or.inl ((hmem q).mpr ⟨hq, hqp⟩)
  · exact Or.inr hq

/-! ## The books of the service -/

/-- **The books of the service**: the store is the queue `q`, which was joined
and popped as the history says, every placement lies somewhere and in one
place, and the books of every tick are in order. -/
structure Accounts (K : AdmissionController) (encode : PassClaims → String → String)
    (eventId : String) (xs : List (AdmitterVisit ι)) (s : AdmitterState ι)
    (q : FifoQueue String) : Prop where
  line : ∃ v, Holds eventId s.store v ∧ v.Lines q
  joined : xs.flatMap AdmitterVisit.joined = number q.log
  popped : xs.flatMap (AdmitterVisit.pops eventId) = (number q.log).take q.served
  placed : ∀ p, p ∈ number q.log ↔ ∃ f, Lies eventId xs s f p
  exclusive : Exclusive (Lies eventId xs s)
  inHand : ∀ i, InHand K encode eventId xs i (s.attempt i)

namespace Accounts

variable {K : AdmissionController} {encode : PassClaims → String → String} {eventId : String}
  {xs : List (AdmitterVisit ι)} {s s' : AdmitterState ι} {q q' : FifoQueue String}
  {x : AdmitterVisit ι}

omit [DecidableEq ι] in
theorem waiters_eq (h : ∃ v, Holds eventId s.store v ∧ v.Lines q) :
    waiters eventId s.store = q.line := by
  obtain ⟨v, hv, hq⟩ := h
  rw [hv.waiters_eq, hq.queue]

omit [DecidableEq ι] in
/-- **A step moves placements from place to place**, and newcomers to the
queue. -/
theorem transfer (h : Accounts K encode eventId xs s q)
    (hline : ∃ v, Holds eventId s'.store v ∧ v.Lines q')
    (hjoined : number q'.log = number q.log ++ AdmitterVisit.joined x)
    (hpopped : (number q'.log).take q'.served
      = (number q.log).take q.served ++ AdmitterVisit.pops eventId x)
    {M : Placement → Prop} {b : Place ι}
    (ht : Transfer (Lies eventId xs s) (Lies eventId (xs ++ [x]) s') M b)
    (hM : ∀ p, p ∈ AdmitterVisit.joined x → M p)
    (hM' : ∀ p, M p → p ∈ number q'.log)
    (hin : ∀ i, InHand K encode eventId (xs ++ [x]) i (s'.attempt i)) :
    Accounts K encode eventId (xs ++ [x]) s' q' where
  line := hline
  joined := by
    rw [List.flatMap_append, h.joined, hjoined]
    exact congrArg (number q.log ++ ·) (List.append_nil _)
  popped := by
    rw [List.flatMap_append, h.popped, hpopped]
    exact congrArg ((number q.log).take q.served ++ ·) (List.append_nil _)
  placed p := by
    rw [ht.exists_iff, ← h.placed]
    constructor
    · intro hp
      rw [hjoined] at hp
      exact (List.mem_append.mp hp).elim Or.inr (fun hp => Or.inl (hM p hp))
    · rintro (hp | hp)
      · exact hM' p hp
      · rw [hjoined]
        exact List.mem_append_left _ hp
  exclusive := ht.exclusive h.exclusive
  inHand := hin

omit [DecidableEq ι] in
/-- Where nobody's placement moves. -/
theorem still (h : Accounts K encode eventId xs s q)
    (hline : ∃ v, Holds eventId s'.store v ∧ v.Lines q)
    (hheld : ∀ i, (s'.attempt i).unsaved = (s.attempt i).unsaved)
    (hjoined : AdmitterVisit.joined x = []) (hpops : AdmitterVisit.pops eventId x = [])
    (hstores : AdmitterVisit.stores x = []) (hstrands : AdmitterVisit.strands eventId x = [])
    (hin : ∀ i, InHand K encode eventId (xs ++ [x]) i (s'.attempt i)) :
    Accounts K encode eventId (xs ++ [x]) s' q := by
  refine h.transfer hline (by rw [hjoined, List.append_nil]) (by rw [hpops, List.append_nil])
    (b := .queued) (Transfer.still (fun f p => ?_) _) (fun p hp => ?_) (fun p hp => hp.elim) hin
  · cases f with
    | queued =>
      show p ∈ waiters eventId s'.store ↔ p ∈ waiters eventId s.store
      rw [waiters_eq hline, waiters_eq h.line]
    | held i =>
      show p ∈ (s'.attempt i).unsaved ↔ p ∈ (s.attempt i).unsaved
      rw [hheld]
    | stored k => rw [Lies.stored_concat (s := s), hstores]; simp
    | stranded k => rw [Lies.stranded_concat (s := s), hstrands]; simp
  · rw [hjoined] at hp
    exact absurd hp List.not_mem_nil

/-- The books of the other ticks are what they were. -/
theorem inHand_update (h : Accounts K encode eventId xs s q) {i : ι} {attempt : Attempt}
    (hi : InHand K encode eventId (xs ++ [x]) i attempt) (j : ι) :
    InHand K encode eventId (xs ++ [x]) j (Function.update s.attempt i attempt j) := by
  by_cases hj : j = i
  · subst hj
    rw [Function.update_self]
    exact hi
  · rw [Function.update_of_ne hj]
    exact (h.inHand j).mono (List.subset_append_left _ _)

omit [DecidableEq ι] in
theorem inHand_same (h : Accounts K encode eventId xs s q) (j : ι) :
    InHand K encode eventId (xs ++ [x]) j (s.attempt j) :=
  (h.inHand j).mono (List.subset_append_left _ _)

omit [DecidableEq ι] in
/-- A newcomer is placed at the end of the queue. -/
theorem place (h : Accounts K encode eventId xs s q) {t : String} (ht : t ∉ q.waiting)
    (hline : ∃ v, Holds eventId s'.store v ∧ v.Lines (q.join t ht))
    (hattempt : s'.attempt = s.attempt)
    (hjoined : AdmitterVisit.joined x = [(t, (q.log.length : ℤ) + 1)])
    (hpops : AdmitterVisit.pops eventId x = []) (hstores : AdmitterVisit.stores x = [])
    (hstrands : AdmitterVisit.strands eventId x = []) :
    Accounts K encode eventId (xs ++ [x]) s' (q.join t ht) := by
  have hnumber : number (q.join t ht).log = number q.log ++ AdmitterVisit.joined x := by
    rw [hjoined]
    exact number_append_singleton _ _
  -- the next sequence was never given out before
  have hnew : ∀ f, ¬ Lies eventId xs s f (t, (q.log.length : ℤ) + 1) := by
    intro f hf
    have hle := snd_le_of_mem_number ((h.placed _).mpr ⟨f, hf⟩)
    exact absurd hle (by simp)
  have hpopped : (number (q.join t ht).log).take q.served
      = (number q.log).take q.served ++ AdmitterVisit.pops eventId x := by
    rw [hnumber, hpops, List.append_nil, List.take_append_of_le_length]
    rw [length_number]
    exact q.served_le
  refine h.transfer hline hnumber hpopped (b := .queued)
    (M := (· = (t, (q.log.length : ℤ) + 1)))
    (Transfer.arrival (fun p f hp => by rw [hp]; exact hnew f) (fun p => ?_) (fun f hf p => ?_))
    (fun p hp => ?_) (fun p hp => ?_) (hattempt ▸ h.inHand_same)
  · show p ∈ waiters eventId s'.store ↔ p ∈ waiters eventId s.store ∨ _
    rw [waiters_eq hline, waiters_eq h.line, q.line_join ht, List.mem_append,
      List.mem_singleton]
  · cases f with
    | queued => exact absurd rfl hf
    | held i =>
      show p ∈ (s'.attempt i).unsaved ↔ p ∈ (s.attempt i).unsaved
      rw [hattempt]
    | stored k => rw [Lies.stored_concat (s := s), hstores]; simp
    | stranded k => rw [Lies.stranded_concat (s := s), hstrands]; simp
  · rw [hjoined] at hp
    exact List.mem_singleton.mp hp
  · rw [hnumber, hjoined, hp]
    exact List.mem_append_right _ (List.mem_singleton.mpr rfl)

omit [DecidableEq ι] in
/-- Placements are handed over from one place to another. -/
theorem handOver (h : Accounts K encode eventId xs s q)
    (hline : ∃ v, Holds eventId s'.store v ∧ v.Lines q') (hlog : q'.log = q.log)
    (hpopped : (number q.log).take q'.served
      = (number q.log).take q.served ++ AdmitterVisit.pops eventId x)
    {M : Placement → Prop} {a b : Place ι} (hab : a ≠ b)
    (hM : ∀ p, M p → Lies eventId xs s a p)
    (hfrom : ∀ p, Lies eventId (xs ++ [x]) s' a p ↔ Lies eventId xs s a p ∧ ¬ M p)
    (hto : ∀ p, Lies eventId (xs ++ [x]) s' b p ↔ Lies eventId xs s b p ∨ M p)
    (hothers : ∀ f, f ≠ a → f ≠ b → ∀ p,
      Lies eventId (xs ++ [x]) s' f p ↔ Lies eventId xs s f p)
    (hjoined : AdmitterVisit.joined x = [])
    (hin : ∀ i, InHand K encode eventId (xs ++ [x]) i (s'.attempt i)) :
    Accounts K encode eventId (xs ++ [x]) s' q' := by
  refine h.transfer hline (by rw [hlog, hjoined, List.append_nil]) (by rw [hlog, hpopped])
    (h.exclusive.transfer hab hM hfrom hto hothers) (fun p hp => ?_) (fun p hp => ?_) hin
  · rw [hjoined] at hp
    exact absurd hp List.not_mem_nil
  · rw [hlog]
    exact (h.placed p).mpr ⟨a, hM p hp⟩

omit [DecidableEq ι] in
/-- What the front of the queue is popped into, it comes to lie in. -/
theorem pop (h : Accounts K encode eventId xs s q) {n : ℕ} (hn : n ≤ q.waiting.length)
    (hline : ∃ v, Holds eventId s'.store v ∧ v.Lines (q.release n hn)) {b : Place ι}
    (hb : .queued ≠ b)
    (hto : ∀ p, Lies eventId (xs ++ [x]) s' b p
      ↔ Lies eventId xs s b p ∨ p ∈ q.line.take n)
    (hothers : ∀ f, f ≠ .queued → f ≠ b → ∀ p,
      Lies eventId (xs ++ [x]) s' f p ↔ Lies eventId xs s f p)
    (hjoined : AdmitterVisit.joined x = [])
    (hpops : AdmitterVisit.pops eventId x = q.line.take n)
    (hin : ∀ i, InHand K encode eventId (xs ++ [x]) i (s'.attempt i)) :
    Accounts K encode eventId (xs ++ [x]) s' (q.release n hn) := by
  have hnodup := q.line_nodup
  rw [← List.take_append_drop n q.line, List.nodup_append] at hnodup
  have hpopped : (number q.log).take (q.served + n)
      = (number q.log).take q.served ++ AdmitterVisit.pops eventId x := by
    rw [hpops, List.take_add]
    rfl
  refine h.handOver hline rfl hpopped hb (fun p hp => ?_) (fun p => ?_) hto hothers hjoined hin
  · show p ∈ waiters eventId s.store
    rw [waiters_eq h.line]
    exact List.mem_of_mem_take hp
  · show p ∈ waiters eventId s'.store ↔ p ∈ waiters eventId s.store ∧ _
    rw [waiters_eq hline, waiters_eq h.line, q.line_release]
    constructor
    · exact fun hp => ⟨List.mem_of_mem_drop hp, fun hp' => hnodup.2.2 p hp' p hp rfl⟩
    · rintro ⟨hp, hnot⟩
      rw [← List.take_append_drop n q.line] at hp
      exact (List.mem_append.mp hp).resolve_left hnot

/-- What a tick lets go of comes to lie elsewhere. -/
theorem letGo (h : Accounts K encode eventId xs s q) {i : ι} {attempt : Attempt}
    (hline : ∃ v, Holds eventId s'.store v ∧ v.Lines q)
    (hattempt : s'.attempt = Function.update s.attempt i attempt)
    {M : Placement → Prop} (hM : ∀ p, M p → p ∈ (s.attempt i).unsaved)
    (hfrom : ∀ p, p ∈ attempt.unsaved ↔ p ∈ (s.attempt i).unsaved ∧ ¬ M p) {b : Place ι}
    (hb : ∀ j, .held j ≠ b)
    (hto : ∀ p, Lies eventId (xs ++ [x]) s' b p ↔ Lies eventId xs s b p ∨ M p)
    (hstored : ∀ k, .stored k ≠ b → ∀ p,
      Lies eventId (xs ++ [x]) s' (.stored k) p ↔ Lies eventId xs s (.stored k) p)
    (hstranded : ∀ k, .stranded k ≠ b → ∀ p,
      Lies eventId (xs ++ [x]) s' (.stranded k) p ↔ Lies eventId xs s (.stranded k) p)
    (hjoined : AdmitterVisit.joined x = []) (hpops : AdmitterVisit.pops eventId x = [])
    (hin : InHand K encode eventId (xs ++ [x]) i attempt) :
    Accounts K encode eventId (xs ++ [x]) s' q := by
  refine h.handOver hline rfl (by rw [hpops, List.append_nil]) (hb i) hM (fun p => ?_) hto
    (fun f hf hfb p => ?_) hjoined (hattempt ▸ h.inHand_update hin)
  · show p ∈ (s'.attempt i).unsaved ↔ _
    rw [hattempt, Function.update_self]
    exact hfrom p
  · cases f with
    | queued =>
      show p ∈ waiters eventId s'.store ↔ p ∈ waiters eventId s.store
      rw [waiters_eq hline, waiters_eq h.line]
    | held j =>
      show p ∈ (s'.attempt j).unsaved ↔ p ∈ (s.attempt j).unsaved
      rw [hattempt, Function.update_of_ne (fun he => hf (congrArg Place.held he))]
    | stored k => exact hstored k hfb p
    | stranded k => exact hstranded k hfb p

/-- A tick that holds what it held. -/
theorem unsaved_update (s : AdmitterState ι) {i : ι} {attempt : Attempt}
    (h : attempt.unsaved = (s.attempt i).unsaved) (j : ι) :
    (Function.update s.attempt i attempt j).unsaved = (s.attempt j).unsaved := by
  by_cases hj : j = i
  · subst hj
    rw [Function.update_self, h]
  · rw [Function.update_of_ne hj]

/-! ## One step -/

/-- A failing tick strands what it holds. -/
theorem fail (h : Accounts K encode eventId xs s q) (i : ι) :
    Accounts K encode eventId (xs ++ [⟨s, .fail i, none⟩])
      ⟨s.store, Function.update s.attempt i .idle⟩ q := by
  refine h.letGo (b := .stranded xs.length) (M := (· ∈ (s.attempt i).unsaved)) h.line rfl
    (fun p hp => hp) (fun p => ?_) (fun j => by simp) (fun p => ?_) (fun k _ p => ?_)
    (fun k hk p => ?_) rfl rfl InHand.idle
  · exact iff_of_false List.not_mem_nil (fun hp => hp.2 hp.1)
  · rw [Lies.stranded_concat (s := s)]
    exact or_congr_right (and_iff_right rfl)
  · rw [Lies.stored_concat (s := s)]
    exact or_iff_left (fun hp => absurd hp.2 List.not_mem_nil)
  · rw [Lies.stranded_concat (s := s)]
    exact or_iff_left (fun hp => hk (congrArg Place.stranded hp.1))

/-- A SET that is answered stores the pass of the placement it is for. -/
theorem set (h : Accounts K encode eventId xs s q) {i : ι} {n : ℕ}
    {p : Placement × IssuedPass} (hn : (s.attempt i).pending[n]? = some p) {answer : Answer}
    {σ : Store} (hline : ∃ v, Holds eventId σ v ∧ v.Lines q) :
    Accounts K encode eventId (xs ++ [⟨s, .set i n, some (.ok answer)⟩])
      ⟨σ, Function.update s.attempt i ((s.attempt i).settle n)⟩ q := by
  obtain ⟨hmem, hsettle⟩ := Attempt.mem_unsaved_settle hn (h.inHand i).nodup
  have hstores : AdmitterVisit.stores ⟨s, .set i n, some (.ok answer)⟩ = [p.1] := by
    show ((s.attempt i).pending[n]?).toList.map Prod.fst = _
    rw [hn]
    rfl
  refine h.letGo (b := .stored xs.length) (M := (· = p.1)) hline rfl
    (fun r hr => hr ▸ hmem) hsettle (fun j => by simp) (fun r => ?_) (fun k hk r => ?_)
    (fun k _ r => ?_) rfl rfl ?_
  · rw [Lies.stored_concat (s := s), hstores, List.mem_singleton]
    exact or_congr_right (and_iff_right rfl)
  · rw [Lies.stored_concat (s := s)]
    exact or_iff_left (fun hr => hk (congrArg Place.stored hr.1))
  · rw [Lies.stranded_concat (s := s)]
    exact or_iff_left (fun hr => absurd hr.2 List.not_mem_nil)
  · refine ((h.inHand i).mono (List.subset_append_left _ _)).settle hn
      (List.mem_append_right _ (List.mem_singleton.mpr rfl)) ?_
    rw [hstores]
    exact List.mem_singleton.mpr rfl

/-- The script runs: the tick holds what it popped, or, where its reply is
lost, strands it. -/
theorem admitBatch (rnd : ℚ → ℚ) (h : Accounts K encode eventId xs s q) {v : EventState}
    (hv : Holds eventId s.store v) (hq : v.Lines q) {i : ι} (hidle : s.attempt i = .idle)
    (now : ℤ) {σ : Store} (hσ : Holds eventId σ (v.admitBatch rnd now).2) :
    ∃ q', Accounts K encode eventId
        (xs ++ [⟨s, .admitBatch i now, some (v.step rnd eventId (.admitBatch now)).1⟩])
        ⟨σ, Function.update s.attempt i (.afterBatch now (poppedFrom eventId s.store
          (v.step rnd eventId (.admitBatch now)).1))⟩ q'
      ∧ Accounts K encode eventId
        (xs ++ [⟨s, .loseReply i now, some (v.step rnd eventId (.admitBatch now)).1⟩])
        ⟨σ, s.attempt⟩ q' := by
  obtain ⟨hn, -, hlines⟩ := hq.admitBatch rnd now
  have hpops : poppedFrom eventId s.store (v.step rnd eventId (.admitBatch now)).1
      = q.line.take (v.batch rnd now) := by
    rw [(hv.poppedFrom_eq rnd now).1, ← hq.queue]
    rfl
  have hheld : ∀ p, ¬ Lies eventId xs s (.held i) p := by
    intro p hp
    replace hp : p ∈ (s.attempt i).unsaved := hp
    rw [hidle] at hp
    exact absurd hp List.not_mem_nil
  refine ⟨q.release _ hn, ?_, ?_⟩
  · refine h.pop hn ⟨_, hσ, hlines⟩ (b := .held i) (by simp) (fun p => ?_)
      (fun f hf hfb p => ?_) rfl hpops (h.inHand_update ?_)
    · show p ∈ (Function.update s.attempt i _ i).unsaved ↔ _
      rw [Function.update_self, Attempt.unsaved_afterBatch, hpops]
      exact (or_iff_right (hheld p)).symm
    · cases f with
      | queued => exact absurd rfl hf
      | held j =>
        show p ∈ (Function.update s.attempt i _ j).unsaved ↔ p ∈ (s.attempt j).unsaved
        rw [Function.update_of_ne (fun he => hfb (congrArg Place.held he))]
      | stored k =>
        rw [Lies.stored_concat (s := s)]
        exact or_iff_left (fun hp => absurd hp.2 List.not_mem_nil)
      | stranded k =>
        rw [Lies.stranded_concat (s := s)]
        exact or_iff_left (fun hp => absurd hp.2 List.not_mem_nil)
    · refine InHand.afterBatch (List.mem_append_right _ (List.mem_singleton.mpr rfl)) rfl rfl ?_
      rw [hpops]
      exact q.line_nodup.sublist (List.take_sublist _ _)
  · refine h.pop hn ⟨_, hσ, hlines⟩ (b := .stranded xs.length) (by simp) (fun p => ?_)
      (fun f hf hfb p => ?_) rfl hpops h.inHand_same
    · rw [Lies.stranded_concat (s := s), ← hpops]
      exact or_congr_right (and_iff_right rfl)
    · cases f with
      | queued => exact absurd rfl hf
      | held j => exact Iff.rfl
      | stored k =>
        rw [Lies.stored_concat (s := s)]
        exact or_iff_left (fun hp => absurd hp.2 List.not_mem_nil)
      | stranded k =>
        rw [Lies.stranded_concat (s := s)]
        exact or_iff_left (fun hp => hfb (congrArg Place.stranded hp.1))

omit [DecidableEq ι] in
/-- A join places a newcomer, and leaves anyone else where it is. -/
theorem join (rnd : ℚ → ℚ) (h : Accounts K encode eventId xs s q) {v : EventState}
    (hq : v.Lines q) (t : String) {σ : Store} (hσ : Holds eventId σ (v.join t).2) :
    ∃ q', Accounts K encode eventId
      (xs ++ [⟨s, .join t, some (v.step rnd eventId (.join t)).1⟩]) ⟨σ, s.attempt⟩ q' := by
  by_cases ht : t ∈ q.waiting
  · obtain ⟨c, hc⟩ := hq.configured
    obtain ⟨n, -, hn⟩ := hq.score_of_waiting ht
    rw [EventState.join_of_queued hc hn] at hσ
    refine ⟨q, h.still ⟨v, hσ, hq⟩ (fun i => rfl) ?_ rfl rfl rfl h.inHand_same⟩
    simp only [EventState.step, EventState.join_of_queued hc hn]
    rfl
  · obtain ⟨⟨c, -, hj⟩, hlines⟩ := hq.join_new ht
    refine ⟨_, h.place ht ⟨_, hσ, hlines⟩ rfl ?_ rfl rfl rfl⟩
    simp only [EventState.step, hj]
    rfl

/-- **One step** of the service keeps the books. -/
theorem step (rnd : ℚ → ℚ) (h : Accounts K encode eventId xs s q) (a : AdmitterAct ι) :
    ∃ q', Accounts K encode eventId
      (xs ++ [⟨s, a, ((Admitters rnd K encode eventId).step s a).1⟩])
      ((Admitters rnd K encode eventId).step s a).2 q' := by
  cases hop : a.op K s with
  | none =>
    rw [Admitters.step_of_none rnd encode hop]
    cases a with
    | failBefore i => exact ⟨q, h.still h.line (fun j => rfl) rfl rfl rfl rfl h.inHand_same⟩
    | admitBatch i now => exact ⟨q, h.still h.line (fun j => rfl) rfl rfl rfl rfl h.inHand_same⟩
    | loseReply i now => exact ⟨q, h.still h.line (fun j => rfl) rfl rfl rfl rfl h.inHand_same⟩
    | set i n => exact ⟨q, h.still h.line (fun j => rfl) rfl rfl rfl rfl h.inHand_same⟩
    | issue i jti =>
      exact ⟨q, h.still h.line (unsaved_update s (Attempt.unsaved_issue ..)) rfl rfl rfl rfl
        (h.inHand_update (((h.inHand i).mono (List.subset_append_left _ _)).issue jti))⟩
    | send i =>
      exact ⟨q, h.still h.line (unsaved_update s (Attempt.unsaved_send _)) rfl rfl rfl rfl
        (h.inHand_update ((h.inHand i).mono (List.subset_append_left _ _)).send)⟩
    | finish i =>
      exact ⟨q, h.still h.line (unsaved_update s (Attempt.unsaved_finish _)) rfl rfl rfl rfl
        (h.inHand_update ((h.inHand i).mono (List.subset_append_left _ _)).finish)⟩
    | fail i => exact ⟨q, h.fail i⟩
    | _ => exact absurd hop (by simp [AdmitterAct.op])
  | some op =>
    obtain ⟨v, hv, hq⟩ := h.line
    obtain ⟨σ', hσ', hstep⟩ := Admitters.step_of_some rnd encode hv hop
    rw [hstep]
    cases Admitters.asks_of_op hop with
    | join t => exact h.join rnd hq t hσ'
    | position t =>
      exact ⟨q, h.still ⟨v, hσ', hq⟩ (fun j => rfl) rfl rfl rfl rfl h.inHand_same⟩
    | configure c =>
      exact ⟨q, h.still ⟨_, hσ', hq.queue, hq.seq, hq.admitted, ⟨c, rfl⟩⟩ (fun j => rfl) rfl rfl
        rfl rfl h.inHand_same⟩
    | wait d =>
      exact ⟨q, h.still ⟨_, hσ', hq.queue, hq.seq, hq.admitted, hq.configured⟩ (fun j => rfl) rfl
        rfl rfl rfl h.inHand_same⟩
    | admitBatch now hi =>
      obtain ⟨q', hq', -⟩ := h.admitBatch rnd hv hq hi now hσ'
      exact ⟨q', hq'⟩
    | loseReply now hi =>
      obtain ⟨q', -, hq'⟩ := h.admitBatch rnd hv hq hi now hσ'
      exact ⟨q', hq'⟩
    | @set i n p hn =>
      by_cases hpos : K.passTtlSeconds ≤ 0
      · rw [EventState.step_recordAdmission_of_nonpos rnd eventId v p.2 hpos] at hσ' ⊢
        exact ⟨q, h.still ⟨v, hσ', hq⟩ (fun j => rfl) rfl rfl rfl rfl h.inHand_same⟩
      · rw [EventState.step_recordAdmission_of_pos rnd eventId v p.2 hpos] at hσ' ⊢
        exact ⟨q, h.set hn ⟨_, hσ', hq.queue, hq.seq, hq.admitted, hq.configured⟩⟩

omit [DecidableEq ι] in
/-- Before the first step nothing lies anywhere. -/
theorem not_lies_nil {c : QueueConfig} {σ : Store} (h : Fresh eventId σ c) (f : Place ι)
    (p : Placement) : ¬ Lies eventId [] (AdmitterState.mk σ (fun _ : ι => .idle)) f p := by
  have hline : ∃ v, Holds eventId (AdmitterState.mk σ (fun _ : ι => .idle)).store v
      ∧ v.Lines .empty := h.queues
  intro hf
  cases f with
  | queued =>
    replace hf : p ∈ waiters eventId _ := hf
    rw [waiters_eq hline] at hf
    exact absurd hf List.not_mem_nil
  | held i => exact absurd hf List.not_mem_nil
  | _ => simp [Lies] at hf

omit [DecidableEq ι] in
/-- The books of an event just created. -/
theorem opened {c : QueueConfig} {σ : Store} (h : Fresh eventId σ c) :
    Accounts K encode eventId [] (AdmitterState.mk σ (fun _ : ι => .idle)) .empty where
  line := h.queues
  joined := rfl
  popped := rfl
  placed p := iff_of_false List.not_mem_nil (fun ⟨f, hf⟩ => not_lies_nil h f p hf)
  exclusive p f _ hf _ := absurd hf (not_lies_nil h f p)
  inHand _ := InHand.idle

/-- **A whole run** keeps the books. -/
theorem run (rnd : ℚ → ℚ) {c : QueueConfig} {σ : Store} (h : Fresh eventId σ c)
    (acts : List (AdmitterAct ι)) :
    ∃ q, Accounts K encode eventId
      ((Admitters rnd K encode eventId).trace ⟨σ, fun _ => .idle⟩ acts)
      ((Admitters rnd K encode eventId).final ⟨σ, fun _ => .idle⟩ acts) q :=
  Machine.history_invariant _ (P := fun xs s => ∃ q, Accounts K encode eventId xs s q)
    (fun _ _ a ⟨_, hq⟩ => hq.step rnd a) ⟨_, opened h⟩ acts

/-- **The books at a visit** are those of what came before it. -/
theorem of_visit (rnd : ℚ → ℚ) {c : QueueConfig} {σ : Store} (h : Fresh eventId σ c)
    {acts : List (AdmitterAct ι)} {pre post : List (AdmitterVisit ι)}
    (htrace : (Admitters rnd K encode eventId).trace ⟨σ, fun _ => .idle⟩ acts
      = pre ++ x :: post) :
    (∃ q, Accounts K encode eventId pre x.before q)
      ∧ x.reply = ((Admitters rnd K encode eventId).step x.before x.action).1 := by
  obtain ⟨as, bs, rfl, rfl, hys⟩ := Machine.trace_eq_append _ htrace
  obtain ⟨cs, rfl, hbefore, hreply, -⟩ := Machine.trace_eq_cons _ hys.symm
  rw [← hbefore] at hreply
  refine ⟨?_, hreply⟩
  rw [hbefore]
  exact run rnd h as

/-! ## What one visit shows -/

/-- A run of the script pops no more than its ceilings allow. -/
theorem length_pops_le (rnd : ℚ → ℚ) (h : Accounts K encode eventId xs x.before q)
    (hx : x.reply = ((Admitters rnd K encode eventId).step x.before x.action).1) {i : ι}
    {now : ℤ} (hact : x.action = .admitBatch i now ∨ x.action = .loseReply i now) :
    ∃ c, Configured eventId x.before.store c
      ∧ ((AdmitterVisit.pops eventId x).length : ℤ) ≤ max 0 (min c.burst c.batchMax) := by
  obtain ⟨v, hv, hq⟩ := h.line
  obtain ⟨c, hc⟩ := hq.configured
  refine ⟨c, hv.configured_iff.mpr hc, ?_⟩
  obtain ⟨s, a, r⟩ := x
  have hpops : AdmitterVisit.pops eventId ⟨s, a, r⟩ = r.elim [] (poppedFrom eventId s.store) := by
    rcases hact with rfl | rfl <;> cases r <;> rfl
  have hop : a.op K s = if s.attempt i = .idle then some (.admitBatch now) else none := by
    rcases hact with rfl | rfl <;> rfl
  rw [hpops]
  dsimp only at hx hv
  by_cases hi : s.attempt i = .idle
  · rw [if_pos hi] at hop
    obtain ⟨σ', -, hstep⟩ := Admitters.step_of_some rnd encode hv hop
    rw [hx, hstep, Option.elim_some, (hv.poppedFrom_eq rnd now).1,
      ZSet.length_popped_of_le (EventState.batch_le_card rnd v now)]
    exact (EventState.batch_le rnd hc now).trans (max_le_max le_rfl (min_le_left _ _))
  · rw [if_neg hi] at hop
    rw [hx, Admitters.step_of_none rnd encode hop]
    exact le_max_left _ _

end Accounts

/-- **The pass of a placement is stored**, under the key of its own token: it
is signed for that token and for the event. -/
def PassStored (K : AdmissionController) (encode : PassClaims → String → String)
    (eventId : String) (p : Placement) (σ : Store) : Prop :=
  ∃ claims : PassClaims, claims.sub = p.1 ∧ claims.eventId = eventId
    ∧ ∃ d, σ.entries ((EventKeys.mk eventId).passFor p.1)
      = some ⟨.string (.blob ⟨encode claims K.issuer.secret, claims.exp,
          "/events/" ++ eventId ++ "/book"⟩), some d⟩

/-- What a SET stores for a placement is its pass. -/
theorem Accounts.passStored (rnd : ℚ → ℚ) {K : AdmissionController}
    {encode : PassClaims → String → String} {eventId : String} {xs : List (AdmitterVisit ι)}
    {q : FifoQueue String} {x : AdmitterVisit ι} (h : Accounts K encode eventId xs x.before q)
    (hx : x.reply = ((Admitters rnd K encode eventId).step x.before x.action).1) {p : Placement}
    (hp : p ∈ AdmitterVisit.stores x) :
    PassStored K encode eventId p
      ((Admitters rnd K encode eventId).step x.before x.action).2.store := by
  obtain ⟨s, a, r⟩ := x
  unfold AdmitterVisit.stores at hp
  split at hp
  · next i n answer ha hr =>
    dsimp only at ha hr hx hp h ⊢
    subst ha
    rw [List.mem_map] at hp
    obtain ⟨p', hp', rfl⟩ := hp
    rw [Option.mem_toList] at hp'
    have hn : (s.attempt i).pending[n]? = some p' := hp'
    obtain ⟨v, hv, -⟩ := h.line
    have hop : (AdmitterAct.set i n).op K s
        = some (.recordAdmission p'.2 K.passTtlSeconds) := by
      show (s.attempt i).pending[n]?.map _ = _
      rw [hn]
      rfl
    obtain ⟨σ', hσ', hstep⟩ := Admitters.step_of_some rnd encode hv hop
    rw [hstep] at hx ⊢
    by_cases hpos : K.passTtlSeconds ≤ 0
    · rw [EventState.step_recordAdmission_of_nonpos rnd eventId v p'.2 hpos, hr] at hx
      exact absurd hx (by simp)
    · rw [EventState.step_recordAdmission_of_pos rnd eventId v p'.2 hpos] at hσ'
      obtain ⟨batch, pending, hatt, hpend⟩ := Attempt.exists_recording hn
      have hsigned : p' ∈ (s.attempt i).signed := by
        rw [hatt]
        exact List.mem_of_getElem? hpend
      obtain ⟨now, jti, hpass⟩ := (h.inHand i).signed p' hsigned
      refine ⟨⟨p'.1.1, eventId, jti, now / 1000, now / 1000 + K.issuer.ttlSeconds⟩, rfl, rfl,
        v.clock + 1000 * K.passTtlSeconds, ?_⟩
      have htoken : p'.2.queueToken = p'.1.1 := by
        rw [hpass]
        rfl
      have hentry := hσ'.passes p'.1.1
      rw [EventState.recordAdmission, htoken] at hentry
      dsimp only at hentry
      rw [Function.update_self] at hentry
      rw [hentry, hpass]
      rfl
  · exact absurd hp List.not_mem_nil

/-! ## The accounts of a run -/

/-- **Every placement is accounted for, whatever fails.** Take any run of
joins, position calls, rewrites of the configuration and admitters, any of
whose ticks may fail at any point.

In the state it reaches every placement ever made lies in exactly one place –
in the queue, in the hands of one tick in progress, stored by one step, or
stranded by one failure – and what is stored is its pass. A tick that fails
before its script runs changes nothing. A tick that returns strands nobody,
and the pass of each placement it popped was stored by exactly one step. A
tick that fails strands at most what its own run of the script popped, which
is within the burst and the batch limit in force at that run. -/
theorem placements_accounted (rnd : ℚ → ℚ) (K : AdmissionController)
    (encode : PassClaims → String → String) {eventId : String} {σ : Store} {c : QueueConfig}
    (h : Fresh eventId σ c) (acts : List (AdmitterAct ι)) :
    (∀ p, (∃ x ∈ (Admitters rnd K encode eventId).trace ⟨σ, fun _ => .idle⟩ acts,
          p ∈ AdmitterVisit.joined x)
        ↔ ∃ f, Lies eventId ((Admitters rnd K encode eventId).trace ⟨σ, fun _ => .idle⟩ acts)
          ((Admitters rnd K encode eventId).final ⟨σ, fun _ => .idle⟩ acts) f p)
      ∧ (∀ p f g, Lies eventId ((Admitters rnd K encode eventId).trace ⟨σ, fun _ => .idle⟩ acts)
            ((Admitters rnd K encode eventId).final ⟨σ, fun _ => .idle⟩ acts) f p →
          Lies eventId ((Admitters rnd K encode eventId).trace ⟨σ, fun _ => .idle⟩ acts)
            ((Admitters rnd K encode eventId).final ⟨σ, fun _ => .idle⟩ acts) g p → f = g)
      ∧ (∀ (s : AdmitterState ι) i,
          (Admitters rnd K encode eventId).step s (.failBefore i) = (none, s))
      ∧ ∀ pre x post, (Admitters rnd K encode eventId).trace ⟨σ, fun _ => .idle⟩ acts
          = pre ++ x :: post →
        (∀ p ∈ AdmitterVisit.stores x, PassStored K encode eventId p
            ((Admitters rnd K encode eventId).step x.before x.action).2.store)
          ∧ (∀ i batch, x.action = .finish i → x.before.attempt i = .recording batch [] →
            AdmitterVisit.strands eventId x = []
              ∧ (∃ y ∈ pre, (∃ now, y.action = .admitBatch i now)
                ∧ AdmitterVisit.pops eventId y = batch)
              ∧ ∀ p ∈ batch, ∃! k, Lies eventId pre x.before (.stored k) p)
          ∧ ∀ i, (x.action = .fail i ∨ ∃ now, x.action = .loseReply i now) →
            AdmitterVisit.strands eventId x = []
              ∨ ∃ y ∈ pre ++ [x],
                (∃ now, y.action = .admitBatch i now ∨ y.action = .loseReply i now)
                ∧ (AdmitterVisit.strands eventId x).Sublist (AdmitterVisit.pops eventId y)
                ∧ ∃ c, Configured eventId y.before.store c
                  ∧ ((AdmitterVisit.pops eventId y).length : ℤ)
                    ≤ max 0 (min c.burst c.batchMax) := by
  obtain ⟨q, hq⟩ : ∃ q, Accounts K encode eventId _ _ q := Accounts.run rnd h acts
  refine ⟨fun p => ?_, fun p f g hf hg => hq.exclusive p f g hf hg, fun s i => ?_,
    fun pre x post htrace => ?_⟩
  · rw [← hq.placed, ← hq.joined, List.mem_flatMap]
  · exact Admitters.step_of_none rnd encode rfl
  obtain ⟨⟨r, hr⟩, hx⟩ := Accounts.of_visit rnd h htrace
  refine ⟨fun p hp => hr.passStored rnd hx hp, fun i batch hact hdone => ?_, fun i hact => ?_⟩
  · have hin := hr.inHand i
    rw [hdone] at hin
    refine ⟨?_, hin.popped.resolve_left (by simp), fun p hp => ?_⟩
    · unfold AdmitterVisit.strands
      rw [hact]
    · -- nothing is in hand any more
      obtain ⟨y, hy, hstored⟩ := (hin.saved p hp).resolve_left List.not_mem_nil
      obtain ⟨k, hk⟩ := List.mem_iff_getElem?.mp hy
      refine ⟨k, ⟨y, hk, hstored⟩, fun k' hk' => ?_⟩
      exact Place.stored.inj (hr.exclusive p _ _ hk' ⟨y, hk, hstored⟩)
  · obtain hact | ⟨now, hact⟩ := hact
    · have hstrands : AdmitterVisit.strands eventId x = (x.before.attempt i).unsaved := by
        unfold AdmitterVisit.strands
        rw [hact]
      have hin := hr.inHand i
      rw [hstrands]
      obtain hidle | ⟨y, hy, ⟨now, hscript⟩, hpops⟩ := hin.popped
      · rw [hidle]
        exact Or.inl rfl
      · refine Or.inr ⟨y, List.mem_append_left _ hy, ⟨now, Or.inl hscript⟩, ?_, ?_⟩
        · rw [hpops]
          exact hin.unsaved
        · obtain ⟨pre', post', rfl⟩ := List.append_of_mem hy
          rw [List.append_assoc] at htrace
          obtain ⟨⟨r', hr'⟩, hy'⟩ := Accounts.of_visit rnd h htrace
          exact hr'.length_pops_le rnd hy' (Or.inl hscript)
    · have hstrands : AdmitterVisit.strands eventId x = AdmitterVisit.pops eventId x := by
        unfold AdmitterVisit.strands
        rw [hact]
      rw [hstrands]
      exact Or.inr ⟨x, List.mem_append_right _ (List.mem_singleton.mpr rfl), ⟨now, Or.inr hact⟩,
        List.Sublist.refl _, hr.length_pops_le rnd hx (Or.inr hact)⟩

/-- Two waiters are popped by one tick, and the pipeline breaks after the
second SET. A third is popped by a run of the script whose reply is lost. The
first is accounted for. -/
theorem placements_accounted_of_two_failures :
    ∃ f, Lies "e" ((Admitters id (buildAdmissionController "secret" (by decide) 60)
        (fun claims _ => claims.jti) "e").trace
          ⟨createdStore "e" ⟨60, 2, 5⟩, fun _ : Unit => .idle⟩
          [.join "a", .join "b", .join "c", .admitBatch () 0, .issue () "j", .issue () "k",
            .send (), .set () 1, .fail (), .loseReply () 60000])
      ((Admitters id (buildAdmissionController "secret" (by decide) 60)
        (fun claims _ => claims.jti) "e").final
          ⟨createdStore "e" ⟨60, 2, 5⟩, fun _ : Unit => .idle⟩
          [.join "a", .join "b", .join "c", .admitBatch () 0, .issue () "j", .issue () "k",
            .send (), .set () 1, .fail (), .loseReply () 60000]) f ("a", 1) :=
  ((placements_accounted id (buildAdmissionController "secret" (by decide) 60)
    (fun claims _ => claims.jti) (fresh_createdStore "e" ⟨60, 2, 5⟩) _).1 ("a", 1)).mp
      ⟨_, List.mem_cons_self, by decide +kernel⟩

/-- The same run, step by step: whose pass was stored, and who was stranded. -/
example : ((Admitters id (buildAdmissionController "secret" (by decide) 60)
      (fun claims _ => claims.jti) "e").trace
        ⟨createdStore "e" ⟨60, 2, 5⟩, fun _ : Unit => .idle⟩
        [.join "a", .join "b", .join "c", .admitBatch () 0, .issue () "j", .issue () "k",
          .send (), .set () 1, .fail (), .loseReply () 60000]).map
        (fun x => (AdmitterVisit.stores x, AdmitterVisit.strands "e" x))
      = [([], []), ([], []), ([], []), ([], []), ([], []), ([], []), ([], []), ([("b", 2)], []),
        ([], [("a", 1)]), ([], [("c", 3)])] := by
  decide +kernel
