import QueueFair.RateBucket
import Mathlib.Data.Int.ConditionallyCompleteOrder
import Mathlib.Data.Int.Interval
import Mathlib.Data.List.MinMax
import Mathlib.Order.CompletePartialOrder
import Mathlib.Order.Interval.Set.Disjoint

/-!
# Spans of the clock stepped over twice

A sequence of readings takes a step between each reading and the next, and a
step forward goes over a span of the clock. Readings that step back can go over
one span twice. They do so somewhere exactly if some stretch of them climbs
further than it spans (`apart_iff`): the two steps over a common span and what
lies between them begin lower than they end, so they go over everything they
span, and over that span once more.

The levels are counted one by one, so the readings are integers.
-/

namespace RateBucket

/-! ## Steps -/

section Steps

variable {T : Type} [LinearOrder T] {a y : T} {ts : List T}

/-- The steps a sequence of readings takes. -/
def steps (ts : List T) : List (T × T) := ts.zip ts.tail

/-- **No two steps go over the same span** of the clock. -/
def Apart (xs : List (T × T)) : Prop :=
  xs.Pairwise (fun x y => Disjoint (Set.Ioc x.1 x.2) (Set.Ioc y.1 y.2))

omit [LinearOrder T] in
theorem mem_steps {x : T × T} (h : x ∈ steps ts) : ∃ l r, ts = l ++ x.1 :: x.2 :: r := by
  induction ts with
  | nil => exact absurd h List.not_mem_nil
  | cons a ts ih =>
    cases ts with
    | nil => exact absurd h List.not_mem_nil
    | cons t ts =>
      rcases List.mem_cons.mp h with rfl | h
      · exact ⟨[], ts, rfl⟩
      · obtain ⟨l, r, hl⟩ := ih h
        exact ⟨a :: l, r, congrArg (a :: ·) hl⟩

omit [LinearOrder T] in
/-- The steps of a stretch are steps of the whole, in their order. -/
theorem steps_sublist_append_left (l r : List T) : (steps r).Sublist (steps (l ++ r)) := by
  induction l with
  | nil => exact List.Sublist.refl _
  | cons a l ih =>
    rw [List.cons_append]
    cases hl : l ++ r with
    | nil => rwa [hl] at ih
    | cons t ts =>
      rw [hl] at ih
      exact ih.cons _

omit [LinearOrder T] in
theorem steps_sublist_append_right (l r : List T) : (steps l).Sublist (steps (l ++ r)) := by
  induction l with
  | nil => exact List.nil_sublist _
  | cons a l ih =>
    cases l with
    | nil => exact List.nil_sublist _
    | cons t l => exact ih.cons_cons _

omit [LinearOrder T] in
theorem steps_sublist {mid : List T} (h : mid <:+: ts) : (steps mid).Sublist (steps ts) := by
  obtain ⟨l, r, rfl⟩ := h
  exact (steps_sublist_append_left l mid).trans (steps_sublist_append_right _ r)

/-- **A level below which the readings were is stepped over** on the way above
it. -/
theorem exists_step_over (ha : a < y) (h : ∃ t ∈ ts, y ≤ t) :
    ∃ x ∈ steps (a :: ts), x.1 < y ∧ y ≤ x.2 := by
  induction ts generalizing a with
  | nil => exact absurd h (by simp)
  | cons t ts ih =>
    by_cases ht : y ≤ t
    · exact ⟨(a, t), List.mem_cons_self, ha, ht⟩
    · obtain ⟨u, hu, hy⟩ := h
      rcases List.mem_cons.mp hu with rfl | hu
      · exact absurd hy ht
      · obtain ⟨x, hx, hover⟩ := ih (not_le.mp ht) ⟨u, hu, hy⟩
        exact ⟨x, List.mem_cons_of_mem _ hx, hover⟩

/-- The latest reading is one of them, and none is later. -/
theorem le_foldr_max {t : T} (h : t ∈ a :: ts) : t ≤ ts.foldr max a := by
  rcases List.mem_cons.mp h with rfl | h
  · induction ts with
    | nil => exact le_rfl
    | cons u ts ih => exact (ih List.mem_cons_self).trans (le_max_right _ _)
  · exact List.le_max_of_le' a h le_rfl

theorem foldr_max_mem (a : T) (ts : List T) : ts.foldr max a ∈ a :: ts := by
  induction ts with
  | nil => exact List.mem_cons_self
  | cons u ts ih =>
    show max u (ts.foldr max a) ∈ a :: u :: ts
    rcases max_choice u (ts.foldr max a) with h | h
    · rw [h]
      exact List.mem_cons_of_mem _ List.mem_cons_self
    · rw [h]
      exact List.mem_cons.mpr ((List.mem_cons.mp ih).imp_right (List.mem_cons_of_mem _))

/-- The earliest reading is one of them, and none is earlier. -/
theorem foldr_min_le {t : T} (h : t ∈ a :: ts) : ts.foldr min a ≤ t :=
  le_foldr_max (T := Tᵒᵈ) h

theorem foldr_min_mem (a : T) (ts : List T) : ts.foldr min a ∈ a :: ts :=
  foldr_max_mem (T := Tᵒᵈ) a ts

/-- **Readings that end no lower than they start step over every level between
the earliest and the latest.** -/
theorem exists_step_over_of_mem_span {b : T} (hb : (a :: ts).getLast? = some b) (hab : a ≤ b)
    (hmin : ts.foldr min a < y) (hmax : y ≤ ts.foldr max a) :
    ∃ x ∈ steps (a :: ts), x.1 < y ∧ y ≤ x.2 := by
  by_cases ha : a < y
  · -- up to the latest
    refine exists_step_over ha ⟨_, ?_, hmax⟩
    refine (List.mem_cons.mp (foldr_max_mem a ts)).resolve_left (fun he => ?_)
    exact absurd (hmax.trans he.le) (not_le.mpr ha)
  · -- from the earliest up to the last
    have hyb : y ≤ b := (not_lt.mp ha).trans hab
    obtain ⟨l, r, hsplit⟩ := List.append_of_mem (foldr_min_mem a ts)
    have hbr : b ∈ r := by
      rw [hsplit] at hb
      cases r with
      | nil =>
        rw [List.getLast?_append, List.getLast?_singleton, Option.some_or,
          Option.some.injEq] at hb
        exact absurd (hb ▸ hmin) (not_lt.mpr hyb)
      | cons u r =>
        rw [List.getLast?_append, List.getLast?_cons_cons, Option.or_eq_some_iff] at hb
        rcases hb with hb | ⟨hb, -⟩
        · exact List.mem_of_getLast? hb
        · simp at hb
    obtain ⟨x, hx, hover⟩ := exists_step_over hmin ⟨b, hbr, hyb⟩
    rw [hsplit]
    exact ⟨x, (steps_sublist_append_left _ _).subset hx, hover⟩

end Steps

/-! ## Whole readings -/

/-- The units of the clock a sequence of readings steps over, those it steps over
twice twice. -/
noncomputable def units (ts : List ℤ) : List ℤ :=
  (steps ts).flatMap (fun x => (Finset.Ioc x.1 x.2).toList)

theorem mem_units {ts : List ℤ} {y : ℤ} :
    y ∈ units ts ↔ ∃ x ∈ steps ts, x.1 < y ∧ y ≤ x.2 := by
  simp [units]

theorem units_cons_cons (a t : ℤ) (ts : List ℤ) :
    units (a :: t :: ts) = (Finset.Ioc a t).toList ++ units (t :: ts) := rfl

/-- As many as the readings climb. -/
theorem length_units (ts : List ℤ) : ((units ts).length : ℤ) = climb ts := by
  cases ts with
  | nil => rfl
  | cons a ts =>
    show ((units (a :: ts)).length : ℤ) = climbFrom a ts
    induction ts generalizing a with
    | nil => rfl
    | cons t ts ih =>
      rw [units_cons_cons, List.length_append, Nat.cast_add, ih, Finset.length_toList,
        Int.card_Ioc, Int.toNat_eq_max, max_comm]
      rfl

/-- Steps are apart where no unit is stepped over twice. -/
theorem nodup_units_iff (ts : List ℤ) : (units ts).Nodup ↔ Apart (steps ts) := by
  rw [units, List.nodup_flatMap, Apart, and_iff_right (fun x _ => Finset.nodup_toList _)]
  refine List.Pairwise.iff (fun x y => ?_)
  rw [Set.disjoint_left]
  refine forall_congr' (fun z => ?_)
  rw [Finset.mem_toList, Finset.mem_toList, Finset.mem_Ioc, Finset.mem_Ioc]
  rfl

/-- Readings that are apart lie in a span that holds them all. -/
theorem climb_le_spread {ts : List ℤ} (h : Apart (steps ts)) : climb ts ≤ spread ts := by
  cases ts with
  | nil => exact le_rfl
  | cons a ts =>
    have hsub : (units (a :: ts)).toFinset ⊆ Finset.Ioc (ts.foldr min a) (ts.foldr max a) := by
      intro y hy
      obtain ⟨x, hx, hlt, hle⟩ := mem_units.mp (List.mem_toFinset.mp hy)
      obtain ⟨l, r, hsplit⟩ := mem_steps hx
      refine Finset.mem_Ioc.mpr ⟨lt_of_le_of_lt (foldr_min_le ?_) hlt, hle.trans (le_foldr_max ?_)⟩
      · simp [hsplit]
      · simp [hsplit]
    have hcard := Finset.card_le_card hsub
    rw [List.toFinset_card_of_nodup ((nodup_units_iff _).mpr h), Int.card_Ioc] at hcard
    have hle : ts.foldr min a ≤ ts.foldr max a := foldr_min_le (foldr_max_mem a ts)
    rw [← length_units]
    show ((units (a :: ts)).length : ℤ) ≤ ts.foldr max a - ts.foldr min a
    omega

/-- Readings that end no lower than they start climb further than they span
where they step over a unit twice. -/
theorem spread_lt_climb {a b : ℤ} {ts : List ℤ} (hb : (a :: ts).getLast? = some b) (hab : a ≤ b)
    (h : ¬ (units (a :: ts)).Nodup) : spread (a :: ts) < climb (a :: ts) := by
  have hsub : Finset.Ioc (ts.foldr min a) (ts.foldr max a) ⊆ (units (a :: ts)).toFinset := by
    intro y hy
    obtain ⟨hmin, hmax⟩ := Finset.mem_Ioc.mp hy
    exact List.mem_toFinset.mpr (mem_units.mpr (exists_step_over_of_mem_span hb hab hmin hmax))
  have hcard := Finset.card_le_card hsub
  have hlt : (units (a :: ts)).toFinset.card < (units (a :: ts)).length := by
    refine lt_of_le_of_ne (List.toFinset_card_le _) (fun he => h ?_)
    rw [List.card_toFinset] at he
    exact List.dedup_eq_self.mp ((List.dedup_sublist _).eq_of_length he)
  rw [Int.card_Ioc] at hcard
  rw [← length_units]
  show ts.foldr max a - ts.foldr min a < ((units (a :: ts)).length : ℤ)
  omega

/-- **No span is stepped over twice exactly where every stretch climbs no further
than it spans.** -/
theorem apart_iff (ts : List ℤ) :
    Apart (steps ts) ↔ ∀ mid, mid <:+: ts → climb mid ≤ spread mid := by
  constructor
  · intro h mid hmid
    exact climb_le_spread (h.sublist (steps_sublist hmid))
  · intro h
    induction ts with
    | nil => exact List.Pairwise.nil
    | cons a ts ih =>
      cases ts with
      | nil => exact List.Pairwise.nil
      | cons t ts =>
        refine List.pairwise_cons.mpr ⟨fun x hx => ?_, ih (fun mid hmid => h mid ?_)⟩
        · -- a later step over the same span, and the stretch up to it
          by_contra hover
          obtain ⟨z, hz, hz'⟩ := Set.not_disjoint_iff.mp hover
          obtain ⟨l, r, hsplit⟩ := mem_steps hx
          obtain ⟨m, hm⟩ : ∃ m, l ++ [x.1, x.2] = t :: m := by
            cases l with
            | nil => exact ⟨[x.2], by rw [(List.cons.inj hsplit).1]; rfl⟩
            | cons u l => exact ⟨l ++ [x.1, x.2], by rw [(List.cons.inj hsplit).1]; rfl⟩
          have hmid : a :: t :: m <:+: a :: t :: ts :=
            ⟨[], r, by rw [hsplit, ← hm]; simp⟩
          have hlast : (a :: t :: m).getLast? = some x.2 := by
            rw [← hm, ← List.cons_append, List.getLast?_append]
            rfl
          have hunits : z ∈ units (t :: m) := by
            rw [← hm]
            exact mem_units.mpr ⟨x, (steps_sublist_append_left l _).subset List.mem_cons_self, hz'⟩
          refine absurd (h _ hmid) (not_le.mpr (spread_lt_climb hlast (hz.1.le.trans hz'.2) ?_))
          rw [units_cons_cons, List.nodup_append]
          rintro ⟨-, -, hdisjoint⟩
          exact hdisjoint z (Finset.mem_toList.mpr (Finset.mem_Ioc.mpr hz)) z hunits rfl
        · exact hmid.trans (List.suffix_cons a _).isInfix

end RateBucket
