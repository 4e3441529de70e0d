import Mathlib.Algebra.Order.Group.MinMax
import Mathlib.Algebra.Order.Ring.Defs
import Mathlib.Algebra.Order.Floor.Ring
import Mathlib.Algebra.Order.Ring.Cast
import Mathlib.Data.Int.Cast.Lemmas
import Mathlib.Tactic.Abel
import Mathlib.Tactic.Linarith
import Mathlib.Tactic.Ring

/-!
# What a token bucket lets through

A token bucket is refilled in proportion to the time since it was last
refilled, up to a capacity, and a draw takes from it. The account is kept
against the clock readings the draws come with, in whatever order they come:
what a sequence of draws can take is the capacity plus the rate times how far
the readings *climb* (`FundedFrom.total_le`), where a step forward of the
clock counts and a step back does not.

For readings in order the climb is the time elapsed (`climb_of_pairwise`),
and the bound is the familiar one. For readings out of order it can exceed
the whole span of the clock, since a span stepped over twice counts twice.

A draw is *idle* if it takes nothing and leaves the bucket alone, the refill
time included; a bound that survives idle draws needs the triangle inequality
for climbs (`climbFrom_le`), which is why it is stated.

Draws that take every whole unit there is leave less than a unit behind, and
then what they take together is not only bounded but known: the whole units
in what was credited (`DrainedFrom.total_eq`), however the credit was split
into draws.
-/

namespace RateBucket

/-! ## Climbs -/

section Climb

variable {T : Type} [AddCommGroup T] [LinearOrder T] [IsOrderedAddMonoid T]

/-- How far a sequence of readings climbs, from a first one. -/
def climbFrom (a : T) : List T → T
  | [] => 0
  | t :: ts => max 0 (t - a) + climbFrom t ts

/-- How far a sequence of readings climbs: the sum of its steps forward. -/
def climb : List T → T
  | [] => 0
  | t :: ts => climbFrom t ts

/-- The span of a sequence of readings: its latest less its earliest. -/
def spread : List T → T
  | [] => 0
  | t :: ts => ts.foldr max t - ts.foldr min t

theorem climbFrom_nonneg (a : T) (ts : List T) : 0 ≤ climbFrom a ts := by
  induction ts generalizing a with
  | nil => exact le_rfl
  | cons t ts ih => exact add_nonneg (le_max_left _ _) (ih t)

/-- **A detour climbs no less.** -/
theorem climbFrom_le (a b : T) (ts : List T) :
    climbFrom a ts ≤ max 0 (b - a) + climbFrom b ts := by
  cases ts with
  | nil => exact add_nonneg (le_max_left _ _) le_rfl
  | cons t ts =>
    show max 0 (t - a) + climbFrom t ts ≤ max 0 (b - a) + (max 0 (t - b) + climbFrom t ts)
    rw [← add_assoc]
    refine add_le_add_left (max_le ?_ ?_) _
    · exact add_nonneg (le_max_left _ _) (le_max_left _ _)
    · calc t - a = (b - a) + (t - b) := by abel
        _ ≤ max 0 (b - a) + max 0 (t - b) := add_le_add (le_max_right _ _) (le_max_right _ _)

/-- From wherever it is counted, a climb is no less than from its first reading. -/
theorem climb_le_climbFrom (a : T) (ts : List T) : climb ts ≤ climbFrom a ts := by
  cases ts with
  | nil => exact le_rfl
  | cons t ts => exact le_add_of_nonneg_left (le_max_left _ _)

/-- **Two climbs, one after the other, climb no less together.** -/
theorem climb_append_le (ts us : List T) : climb ts + climb us ≤ climb (ts ++ us) := by
  have hfrom (a : T) (ts : List T) : climbFrom a ts + climb us ≤ climbFrom a (ts ++ us) := by
    induction ts generalizing a with
    | nil => exact (zero_add _).trans_le (climb_le_climbFrom a us)
    | cons t ts ih =>
      show max 0 (t - a) + climbFrom t ts + climb us ≤ max 0 (t - a) + climbFrom t (ts ++ us)
      rw [add_assoc]
      exact add_le_add le_rfl (ih t)
  cases ts with
  | nil => exact (zero_add _).le
  | cons t ts => exact hfrom t ts

/-- Readings in order climb from the first to the last. -/
theorem climbFrom_of_pairwise {a b : T} {ts : List T} (h : (a :: ts).Pairwise (· ≤ ·))
    (hb : (a :: ts).getLast? = some b) : climbFrom a ts = b - a := by
  induction ts generalizing a with
  | nil =>
    rw [List.getLast?_singleton, Option.some.injEq] at hb
    rw [← hb, sub_self]
    rfl
  | cons t ts ih =>
    have hat : a ≤ t := (List.pairwise_cons.mp h).1 t List.mem_cons_self
    rw [List.getLast?_cons_cons] at hb
    show max 0 (t - a) + climbFrom t ts = b - a
    rw [ih (List.pairwise_cons.mp h).2 hb, max_eq_right (sub_nonneg.mpr hat)]
    abel

/-- **Readings in order climb exactly the time elapsed.** -/
theorem climb_of_pairwise {a b : T} {ts : List T} (h : ts.Pairwise (· ≤ ·))
    (ha : ts.head? = some a) (hb : ts.getLast? = some b) : climb ts = b - a := by
  cases ts with
  | nil => exact absurd ha (by simp)
  | cons t ts =>
    rw [List.head?_cons, Option.some.injEq] at ha
    subst ha
    exact climbFrom_of_pairwise h hb

/-- Readings in order climb no further than the time they lie in. -/
theorem climb_le_of_pairwise {a b : T} (hab : a ≤ b) {ts : List T} (h : ts.Pairwise (· ≤ ·))
    (hts : ∀ t ∈ ts, a ≤ t ∧ t ≤ b) : climb ts ≤ b - a := by
  cases ts with
  | nil => exact sub_nonneg.mpr hab
  | cons t ts =>
    have hlast := List.getLast?_eq_some_getLast (List.cons_ne_nil t ts)
    rw [climb_of_pairwise h rfl hlast]
    exact sub_le_sub (hts _ (List.getLast_mem _)).2 (hts t List.mem_cons_self).1

end Climb

variable {K : Type} [CommRing K] [LinearOrder K] [IsStrictOrderedRing K]

theorem climbFrom_map_cast (a : ℤ) (ts : List ℤ) :
    climbFrom (a : K) (ts.map (fun t : ℤ => (t : K))) = (climbFrom a ts : ℤ) := by
  induction ts generalizing a with
  | nil => exact Int.cast_zero.symm
  | cons t ts ih =>
    show max 0 ((t : K) - a) + climbFrom (t : K) _ = ((max 0 (t - a) + climbFrom t ts : ℤ) : K)
    rw [ih]
    push_cast
    rfl

theorem climb_map_cast (ts : List ℤ) :
    climb (ts.map (fun t : ℤ => (t : K))) = (climb ts : ℤ) := by
  cases ts with
  | nil => exact Int.cast_zero.symm
  | cons t ts => exact climbFrom_map_cast t ts

/-! ## Draws -/

/-- A draw: the reading of the clock, and what was taken. -/
structure Draw (K : Type) where
  now : K
  spent : K

/-- What a sequence of draws takes. -/
def total (ds : List (Draw K)) : K := (ds.map Draw.spent).sum

/-- **Draws a bucket can pay for**, at a rate: the bucket holds `level` and
was refilled at `since`. A draw is idle, or it refills the bucket for the
time since, takes from it, and leaves a level that is not negative. -/
def Funded (rate : K) : K → K → List (Draw K) → Prop
  | _, _, [] => True
  | level, since, d :: ds =>
    (d.spent = 0 ∧ Funded rate level since ds)
      ∨ ∃ level', 0 ≤ level' ∧ d.spent + level' ≤ level + rate * max 0 (d.now - since)
        ∧ Funded rate level' d.now ds

/-- Draws a bucket of a capacity can pay for, wherever it stands at first:
the first draw that is not idle takes at most the capacity. -/
def FundedFrom (capacity rate : K) : List (Draw K) → Prop
  | [] => True
  | d :: ds =>
    (d.spent = 0 ∧ FundedFrom capacity rate ds)
      ∨ ∃ level', 0 ≤ level' ∧ d.spent + level' ≤ capacity ∧ Funded rate level' d.now ds

omit [LinearOrder K] [IsStrictOrderedRing K] in
theorem total_cons (d : Draw K) (ds : List (Draw K)) :
    total (d :: ds) = d.spent + total ds := List.sum_cons

/-- **A bucket pays its level, and the climb at the rate.** -/
theorem Funded.total_le {rate : K} (hrate : 0 ≤ rate) {level since : K} (hlevel : 0 ≤ level)
    {ds : List (Draw K)} (h : Funded rate level since ds) :
    total ds ≤ level + rate * climbFrom since (ds.map Draw.now) := by
  induction ds generalizing level since with
  | nil =>
    show (0 : K) ≤ level + rate * 0
    rwa [mul_zero, add_zero]
  | cons d ds ih =>
    rw [total_cons, List.map_cons]
    show _ ≤ level + rate * (max 0 (d.now - since) + climbFrom d.now (ds.map Draw.now))
    rw [mul_add]
    rcases h with ⟨hspent, h⟩ | ⟨level', hlevel', hdraw, h⟩
    · -- idle: the time since is still to be credited
      have hdetour := mul_le_mul_of_nonneg_left
        (climbFrom_le since d.now (ds.map Draw.now)) hrate
      rw [mul_add] at hdetour
      have := ih hlevel h
      rw [hspent]
      linarith
    · have := ih hlevel' h
      linarith

/-- **What a token bucket lets through**: its capacity, and the climb of the
readings at its rate. -/
theorem FundedFrom.total_le {capacity rate : K} (hcap : 0 ≤ capacity) (hrate : 0 ≤ rate)
    {ds : List (Draw K)} (h : FundedFrom capacity rate ds) :
    total ds ≤ capacity + rate * climb (ds.map Draw.now) := by
  induction ds with
  | nil =>
    show (0 : K) ≤ capacity + rate * 0
    rwa [mul_zero, add_zero]
  | cons d ds ih =>
    rw [total_cons, List.map_cons]
    show _ ≤ capacity + rate * climbFrom d.now (ds.map Draw.now)
    rcases h with ⟨hspent, h⟩ | ⟨level', hlevel', hdraw, h⟩
    · have := mul_le_mul_of_nonneg_left (climb_le_climbFrom d.now (ds.map Draw.now)) hrate
      have := ih h
      rw [hspent]
      linarith
    · have := h.total_le hrate hlevel'
      linarith

/-! ## Draining -/

/-- **Draws that drain a bucket**, at a rate: each is credited the time since
the last one and takes every whole unit there is, so that less than a unit is
left. -/
def Drained (rate : K) : K → K → List (Draw K) → Prop
  | _, _, [] => True
  | level, since, d :: ds =>
    ∃ level', 0 ≤ level' ∧ level' < 1
      ∧ d.spent + level' = level + rate * (d.now - since) ∧ Drained rate level' d.now ds

/-- Draws that drain a bucket found full. -/
def DrainedFrom (capacity rate : K) : List (Draw K) → Prop
  | [] => True
  | d :: ds =>
    ∃ level', 0 ≤ level' ∧ level' < 1 ∧ d.spent + level' = capacity
      ∧ Drained rate level' d.now ds

omit [IsStrictOrderedRing K] in
/-- Draining takes what was there and what was credited, up to a fraction. -/
theorem Drained.total_add {rate level since last : K} (h₀ : 0 ≤ level) (h₁ : level < 1)
    {ds : List (Draw K)} (h : Drained rate level since ds)
    (hlast : (since :: ds.map Draw.now).getLast? = some last) :
    ∃ level', 0 ≤ level' ∧ level' < 1
      ∧ total ds + level' = level + rate * (last - since) := by
  induction ds generalizing level since with
  | nil =>
    obtain rfl : since = last := Option.some.inj hlast
    refine ⟨level, h₀, h₁, ?_⟩
    rw [sub_self, mul_zero, add_zero]
    exact zero_add level
  | cons d ds ih =>
    obtain ⟨level₁, hnonneg, hlt, hdraw, hrest⟩ := h
    rw [List.map_cons, List.getLast?_cons_cons] at hlast
    obtain ⟨level', h₀', h₁', htotal⟩ := ih hnonneg hlt hrest hlast
    refine ⟨level', h₀', h₁', ?_⟩
    calc total (d :: ds) + level' = d.spent + (total ds + level') := by
          rw [total_cons, add_assoc]
      _ = (d.spent + level₁) + rate * (last - d.now) := by rw [htotal, add_assoc]
      _ = level + rate * (last - since) := by
          rw [hdraw]
          ring

/-- **What draining takes is independent of how it is split**: the whole units
of the capacity and of the credit between the first and the last draw. -/
theorem DrainedFrom.total_eq [FloorRing K] {capacity rate first last : K}
    {ds : List (Draw K)} (h : DrainedFrom capacity rate ds)
    (hfirst : (ds.map Draw.now).head? = some first)
    (hlast : (ds.map Draw.now).getLast? = some last) {n : ℤ} (hn : total ds = n) :
    n = ⌊capacity + rate * (last - first)⌋ := by
  cases ds with
  | nil => exact absurd hfirst (by simp)
  | cons d ds =>
    obtain ⟨level, hnonneg, hlt, hdraw, hrest⟩ := h
    obtain rfl : d.now = first := Option.some.inj hfirst
    obtain ⟨level', h₀, h₁, htotal⟩ := hrest.total_add hnonneg hlt hlast
    have hsum : (n : K) + level' = capacity + rate * (last - d.now) := by
      rw [← hn, total_cons, add_assoc, htotal, ← add_assoc, hdraw]
    refine (Int.floor_eq_iff.mpr ⟨?_, ?_⟩).symm
    · rw [← hsum]
      exact le_add_of_nonneg_right h₀
    · rw [← hsum]
      exact (add_lt_add_iff_left _).mpr h₁

end RateBucket
