import Mathlib.Data.List.Sort
import Mathlib.Order.Basic

/-!
# Sorted sets

A sorted set holds members, each once, with a score, and reads them in the
order of their scores; members of equal score are read in their own order.
The invariant – no member twice, entries in order – is part of the type, so
every operation returns a set that satisfies it and no later proof has to
maintain it.

The operations are the ones of a Redis sorted set: `score?` (ZSCORE),
`rank?` (ZRANK), `card` (ZCARD), `add` (ZADD, which moves a member already
present) and `popMin` (ZPOPMIN). What a first-in first-out queue asks of them
is `add_entries_of_last`: a new member scored above everyone is read last, so
adding it appends. Everything here is over any ordered members and scores.
-/

variable {M S : Type} [LinearOrder M] [LinearOrder S]

/-- The order of the entries of a sorted set: by score, and by member where
the scores are equal. -/
def ZSet.before (x y : M × S) : Prop := x.2 < y.2 ∨ (x.2 = y.2 ∧ x.1 ≤ y.1)

instance : DecidableRel (ZSet.before (M := M) (S := S)) :=
  fun _ _ => inferInstanceAs (Decidable (_ ∨ (_ ∧ _)))

/-- **A sorted set**: its entries in order, no member twice. -/
structure ZSet (M S : Type) [LinearOrder M] [LinearOrder S] where
  /-- The entries, in the order they are read. -/
  entries : List (M × S)
  /-- A member is held once. -/
  nodup : (entries.map Prod.fst).Nodup
  /-- The entries are in the order of their scores. -/
  sorted : entries.Pairwise ZSet.before

namespace ZSet

instance : Std.Total (before (M := M) (S := S)) where
  total x y := by
    rcases lt_trichotomy x.2 y.2 with h | h | h
    · exact Or.inl (Or.inl h)
    · rcases le_total x.1 y.1 with h' | h'
      · exact Or.inl (Or.inr ⟨h, h'⟩)
      · exact Or.inr (Or.inr ⟨h.symm, h'⟩)
    · exact Or.inr (Or.inl h)

instance : IsTrans (M × S) before where
  trans x y z hxy hyz := by
    rcases hxy with h | ⟨h, h'⟩ <;> rcases hyz with k | ⟨k, k'⟩
    · exact Or.inl (h.trans k)
    · exact Or.inl (k ▸ h)
    · exact Or.inl (h ▸ k)
    · exact Or.inr ⟨h.trans k, h'.trans k'⟩

@[ext] theorem ext {z z' : ZSet M S} (h : z.entries = z'.entries) : z = z' := by
  cases z; cases z'; congr

/-- The empty set, which is what a missing key reads as. -/
def empty : ZSet M S := ⟨[], List.nodup_nil, List.Pairwise.nil⟩

/-- The members, in order. -/
def members (z : ZSet M S) : List M := z.entries.map Prod.fst

/-- ZCARD: how many members there are. -/
def card (z : ZSet M S) : ℕ := z.entries.length

/-- ZSCORE: the score of a member, if it is one. -/
def score? (z : ZSet M S) (m : M) : Option S :=
  (z.entries.find? (fun x => x.1 = m)).map Prod.snd

/-- ZRANK: how many members are read before this one, if it is one. -/
def rank? (z : ZSet M S) (m : M) : Option ℕ :=
  if m ∈ z.members then some (z.members.idxOf m) else none

/-- ZPOPMIN: the `n` first entries. -/
def popped (z : ZSet M S) (n : ℕ) : List (M × S) := z.entries.take n

/-- ZPOPMIN: what is left once the `n` first entries are gone. -/
def popMin (z : ZSet M S) (n : ℕ) : ZSet M S where
  entries := z.entries.drop n
  nodup := z.nodup.sublist ((List.drop_sublist n _).map _)
  sorted := z.sorted.sublist (List.drop_sublist n _)

/-- ZADD: give a member a score, whether or not it had one. -/
def add (z : ZSet M S) (m : M) (s : S) : ZSet M S where
  entries := (z.entries.filter (fun x => x.1 ≠ m)).orderedInsert before (m, s)
  nodup := by
    have hperm := (List.perm_orderedInsert before (m, s)
      (z.entries.filter (fun x => x.1 ≠ m))).map Prod.fst
    refine hperm.nodup_iff.mpr ?_
    rw [List.map_cons, List.nodup_cons]
    constructor
    · simp
    · exact z.nodup.sublist (List.filter_sublist.map _)
  sorted := (z.sorted.sublist List.filter_sublist).orderedInsert _ _

/-! ## Reading -/

@[simp] theorem length_members (z : ZSet M S) : z.members.length = z.card :=
  List.length_map _

theorem members_nodup (z : ZSet M S) : z.members.Nodup := z.nodup

/-- A score is the score of an entry. -/
theorem score?_eq_some_iff (z : ZSet M S) {m : M} {s : S} :
    z.score? m = some s ↔ (m, s) ∈ z.entries := by
  unfold score?
  constructor
  · intro h
    obtain ⟨x, hx, rfl⟩ := Option.map_eq_some_iff.mp h
    have hm : x.1 = m := by simpa using List.find?_some hx
    rw [← hm]
    exact List.mem_of_find?_eq_some hx
  · intro h
    cases hf : z.entries.find? (fun x => x.1 = m) with
    | none =>
      have := List.find?_eq_none.mp hf (m, s) h
      simp at this
    | some x =>
      have hm : x.1 = m := by simpa using List.find?_some hf
      have hx := List.mem_of_find?_eq_some hf
      have := List.inj_on_of_nodup_map z.nodup hx h hm
      rw [this]
      rfl

/-- Exactly the members have no missing score. -/
theorem score?_eq_none_iff (z : ZSet M S) {m : M} :
    z.score? m = none ↔ m ∉ z.members := by
  unfold score? members
  rw [Option.map_eq_none_iff, List.find?_eq_none]
  constructor
  · intro h hm
    obtain ⟨x, hx, rfl⟩ := List.mem_map.mp hm
    simpa using h x hx
  · intro h x hx
    have : x.1 ≠ m := fun he => h (he ▸ List.mem_map_of_mem hx)
    simpa using this

theorem rank?_eq_none_iff (z : ZSet M S) {m : M} :
    z.rank? m = none ↔ m ∉ z.members := by
  unfold rank?
  split <;> simp_all

theorem rank?_of_mem (z : ZSet M S) {m : M} (h : m ∈ z.members) :
    z.rank? m = some (z.members.idxOf m) := if_pos h

/-! ## Popping -/

@[simp] theorem members_popMin (z : ZSet M S) (n : ℕ) :
    (z.popMin n).members = z.members.drop n := List.map_drop

theorem map_fst_popped (z : ZSet M S) (n : ℕ) :
    (z.popped n).map Prod.fst = z.members.take n := List.map_take

theorem length_popped_of_le {z : ZSet M S} {n : ℕ} (h : n ≤ z.card) :
    (z.popped n).length = n := List.length_take_of_le h

/-- What is popped, followed by what is left, is the set. -/
theorem popped_append_popMin (z : ZSet M S) (n : ℕ) :
    (z.popped n).map Prod.fst ++ (z.popMin n).members = z.members := by
  rw [map_fst_popped, members_popMin, List.take_append_drop]

/-! ## Adding -/

/-- Adding a member makes it one, and nobody else. -/
theorem mem_members_add (z : ZSet M S) {m m' : M} {s : S} :
    m' ∈ (z.add m s).members ↔ m' = m ∨ m' ∈ z.members := by
  have hperm := ((List.perm_orderedInsert before (m, s)
    (z.entries.filter (fun x => x.1 ≠ m))).map Prod.fst).mem_iff (a := m')
  rw [show (z.add m s).members = _ from rfl, add, members, hperm, List.map_cons, List.mem_cons]
  by_cases hm : m' = m
  · simp [hm]
  · simp [hm, members]

/-- **A new member scored above everyone is read last.** This is what makes
a sorted set scored by a counter a first-in first-out queue. -/
theorem add_entries_of_last (z : ZSet M S) {m : M} {s : S}
    (hm : m ∉ z.members) (hs : ∀ x ∈ z.entries, x.2 < s) :
    (z.add m s).entries = z.entries ++ [(m, s)] := by
  have hfil : z.entries.filter (fun x => x.1 ≠ m) = z.entries := by
    refine List.filter_eq_self.mpr (fun x hx => ?_)
    have : x.1 ≠ m := fun h => hm (h ▸ List.mem_map_of_mem hx)
    simpa using this
  show (z.entries.filter (fun x => x.1 ≠ m)).orderedInsert before (m, s) = _
  rw [hfil]
  clear hfil hm
  -- the insertion walks past every entry, each of them scored below `s`
  generalize z.entries = l at hs
  induction l with
  | nil => rfl
  | cons x l ih =>
    have hx : ¬ before (m, s) x := by
      have hlt : x.2 < s := hs x List.mem_cons_self
      rintro (h | ⟨h, -⟩)
      · exact lt_asymm hlt h
      · exact hlt.ne' h
    rw [List.orderedInsert_of_not_le _ _ hx,
      ih (fun y hy => hs y (List.mem_cons_of_mem x hy))]
    rfl

end ZSet
