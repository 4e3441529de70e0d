import Mathlib.Data.Finset.Card
import Mathlib.Data.Finset.Dedup
import Mathlib.Data.List.Nodup

/-!
# A box office

What selling the tickets of one event means, whatever sells them: never more
than the capacity, and one ticket to a holder. A sale needs room and somebody
who holds no ticket yet, so an office that breaks either rule cannot be
reached.

`allocation` counts the sales of a whole run. If every new holder is one of
the buyers, and in the end either every buyer holds a ticket or nothing is
left, then the number of new tickets is settled: the tickets there were or
the buyers without one, whichever is less. Nothing else about the run
matters.
-/

/-- **The tickets of one event**: who holds one, in order of sale. -/
structure BoxOffice (U : Type) where
  capacity : ℕ
  holders : List U
  /-- One ticket to a holder. -/
  nodup : holders.Nodup
  /-- No more tickets than the capacity. -/
  within : holders.length ≤ capacity

namespace BoxOffice

variable {U : Type}

/-- Sell one ticket. -/
def sell (o : BoxOffice U) (u : U) (hroom : o.holders.length < o.capacity)
    (hu : u ∉ o.holders) : BoxOffice U where
  capacity := o.capacity
  holders := o.holders ++ [u]
  nodup := by
    rw [List.nodup_append]
    refine ⟨o.nodup, List.nodup_singleton u, fun a ha b hb hab => ?_⟩
    obtain rfl := List.mem_singleton.mp hb
    exact hu (hab ▸ ha)
  within := by
    rw [List.length_append]
    exact hroom

/-- Nothing is left. -/
def SoldOut (o : BoxOffice U) : Prop := o.holders.length = o.capacity

/-- An office after some more sales. -/
structure Extends (o₀ o : BoxOffice U) : Prop where
  capacity : o.capacity = o₀.capacity
  holders : o₀.holders <+: o.holders

namespace Extends

variable {o₀ o o' : BoxOffice U}

theorem refl (o : BoxOffice U) : o.Extends o := ⟨rfl, List.prefix_rfl⟩

theorem sell (h : o₀.Extends o) {u : U} (hroom : o.holders.length < o.capacity)
    (hu : u ∉ o.holders) : o₀.Extends (o.sell u hroom hu) :=
  ⟨h.capacity, h.holders.trans (List.prefix_append _ _)⟩

/-- **Who gets a ticket, counted.** Every new holder is one of the buyers,
and either nothing is left or every buyer holds a ticket: then as many
tickets were sold as there were left, or as there were buyers without one. -/
theorem allocation [DecidableEq U] (h : o₀.Extends o) {buyers : Finset U}
    (hnew : ∀ u ∈ o.holders, u ∈ o₀.holders ∨ u ∈ buyers)
    (hserved : o.SoldOut ∨ ∀ u ∈ buyers, u ∈ o.holders) :
    o.holders.length = o₀.holders.length
      + min (o₀.capacity - o₀.holders.length) (buyers \ o₀.holders.toFinset).card := by
  obtain ⟨sold, hsold⟩ := h.holders
  have hnodup := o.nodup
  rw [← hsold, List.nodup_append] at hnodup
  obtain ⟨-, hsoldNodup, hdisjoint⟩ := hnodup
  have hlength : o.holders.length = o₀.holders.length + sold.length := by
    rw [← hsold, List.length_append]
  have hwithin := o.within
  rw [h.capacity] at hwithin
  -- the new holders are buyers without a ticket
  have hsub : sold.toFinset ⊆ buyers \ o₀.holders.toFinset := by
    intro u hu
    rw [List.mem_toFinset] at hu
    have hold : u ∉ o₀.holders := fun h₀ => hdisjoint u h₀ u hu rfl
    rw [Finset.mem_sdiff, List.mem_toFinset]
    exact ⟨(hnew u (hsold ▸ List.mem_append_right _ hu)).resolve_left hold, hold⟩
  have hcard : sold.toFinset.card = sold.length := List.toFinset_card_of_nodup hsoldNodup
  have hle := Finset.card_le_card hsub
  rcases hserved with hout | hall
  · unfold SoldOut at hout
    rw [h.capacity] at hout
    omega
  · -- and every buyer without a ticket is a new holder
    have hsup : buyers \ o₀.holders.toFinset ⊆ sold.toFinset := by
      intro u hu
      rw [Finset.mem_sdiff, List.mem_toFinset] at hu
      rw [List.mem_toFinset]
      have hmem := hall u hu.1
      rw [← hsold] at hmem
      exact (List.mem_append.mp hmem).resolve_left hu.2
    have hge := Finset.card_le_card hsup
    omega

end Extends

end BoxOffice
