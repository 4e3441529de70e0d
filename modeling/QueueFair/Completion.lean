import QueueFair.BookingInvariant
import Mathlib.Algebra.Order.BigOperators.Group.Finset

/-!
# No call is stuck

A call waits in two places: its claim for the holder of the event's lock, its
insert for an insert that is not committed. Neither is a call that waits
itself – an open insert belongs to a call at its commit, and a lock to one
past its claim – so there is no deadlock: as long as some call has not ended,
some call has a statement that is served (`exists_advance`). No statement
that is served leads back, so the calls of every reachable state can be run
to completion (`exists_completion`).
-/

open Database

variable {ι : Type} [DecidableEq ι]

namespace CallPoint

/-- How many statements a call has left, at most. -/
def remaining : CallPoint → ℕ
  | .findByJti false => 7
  | .findByUser false => 6
  | .claim => 5
  | .checkExists => 4
  | .create => 4
  | .rollback _ => 3
  | .findByJti true => 2
  | .findByUser true => 1
  | .commit => 1
  | .done _ => 0

variable {i : ι} {c : AdmissionClaims} {db db' : BookingDb ι} {p q : CallPoint}

/-- **A statement is served, or it waits**: served, it leaves fewer. -/
theorem Issues.remaining_lt (h : Issues i c db p q db') :
    q.remaining < p.remaining ∨ q = p ∧ ((∃ o, p = .done o)
      ∨ (p = .claim ∧ ∃ x ∈ db.locks c.eventId, x.1 ≠ i)
      ∨ (p = .create ∧ ∃ x, x ∈ db.inserts)) := by
  cases h with
  | @foundByJti retry => cases retry <;> exact Or.inl (by simp [remaining])
  | @missedByJti retry => cases retry <;> exact Or.inl (by simp [remaining])
  | @foundByUser retry => cases retry <;> exact Or.inl (by simp [remaining])
  | claimWaits h => exact Or.inr ⟨rfl, Or.inr (Or.inl ⟨rfl, update_waits h⟩)⟩
  | createWaits hb h =>
    obtain ⟨x, hx, -⟩ := insert_waits h
    exact Or.inr ⟨rfl, Or.inr (Or.inr ⟨rfl, x, hx⟩)⟩
  | ended => exact Or.inr ⟨rfl, Or.inl ⟨_, rfl⟩⟩
  | @rolledBack error => cases error <;> exact Or.inl (by simp [afterRollback, remaining])
  | _ => exact Or.inl (by simp [remaining])

end CallPoint

namespace BookingState.Invariant

variable {claims : ι → AdmissionClaims} {s : BookingState ι}

/-- A call that claims, creates or has ended has no open insert. -/
theorem insertsOf_eq_nil (h : s.Invariant claims) {j : ι}
    (hj : (∃ o, s.call j = .done o) ∨ s.call j = .claim ∨ s.call j = .create) :
    s.db.insertsOf j = [] := by
  have hsound := h.sound j
  rcases hj with ⟨o, hj⟩ | hj | hj <;> rw [hj] at hsound
  · exact hsound.inserts
  · exact hsound.inserts
  · exact hsound.2

/-- **No deadlock**: while a call has not ended, some statement is served. -/
theorem exists_advance (h : s.Invariant claims) {i : ι} (hi : ∀ o, s.call i ≠ .done o) :
    ∃ j, ((s.call j).advance j (claims j) s.db).1.remaining < (s.call j).remaining := by
  by_contra hstuck
  have hwaits : ∀ j, (∃ o, s.call j = .done o)
      ∨ (s.call j = .claim ∧ ∃ x ∈ s.db.locks (claims j).eventId, x.1 ≠ j)
      ∨ (s.call j = .create ∧ ∃ x, x ∈ s.db.inserts) := by
    intro j
    have hissues := CallPoint.advance_issues j (claims j) s.db (s.call j)
    exact (hissues.remaining_lt.resolve_left (fun hlt => hstuck ⟨j, hlt⟩)).2
  -- nobody who waits has an open insert, so no insert waits
  have hinserts : ∀ x, x ∉ s.db.inserts := by
    intro x hx
    have hnil := h.insertsOf_eq_nil ((hwaits x.1).imp_right (Or.imp And.left And.left))
    have hmem : x.2 ∈ s.db.insertsOf x.1 :=
      List.mem_map_of_mem (List.mem_filter.mpr ⟨hx, decide_eq_true rfl⟩)
    rw [hnil] at hmem
    exact List.not_mem_nil hmem
  -- so everybody claims or has ended, and nobody holds a lock
  have hidle : ∀ j, s.db.Idle j := by
    intro j
    have hsound := h.sound j
    rcases hwaits j with ⟨o, hj⟩ | ⟨hj, -⟩ | ⟨-, x, hx⟩
    · rw [hj] at hsound
      exact hsound
    · rw [hj] at hsound
      exact hsound
    · exact absurd hx (hinserts x)
  rcases hwaits i with ⟨o, hdone⟩ | ⟨-, x, hx, -⟩ | ⟨-, x, hx⟩
  · exact hi o hdone
  · exact (hidle x.1).locks _ x.2 hx
  · exact hinserts x hx

/-- **Every reachable state can be completed**: finitely many calls can be
run to their ends, by their statements alone. -/
theorem exists_completion [Fintype ι] (h : s.Invariant claims) :
    ∃ acts : List (BookingAct ι), (∀ a ∈ acts, ∃ i, a = .advance i)
      ∧ ∀ i, ∃ o, ((BookingService claims).final s acts).call i = .done o := by
  induction hn : ∑ i, (s.call i).remaining using Nat.strong_induction_on generalizing s with
  | _ n ih =>
    by_cases hdone : ∀ i, ∃ o, s.call i = .done o
    · exact ⟨[], fun a ha => absurd ha List.not_mem_nil, hdone⟩
    · obtain ⟨i, hi⟩ := not_forall.mp hdone
      obtain ⟨j, hj⟩ := h.exists_advance (not_exists.mp hi)
      have hlt : ∑ i, (((BookingService claims).step s (.advance j)).2.call i).remaining < n := by
        rw [← hn]
        refine Finset.sum_lt_sum (fun i _ => ?_) ⟨j, Finset.mem_univ j, ?_⟩
        · by_cases hij : i = j
          · subst hij
            rw [BookingService.step_call_advance]
            exact hj.le
          · rw [BookingService.step_call_of_ne hij]
        · rw [BookingService.step_call_advance]
          exact hj
      obtain ⟨acts, hacts, hends⟩ := ih _ hlt (h.step (.advance j)) rfl
      exact ⟨.advance j :: acts, List.forall_mem_cons.mpr ⟨⟨j, rfl⟩, hacts⟩, hends⟩

end BookingState.Invariant
