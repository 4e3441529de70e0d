import Mathlib.Tactic.Tauto

/-!
# Custody

Things move between places, and an account says which thing lies where. The
account is exclusive if nothing lies in two places. Where the things of a set
are all handed over to one place, and nothing else moves, the account stays
exclusive and loses sight of nothing (`Transfer.exclusive`,
`Transfer.exists_iff`).

A hand-over is checked place by place: what leaves the one, what the other
gains, and that every other place keeps what it has (`Exclusive.transfer`).
Things no place had yet may arrive from outside (`Transfer.arrival`).
-/

variable {P α : Type} {Lies Lies' : P → α → Prop} {M : α → Prop} {a b : P}

/-- Nothing lies in two places. -/
def Exclusive (Lies : P → α → Prop) : Prop := ∀ x f g, Lies f x → Lies g x → f = g

/-- From one account to the next, the things of `M` come to lie at `b`, and
everything else stays. -/
def Transfer (Lies Lies' : P → α → Prop) (M : α → Prop) (b : P) : Prop :=
  ∀ f x, Lies' f x ↔ (M x ∧ f = b) ∨ (¬ M x ∧ Lies f x)

namespace Transfer

/-- A transfer keeps an account exclusive. -/
theorem exclusive (h : Transfer Lies Lies' M b) (he : Exclusive Lies) : Exclusive Lies' := by
  intro x f g hf hg
  obtain ⟨hx, rfl⟩ | ⟨hx, hf⟩ := (h f x).mp hf
  · obtain ⟨-, rfl⟩ | ⟨hx', -⟩ := (h g x).mp hg
    · rfl
    · exact absurd hx hx'
  · obtain ⟨hx', -⟩ | ⟨-, hg⟩ := (h g x).mp hg
    · exact absurd hx' hx
    · exact he x f g hf hg

/-- After a transfer, what lies somewhere is what did, and what was moved. -/
theorem exists_iff (h : Transfer Lies Lies' M b) (x : α) :
    (∃ f, Lies' f x) ↔ M x ∨ ∃ f, Lies f x := by
  constructor
  · rintro ⟨f, hf⟩
    exact ((h f x).mp hf).elim (fun hx => Or.inl hx.1) (fun hx => Or.inr ⟨f, hx.2⟩)
  · intro hx
    by_cases hM : M x
    · exact ⟨b, (h b x).mpr (Or.inl ⟨hM, rfl⟩)⟩
    · obtain ⟨f, hf⟩ := hx.resolve_left hM
      exact ⟨f, (h f x).mpr (Or.inr ⟨hM, hf⟩)⟩

/-- Nothing moves. -/
theorem still (h : ∀ f x, Lies' f x ↔ Lies f x) (b : P) :
    Transfer Lies Lies' (fun _ => False) b := by
  intro f x
  rw [h f x]
  simp

/-- **Arrival**: what lay nowhere comes to lie at `b`. -/
theorem arrival (hM : ∀ x f, M x → ¬ Lies f x) (hto : ∀ x, Lies' b x ↔ Lies b x ∨ M x)
    (hothers : ∀ f, f ≠ b → ∀ x, Lies' f x ↔ Lies f x) : Transfer Lies Lies' M b := by
  intro f x
  have hnew := hM x f
  by_cases hf : f = b
  · subst hf
    rw [hto]
    tauto
  · rw [hothers f hf]
    tauto

end Transfer

/-- **A hand-over**: some of what lies at `a` comes to lie at `b`. -/
theorem Exclusive.transfer (h : Exclusive Lies) (hab : a ≠ b) (hM : ∀ x, M x → Lies a x)
    (hfrom : ∀ x, Lies' a x ↔ Lies a x ∧ ¬ M x) (hto : ∀ x, Lies' b x ↔ Lies b x ∨ M x)
    (hothers : ∀ f, f ≠ a → f ≠ b → ∀ x, Lies' f x ↔ Lies f x) :
    Transfer Lies Lies' M b := by
  intro f x
  -- what is handed over lies nowhere else
  have halone : M x → f ≠ a → ¬ Lies f x := fun hx hf hl => hf (h x f a hl (hM x hx))
  by_cases hfa : f = a
  · subst hfa
    rw [hfrom]
    tauto
  · by_cases hfb : f = b
    · subst hfb
      rw [hto]
      tauto
    · rw [hothers f hfa hfb]
      tauto
