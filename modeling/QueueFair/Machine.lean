import Mathlib.Data.List.Basic

/-!
# Machines and their runs

A machine answers an action in a state and moves to another state. Its runs
are the lists of actions: `final` is where a run ends, and `trace` is its
history – for each action the state it met, what it was and what it was
answered. Whatever several clients do to one server is such a run, in the
order in which the server served them.

Two rules carry every statement about a run. A property of states that each
action keeps – each action of the run, or each that meets a condition – holds
at every visit and at the end (`final_invariant`, `trace_invariant`,
`trace_guarded`), and where keeping it is the same as meeting the condition,
the condition is the exact one (`prefix_iff`). A run splits where its history
does (`trace_eq_append`), so a statement about a stretch of a history is one
about the run of that stretch.

Two more rules compare two runs: one of related actions (`trace_simulation`),
and one of the same actions less some (`trace_filter_guarded`, `trace_filter`).
-/

/-- A machine: what it answers to an action, and the state after it. -/
structure Machine (S A R : Type) where
  step : S → A → R × S

/-- One entry of a history. -/
structure Visit (S A R : Type) where
  /-- The state the action met. -/
  before : S
  action : A
  reply : R

namespace Machine

variable {S A R : Type} (M : Machine S A R)

/-- Where a run ends. -/
def final (s : S) : List A → S
  | [] => s
  | a :: as => final (M.step s a).2 as

/-- **The history of a run.** -/
def trace (s : S) : List A → List (Visit S A R)
  | [] => []
  | a :: as => ⟨s, a, (M.step s a).1⟩ :: trace (M.step s a).2 as

@[simp] theorem trace_nil (s : S) : M.trace s [] = [] := rfl

theorem trace_cons (s : S) (a : A) (as : List A) :
    M.trace s (a :: as) = ⟨s, a, (M.step s a).1⟩ :: M.trace (M.step s a).2 as := rfl

theorem trace_append (s : S) (as bs : List A) :
    M.trace s (as ++ bs) = M.trace s as ++ M.trace (M.final s as) bs := by
  induction as generalizing s with
  | nil => rfl
  | cons a as ih =>
    show _ :: M.trace _ (as ++ bs) = _ :: (M.trace _ as ++ _)
    rw [ih]
    rfl

/-- **A run splits where its history does.** -/
theorem trace_eq_append {s : S} {as : List A} {xs ys : List (Visit S A R)}
    (h : M.trace s as = xs ++ ys) :
    ∃ bs cs, as = bs ++ cs ∧ xs = M.trace s bs ∧ ys = M.trace (M.final s bs) cs := by
  induction xs generalizing s as with
  | nil => exact ⟨[], as, rfl, rfl, h.symm⟩
  | cons x xs ih =>
    cases as with
    | nil => exact absurd h (by simp)
    | cons a as =>
      rw [trace_cons, List.cons_append, List.cons.injEq] at h
      obtain ⟨bs, cs, rfl, rfl, hys⟩ := ih h.2
      exact ⟨a :: bs, cs, rfl, by rw [trace_cons, h.1], hys⟩

/-- What a history says about an action is what the action does. -/
theorem trace_eq_cons {s : S} {as : List A} {x : Visit S A R} {ys : List (Visit S A R)}
    (h : M.trace s as = x :: ys) :
    ∃ cs, as = x.action :: cs ∧ x.before = s ∧ x.reply = (M.step s x.action).1
      ∧ ys = M.trace (M.step s x.action).2 cs := by
  cases as with
  | nil => exact absurd h (by simp)
  | cons a as =>
    rw [trace_cons, List.cons.injEq] at h
    obtain ⟨rfl, rfl⟩ := h
    exact ⟨as, rfl, rfl, rfl, rfl⟩

/-- The actions of a history are the actions of the run. -/
theorem map_action_trace (s : S) (as : List A) :
    (M.trace s as).map Visit.action = as := by
  induction as generalizing s with
  | nil => rfl
  | cons a as ih => exact congrArg (a :: ·) (ih _)

/-- The actions of a history are among the actions of the run. -/
theorem action_mem_of_mem_trace {s : S} {as : List A} {x : Visit S A R} (h : x ∈ M.trace s as) :
    x.action ∈ as := by
  rw [← M.map_action_trace s as]
  exact List.mem_map_of_mem h

/-- A history answers each action as the machine does. -/
theorem reply_of_mem_trace {s : S} {as : List A} {x : Visit S A R} (h : x ∈ M.trace s as) :
    x.reply = (M.step x.before x.action).1 := by
  induction as generalizing s with
  | nil => exact absurd h List.not_mem_nil
  | cons a as ih =>
    rcases List.mem_cons.mp h with rfl | h
    · rfl
    · exact ih h

theorem final_append (s : S) (as bs : List A) :
    M.final s (as ++ bs) = M.final (M.final s as) bs := by
  induction as generalizing s with
  | nil => rfl
  | cons a as ih => exact ih _

/-- **The invariant rule, for where a run ends.** -/
theorem final_invariant {P : S → Prop} {s : S} {as : List A}
    (hstep : ∀ s, ∀ a ∈ as, P s → P (M.step s a).2) (h : P s) :
    P (M.final s as) := by
  induction as generalizing s with
  | nil => exact h
  | cons a as ih =>
    exact ih (fun s b hb => hstep s b (List.mem_cons_of_mem a hb))
      (hstep s a List.mem_cons_self h)

/-- **The invariant rule, for what has happened so far**: what every action
that meets a condition keeps, of the history and the state it led to, holds
of the history of a run whose actions all meet it, and of its end. -/
theorem history_guarded {P : List (Visit S A R) → S → Prop} {C : S → A → Prop}
    (hstep : ∀ xs s a, P xs s → C s a → P (xs ++ [⟨s, a, (M.step s a).1⟩]) (M.step s a).2)
    {xs : List (Visit S A R)} {s : S} (h : P xs s) {as : List A}
    (hC : ∀ x ∈ M.trace s as, C x.before x.action) : P (xs ++ M.trace s as) (M.final s as) := by
  induction as generalizing xs s with
  | nil => rwa [trace_nil, List.append_nil]
  | cons a as ih =>
    obtain ⟨ha, has⟩ := List.forall_mem_cons.mp hC
    rw [trace_cons, List.append_cons]
    exact ih (hstep xs s a h ha) has

/-- Where every action keeps it, no condition is needed. -/
theorem history_invariant {P : List (Visit S A R) → S → Prop}
    (hstep : ∀ xs s a, P xs s → P (xs ++ [⟨s, a, (M.step s a).1⟩]) (M.step s a).2)
    {xs : List (Visit S A R)} {s : S} (h : P xs s) (as : List A) :
    P (xs ++ M.trace s as) (M.final s as) :=
  M.history_guarded (C := fun _ _ => True) (fun xs s a hs _ => hstep xs s a hs) h
    (fun _ _ => trivial)

/-- **The invariant rule, under a condition on the steps**: what every action
that meets the condition keeps holds at every visit of a run whose actions
all meet it. -/
theorem trace_guarded {P : S → Prop} {C : S → A → Prop} {s : S} {as : List A}
    (hstep : ∀ s a, P s → C s a → P (M.step s a).2) (h : P s)
    (hC : ∀ x ∈ M.trace s as, C x.before x.action) : ∀ x ∈ M.trace s as, P x.before := by
  induction as generalizing s with
  | nil => exact fun x hx => absurd hx List.not_mem_nil
  | cons a as ih =>
    obtain ⟨ha, has⟩ := List.forall_mem_cons.mp hC
    exact List.forall_mem_cons.mpr ⟨h, ih (hstep s a h ha) has⟩

/-- And it holds where such a run ends. -/
theorem final_guarded {P : S → Prop} {C : S → A → Prop} {s : S} {as : List A}
    (hstep : ∀ s a, P s → C s a → P (M.step s a).2) (h : P s)
    (hC : ∀ x ∈ M.trace s as, C x.before x.action) : P (M.final s as) := by
  induction as generalizing s with
  | nil => exact h
  | cons a as ih =>
    obtain ⟨ha, has⟩ := List.forall_mem_cons.mp hC
    exact ih (hstep s a h ha) has

/-- **The invariant rule, for the states a run visits.** -/
theorem trace_invariant {P : S → Prop} {s : S} {as : List A}
    (hstep : ∀ s, ∀ a ∈ as, P s → P (M.step s a).2) (h : P s) :
    ∀ x ∈ M.trace s as, P x.before :=
  M.trace_guarded (C := fun _ a => a ∈ as) (fun s a hs ha => hstep s a ha hs) h
    (fun _ hx => M.action_mem_of_mem_trace hx)

/-- **A visit met the end of a stretch of the run**, before its action. -/
theorem exists_final_of_mem_trace {s : S} {as : List A} {x : Visit S A R}
    (h : x ∈ M.trace s as) : ∃ bs, bs ++ [x.action] <+: as ∧ x.before = M.final s bs := by
  induction as generalizing s with
  | nil => exact absurd h List.not_mem_nil
  | cons a as ih =>
    rcases List.mem_cons.mp h with rfl | h
    · exact ⟨[], ⟨as, rfl⟩, rfl⟩
    · obtain ⟨bs, hbs, hx⟩ := ih h
      exact ⟨a :: bs, List.cons_prefix_cons.mpr ⟨rfl, hbs⟩, hx⟩

/-- **What has come to hold was brought about**: by some visit that met it
not holding. -/
theorem exists_visit_of_final {T : S → Prop} {s : S} {as : List A} (h₀ : ¬ T s)
    (h : T (M.final s as)) :
    ∃ x ∈ M.trace s as, ¬ T x.before ∧ T (M.step x.before x.action).2 := by
  induction as generalizing s with
  | nil => exact absurd h h₀
  | cons a as ih =>
    by_cases ha : T (M.step s a).2
    · exact ⟨⟨s, a, _⟩, List.mem_cons_self, h₀, ha⟩
    · obtain ⟨x, hx, hT⟩ := ih ha h
      exact ⟨x, List.mem_cons_of_mem _ hx, hT⟩

/-- **The two-run rule**: where related states answer related actions alike, as
far as an observer sees, and stay related, two runs of related actions look
the same to the observer. The second machine may be another one. -/
theorem trace_simulation {S' A' R' O : Type} {M' : Machine S' A' R'} {T : S → S' → Prop}
    {f : A → A'} {g : Visit S A R → O} {g' : Visit S' A' R' → O}
    (hstep : ∀ s s' a, T s s' → g ⟨s, a, (M.step s a).1⟩ = g' ⟨s', f a, (M'.step s' (f a)).1⟩
      ∧ T (M.step s a).2 (M'.step s' (f a)).2)
    {s : S} {s' : S'} (h : T s s') (as : List A) :
    (M.trace s as).map g = (M'.trace s' (as.map f)).map g' := by
  induction as generalizing s s' with
  | nil => rfl
  | cons a as ih =>
    obtain ⟨hg, hT⟩ := hstep s s' a h
    show g _ :: (M.trace _ as).map g = g' _ :: (M'.trace _ (as.map f)).map g'
    rw [hg, ih hT]

/-- **The deletion rule, under a condition on the steps**: where the actions that
are kept answer alike in related states, as far as they are seen, and stay
related, and the actions that are dropped leave related what was related, a run
without the dropped actions looks the same and ends in a related state. The
condition is one on the run with them. -/
theorem trace_filter_guarded {O : Type} {T : S → S → Prop} {C : S → A → Prop}
    {keep seen : A → Bool} {g : Visit S A R → O} {as : List A}
    (hkeep : ∀ s s' a, C s a → keep a = true → T s s' →
      (seen a = true → g ⟨s, a, (M.step s a).1⟩ = g ⟨s', a, (M.step s' a).1⟩)
        ∧ T (M.step s a).2 (M.step s' a).2)
    (hdrop : ∀ s s' a, C s a → keep a = false → T s s' →
      seen a = false ∧ T (M.step s a).2 s')
    {s s' : S} (hC : ∀ x ∈ M.trace s as, C x.before x.action) (h : T s s') :
    ((M.trace s as).filter (fun x => seen x.action)).map g
        = ((M.trace s' (as.filter keep)).filter (fun x => seen x.action)).map g
      ∧ T (M.final s as) (M.final s' (as.filter keep)) := by
  induction as generalizing s s' with
  | nil => exact ⟨rfl, h⟩
  | cons a as ih =>
    obtain ⟨ha, has⟩ := List.forall_mem_cons.mp hC
    cases hk : keep a with
    | true =>
      obtain ⟨hg, hT⟩ := hkeep s s' a ha hk h
      obtain ⟨htrace, hfinal⟩ := ih has hT
      rw [List.filter_cons_of_pos hk, trace_cons, trace_cons, List.filter_cons, List.filter_cons]
      refine ⟨?_, hfinal⟩
      dsimp only
      cases hs : seen a with
      | true => rw [if_pos rfl, if_pos rfl, List.map_cons, List.map_cons, hg hs, htrace]
      | false => exact htrace
    | false =>
      obtain ⟨hs, hT⟩ := hdrop s s' a ha hk h
      obtain ⟨htrace, hfinal⟩ := ih has hT
      rw [List.filter_cons_of_neg (ne_true_of_eq_false hk), trace_cons, List.filter_cons]
      dsimp only
      rw [if_neg (ne_true_of_eq_false hs)]
      exact ⟨htrace, hfinal⟩

/-- **The deletion rule**, where the actions of the run are all that is known of
it. -/
theorem trace_filter {O : Type} {T : S → S → Prop} {keep seen : A → Bool}
    {g : Visit S A R → O} {as : List A}
    (hkeep : ∀ s s', ∀ a ∈ as, keep a = true → T s s' →
      (seen a = true → g ⟨s, a, (M.step s a).1⟩ = g ⟨s', a, (M.step s' a).1⟩)
        ∧ T (M.step s a).2 (M.step s' a).2)
    (hdrop : ∀ s s', ∀ a ∈ as, keep a = false → T s s' →
      seen a = false ∧ T (M.step s a).2 s')
    {s s' : S} (h : T s s') :
    ((M.trace s as).filter (fun x => seen x.action)).map g
        = ((M.trace s' (as.filter keep)).filter (fun x => seen x.action)).map g
      ∧ T (M.final s as) (M.final s' (as.filter keep)) :=
  M.trace_filter_guarded (C := fun _ a => a ∈ as) hkeep hdrop
    (fun _ hx => M.action_mem_of_mem_trace hx) h

/-- **The exact condition of a property of every state**: where each action
keeps the property if and only if the action meets a condition, a run keeps
it throughout if and only if every action of it meets the condition. The
states are known to satisfy an invariant `P`. -/
theorem prefix_iff {P G : S → Prop} {C : S → A → Prop}
    (hP : ∀ s a, P s → P (M.step s a).2)
    (hstep : ∀ s a, P s → G s → (G (M.step s a).2 ↔ C s a)) {s : S} (hs : P s) (hg : G s)
    (as : List A) :
    (∀ bs, bs <+: as → G (M.final s bs)) ↔ ∀ bs b, bs ++ [b] <+: as → C (M.final s bs) b := by
  induction as generalizing s with
  | nil =>
    constructor
    · intro _ bs b h
      exact absurd h (by simp)
    · intro _ bs h
      rw [List.prefix_nil.mp h]
      exact hg
  | cons a as ih =>
    have hone := hstep s a hs hg
    constructor
    · intro h bs b hbs
      have hg' : G (M.step s a).2 := h [a] ⟨as, rfl⟩
      cases bs with
      | nil =>
        obtain ⟨rfl, -⟩ := List.cons_prefix_cons.mp hbs
        exact hone.mp hg'
      | cons b' bs =>
        obtain ⟨rfl, htail⟩ := List.cons_prefix_cons.mp hbs
        exact (ih (hP s b' hs) hg').mp
          (fun ds hds => h (b' :: ds) (List.cons_prefix_cons.mpr ⟨rfl, hds⟩)) bs b htail
    · intro h bs hbs
      have hg' : G (M.step s a).2 := hone.mpr (h [] a ⟨as, rfl⟩)
      cases bs with
      | nil => exact hg
      | cons b bs =>
        obtain ⟨rfl, htail⟩ := List.cons_prefix_cons.mp hbs
        exact (ih (hP s b hs) hg').mpr
          (fun ds d hds => h (b :: ds) d (List.cons_prefix_cons.mpr ⟨rfl, hds⟩)) bs htail

end Machine
