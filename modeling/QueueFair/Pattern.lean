import Mathlib.Computability.RegularExpressions

/-!
# Patterns with anchors

A pattern is a row of pieces: regular expressions, which read text, and the
anchors `^` and `$`, which read none and look at where they stand. `^` holds
at the start of the text. `$` holds at its end, and just before a newline at
its end, which is the one place where a pattern between two anchors accepts
more than its expression does (`isMatch_anchored`).

The expressions are those of formal languages. What a class of characters, a
repeated class and a list with separators read is stated of their words, so
that nothing further on looks into a language.
-/

/-! ## Classes -/

/-- `a-b` in a class: the characters from one to another. -/
def Char.interval (a b : Char) : List Char :=
  (List.range' a.toNat (b.toNat + 1 - a.toNat)).map Char.ofNat

/-- Below the surrogates an interval holds what lies between its ends. -/
theorem Char.mem_interval {a b c : Char} (hb : b.toNat < 0xd800) :
    c ∈ interval a b ↔ a ≤ c ∧ c ≤ b := by
  have hle : ∀ d e : Char, d ≤ e ↔ d.toNat ≤ e.toNat := fun _ _ => UInt32.le_iff_toNat_le
  rw [interval, List.mem_map, hle, hle]
  constructor
  · rintro ⟨n, hn, rfl⟩
    rw [List.mem_range'_1] at hn
    have hvalid : n.isValidChar := Or.inl (by omega)
    have hn' : (Char.ofNat n).toNat = n := by
      rw [Char.ofNat, dif_pos hvalid]
      rfl
    omega
  · intro hc
    refine ⟨c.toNat, List.mem_range'_1.mpr ?_, Char.ofNat_toNat c⟩
    omega

/-! ## Expressions -/

namespace RegularExpression

variable {α : Type}

/-- `[…]`: one character of a class. -/
def oneOf (cs : List α) : RegularExpression α := (cs.map char).foldr (· + ·) 0

/-- `r+`. -/
def oneOrMore (r : RegularExpression α) : RegularExpression α := r * r.star

/-- `r(?:s r)*`: one or more, with a separator between any two. -/
def sepBy (s : α) (r : RegularExpression α) : RegularExpression α := r * (char s * r).star

variable {cs w : List α} {ys : List (List α)} {r : RegularExpression α} {s : α} {n : ℕ}

theorem mem_oneOf : w ∈ (oneOf cs).matches' ↔ ∃ c ∈ cs, w = [c] := by
  induction cs with
  | nil => exact iff_of_false id (by simp)
  | cons d cs ih =>
    show w ∈ (char d).matches' + (oneOf cs).matches' ↔ _
    rw [Language.mem_add, ih, List.exists_mem_cons_iff]
    rfl

/-- Words of a class, one behind the other. -/
theorem flatten_oneOf (h : ∀ y ∈ ys, y ∈ (oneOf cs).matches') :
    ys.flatten.length = ys.length ∧ ∀ c ∈ ys.flatten, c ∈ cs := by
  induction ys with
  | nil => exact ⟨rfl, fun c hc => absurd hc List.not_mem_nil⟩
  | cons y ys ih =>
    obtain ⟨hy, hys⟩ := List.forall_mem_cons.mp h
    obtain ⟨c, hc, rfl⟩ := mem_oneOf.mp hy
    obtain ⟨hlen, hmem⟩ := ih hys
    refine ⟨?_, List.forall_mem_cons.mpr ⟨hc, hmem⟩⟩
    rw [List.flatten_cons, List.length_append, hlen, Nat.add_comm]
    rfl

/-- Any characters of a class are words of it, one behind the other. -/
theorem exists_flatten_oneOf (h : ∀ c ∈ w, c ∈ cs) :
    ∃ ys : List (List α), w = ys.flatten ∧ ys.length = w.length
      ∧ ∀ y ∈ ys, y ∈ (oneOf cs).matches' := by
  refine ⟨w.map ([·]), ?_, List.length_map _, fun y hy => ?_⟩
  · rw [← List.flatMap_def, List.flatMap_singleton']
  · obtain ⟨c, hc, rfl⟩ := List.mem_map.mp hy
    exact mem_oneOf.mpr ⟨c, h c hc, rfl⟩

/-- `[…]{n}` reads so many characters of the class. -/
theorem mem_oneOf_pow :
    w ∈ (oneOf cs ^ n).matches' ↔ w.length = n ∧ ∀ c ∈ w, c ∈ cs := by
  rw [matches'_pow, Language.mem_pow]
  constructor
  · rintro ⟨ys, rfl, rfl, hys⟩
    exact flatten_oneOf hys
  · rintro ⟨rfl, hw⟩
    exact exists_flatten_oneOf hw

/-- `[…]+` reads some characters of the class. -/
theorem mem_oneOrMore_oneOf :
    w ∈ (oneOf cs).oneOrMore.matches' ↔ w ≠ [] ∧ ∀ c ∈ w, c ∈ cs := by
  unfold oneOrMore
  rw [matches'_mul, Language.mem_mul]
  constructor
  · rintro ⟨x, hx, y, hy, rfl⟩
    obtain ⟨c, hc, rfl⟩ := mem_oneOf.mp hx
    obtain ⟨ys, rfl, hys⟩ := Language.mem_kstar.mp hy
    exact ⟨List.cons_ne_nil _ _, List.forall_mem_cons.mpr ⟨hc, (flatten_oneOf hys).2⟩⟩
  · rintro ⟨hne, hw⟩
    obtain ⟨c, x, rfl⟩ := List.exists_cons_of_ne_nil hne
    obtain ⟨hc, hx⟩ := List.forall_mem_cons.mp hw
    obtain ⟨ys, hflat, -, hys⟩ := exists_flatten_oneOf hx
    exact ⟨[c], mem_oneOf.mpr ⟨c, hc, rfl⟩, x, Language.mem_kstar.mpr ⟨ys, hflat, hys⟩, rfl⟩

/-- Behind the first part of a list with separators, every part has one in
front. -/
theorem intercalate_singleton_cons (x : List α) (xs : List (List α)) :
    [s].intercalate (x :: xs) = x ++ (xs.map (s :: ·)).flatten := by
  induction xs generalizing x with
  | nil => rw [List.intercalate_singleton, List.map_nil, List.flatten_nil, List.append_nil]
  | cons y ys ih =>
    rw [List.intercalate_cons_cons, ih, List.map_cons, List.flatten_cons, List.append_assoc]
    rfl

/-- In a list with separators stand its parts, and the separator. -/
theorem mem_of_mem_intercalate {c : α} (hc : c ∈ [s].intercalate ys) :
    c = s ∨ ∃ y ∈ ys, c ∈ y := by
  cases ys with
  | nil => exact absurd hc List.not_mem_nil
  | cons x xs =>
    rw [intercalate_singleton_cons, List.mem_append, List.mem_flatten] at hc
    obtain hc | ⟨z, hz, hc⟩ := hc
    · exact Or.inr ⟨x, List.mem_cons_self, hc⟩
    · obtain ⟨y, hy, rfl⟩ := List.mem_map.mp hz
      exact (List.mem_cons.mp hc).imp_right (fun hc => ⟨y, List.mem_cons_of_mem x hy, hc⟩)

/-- **A list with separators**: some words, with the separator between any
two. -/
theorem mem_sepBy : w ∈ (r.sepBy s).matches' ↔
    ∃ xs : List (List α), xs ≠ [] ∧ (∀ x ∈ xs, x ∈ r.matches') ∧ w = [s].intercalate xs := by
  unfold sepBy
  rw [matches'_mul, Language.mem_mul]
  constructor
  · rintro ⟨x, hx, y, hy, rfl⟩
    obtain ⟨ys, rfl, hys⟩ := Language.mem_kstar.mp hy
    -- every word of the rest is a separator and a word
    have hsep : ∀ y ∈ ys, y = s :: y.tail ∧ y.tail ∈ r.matches' := by
      intro y hy
      obtain ⟨a, rfl, b, hb, rfl⟩ := Language.mem_mul.mp (hys y hy)
      exact ⟨rfl, hb⟩
    refine ⟨x :: ys.map List.tail, List.cons_ne_nil _ _, ?_, ?_⟩
    · refine List.forall_mem_cons.mpr ⟨hx, fun z hz => ?_⟩
      obtain ⟨y, hy, rfl⟩ := List.mem_map.mp hz
      exact (hsep y hy).2
    · rw [intercalate_singleton_cons, List.map_map]
      refine congrArg (fun zs : List (List α) => x ++ zs.flatten) ?_
      exact ((List.map_congr_left fun y hy => (hsep y hy).1.symm).trans (List.map_id _)).symm
  · rintro ⟨xs, hne, hxs, rfl⟩
    obtain ⟨x, xs, rfl⟩ := List.exists_cons_of_ne_nil hne
    obtain ⟨hx, hxs⟩ := List.forall_mem_cons.mp hxs
    refine ⟨x, hx, _, Language.mem_kstar.mpr ⟨_, rfl, fun y hy => ?_⟩,
      (intercalate_singleton_cons x xs).symm⟩
    obtain ⟨z, hz, rfl⟩ := List.mem_map.mp hy
    exact Language.mem_mul.mpr ⟨[s], rfl, z, hxs z hz, rfl⟩

end RegularExpression

/-! ## Pieces -/

/-- A piece of a pattern. -/
inductive Pattern.Piece (α : Type) where
  /-- `^`. -/
  | start
  /-- `$`. -/
  | stop
  | body (r : RegularExpression α)

/-- A pattern. -/
abbrev Pattern (α : Type) := List (Pattern.Piece α)

namespace Pattern

variable {α : Type} [DecidableEq α] (newline : α)

/-- Whether a pattern reads on, with so much of the text behind it and so much
ahead. -/
def matchFrom : Pattern α → List α → List α → Bool
  | [], _, _ => true
  | .start :: p, before, rest => before.isEmpty && matchFrom p before rest
  | .stop :: p, before, rest => (rest.isEmpty || rest == [newline]) && matchFrom p before rest
  | .body r :: p, before, rest =>
    (List.range (rest.length + 1)).any (fun n =>
      r.rmatch (rest.take n) && matchFrom p (before ++ rest.take n) (rest.drop n))

/-- **`re.match`**: whether a pattern matches at the start of a text. -/
def isMatch (p : Pattern α) (text : List α) : Bool := matchFrom newline p [] text

variable {newline} {p : Pattern α} {r : RegularExpression α} {before rest : List α}

/-- An expression reads any of its words, and the pattern reads on. -/
theorem matchFrom_body : matchFrom newline (.body r :: p) before rest = true ↔
    ∃ x y, rest = x ++ y ∧ x ∈ r.matches' ∧ matchFrom newline p (before ++ x) y = true := by
  rw [matchFrom, List.any_eq_true]
  constructor
  · rintro ⟨n, -, hn⟩
    rw [Bool.and_eq_true, RegularExpression.rmatch_iff_matches'] at hn
    exact ⟨_, _, (List.take_append_drop n rest).symm, hn⟩
  · rintro ⟨x, y, rfl, hx, hy⟩
    refine ⟨x.length, List.mem_range.mpr ?_, ?_⟩
    · rw [List.length_append]
      omega
    · rw [List.take_left, List.drop_left, Bool.and_eq_true,
        RegularExpression.rmatch_iff_matches']
      exact ⟨hx, hy⟩

/-- **A pattern between two anchors** matches a text that its expression
reads, and such a text with a newline behind it. -/
theorem isMatch_anchored {text : List α} :
    isMatch newline [.start, .body r, .stop] text = true ↔
      ∃ x ∈ r.matches', text = x ∨ text = x ++ [newline] := by
  have hstop : ∀ before rest, matchFrom newline [.stop] before rest = true ↔
      rest = [] ∨ rest = [newline] := by
    intro before rest
    simp only [matchFrom, Bool.and_true, Bool.or_eq_true, List.isEmpty_iff, beq_iff_eq]
  show matchFrom newline [.body r, .stop] [] text = true ↔ _
  rw [matchFrom_body]
  constructor
  · rintro ⟨x, y, rfl, hx, hy⟩
    obtain rfl | rfl := (hstop _ _).mp hy
    · exact ⟨x, hx, Or.inl (List.append_nil x)⟩
    · exact ⟨x, hx, Or.inr rfl⟩
  · rintro ⟨x, hx, rfl | rfl⟩
    · exact ⟨text, [], (List.append_nil _).symm, hx, (hstop _ _).mpr (Or.inl rfl)⟩
    · exact ⟨x, [newline], rfl, hx, (hstop _ _).mpr (Or.inr rfl)⟩

end Pattern
