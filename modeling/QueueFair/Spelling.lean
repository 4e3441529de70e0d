import QueueFair.EventState
import QueueFair.Pattern
import QueueFair.Validation

/-!
# What the validators accept

The two predicates of `validation.py` against the patterns they are written
with, and against the texts they are meant for: 32 hex digits, and runs of
slug characters joined by single hyphens. Predicate and pattern agree on every
text (`isValidQueueToken_eq_isMatch`, `isValidEventId_eq_isMatch`). Predicate
and meant text do not: `$` holds before a newline at the end, so each text is
accepted in a second spelling, with a newline behind it, and that is the only
one (`isValidQueueToken_iff`, `isValidEventId_iff`).

A second spelling of a token is another member of the queue. Nothing between
the request and the script takes the newline off, so whoever holds a place
takes another with it (`EventState.joined_of_second_spelling`).
-/

/-! ## The patterns -/

/-- `[a-z0-9]+`. -/
def slugRun : RegularExpression Char :=
  .oneOrMore (.oneOf (Char.interval 'a' 'z' ++ Char.interval '0' '9'))

/-- `^[a-z0-9]+(?:-[a-z0-9]+)*$`. -/
def EVENT_ID_RE : Pattern Char := [.start, .body (slugRun.sepBy '-'), .stop]

/-- `^[0-9a-f]{32}$`. -/
def QUEUE_TOKEN_RE : Pattern Char :=
  [.start, .body (.oneOf (Char.interval '0' '9' ++ Char.interval 'a' 'f') ^ 32), .stop]

/-- A line is a text that is accepted, or one with a newline behind it. -/
theorem matchesLine_iff {p : List Char → Bool} {value : String} : matchesLine p value = true ↔
    ∃ cs, p cs = true ∧ (value.toList = cs ∨ value.toList = cs ++ ['\n']) := by
  refine ⟨toList_of_matchesLine, ?_⟩
  rintro ⟨cs, hcs, htext | htext⟩
  · unfold matchesLine
    rw [htext, hcs, Bool.true_or]
  · unfold matchesLine
    rw [htext, List.getLast?_concat, List.dropLast_concat, hcs, Bool.and_true, beq_self_eq_true,
      Bool.or_true]

/-- A predicate that accepts the words of an expression accepts, of lines, what
the pattern between two anchors matches. -/
theorem matchesLine_eq_isMatch {p : List Char → Bool} {r : RegularExpression Char}
    (h : ∀ cs, p cs = true ↔ cs ∈ r.matches') (value : String) :
    matchesLine p value = Pattern.isMatch '\n' [.start, .body r, .stop] value.toList := by
  rw [Bool.eq_iff_iff, matchesLine_iff, Pattern.isMatch_anchored]
  exact exists_congr (fun cs => and_congr_left' (h cs))

theorem mem_hexDigits {c : Char} :
    c ∈ Char.interval '0' '9' ++ Char.interval 'a' 'f' ↔ hexChar c = true := by
  unfold hexChar
  rw [List.mem_append, Char.mem_interval (by decide), Char.mem_interval (by decide)]
  simp only [Bool.or_eq_true, Bool.and_eq_true, decide_eq_true_eq]

theorem mem_slugChars {c : Char} :
    c ∈ Char.interval 'a' 'z' ++ Char.interval '0' '9' ↔ slugChar c = true := by
  unfold slugChar
  rw [List.mem_append, Char.mem_interval (by decide), Char.mem_interval (by decide)]
  simp only [Bool.or_eq_true, Bool.and_eq_true, decide_eq_true_eq]

/-- **A queue token is valid if its pattern matches.** -/
theorem isValidQueueToken_eq_isMatch (value : String) :
    isValidQueueToken value = QUEUE_TOKEN_RE.isMatch '\n' value.toList := by
  refine matchesLine_eq_isMatch (fun cs => ?_) value
  unfold hexText
  rw [Bool.and_eq_true, beq_iff_eq, List.all_eq_true, RegularExpression.mem_oneOf_pow]
  exact and_congr_right' (forall₂_congr (fun c _ => mem_hexDigits.symm))

/-! ## Runs and hyphens -/

/-- A run: some slug characters. -/
def RunText (cs : List Char) : Prop := cs ≠ [] ∧ ∀ c ∈ cs, slugChar c = true

theorem mem_slugRun {cs : List Char} : cs ∈ slugRun.matches' ↔ RunText cs := by
  unfold slugRun RunText
  rw [RegularExpression.mem_oneOrMore_oneOf]
  exact and_congr_right' (forall₂_congr (fun c _ => mem_slugChars))

/-- Slug characters are read within a run. -/
theorem slugText_append {x cs : List Char} (hx : ∀ c ∈ x, slugChar c = true) :
    slugText true (x ++ cs) = slugText true cs := by
  induction x with
  | nil => rfl
  | cons c x ih =>
    obtain ⟨hc, hx⟩ := List.forall_mem_cons.mp hx
    have hne : c ≠ '-' := by
      rintro rfl
      exact absurd hc (by decide)
    show (if c = '-' then _ else slugChar c && slugText true (x ++ cs)) = _
    rw [if_neg hne, hc, Bool.true_and, ih hx]

/-- A run is read from wherever one may begin. -/
theorem slugText_run {x cs : List Char} (hx : RunText x) :
    slugText false (x ++ cs) = slugText true cs := by
  obtain ⟨hne, hx⟩ := hx
  obtain ⟨c, x, rfl⟩ := List.exists_cons_of_ne_nil hne
  rw [← slugText_append hx]
  show (if c = '-' then _ else _) = if c = '-' then _ else _
  have hc : c ≠ '-' := by
    rintro rfl
    exact absurd (hx '-' List.mem_cons_self) (by decide)
  rw [if_neg hc, if_neg hc]

/-- Runs joined by hyphens are read to their end. -/
theorem slugText_intercalate {xs : List (List Char)} (hne : xs ≠ []) (hxs : ∀ x ∈ xs, RunText x) :
    slugText false (['-'].intercalate xs) = true := by
  induction xs with
  | nil => exact absurd rfl hne
  | cons x xs ih =>
    obtain ⟨hx, hxs⟩ := List.forall_mem_cons.mp hxs
    cases xs with
    | nil =>
      rw [List.intercalate_singleton, ← List.append_nil x, slugText_run hx]
      rfl
    | cons y ys =>
      rw [List.intercalate_cons_cons, List.append_assoc, slugText_run hx]
      exact ih (List.cons_ne_nil _ _) hxs

/-- What is read to its end is runs joined by hyphens, of which the first may
have begun before. -/
theorem exists_of_slugText {inRun : Bool} {cs : List Char} (h : slugText inRun cs = true) :
    ∃ x xs, (∀ c ∈ x, slugChar c = true) ∧ (inRun = false → x ≠ [])
      ∧ (∀ y ∈ xs, RunText y) ∧ cs = ['-'].intercalate (x :: xs) := by
  induction cs generalizing inRun with
  | nil =>
    obtain rfl : inRun = true := h
    exact ⟨[], [], fun c hc => absurd hc List.not_mem_nil, nofun,
      fun y hy => absurd hy List.not_mem_nil, List.intercalate_singleton.symm⟩
  | cons c cs ih =>
    unfold slugText at h
    by_cases hc : c = '-'
    · subst hc
      rw [if_pos rfl, Bool.and_eq_true] at h
      obtain ⟨rfl, h⟩ := h
      obtain ⟨x, xs, hx, hne, hxs, rfl⟩ := ih h
      refine ⟨[], x :: xs, fun c hc => absurd hc List.not_mem_nil, nofun,
        List.forall_mem_cons.mpr ⟨⟨hne rfl, hx⟩, hxs⟩, ?_⟩
      rw [List.intercalate_cons_cons]
      rfl
    · rw [if_neg hc, Bool.and_eq_true] at h
      obtain ⟨x, xs, hx, -, hxs, rfl⟩ := ih h.2
      refine ⟨c :: x, xs, List.forall_mem_cons.mpr ⟨h.1, hx⟩, fun _ => List.cons_ne_nil _ _, hxs,
        ?_⟩
      rw [RegularExpression.intercalate_singleton_cons,
        RegularExpression.intercalate_singleton_cons]
      rfl

/-- **A slug is runs joined by single hyphens.** -/
theorem slugText_iff {cs : List Char} : slugText false cs = true ↔
    ∃ xs : List (List Char), xs ≠ [] ∧ (∀ x ∈ xs, RunText x) ∧ cs = ['-'].intercalate xs := by
  constructor
  · intro h
    obtain ⟨x, xs, hx, hne, hxs, htext⟩ := exists_of_slugText h
    exact ⟨x :: xs, List.cons_ne_nil _ _, List.forall_mem_cons.mpr ⟨⟨hne rfl, hx⟩, hxs⟩, htext⟩
  · rintro ⟨xs, hne, hxs, rfl⟩
    exact slugText_intercalate hne hxs

/-- **An event id is valid if it fits and its pattern matches.** -/
theorem isValidEventId_eq_isMatch (value : String) : isValidEventId value
    = (value.length ≤ EVENT_ID_MAX_LENGTH && EVENT_ID_RE.isMatch '\n' value.toList) := by
  refine congrArg (_ && ·) (matchesLine_eq_isMatch (fun cs => ?_) value)
  rw [slugText_iff, RegularExpression.mem_sepBy]
  exact exists_congr (fun xs => and_congr_right' (and_congr_left'
    (forall₂_congr (fun x _ => mem_slugRun.symm))))

/-! ## The texts that are meant -/

/-- A character of `0-9`. -/
def IsDigit (c : Char) : Prop := '0' ≤ c ∧ c ≤ '9'

/-- A queue token: 32 characters, each one of `0-9` or `a-f`. -/
def QueueTokenText (s : String) : Prop :=
  s.length = 32 ∧ ∀ c ∈ s.toList, IsDigit c ∨ 'a' ≤ c ∧ c ≤ 'f'

/-- A run of an event id: some characters, each one of `a-z` or `0-9`. -/
def SlugRun (s : String) : Prop := s ≠ "" ∧ ∀ c ∈ s.toList, 'a' ≤ c ∧ c ≤ 'z' ∨ IsDigit c

/-- An event id: at most 64 characters, one or more runs joined by single
hyphens. -/
def EventIdText (s : String) : Prop :=
  s.length ≤ 64 ∧ ∃ runs : List String,
    runs ≠ [] ∧ (∀ r ∈ runs, SlugRun r) ∧ s = "-".intercalate runs

/-- The token pattern reads queue tokens. -/
theorem mem_queueToken {s : String} :
    s.toList ∈ (RegularExpression.oneOf
        (Char.interval '0' '9' ++ Char.interval 'a' 'f') ^ 32).matches' ↔ QueueTokenText s := by
  rw [RegularExpression.mem_oneOf_pow, String.length_toList]
  refine and_congr_right' (forall₂_congr (fun c _ => ?_))
  rw [List.mem_append, Char.mem_interval (by decide), Char.mem_interval (by decide)]
  rfl

theorem mem_run {s : String} : s.toList ∈ slugRun.matches' ↔ SlugRun s := by
  unfold slugRun SlugRun
  rw [RegularExpression.mem_oneOrMore_oneOf, ne_eq, String.toList_eq_nil_iff]
  refine and_congr_right' (forall₂_congr (fun c _ => ?_))
  rw [List.mem_append, Char.mem_interval (by decide), Char.mem_interval (by decide)]
  rfl

/-- The event id pattern reads runs joined by hyphens. -/
theorem mem_slug {s : String} : s.toList ∈ (slugRun.sepBy '-').matches' ↔
    ∃ runs : List String, runs ≠ [] ∧ (∀ r ∈ runs, SlugRun r) ∧ s = "-".intercalate runs := by
  rw [RegularExpression.mem_sepBy]
  constructor
  · rintro ⟨xs, hne, hxs, htext⟩
    have hback : (xs.map String.ofList).map String.toList = xs := by
      rw [List.map_map]
      exact (List.map_congr_left fun x _ => String.toList_ofList).trans (List.map_id _)
    refine ⟨xs.map String.ofList, fun he => hne (List.map_eq_nil_iff.mp he), ?_, ?_⟩
    · refine List.forall_mem_map.mpr (fun x hx => mem_run.mp ?_)
      rw [String.toList_ofList]
      exact hxs x hx
    · refine String.toList_injective ?_
      rw [htext, String.toList_intercalate, hback]
      rfl
  · rintro ⟨runs, hne, hruns, rfl⟩
    refine ⟨runs.map String.toList, fun he => hne (List.map_eq_nil_iff.mp he),
      List.forall_mem_map.mpr (fun r hr => mem_run.mpr (hruns r hr)), ?_⟩
    rw [String.toList_intercalate]
    rfl

/-- A pattern between two anchors, over texts. -/
theorem isMatch_text {r : RegularExpression Char} {s : String} :
    Pattern.isMatch '\n' [.start, .body r, .stop] s.toList = true ↔
      s.toList ∈ r.matches' ∨ ∃ t : String, t.toList ∈ r.matches' ∧ s = t ++ "\n" := by
  have hnl : ∀ t : String, (t ++ "\n").toList = t.toList ++ ['\n'] := fun t => String.toList_append
  rw [Pattern.isMatch_anchored]
  constructor
  · rintro ⟨cs, hcs, rfl | htext⟩
    · exact Or.inl hcs
    · refine Or.inr ⟨String.ofList cs, ?_, String.toList_injective ?_⟩
      · rwa [String.toList_ofList]
      · rw [hnl, htext, String.toList_ofList]
  · rintro (hs | ⟨t, ht, rfl⟩)
    · exact ⟨s.toList, hs, Or.inl rfl⟩
    · exact ⟨t.toList, ht, Or.inr (hnl t)⟩

/-- **What is accepted as a queue token**: a queue token, and one with a
newline behind it. -/
theorem isValidQueueToken_iff {s : String} : isValidQueueToken s = true ↔
    QueueTokenText s ∨ ∃ t, QueueTokenText t ∧ s = t ++ "\n" := by
  rw [isValidQueueToken_eq_isMatch, QUEUE_TOKEN_RE, isMatch_text, mem_queueToken]
  exact or_congr_right (exists_congr (fun t => and_congr_left' mem_queueToken))

/-- **What is accepted as an event id**: an event id, and one with a newline
behind it if the newline fits. -/
theorem isValidEventId_iff {s : String} : isValidEventId s = true ↔
    EventIdText s ∨ ∃ t, (EventIdText t ∧ t.length < EVENT_ID_MAX_LENGTH) ∧ s = t ++ "\n" := by
  rw [isValidEventId_eq_isMatch, Bool.and_eq_true, decide_eq_true_eq, EVENT_ID_RE, isMatch_text,
    and_or_left, mem_slug]
  refine or_congr_right ?_
  rw [← exists_and_left]
  refine exists_congr (fun t => ?_)
  rw [mem_slug]
  constructor
  · rintro ⟨hlen, hslug, rfl⟩
    rw [String.length_append] at hlen
    exact ⟨⟨⟨Nat.le_of_succ_le hlen, hslug⟩, hlen⟩, rfl⟩
  · rintro ⟨⟨⟨-, hslug⟩, hlen⟩, rfl⟩
    rw [String.length_append]
    exact ⟨hlen, hslug, rfl⟩

/-! ## One spelling, but for a newline -/

/-- No text that is meant ends in a newline. -/
theorem not_queueTokenText_newline (t : String) : ¬ QueueTokenText (t ++ "\n") := by
  rintro ⟨-, hchars⟩
  have hnl : '\n' ∈ (t ++ "\n").toList := by
    rw [String.toList_append]
    exact List.mem_append_right _ List.mem_cons_self
  exact absurd (hchars '\n' hnl) (by unfold IsDigit; decide)

theorem not_eventIdText_newline (t : String) : ¬ EventIdText (t ++ "\n") := by
  rintro ⟨-, runs, -, hruns, htext⟩
  have hnl : '\n' ∈ ("-".intercalate runs).toList := by
    rw [← htext, String.toList_append]
    exact List.mem_append_right _ List.mem_cons_self
  rw [String.toList_intercalate] at hnl
  obtain hhyphen | ⟨x, hx, hmem⟩ := RegularExpression.mem_of_mem_intercalate hnl
  · exact absurd hhyphen (by decide)
  · obtain ⟨r, hr, rfl⟩ := List.mem_map.mp hx
    exact absurd ((hruns r hr).2 '\n' hmem) (by unfold IsDigit; decide)

/-- **The validators accept exactly their grammars**, of one text. -/
structure ValidatorsExact (s : String) : Prop where
  token : isValidQueueToken s = true ↔ QueueTokenText s
  event : isValidEventId s = true ↔ EventIdText s

/-- **When the validators are exact.** They are on every text but a queue
token with a newline behind it, and an event id with a newline behind it that
fits. -/
theorem validators_exact_iff (s : String) : ValidatorsExact s ↔
    ¬ ∃ t, s = t ++ "\n"
      ∧ (QueueTokenText t ∨ EventIdText t ∧ t.length < EVENT_ID_MAX_LENGTH) := by
  constructor
  · rintro ⟨htoken, hevent⟩ ⟨t, rfl, ht | ht⟩
    · exact not_queueTokenText_newline t
        (htoken.mp (isValidQueueToken_iff.mpr (Or.inr ⟨t, ht, rfl⟩)))
    · exact not_eventIdText_newline t
        (hevent.mp (isValidEventId_iff.mpr (Or.inr ⟨t, ht, rfl⟩)))
  · intro h
    refine ⟨isValidQueueToken_iff.trans (or_iff_left ?_),
      isValidEventId_iff.trans (or_iff_left ?_)⟩
    · rintro ⟨t, ht, rfl⟩
      exact h ⟨t, rfl, Or.inl ht⟩
    · rintro ⟨t, ht, rfl⟩
      exact h ⟨t, rfl, Or.inr ht⟩

/-- A queue token with a newline behind it: 33 characters that are
accepted. -/
theorem validators_inexact_on_newline :
    ¬ ValidatorsExact "0123456789abcdef0123456789abcdef\n" := by
  intro h
  have hlen := (h.token.mp (by decide +kernel)).1
  exact absurd hlen (by decide)

/-! ## The token of a request -/

/-- The bytes of a token. -/
def QUEUE_TOKEN_BYTES : ℕ := 16

/-- `secrets.token_hex`, of the bytes it drew: two digits for each. -/
def tokenHex (bytes : List UInt8) : String :=
  String.ofList (bytes.flatMap
    (fun b => [Nat.digitChar (b.toNat / 16), Nat.digitChar (b.toNat % 16)]))

/-- A fresh token, of the bytes that were drawn. -/
def newQueueToken (bytes : Vector UInt8 QUEUE_TOKEN_BYTES) : String := tokenHex bytes.toList

/-- The token of a request: the cookie's first, then that of `?t=`. -/
def queueTokenFrom (cookie t : Option String) : Option String :=
  [cookie, t].findSome? (fun candidate =>
    candidate.filter (fun c => c ≠ "" && isValidQueueToken c))

/-- The token a request joins with: its own, or else a fresh one. -/
def joinToken (cookie t : Option String) (bytes : Vector UInt8 QUEUE_TOKEN_BYTES) : String :=
  (queueTokenFrom cookie t).getD (newQueueToken bytes)

/-- The digits of base 16, in lower case. -/
theorem isDigit_digitChar {n : ℕ} (hn : n < 16) : IsDigit (Nat.digitChar n)
    ∨ 'a' ≤ Nat.digitChar n ∧ Nat.digitChar n ≤ 'f' := by
  have hall : ∀ m : Fin 16, ('0' ≤ Nat.digitChar m ∧ Nat.digitChar m ≤ '9')
      ∨ 'a' ≤ Nat.digitChar m ∧ Nat.digitChar m ≤ 'f' := by decide
  exact hall ⟨n, hn⟩

theorem length_tokenHex (bytes : List UInt8) : (tokenHex bytes).length = 2 * bytes.length := by
  unfold tokenHex
  rw [String.length_ofList]
  induction bytes with
  | nil => rfl
  | cons b bytes ih =>
    rw [List.flatMap_cons, List.length_append, ih, List.length_cons]
    exact Nat.add_comm 2 _

/-- **A fresh token is spelled as it is meant.** -/
theorem queueTokenText_newQueueToken (bytes : Vector UInt8 QUEUE_TOKEN_BYTES) :
    QueueTokenText (newQueueToken bytes) := by
  refine ⟨?_, fun c hc => ?_⟩
  · unfold newQueueToken
    rw [length_tokenHex, Vector.length_toList]
    rfl
  · unfold newQueueToken tokenHex at hc
    rw [String.toList_ofList, List.mem_flatMap] at hc
    obtain ⟨b, -, hc⟩ := hc
    have hb : b.toNat < 256 := b.toNat_lt
    rcases List.mem_pair.mp hc with rfl | rfl
    · exact isDigit_digitChar (by omega)
    · exact isDigit_digitChar (by omega)

/-- **Whatever a request carries**, the token it joins with is a valid one. -/
theorem isValidQueueToken_joinToken (cookie t : Option String)
    (bytes : Vector UInt8 QUEUE_TOKEN_BYTES) :
    isValidQueueToken (joinToken cookie t bytes) = true := by
  unfold joinToken
  cases hfrom : queueTokenFrom cookie t with
  | none => exact isValidQueueToken_iff.mpr (Or.inl (queueTokenText_newQueueToken bytes))
  | some token =>
    obtain ⟨candidate, -, hcandidate⟩ := List.exists_of_findSome?_eq_some hfrom
    obtain ⟨-, hvalid⟩ := Option.filter_eq_some_iff.mp hcandidate
    rw [Bool.and_eq_true] at hvalid
    exact hvalid.2

/-- **A second spelling is a second place.** Whoever joins with the newline
behind the token joins anew, also if the token waits. -/
theorem EventState.joined_of_second_spelling {v : EventState} {c : QueueConfig}
    (hc : v.config = some c) {t : String} (ht : QueueTokenText t)
    (hnew : v.queue.score? (t ++ "\n") = none) (bytes : Vector UInt8 QUEUE_TOKEN_BYTES) :
    ∃ o, (v.join (joinToken none (some (t ++ "\n")) bytes)).1 = some o
      ∧ o.joined = true ∧ o.sequence = v.seq + 1 := by
  have hvalid : isValidQueueToken (t ++ "\n") = true :=
    isValidQueueToken_iff.mpr (Or.inr ⟨t, ht, rfl⟩)
  have hne : t ++ "\n" ≠ "" := by
    intro he
    have hlen := congrArg String.length he
    rw [String.length_append] at hlen
    exact absurd hlen (Nat.succ_ne_zero _)
  have htoken : joinToken none (some (t ++ "\n")) bytes = t ++ "\n" := by
    simp only [joinToken, queueTokenFrom, List.findSome?_cons, Option.filter, hvalid, ne_eq, hne,
      not_false_eq_true, decide_true, Bool.and_true, if_true, Option.getD_some]
  rw [htoken, join_of_new hc hnew]
  exact ⟨_, rfl, rfl, rfl⟩
