import Mathlib.Data.List.Basic
import Mathlib.Data.String.Basic
import Mathlib.Tactic.Linarith

/-!
# JSON texts

The values a service writes as JSON, the text `json.dumps` makes of one and
what `json.loads` reads off a text. Whatever is written is read back
(`Json.loads_dumps`), as long as no object names a member twice – which a
Python dictionary never does.

Numbers are integers here, and there are no arrays: none of the texts has
any. A string is a sequence of Unicode scalar values, so an escape that
spells half of a surrogate pair is refused. Texts are ASCII, as `dumps`
escapes everything else.
-/

/-- A JSON value. -/
inductive Json where
  | null
  | bool (b : Bool)
  | num (n : ℤ)
  | str (s : String)
  | obj (members : List (String × Json))

namespace Json

/-! ## What is written -/

/-- The four digits of a `\u` escape. -/
def hex4 (n : ℕ) : List Char :=
  [Nat.digitChar (n / 4096), Nat.digitChar (n / 256 % 16), Nat.digitChar (n / 16 % 16),
    Nat.digitChar (n % 16)]

/-- What follows the `\u` of an escape: four digits, or beyond the first plane a
surrogate pair. -/
def unicodeEscape (c : Char) : List Char :=
  if c.toNat < 0x10000 then hex4 c.toNat
  else hex4 (0xd800 + (c.toNat - 0x10000) / 0x400)
    ++ '\\' :: 'u' :: hex4 (0xdc00 + (c.toNat - 0x10000) % 0x400)

/-- The escapes of one letter. -/
def shortEscapes : List (Char × Char) :=
  [('"', '"'), ('\\', '\\'), ('\n', 'n'), ('\r', 'r'), ('\t', 't'), ('\x0c', 'f'), ('\x08', 'b')]

/-- A character of a string: itself, if it is printable ASCII, and an escape
otherwise. -/
def escapeChar (c : Char) : List Char :=
  match shortEscapes.lookup c with
  | some e => ['\\', e]
  | none =>
    if ' ' ≤ c ∧ c ≤ '~' then [c] else '\\' :: 'u' :: unicodeEscape c

/-- A string between its quotes, without the opening one. -/
def stringText (s : String) : List Char := s.toList.flatMap escapeChar ++ ['"']

/-- A number, as Python prints it. -/
def intText : ℤ → List Char
  | .ofNat n => Nat.toDigits 10 n
  | .negSucc n => '-' :: Nat.toDigits 10 (n + 1)

mutual

/-- **The text of a value.** -/
def text : Json → List Char
  | null => "null".toList
  | bool true => "true".toList
  | bool false => "false".toList
  | num n => intText n
  | str s => '"' :: stringText s
  | obj [] => "{}".toList
  | obj (f :: fs) => '{' :: (memberText f ++ (moreText fs ++ ['}']))

/-- A member of an object. -/
def memberText : String × Json → List Char
  | (k, v) => '"' :: (stringText k ++ (':' :: ' ' :: v.text))

/-- The members of an object after the first. -/
def moreText : List (String × Json) → List Char
  | [] => []
  | f :: fs => ',' :: ' ' :: (memberText f ++ moreText fs)

end

/-- `json.dumps`. -/
def dumps (j : Json) : String := String.ofList j.text

/-! ## What is read -/

/-- What may stand between two tokens. -/
def isBlank (c : Char) : Bool := c = ' ' || c = '\t' || c = '\n' || c = '\r'

/-- The value of a hexadecimal digit. -/
def hexValue (c : Char) : Option ℕ :=
  if '0' ≤ c ∧ c ≤ '9' then some (c.toNat - '0'.toNat)
  else if 'a' ≤ c ∧ c ≤ 'f' then some (c.toNat - 'a'.toNat + 10)
  else if 'A' ≤ c ∧ c ≤ 'F' then some (c.toNat - 'A'.toNat + 10)
  else none

/-- The number four hexadecimal digits spell. -/
def readHex4 : List Char → Option (ℕ × List Char)
  | a :: b :: c :: d :: rest => do
    let a ← hexValue a
    let b ← hexValue b
    let c ← hexValue c
    let d ← hexValue d
    return (((a * 16 + b) * 16 + c) * 16 + d, rest)
  | _ => none

/-- The second half of a surrogate pair, after the first. -/
def readLowSurrogate (high : ℕ) : List Char → Option (Char × List Char)
  | '\\' :: 'u' :: rest => do
    let (low, rest) ← readHex4 rest
    if 0xdc00 ≤ low ∧ low < 0xe000 then
      return (Char.ofNat (0x10000 + ((high - 0xd800) * 0x400 + (low - 0xdc00))), rest)
    else none
  | _ => none

/-- The character after a `\u`. -/
def readUnicode (cs : List Char) : Option (Char × List Char) := do
  let (n, rest) ← readHex4 cs
  if 0xd800 ≤ n ∧ n < 0xdc00 then readLowSurrogate n rest
  else if 0xdc00 ≤ n ∧ n < 0xe000 then none
  else return (Char.ofNat n, rest)

/-- The character an escape of one letter stands for. -/
def unescape (e : Char) : Option Char :=
  (('/', '/') :: shortEscapes.map Prod.swap).lookup e

/-- The next character of a string. -/
def readChar : List Char → Option (Char × List Char)
  | '\\' :: e :: rest =>
    if e = 'u' then readUnicode rest else (unescape e).map (fun c => (c, rest))
  | c :: rest => if c = '\\' ∨ c.toNat < 0x20 then none else some (c, rest)
  | [] => none

/-- A string, after its opening quote. -/
def readString : ℕ → List Char → Option (List Char × List Char)
  | _, '"' :: rest => some ([], rest)
  | fuel + 1, cs => do
    let (c, rest) ← readChar cs
    let (s, rest) ← readString fuel rest
    return (c :: s, rest)
  | 0, _ => none

/-- A number without a sign, and without a zero in front. -/
def readNat : List Char → Option (ℕ × List Char)
  | '0' :: rest => some (0, rest)
  | cs =>
    if cs.takeWhile Char.isDigit = [] then none
    else some (Nat.ofDigitChars 10 (cs.takeWhile Char.isDigit) 0, cs.dropWhile Char.isDigit)

/-- A number. -/
def readInt : List Char → Option (ℤ × List Char)
  | '-' :: rest => (readNat rest).map (fun p => (-(p.1 : ℤ), p.2))
  | cs => (readNat cs).map (fun p => ((p.1 : ℤ), p.2))

/-- The members of an object as a dictionary keeps them: a name that comes
again replaces the value it had. -/
def dict (members : List (String × Json)) : List (String × Json) :=
  members.foldl (fun d f => if f.1 ∈ d.map Prod.fst
    then d.map (fun g => if g.1 = f.1 then f else g) else d ++ [f]) []

mutual

/-- A value. -/
def readValue : ℕ → List Char → Option (Json × List Char)
  | 0, _ => none
  | fuel + 1, cs =>
    match cs with
    | 'n' :: 'u' :: 'l' :: 'l' :: rest => some (null, rest)
    | 't' :: 'r' :: 'u' :: 'e' :: rest => some (bool true, rest)
    | 'f' :: 'a' :: 'l' :: 's' :: 'e' :: rest => some (bool false, rest)
    | '"' :: rest => (readString rest.length rest).map (fun p => (str (String.ofList p.1), p.2))
    | '{' :: rest =>
      match rest.dropWhile isBlank with
      | '}' :: rest => some (obj [], rest)
      | rest => (readMembers fuel rest).map (fun p => (obj (dict p.1), p.2))
    | cs => (readInt cs).map (fun p => (num p.1, p.2))

/-- The members of an object, up to its closing brace. -/
def readMembers : ℕ → List Char → Option (List (String × Json) × List Char)
  | fuel + 1, '"' :: rest => do
    let (k, rest) ← readString rest.length rest
    match rest.dropWhile isBlank with
    | ':' :: rest =>
      let (v, rest) ← readValue fuel (rest.dropWhile isBlank)
      match rest.dropWhile isBlank with
      | '}' :: rest => return ([(String.ofList k, v)], rest)
      | ',' :: rest =>
        let (fs, rest) ← readMembers fuel (rest.dropWhile isBlank)
        return ((String.ofList k, v) :: fs, rest)
      | _ => none
    | _ => none
  | _, _ => none

end

/-- `json.loads`: nothing may stand behind the value. -/
def loads (s : String) : Option Json :=
  match readValue s.length.succ (s.toList.dropWhile isBlank) with
  | some (j, rest) => if rest.dropWhile isBlank = [] then some j else none
  | none => none

/-! ## What is written is read back -/

theorem hexValue_digitChar {n : ℕ} (hn : n < 16) : hexValue (Nat.digitChar n) = some n := by
  have hall : ∀ k : Fin 16, hexValue (Nat.digitChar k) = some (k : ℕ) := by decide
  exact hall ⟨n, hn⟩

theorem readHex4_hex4 {n : ℕ} (hn : n < 0x10000) (rest : List Char) :
    readHex4 (hex4 n ++ rest) = some (n, rest) := by
  have hdigit : ∀ m, hexValue (Nat.digitChar (m % 16)) = some (m % 16) :=
    fun m => hexValue_digitChar (Nat.mod_lt _ (by decide))
  have hfirst := hexValue_digitChar (n := n / 4096) (by omega)
  show (do
    let a ← hexValue (Nat.digitChar (n / 4096))
    let b ← hexValue (Nat.digitChar (n / 256 % 16))
    let c ← hexValue (Nat.digitChar (n / 16 % 16))
    let d ← hexValue (Nat.digitChar (n % 16))
    return (((a * 16 + b) * 16 + c) * 16 + d, rest) : Option (ℕ × List Char)) = _
  rw [hfirst, hdigit, hdigit, hdigit]
  show some (((n / 4096 * 16 + n / 256 % 16) * 16 + n / 16 % 16) * 16 + n % 16, rest) = _
  rw [show ((n / 4096 * 16 + n / 256 % 16) * 16 + n / 16 % 16) * 16 + n % 16 = n by omega]

/-- An escape of one letter stands for what it was made of. -/
theorem unescape_of_lookup {c e : Char} (h : shortEscapes.lookup c = some e) :
    e ≠ 'u' ∧ unescape e = some c := by
  have hall : ∀ p ∈ shortEscapes, p.2 ≠ 'u' ∧ unescape p.2 = some p.1 := by decide
  have hmem : ∀ l : List (Char × Char), l.lookup c = some e → (c, e) ∈ l := by
    intro l hl
    induction l with
    | nil => exact nomatch hl
    | cons p l ih =>
      obtain ⟨a, b⟩ := p
      rw [List.lookup_cons] at hl
      by_cases hc : c = a
      · subst hc
        rw [beq_self_eq_true] at hl
        obtain rfl := Option.some.inj hl
        exact List.mem_cons_self
      · rw [beq_false_of_ne hc] at hl
        exact List.mem_cons_of_mem _ (ih hl)
  exact hall _ (hmem _ h)

/-- A Unicode scalar value is no half of a surrogate pair. -/
theorem scalar_toNat (c : Char) :
    c.toNat < 0xd800 ∨ 0xe000 ≤ c.toNat ∧ c.toNat < 0x110000 := by
  rcases c.valid with h | h
  · exact Or.inl h
  · exact Or.inr ⟨h.1, h.2⟩

section Unicode

variable {n : ℕ} {cs rest : List Char}

/-- Four digits that spell a scalar value stand for it. -/
theorem readUnicode_of_scalar (hread : readHex4 cs = some (n, rest))
    (hn : n < 0xd800 ∨ 0xe000 ≤ n) : readUnicode cs = some (Char.ofNat n, rest) := by
  unfold readUnicode
  rw [hread]
  show (if _ then _ else if _ then _ else some (Char.ofNat n, rest)) = _
  rw [if_neg (by omega), if_neg (by omega)]

/-- The first half of a pair is joined with what follows. -/
theorem readUnicode_of_high (hread : readHex4 cs = some (n, rest))
    (hn : 0xd800 ≤ n ∧ n < 0xdc00) : readUnicode cs = readLowSurrogate n rest := by
  unfold readUnicode
  rw [hread]
  exact if_pos hn

theorem readLowSurrogate_of_low (high : ℕ) (hread : readHex4 cs = some (n, rest))
    (hn : 0xdc00 ≤ n ∧ n < 0xe000) : readLowSurrogate high ('\\' :: 'u' :: cs)
      = some (Char.ofNat (0x10000 + ((high - 0xd800) * 0x400 + (n - 0xdc00))), rest) := by
  show (readHex4 cs).bind _ = _
  rw [hread]
  exact if_pos hn

end Unicode

/-- **The escape of a character stands for it.** -/
theorem readUnicode_escape (c : Char) (rest : List Char) :
    readUnicode (unicodeEscape c ++ rest) = some (c, rest) := by
  have hscalar := scalar_toNat c
  unfold unicodeEscape
  by_cases hplane : c.toNat < 0x10000
  · rw [if_pos hplane, readUnicode_of_scalar (readHex4_hex4 hplane rest) (by omega),
      Char.ofNat_toNat]
  · have hpair : ∀ high low, high = 0xd800 + (c.toNat - 0x10000) / 0x400 →
        low = 0xdc00 + (c.toNat - 0x10000) % 0x400 →
        readUnicode (hex4 high ++ ('\\' :: 'u' :: (hex4 low ++ rest))) = some (c, rest) := by
      intro high low hhigh hlow
      rw [readUnicode_of_high (readHex4_hex4 (by omega) _) (by omega),
        readLowSurrogate_of_low high (readHex4_hex4 (by omega) rest) (by omega),
        show 0x10000 + ((high - 0xd800) * 0x400 + (low - 0xdc00)) = c.toNat by omega,
        Char.ofNat_toNat]
    rw [if_neg hplane, List.append_assoc]
    exact hpair _ _ rfl rfl

/-- **A character is read back.** -/
theorem readChar_escapeChar (c : Char) (rest : List Char) :
    readChar (escapeChar c ++ rest) = some (c, rest) := by
  unfold escapeChar
  cases he : shortEscapes.lookup c with
  | some e =>
    obtain ⟨hu, hc⟩ := unescape_of_lookup he
    show (if e = 'u' then _ else (unescape e).map _) = _
    rw [if_neg hu, hc]
    rfl
  | none =>
    have hslash : c ≠ '\\' := by
      rintro rfl
      exact absurd he (by decide)
    dsimp only
    by_cases hprint : ' ' ≤ c ∧ c ≤ '~'
    · have hle : ' '.toNat ≤ c.toNat := UInt32.le_iff_toNat_le.mp hprint.1
      rw [if_pos hprint]
      show readChar (c :: rest) = _
      unfold readChar
      split
      · next h => exact absurd (List.cons.inj h).1 hslash
      · next h =>
        obtain ⟨rfl, rfl⟩ := List.cons.inj h
        rw [if_neg]
        rintro (h | h)
        · exact hslash h
        · exact absurd (lt_of_le_of_lt hle h) (by decide)
      · next h => exact nomatch h
    · rw [if_neg hprint]
      exact readUnicode_escape c rest

/-- An escape does not begin with a quote, and is not empty. -/
theorem exists_escapeChar (c : Char) : ∃ d ds, escapeChar c = d :: ds ∧ d ≠ '"' := by
  unfold escapeChar
  cases he : shortEscapes.lookup c with
  | some e => exact ⟨_, _, rfl, by decide⟩
  | none =>
    dsimp only
    split
    · refine ⟨c, [], rfl, ?_⟩
      rintro rfl
      exact absurd he (by decide)
    · exact ⟨_, _, rfl, by decide⟩

/-- **A string is read back.** -/
theorem readString_stringText (cs rest : List Char) {fuel : ℕ} (hfuel : cs.length ≤ fuel) :
    readString fuel (cs.flatMap escapeChar ++ '"' :: rest) = some (cs, rest) := by
  induction cs generalizing fuel with
  | nil => cases fuel <;> rfl
  | cons c cs ih =>
    obtain ⟨fuel, rfl⟩ : ∃ n, fuel = n + 1 := ⟨fuel - 1, by rw [List.length_cons] at hfuel; omega⟩
    have hread := readChar_escapeChar c (cs.flatMap escapeChar ++ '"' :: rest)
    obtain ⟨d, ds, hd, hquote⟩ := exists_escapeChar c
    rw [List.flatMap_cons, List.append_assoc]
    rw [hd, List.cons_append] at hread ⊢
    have hstep : ∀ xs, readString (fuel + 1) (d :: xs) = (do
        let (c, rest) ← readChar (d :: xs)
        let (s, rest) ← readString fuel rest
        return (c :: s, rest)) := by
      intro xs
      rw [readString]
      intro rest h
      exact hquote (List.cons.inj h).1
    rw [hstep, hread]
    show ((readString fuel _).bind _) = _
    rw [ih (by simpa using hfuel)]
    rfl

/-! ### Numbers -/

/-- A text that no digit begins. -/
def NoDigit (rest : List Char) : Prop := ∀ c ∈ rest.head?, c.isDigit = false

theorem noDigit_cons {c : Char} (h : c.isDigit = false) (rest : List Char) :
    NoDigit (c :: rest) := by
  intro d hd
  rw [← Option.some.inj hd]
  exact h

/-- The digits in front of such a text are read off it. -/
theorem span_digits {ds rest : List Char} (hds : ∀ c ∈ ds, c.isDigit = true)
    (hrest : NoDigit rest) : (ds ++ rest).takeWhile Char.isDigit = ds
      ∧ (ds ++ rest).dropWhile Char.isDigit = rest := by
  rw [List.takeWhile_append_of_pos hds, List.dropWhile_append_of_pos hds]
  cases rest with
  | nil => simp
  | cons c rest =>
    have hc : c.isDigit = false := hrest c rfl
    simp [hc]

/-- No number but zero begins with a zero. -/
theorem exists_toDigits {n : ℕ} (hn : n ≠ 0) :
    ∃ d ds, Nat.toDigits 10 n = d :: ds ∧ d ≠ '0' := by
  induction n using Nat.strong_induction_on with
  | _ n ih =>
    by_cases hlt : n < 10
    · have hall : ∀ k : Fin 10, (k : ℕ) ≠ 0 → Nat.digitChar k ≠ '0' := by decide
      exact ⟨n.digitChar, [], Nat.toDigits_of_lt_base hlt, hall ⟨n, hlt⟩ hn⟩
    · obtain ⟨d, ds, hd, hne⟩ := ih (n / 10) (by omega) (by omega)
      refine ⟨d, ds ++ [(n % 10).digitChar], ?_, hne⟩
      rw [Nat.toDigits_of_base_le (by decide) (not_lt.mp hlt), hd]
      rfl

theorem readNat_toDigits (n : ℕ) {rest : List Char} (hrest : NoDigit rest) :
    readNat (Nat.toDigits 10 n ++ rest) = some (n, rest) := by
  by_cases hn : n = 0
  · subst hn
    rw [Nat.toDigits_zero]
    rfl
  · have hspan : (Nat.toDigits 10 n ++ rest).takeWhile Char.isDigit = Nat.toDigits 10 n
        ∧ (Nat.toDigits 10 n ++ rest).dropWhile Char.isDigit = rest :=
      span_digits (fun c hc => Nat.isDigit_of_mem_toDigits (by decide) (by decide) hc) hrest
    obtain ⟨d, ds, hd, hzero⟩ := exists_toDigits hn
    unfold readNat
    split
    · next h =>
      rw [hd] at h
      exact absurd (List.cons.inj h).1 hzero
    · rw [hspan.1, hspan.2, if_neg Nat.toDigits_ne_nil, Nat.ofDigitChars_ten_toDigits]

/-- A number begins with a digit, or with its sign. -/
theorem exists_intText (n : ℤ) : ∃ d ds, intText n = d :: ds ∧ (d.isDigit = true ∨ d = '-') := by
  cases n with
  | ofNat n =>
    obtain ⟨d, ds, hd⟩ := List.exists_cons_of_ne_nil (Nat.toDigits_ne_nil (n := n) (b := 10))
    refine ⟨d, ds, hd, Or.inl (Nat.isDigit_of_mem_toDigits (b := 10) (n := n) (by decide)
      (by decide) ?_)⟩
    rw [hd]
    exact List.mem_cons_self
  | negSucc n => exact ⟨'-', _, rfl, Or.inr rfl⟩

/-- **A number is read back.** -/
theorem readInt_intText (n : ℤ) {rest : List Char} (hrest : NoDigit rest) :
    readInt (intText n ++ rest) = some (n, rest) := by
  cases n with
  | ofNat n =>
    have hread := readNat_toDigits n hrest
    obtain ⟨d, ds, hd, hdigit | rfl⟩ := exists_intText (.ofNat n)
    · show readInt (Nat.toDigits 10 n ++ rest) = _
      unfold readInt
      split
      · next h =>
        rw [show Nat.toDigits 10 n = d :: ds from hd] at h
        rw [(List.cons.inj h).1] at hdigit
        exact absurd hdigit (by decide)
      · rw [hread]
        rfl
    · have hmem : '-' ∈ Nat.toDigits 10 n := by
        rw [show Nat.toDigits 10 n = '-' :: ds from hd]
        exact List.mem_cons_self
      exact absurd (Nat.isDigit_of_mem_toDigits (by decide) (by decide) hmem) (by decide)
  | negSucc n =>
    show (readNat (Nat.toDigits 10 (n + 1) ++ rest)).map _ = _
    rw [readNat_toDigits (n + 1) hrest]
    rfl

/-! ### Values -/

/-- **No object names a member twice.** -/
inductive Distinct : Json → Prop where
  | null : Distinct .null
  | bool (b : Bool) : Distinct (.bool b)
  | num (n : ℤ) : Distinct (.num n)
  | str (s : String) : Distinct (.str s)
  | obj {members : List (String × Json)} (names : (members.map Prod.fst).Nodup)
    (values : ∀ f ∈ members, Distinct f.2) : Distinct (.obj members)

/-- A dictionary of distinct names is its members. -/
theorem dict_of_nodup {members : List (String × Json)} (h : (members.map Prod.fst).Nodup) :
    dict members = members := by
  suffices hfold : ∀ d ms : List (String × Json), ((d ++ ms).map Prod.fst).Nodup →
      ms.foldl (fun d f => if f.1 ∈ d.map Prod.fst
        then d.map (fun g => if g.1 = f.1 then f else g) else d ++ [f]) d = d ++ ms from
    hfold [] members h
  intro d ms hd
  induction ms generalizing d with
  | nil => exact (List.append_nil d).symm
  | cons f ms ih =>
    have hnew : f.1 ∉ d.map Prod.fst := by
      rw [List.map_append, List.nodup_append] at hd
      exact fun hmem => hd.2.2 _ hmem _ (List.mem_map_of_mem List.mem_cons_self) rfl
    rw [List.foldl_cons, if_neg hnew, ih _ (by rwa [List.append_assoc]), List.append_assoc]
    rfl

/-- A value that begins with a digit or a sign is a number. -/
theorem readValue_number (fuel : ℕ) {d : Char} (hd : d.isDigit = true ∨ d = '-')
    (xs : List Char) :
    readValue (fuel + 1) (d :: xs) = (readInt (d :: xs)).map (fun p => (num p.1, p.2)) := by
  rw [readValue]
  all_goals
    intro rest h
    obtain ⟨rfl, -⟩ := List.cons.inj h
    exact absurd hd (by decide)

/-- No value begins with a blank. -/
theorem exists_text (j : Json) : ∃ d ds, j.text = d :: ds ∧ isBlank d = false := by
  cases j with
  | null => exact ⟨'n', _, rfl, by decide⟩
  | bool b => cases b <;> exact ⟨_, _, rfl, by decide⟩
  | num n =>
    obtain ⟨d, ds, hd, hdigit⟩ := exists_intText n
    refine ⟨d, ds, hd, ?_⟩
    unfold isBlank
    simp only [Bool.or_eq_false_iff, decide_eq_false_iff_not]
    refine ⟨⟨⟨?_, ?_⟩, ?_⟩, ?_⟩
    all_goals
      rintro rfl
      exact absurd hdigit (by decide)
  | str s => exact ⟨'"', _, rfl, by decide⟩
  | obj members => cases members <;> exact ⟨'{', _, rfl, by decide⟩

theorem dropWhile_text (j : Json) (rest : List Char) :
    (j.text ++ rest).dropWhile isBlank = j.text ++ rest := by
  obtain ⟨d, ds, hd, hblank⟩ := exists_text j
  rw [hd, List.cons_append, List.dropWhile_cons_of_neg (by simp [hblank])]

/-- A string between quotes is read back. -/
theorem readString_text (s : String) (rest : List Char) :
    readString (stringText s ++ rest).length (stringText s ++ rest) = some (s.toList, rest) := by
  have hlength : ∀ cs : List Char, cs.length ≤ (cs.flatMap escapeChar).length := by
    intro cs
    induction cs with
    | nil => exact le_rfl
    | cons c cs ih =>
      obtain ⟨d, ds, hd, -⟩ := exists_escapeChar c
      rw [List.flatMap_cons, hd, List.length_append, List.length_cons, List.length_cons]
      omega
  unfold stringText
  rw [List.append_assoc]
  refine readString_stringText s.toList rest ?_
  rw [List.length_append]
  exact (hlength s.toList).trans (Nat.le_add_right _ _)

/-- What follows the value of a member. -/
theorem moreText_follows (fs : List (String × Json)) (rest : List Char) :
    NoDigit (moreText fs ++ '}' :: rest)
      ∧ (moreText fs ++ '}' :: rest).dropWhile isBlank = moreText fs ++ '}' :: rest := by
  cases fs with
  | nil => exact ⟨noDigit_cons (by decide) _, rfl⟩
  | cons f fs => exact ⟨noDigit_cons (by decide) _, rfl⟩

/-- A member begins with its quote. -/
theorem dropWhile_memberText (f : String × Json) (rest : List Char) :
    (memberText f ++ rest).dropWhile isBlank = memberText f ++ rest := by
  obtain ⟨k, v⟩ := f
  rw [memberText]
  rfl

/-- What begins with a brace and a member is an object. -/
theorem readValue_object (fuel : ℕ) (f : String × Json) (rest : List Char) :
    readValue (fuel + 1) ('{' :: (memberText f ++ rest))
      = (readMembers fuel (memberText f ++ rest)).map (fun p => (obj (dict p.1), p.2)) := by
  obtain ⟨k, v⟩ := f
  rw [memberText]
  rfl

/-- **What is written is read back**, in front of anything a number does not
run into. -/
theorem read_text (fuel : ℕ) :
    (∀ j rest, Distinct j → j.text.length ≤ fuel → NoDigit rest →
        readValue fuel (j.text ++ rest) = some (j, rest))
      ∧ ∀ f fs rest, (∀ g ∈ f :: fs, Distinct g.2) →
        (memberText f ++ moreText fs).length ≤ fuel →
        readMembers fuel (memberText f ++ (moreText fs ++ '}' :: rest)) = some (f :: fs, rest) := by
  induction fuel with
  | zero =>
    refine ⟨fun j rest _ hfuel _ => ?_, fun f fs rest _ hfuel => ?_⟩
    · obtain ⟨d, ds, hd, -⟩ := exists_text j
      rw [hd] at hfuel
      exact absurd hfuel (by simp)
    · obtain ⟨k, v⟩ := f
      exact absurd hfuel (by simp [memberText])
  | succ fuel ih =>
    obtain ⟨ihv, ihm⟩ := ih
    refine ⟨fun j rest hj hfuel hrest => ?_, fun f fs rest hfs hfuel => ?_⟩
    · cases hj with
      | null => rfl
      | bool b => cases b <;> rfl
      | num n =>
        obtain ⟨d, ds, hd, hdigit⟩ := exists_intText n
        show readValue (fuel + 1) (intText n ++ rest) = _
        rw [hd, List.cons_append, readValue_number fuel hdigit, ← List.cons_append, ← hd,
          readInt_intText n hrest]
        rfl
      | str s =>
        show (readString (stringText s ++ rest).length (stringText s ++ rest)).map _ = _
        rw [readString_text, Option.map_some, String.ofList_toList]
      | @obj members names values =>
        cases members with
        | nil => rfl
        | cons f fs =>
          have hlen : (memberText f ++ moreText fs).length ≤ fuel := by
            simp only [text, List.length_cons, List.length_append] at hfuel ⊢
            omega
          have hmembers := ihm f fs rest values hlen
          have htext : (obj (f :: fs)).text ++ rest
              = '{' :: (memberText f ++ (moreText fs ++ '}' :: rest)) := by
            simp [text]
          rw [htext, readValue_object, hmembers, Option.map_some, dict_of_nodup names]
    · obtain ⟨k, v⟩ := f
      have hlen : v.text.length ≤ fuel := by
        simp only [memberText, List.length_cons, List.length_append] at hfuel
        omega
      obtain ⟨hfollows, hblank⟩ := moreText_follows fs rest
      have hvalue := ihv v (moreText fs ++ '}' :: rest) (hfs _ List.mem_cons_self) hlen hfollows
      have htext : memberText (k, v) ++ (moreText fs ++ '}' :: rest) = '"' :: (stringText k
          ++ ':' :: ' ' :: (v.text ++ (moreText fs ++ '}' :: rest))) := by
        simp [memberText]
      rw [htext, readMembers, readString_text]
      show ((readValue fuel ((v.text ++ (moreText fs ++ '}' :: rest)).dropWhile isBlank)).bind _)
        = _
      rw [dropWhile_text, hvalue, Option.bind_some]
      dsimp only
      rw [hblank]
      cases fs with
      | nil =>
        show some ([(String.ofList k.toList, v)], rest) = _
        rw [String.ofList_toList]
      | cons g gs =>
        have hrest := ihm g gs rest (fun x hx => hfs x (List.mem_cons_of_mem _ hx)) (by
          simp only [moreText, List.length_append, List.length_cons] at hfuel ⊢
          omega)
        have hmore : moreText (g :: gs) ++ '}' :: rest
            = ',' :: ' ' :: (memberText g ++ (moreText gs ++ '}' :: rest)) := by
          simp [moreText]
        rw [hmore]
        show (readMembers fuel ((' ' :: (memberText g ++ (moreText gs ++ '}' :: rest))).dropWhile
          isBlank)).bind _ = _
        rw [show (' ' :: (memberText g ++ (moreText gs ++ '}' :: rest))).dropWhile isBlank
            = memberText g ++ (moreText gs ++ '}' :: rest) from dropWhile_memberText g _,
          hrest, String.ofList_toList]
        rfl

/-- **The round trip**: a value survives its text. -/
theorem loads_dumps {j : Json} (h : Distinct j) : loads j.dumps = some j := by
  have hlist : j.dumps.toList = j.text := String.toList_ofList
  have hread := (read_text j.dumps.length.succ).1 j [] h (by
    rw [← hlist, String.length_toList]
    exact Nat.le_succ _) (fun c hc => nomatch hc)
  have hblank := dropWhile_text j []
  rw [List.append_nil] at hread hblank
  unfold loads
  rw [hlist, hblank, hread]
  rfl

end Json
