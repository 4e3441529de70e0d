import QueueFair.EventKeys
import Mathlib.Data.List.Basic

/-!
# Well-formed event ids and queue tokens

The two patterns of `validation.py`, and what they are for. An event id holds
no colon, so the id of a key can be read off the key: it is what stands
between the first two colons. Two events therefore share no key, whatever
tokens their pass keys carry (`EventKeys.keyOf_inj`).

A Python pattern that ends in `$` also accepts its text with one newline
behind it. That is part of what the two predicates accept, and part of the
model.
-/

/-- `[a-z0-9]`. -/
def slugChar (c : Char) : Bool := ('a' ≤ c && c ≤ 'z') || ('0' ≤ c && c ≤ '9')

/-- `[0-9a-f]`. -/
def hexChar (c : Char) : Bool := ('0' ≤ c && c ≤ '9') || ('a' ≤ c && c ≤ 'f')

/-- `[a-z0-9]+(?:-[a-z0-9]+)*`, of a whole text: runs of slug characters with
a hyphen between any two. The flag says that the text so far ends in a run. -/
def slugText (inRun : Bool) : List Char → Bool
  | [] => inRun
  | c :: cs => if c = '-' then inRun && slugText false cs else slugChar c && slugText true cs

/-- `[0-9a-f]{32}`, of a whole text. -/
def hexText (cs : List Char) : Bool := cs.length == 32 && cs.all hexChar

/-- `re.match` of a pattern `^…$`: the text, or the text before a newline at
its end. -/
def matchesLine (p : List Char → Bool) (value : String) : Bool :=
  p value.toList || (value.toList.getLast? == some '\n' && p value.toList.dropLast)

/-- The longest event id. -/
def EVENT_ID_MAX_LENGTH : ℕ := 64

/-- Whether a text is a well-formed event id. -/
def isValidEventId (value : String) : Bool :=
  value.length ≤ EVENT_ID_MAX_LENGTH && matchesLine (slugText false) value

/-- Whether a text is a well-formed queue token. -/
def isValidQueueToken (value : String) : Bool := matchesLine hexText value

/-- A line is its text, and perhaps a newline. -/
theorem toList_of_matchesLine {p : List Char → Bool} {value : String}
    (h : matchesLine p value = true) :
    ∃ cs, p cs = true ∧ (value.toList = cs ∨ value.toList = cs ++ ['\n']) := by
  unfold matchesLine at h
  rw [Bool.or_eq_true, Bool.and_eq_true, beq_iff_eq] at h
  rcases h with h | ⟨hlast, h⟩
  · exact ⟨_, h, Or.inl rfl⟩
  · exact ⟨_, h, Or.inr (List.dropLast_append_getLast? _ hlast).symm⟩

/-- A hex text has 32 digits. -/
theorem length_of_hexText {cs : List Char} (h : hexText cs = true) : cs.length = 32 := by
  unfold hexText at h
  rw [Bool.and_eq_true, beq_iff_eq] at h
  exact h.1

/-- The characters of a slug are slug characters and hyphens. -/
theorem mem_of_slugText {inRun : Bool} {cs : List Char} (h : slugText inRun cs = true)
    {c : Char} (hc : c ∈ cs) : slugChar c = true ∨ c = '-' := by
  induction cs generalizing inRun with
  | nil => exact absurd hc List.not_mem_nil
  | cons d cs ih =>
    unfold slugText at h
    by_cases hd : d = '-'
    · rw [if_pos hd, Bool.and_eq_true] at h
      rcases List.mem_cons.mp hc with rfl | hc
      · exact Or.inr hd
      · exact ih h.2 hc
    · rw [if_neg hd, Bool.and_eq_true] at h
      rcases List.mem_cons.mp hc with rfl | hc
      · exact Or.inl h.1
      · exact ih h.2 hc

/-- **No event id holds a colon.** -/
theorem colon_notMem_of_isValidEventId {eventId : String}
    (h : isValidEventId eventId = true) : ':' ∉ eventId.toList := by
  unfold isValidEventId at h
  rw [Bool.and_eq_true] at h
  obtain ⟨cs, hcs, htext⟩ := toList_of_matchesLine h.2
  have hnot : ':' ∉ cs := by
    intro hc
    rcases mem_of_slugText hcs hc with hslug | hhyphen
    · exact absurd hslug (by decide)
    · exact absurd hhyphen (by decide)
  rcases htext with htext | htext
  · rwa [htext]
  · rw [htext, List.mem_append]
    rintro (hc | hc)
    · exact hnot hc
    · exact absurd hc (by decide)

/-- A list is what stands before the first separator, and what stands behind
it. -/
theorem eq_of_append_cons_eq {α : Type} {c : α} {xs xs' ys ys' : List α} (h : c ∉ xs)
    (h' : c ∉ xs') (heq : xs ++ c :: ys = xs' ++ c :: ys') : xs = xs' ∧ ys = ys' := by
  induction xs generalizing xs' with
  | nil =>
    cases xs' with
    | nil => exact ⟨rfl, (List.cons.inj heq).2⟩
    | cons x' xs' => exact absurd ((List.cons.inj heq).1 ▸ List.mem_cons_self) h'
  | cons x xs ih =>
    cases xs' with
    | nil => exact absurd ((List.cons.inj heq).1 ▸ List.mem_cons_self) h
    | cons x' xs' =>
      obtain ⟨hx, heq⟩ := List.cons.inj heq
      obtain ⟨hxs, hys⟩ := ih (fun hc => h (List.mem_cons_of_mem x hc))
        (fun hc => h' (List.mem_cons_of_mem x' hc)) heq
      exact ⟨by rw [hx, hxs], hys⟩

namespace EventKeys

/-! ## The keys of different events -/

/-- What a key of an event is for. -/
inductive Kind where
  | queue
  | seq
  | admitted
  | bucket
  | config
  /-- The pass of a waiter. -/
  | passFor (queueToken : String)
deriving DecidableEq

/-- The key of an event for each purpose. -/
def keyOf (keys : EventKeys) : Kind → String
  | .queue => keys.queue
  | .seq => keys.seq
  | .admitted => keys.admitted
  | .bucket => keys.bucket
  | .config => keys.config
  | .passFor t => keys.passFor t

/-- The suffix of a key. -/
def Kind.suffix : Kind → String
  | .queue => "queue"
  | .seq => "seq"
  | .admitted => "admitted"
  | .bucket => "bucket"
  | .config => "config"
  | .passFor t => "pass:" ++ t

theorem keyOf_eq_key (keys : EventKeys) (k : Kind) : keys.keyOf k = keys.key k.suffix := by
  cases k <;> rfl

/-- A suffix says what the key is for. -/
theorem Kind.suffix_inj {k k' : Kind} (h : k.suffix = k'.suffix) : k = k' := by
  have hpass : ∀ t (s : String), s.toList.take 5 ≠ "pass:".toList → "pass:" ++ t ≠ s := by
    intro t s hs he
    refine hs ?_
    rw [← he, String.toList_append]
    rfl
  cases k with
  | passFor t =>
    cases k' with
    | passFor t' => rw [(String.append_right_inj _).mp h]
    | _ => exact absurd h (hpass t _ (by decide))
  | _ =>
    cases k' with
    | passFor t' => exact absurd h.symm (hpass t' _ (by decide))
    | _ => first | rfl | exact absurd h (by decide)

/-- **A key shows its event**: an id without a colon is what stands between
the first two colons. -/
theorem key_inj_of_colon {e e' s s' : String} (he : ':' ∉ e.toList) (he' : ':' ∉ e'.toList)
    (h : (EventKeys.mk e).key s = (EventKeys.mk e').key s') : e = e' ∧ s = s' := by
  have hlist : ∀ e s : String, ((EventKeys.mk e).key s).toList
      = "qf:".toList ++ (e.toList ++ ':' :: s.toList) := by
    intro e s
    show (NAMESPACE ++ ":" ++ e ++ ":" ++ s).toList = _
    simp only [String.toList_append, List.append_assoc]
    rfl
  have hkey := congrArg String.toList h
  rw [hlist, hlist, List.append_cancel_left_eq] at hkey
  obtain ⟨hevent, hsuffix⟩ := eq_of_append_cons_eq he he' hkey
  exact ⟨String.toList_inj.mp hevent, String.toList_inj.mp hsuffix⟩

/-- **No two keys coincide** unless event, purpose and token all do. -/
theorem keyOf_inj {e e' : String} (he : isValidEventId e = true) (he' : isValidEventId e' = true)
    {k k' : Kind} (h : (EventKeys.mk e).keyOf k = (EventKeys.mk e').keyOf k') :
    e = e' ∧ k = k' := by
  rw [keyOf_eq_key, keyOf_eq_key] at h
  obtain ⟨hevent, hsuffix⟩ := key_inj_of_colon (colon_notMem_of_isValidEventId he)
    (colon_notMem_of_isValidEventId he') h
  exact ⟨hevent, Kind.suffix_inj hsuffix⟩

end EventKeys
