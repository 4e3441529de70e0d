import Mathlib.Data.List.Basic
import Mathlib.Data.List.Perm.Basic
import Mathlib.Logic.Function.Basic

/-!
# A database under READ COMMITTED

Sessions share a table of rows under keys, which they update, and a table of
records, to which they add. What a session has written is its own until it
commits: a row it has updated stays locked in its name, with the version it
wrote beside the committed one, and a record it has inserted waits beside the
committed ones.

Each statement meets the committed state of the moment it is served.
A conditional update evaluates its condition on the latest committed row;
where it holds, the update needs the row's lock, and waits while another
session has it. An insert is refused if it clashes with a committed record,
and waits while it clashes with one that may still be committed. A commit
makes what the session sees the committed state (`commit`), a rollback drops
what it has written (`rollback`).

Two things follow for any use of such a database. Its constraints hold of
what is committed and what may still be committed, whatever the statements
(`Lawful`), and what one session holds, the others leave as it is (`Leaves`).
A transaction of one statement is no session: it is done at once or refused,
and keeps both (`Outside`).
-/

/-- **The tables, and what is not committed of them**: `ι` are the sessions,
`K` the keys of the rows `R`, and `B` the records. -/
structure Database (ι K R B : Type) where
  /-- The committed rows. -/
  rows : K → Option R
  /-- Who holds the lock of a row, and the version they have written. -/
  locks : K → Option (ι × R)
  /-- The committed records. -/
  records : List B
  /-- The records inserted and not yet committed. -/
  inserts : List (ι × B)

/-- What a statement comes to. -/
inductive Statement (D : Type) where
  /-- It waits for another session. -/
  | waits
  /-- It is served, and says how many rows it touched. -/
  | done (rows : ℕ) (after : D)
  /-- It breaks a constraint. -/
  | violates

namespace Database

variable {ι K R B : Type} [DecidableEq ι]

/-! ## Statements -/

/-- A row as a session sees it: its own version, or the committed one. -/
def row (db : Database ι K R B) (i : ι) (k : K) : Option R :=
  match db.locks k with
  | some (j, r) => if j = i then some r else db.rows k
  | none => db.rows k

/-- The records a session has inserted and not yet committed. -/
def insertsOf (db : Database ι K R B) (i : ι) : List B :=
  (db.inserts.filter (fun x => x.1 = i)).map Prod.snd

/-- The records a session sees. -/
def visible (db : Database ι K R B) (i : ι) : List B := db.records ++ db.insertsOf i

/-- Update the row under a key where a condition holds of it. -/
def update [DecidableEq K] (check : R → Prop) [DecidablePred check] (db : Database ι K R B)
    (i : ι) (k : K) (cond : R → Bool) (set : R → R) : Statement (Database ι K R B) :=
  match db.row i k with
  | none => .done 0 db
  | some r =>
    if cond r then
      if ∃ x ∈ db.locks k, x.1 ≠ i then .waits
      else if check (set r) then
        .done 1 { db with locks := Function.update db.locks k (some (i, set r)) }
      else .violates
    else .done 0 db

/-- Insert a record, which must not clash with another one. -/
def insert (clash : B → B → Prop) [DecidableRel clash] (db : Database ι K R B) (i : ι) (b : B) :
    Statement (Database ι K R B) :=
  if ∃ b' ∈ db.visible i, clash b' b then .violates
  else if ∃ x ∈ db.inserts, clash x.2 b then .waits
  else .done 1 { db with inserts := db.inserts ++ [(i, b)] }

/-- The locks that stay when a session ends its transaction. -/
def locksWithout (db : Database ι K R B) (i : ι) (k : K) : Option (ι × R) :=
  (db.locks k).filter (fun x => x.1 ≠ i)

/-- The inserts that stay when a session ends its transaction. -/
def insertsWithout (db : Database ι K R B) (i : ι) : List (ι × B) :=
  db.inserts.filter (fun x => x.1 ≠ i)

/-- End a transaction: what the session sees becomes the committed state. -/
def commit (db : Database ι K R B) (i : ι) : Database ι K R B :=
  ⟨db.row i, db.locksWithout i, db.visible i, db.insertsWithout i⟩

/-- End a transaction: what the session has written is dropped. -/
def rollback (db : Database ι K R B) (i : ι) : Database ι K R B :=
  ⟨db.rows, db.locksWithout i, db.records, db.insertsWithout i⟩

/-! ## What a session sees -/

section Views

variable {db : Database ι K R B} {i j : ι} {k : K} {r : R}

/-- A session sees its own version of a row it has locked. -/
theorem row_of_locked (h : db.locks k = some (i, r)) : db.row i k = some r := by
  unfold row
  rw [h]
  exact if_pos rfl

/-- A session sees the committed version of any other row. -/
theorem row_of_not_locked (h : ∀ r, db.locks k ≠ some (i, r)) : db.row i k = db.rows k := by
  unfold row
  split
  · next j r hl =>
    refine if_neg (fun hji => ?_)
    exact h r (hji ▸ hl)
  · rfl

theorem locksWithout_eq_some (h : j ≠ i) :
    db.locksWithout i k = some (j, r) ↔ db.locks k = some (j, r) := by
  unfold locksWithout
  rw [Option.filter_eq_some_iff]
  exact ⟨And.left, fun hl => ⟨hl, by simpa using h⟩⟩

theorem locksWithout_self : db.locksWithout i k ≠ some (i, r) := by
  unfold locksWithout
  rw [Ne, Option.filter_eq_some_iff]
  simp

theorem insertsOf_append (l : List (ι × B)) :
    insertsOf { db with inserts := db.inserts ++ l } i
      = db.insertsOf i ++ (l.filter (fun x => x.1 = i)).map Prod.snd := by
  show ((db.inserts ++ l).filter _).map _ = _
  rw [List.filter_append, List.map_append]
  rfl

end Views

/-- **No session has anything open**. -/
structure Settled (db : Database ι K R B) : Prop where
  locks : ∀ k, db.locks k = none
  inserts : db.inserts = []

/-- **A session has nothing open**: it holds no lock and has inserted
nothing. -/
structure Idle (db : Database ι K R B) (i : ι) : Prop where
  locks : ∀ k r, db.locks k ≠ some (i, r)
  inserts : db.insertsOf i = []

omit [DecidableEq ι] in
theorem Settled.idle [DecidableEq ι] {db : Database ι K R B} (h : db.Settled) (i : ι) :
    db.Idle i := by
  refine ⟨fun k r hl => ?_, ?_⟩
  · rw [h.locks k] at hl
    exact nomatch hl
  · unfold insertsOf
    rw [h.inserts]
    rfl

theorem insertsWithout_self (db : Database ι K R B) (i : ι) :
    ((db.insertsWithout i).filter (fun x => x.1 = i)).map Prod.snd = [] := by
  unfold insertsWithout
  rw [List.filter_filter]
  simp

theorem idle_commit (db : Database ι K R B) (i : ι) : (db.commit i).Idle i :=
  ⟨fun _ _ => locksWithout_self, db.insertsWithout_self i⟩

theorem idle_rollback (db : Database ι K R B) (i : ι) : (db.rollback i).Idle i :=
  ⟨fun _ _ => locksWithout_self, db.insertsWithout_self i⟩

/-! ## What the others leave as it is -/

/-- **What a session holds is left as it is**: its locks with the committed
rows under them, and its inserts. -/
structure Leaves (i : ι) (db db' : Database ι K R B) : Prop where
  locks : ∀ k r, db'.locks k = some (i, r) ↔ db.locks k = some (i, r)
  rows : ∀ k r, db.locks k = some (i, r) → db'.rows k = db.rows k
  inserts : db'.insertsOf i = db.insertsOf i

section Leaves

variable {db db' : Database ι K R B} {i j : ι} {k : K} {r : R}

theorem Leaves.refl (i : ι) (db : Database ι K R B) : Leaves i db db :=
  ⟨fun _ _ => Iff.rfl, fun _ _ _ => rfl, rfl⟩

theorem Leaves.idle (h : Leaves i db db') (hi : db.Idle i) : db'.Idle i :=
  ⟨fun k r hl => hi.locks k r ((h.locks k r).mp hl), h.inserts.trans hi.inserts⟩

/-- Taking a lock that no other session holds leaves the others theirs. -/
theorem leaves_lock [DecidableEq K] (hij : i ≠ j) (hfree : ∀ x ∈ db.locks k, x.1 = j) (r : R) :
    Leaves i db { db with locks := Function.update db.locks k (some (j, r)) } := by
  refine ⟨fun k' r' => ?_, fun _ _ _ => rfl, rfl⟩
  by_cases hk : k' = k
  · subst hk
    show Function.update db.locks k' _ k' = _ ↔ _
    rw [Function.update_self]
    constructor
    · intro h
      exact absurd (congrArg Prod.fst (Option.some.inj h)).symm hij
    · intro h
      exact absurd (hfree _ h) hij
  · show Function.update db.locks k _ k' = _ ↔ _
    rw [Function.update_of_ne hk]

/-- An insert of another session leaves a session its own. -/
theorem leaves_insert (hij : i ≠ j) (b : B) :
    Leaves i db { db with inserts := db.inserts ++ [(j, b)] } := by
  refine ⟨fun _ _ => Iff.rfl, fun _ _ _ => rfl, ?_⟩
  rw [insertsOf_append]
  simp [hij.symm]

theorem insertsOf_without (hij : i ≠ j) :
    ((db.insertsWithout j).filter (fun x => x.1 = i)).map Prod.snd = db.insertsOf i := by
  unfold insertsWithout insertsOf
  rw [List.filter_filter]
  refine congrArg _ (List.filter_congr (fun x _ => ?_))
  by_cases hx : x.1 = i
  · simp [hx, hij]
  · simp [hx]

/-- A commit of another session leaves a session its own. -/
theorem leaves_commit (hij : i ≠ j) : Leaves i db (db.commit j) := by
  refine ⟨fun _ _ => locksWithout_eq_some hij, fun k r hl => ?_, insertsOf_without hij⟩
  show db.row j k = db.rows k
  refine row_of_not_locked (fun r' hl' => ?_)
  rw [hl] at hl'
  exact hij (congrArg Prod.fst (Option.some.inj hl'))

/-- A rollback of another session leaves a session its own. -/
theorem leaves_rollback (hij : i ≠ j) : Leaves i db (db.rollback j) :=
  ⟨fun _ _ => locksWithout_eq_some hij, fun _ _ _ => rfl, insertsOf_without hij⟩

end Leaves

/-! ## What a statement can do -/

section Cases

variable {check : R → Prop} [DecidablePred check] {clash : B → B → Prop} [DecidableRel clash]
  {db db' : Database ι K R B} {i : ι} {k : K} {cond : R → Bool} {set : R → R} {b : B} {n : ℕ}

/-- **What a served update did**: the row is missing or fails the condition
and nothing happened, or the lock is now the session's with the new
version. -/
theorem update_cases [DecidableEq K] (h : db.update check i k cond set = .done n db') :
    (n = 0 ∧ db' = db ∧ ∀ r ∈ db.row i k, ¬ cond r)
    ∨ ∃ r, n = 1 ∧ db.row i k = some r ∧ cond r ∧ check (set r)
      ∧ (∀ x ∈ db.locks k, x.1 = i)
      ∧ db' = { db with locks := Function.update db.locks k (some (i, set r)) } := by
  unfold update at h
  split at h
  · next hnone =>
    obtain ⟨rfl, rfl⟩ := Statement.done.inj h
    exact Or.inl ⟨rfl, rfl, fun r hr => absurd (hnone ▸ hr) (by simp)⟩
  · next r hsome =>
    by_cases hc : cond r
    · rw [if_pos hc] at h
      by_cases hl : ∃ x ∈ db.locks k, x.1 ≠ i
      · rw [if_pos hl] at h
        exact nomatch h
      · rw [if_neg hl] at h
        by_cases hck : check (set r)
        · rw [if_pos hck] at h
          obtain ⟨rfl, rfl⟩ := Statement.done.inj h
          refine Or.inr ⟨r, rfl, hsome, hc, hck, fun x hx => ?_, rfl⟩
          exact not_not.mp (fun hne => hl ⟨x, hx, hne⟩)
        · rw [if_neg hck] at h
          exact nomatch h
    · rw [if_neg hc] at h
      obtain ⟨rfl, rfl⟩ := Statement.done.inj h
      refine Or.inl ⟨rfl, rfl, fun r' hr' => ?_⟩
      obtain rfl := Option.some.inj (hsome.symm.trans hr')
      exact hc

/-- An update waits only for the holder of the row's lock. -/
theorem update_waits [DecidableEq K] (h : db.update check i k cond set = .waits) :
    ∃ x ∈ db.locks k, x.1 ≠ i := by
  unfold update at h
  split at h
  · exact nomatch h
  · split at h
    · split at h
      · next hlock => exact hlock
      · split at h <;> exact nomatch h
    · exact nomatch h

/-- An update breaks the constraint only by what it sets. -/
theorem update_violates [DecidableEq K] (h : db.update check i k cond set = .violates) :
    ∃ r, db.row i k = some r ∧ cond r ∧ ¬ check (set r) := by
  unfold update at h
  split at h
  · exact nomatch h
  · next r hsome =>
    by_cases hc : cond r
    · rw [if_pos hc] at h
      split at h
      · exact nomatch h
      · split at h
        · exact nomatch h
        · next hck => exact ⟨r, hsome, hc, hck⟩
    · rw [if_neg hc] at h
      exact nomatch h

/-- **What a served insert did**: the record clashes with none, and is now
one of the session's inserts. -/
theorem insert_cases (h : db.insert clash i b = .done n db') :
    n = 1 ∧ (∀ b' ∈ db.records ++ db.inserts.map Prod.snd, ¬ clash b' b)
      ∧ db' = { db with inserts := db.inserts ++ [(i, b)] } := by
  unfold insert at h
  by_cases hv : ∃ b' ∈ db.visible i, clash b' b
  · rw [if_pos hv] at h
    exact nomatch h
  · rw [if_neg hv] at h
    by_cases hw : ∃ x ∈ db.inserts, clash x.2 b
    · rw [if_pos hw] at h
      exact nomatch h
    · rw [if_neg hw] at h
      obtain ⟨rfl, rfl⟩ := Statement.done.inj h
      refine ⟨rfl, fun b' hb' hcl => ?_, rfl⟩
      rcases List.mem_append.mp hb' with hb' | hb'
      · exact hv ⟨b', List.mem_append_left _ hb', hcl⟩
      · obtain ⟨x, hx, rfl⟩ := List.mem_map.mp hb'
        exact hw ⟨x, hx, hcl⟩

/-- An insert waits only for an insert that is not committed. -/
theorem insert_waits (h : db.insert clash i b = .waits) : ∃ x ∈ db.inserts, clash x.2 b := by
  unfold insert at h
  split at h
  · exact nomatch h
  · split at h
    · next hclash => exact hclash
    · exact nomatch h

/-- A refused insert clashes with a record the session sees. -/
theorem insert_violates (h : db.insert clash i b = .violates) :
    ∃ b' ∈ db.visible i, clash b' b := by
  unfold insert at h
  by_cases hv : ∃ b' ∈ db.visible i, clash b' b
  · exact hv
  · rw [if_neg hv] at h
    split at h <;> exact nomatch h

end Cases

/-! ## Constraints -/

/-- **The constraints hold**, of what is committed and of what may still be
committed: every version of a row passes the check, and no two records
clash. -/
structure Lawful (check : R → Prop) (clash : B → B → Prop) (db : Database ι K R B) : Prop where
  rows : ∀ k, ∀ r ∈ db.rows k, check r
  locks : ∀ k, ∀ x ∈ db.locks k, check x.2
  records : (db.records ++ db.inserts.map Prod.snd).Pairwise (fun a b => ¬ clash a b)

namespace Lawful

variable {check : R → Prop} {clash : B → B → Prop} {db db' : Database ι K R B} {i : ι}
  {k : K} {cond : R → Bool} {set : R → R} {b : B} {n : ℕ}

omit [DecidableEq ι] in
/-- No two committed records clash. -/
theorem records_pairwise (h : db.Lawful check clash) :
    db.records.Pairwise (fun a b => ¬ clash a b) :=
  (List.pairwise_append.mp h.records).1

theorem update [DecidableEq K] [DecidablePred check] (h : db.Lawful check clash)
    (hu : db.update check i k cond set = .done n db') :
    db'.Lawful check clash := by
  obtain ⟨-, rfl, -⟩ | ⟨r, -, -, -, hck, -, rfl⟩ := update_cases hu
  · exact h
  · refine ⟨h.rows, fun k' x hx => ?_, h.records⟩
    by_cases hk : k' = k
    · subst hk
      replace hx : Function.update db.locks k' (some (i, set r)) k' = some x := hx
      rw [Function.update_self] at hx
      obtain rfl := Option.some.inj hx
      exact hck
    · replace hx : Function.update db.locks k (some (i, set r)) k' = some x := hx
      rw [Function.update_of_ne hk] at hx
      exact h.locks k' x hx

theorem insert [DecidableRel clash] (h : db.Lawful check clash)
    (hu : db.insert clash i b = .done n db') :
    db'.Lawful check clash := by
  obtain ⟨-, hb, rfl⟩ := insert_cases hu
  refine ⟨h.rows, h.locks, ?_⟩
  show (db.records ++ (db.inserts ++ [(i, b)]).map Prod.snd).Pairwise _
  rw [List.map_append, ← List.append_assoc, List.pairwise_append]
  refine ⟨h.records, List.pairwise_singleton _ _, fun a ha c hc => ?_⟩
  obtain rfl := List.mem_singleton.mp hc
  exact hb a ha

/-- The locks that stay are locks that were. -/
theorem locksWithout (h : db.Lawful check clash) (i : ι) (k : K) :
    ∀ x ∈ db.locksWithout i k, check x.2 :=
  fun x hx => h.locks k x (Option.filter_eq_some_iff.mp hx).1

theorem commit (h : db.Lawful check clash) (hsymm : ∀ a b, clash a b → clash b a) (i : ι) :
    (db.commit i).Lawful check clash := by
  refine ⟨fun k r hr => ?_, h.locksWithout i, ?_⟩
  · replace hr : db.row i k = some r := hr
    unfold row at hr
    split at hr
    · next j r' hl =>
      split at hr
      · obtain rfl := Option.some.inj hr
        exact h.locks k _ hl
      · exact h.rows k r hr
    · exact h.rows k r hr
  · show (db.records ++ (db.inserts.filter _).map _ ++ (db.inserts.filter _).map _).Pairwise _
    rw [List.append_assoc, ← List.map_append]
    have hperm := List.filter_append_perm (fun x : ι × B => decide (x.1 = i)) db.inserts
    refine (List.Perm.pairwise_iff (fun hab hba => hab (hsymm _ _ hba)) ?_).mp h.records
    refine List.Perm.append_left _ (List.Perm.map _ ?_)
    simpa using hperm.symm

theorem rollback (h : db.Lawful check clash) (i : ι) : (db.rollback i).Lawful check clash := by
  refine ⟨h.rows, h.locksWithout i, ?_⟩
  exact h.records.sublist ((List.filter_sublist.map _).append_left _)

end Lawful

/-! ## One step of a session -/

/-- **What one step of a session can do to the database**: nothing, a served
update, a served insert, or the end of its transaction. -/
inductive Served (check : R → Prop) [DecidablePred check] (clash : B → B → Prop)
    [DecidableRel clash] [DecidableEq K] (i : ι) (db : Database ι K R B) :
    Database ι K R B → Prop where
  | nothing : Served check clash i db db
  | update {k cond set n db'} (h : db.update check i k cond set = .done n db') :
    Served check clash i db db'
  | insert {b n db'} (h : db.insert clash i b = .done n db') : Served check clash i db db'
  | commit : Served check clash i db (db.commit i)
  | rollback : Served check clash i db (db.rollback i)

namespace Served

variable [DecidableEq K] {check : R → Prop} [DecidablePred check] {clash : B → B → Prop}
  [DecidableRel clash] {db db' : Database ι K R B} {i j : ι}

/-- A step of one session keeps the constraints. -/
theorem lawful (h : Served check clash i db db') (hsymm : ∀ a b, clash a b → clash b a)
    (hdb : db.Lawful check clash) : db'.Lawful check clash := by
  cases h with
  | nothing => exact hdb
  | update h => exact hdb.update h
  | insert h => exact hdb.insert h
  | commit => exact hdb.commit hsymm i
  | rollback => exact hdb.rollback i

/-- A step of one session leaves the others what they hold. -/
theorem leaves (h : Served check clash i db db') (hij : j ≠ i) : Leaves j db db' := by
  cases h with
  | nothing => exact Leaves.refl j db
  | update h =>
    obtain ⟨-, rfl, -⟩ | ⟨r, -, -, -, -, hfree, rfl⟩ := update_cases h
    · exact Leaves.refl j _
    · exact leaves_lock hij hfree _
  | insert h =>
    obtain ⟨-, -, rfl⟩ := insert_cases h
    exact leaves_insert hij _
  | commit => exact leaves_commit hij
  | rollback => exact leaves_rollback hij

end Served

/-! ## Transactions of one statement

A transaction of one statement is done at once or refused. What it would have to
wait for counts as a refusal: it is tried again later. -/

/-- Add a record, which must not clash with another one. -/
def addRecord (clash : B → B → Prop) [DecidableRel clash] (db : Database ι K R B) (b : B) :
    Option (Database ι K R B) :=
  if ∃ b' ∈ db.records ++ db.inserts.map Prod.snd, clash b' b then none
  else some { db with records := db.records ++ [b] }

/-- Write a record anew, which must not clash with another one. -/
def replaceRecord [DecidableEq B] (clash : B → B → Prop) [DecidableRel clash]
    (db : Database ι K R B) (old new : B) : Option (Database ι K R B) :=
  if old ∈ db.records
    ∧ ∀ b ∈ db.records ++ db.inserts.map Prod.snd, b ≠ old → ¬ clash b new then
    some { db with records := db.records.map (fun b => if b = old then new else b) }
  else none

/-- Remove records. -/
def removeRecords (db : Database ι K R B) (p : B → Bool) : Database ι K R B :=
  { db with records := db.records.filter (fun b => !p b) }

/-- Add a row under a key that has none. -/
def addRow [DecidableEq K] (check : R → Prop) [DecidablePred check] (db : Database ι K R B)
    (k : K) (r : R) : Option (Database ι K R B) :=
  if (db.rows k).isNone ∧ (db.locks k).isNone ∧ check r then
    some { db with rows := Function.update db.rows k (some r) }
  else none

/-- Write a row anew, if nobody has locked it. -/
def replaceRow [DecidableEq K] (check : R → Prop) [DecidablePred check] (db : Database ι K R B)
    (k : K) (r : R) : Option (Database ι K R B) :=
  if (db.rows k).isSome ∧ (db.locks k).isNone ∧ check r then
    some { db with rows := Function.update db.rows k (some r) }
  else none

/-- Remove a row that nobody has locked. -/
def removeRow [DecidableEq K] (db : Database ι K R B) (k : K) : Option (Database ι K R B) :=
  if (db.locks k).isNone then some { db with rows := Function.update db.rows k none } else none

/-- **A change from outside**: it keeps the constraints, and leaves every session what
it holds. -/
structure Outside (check : R → Prop) (clash : B → B → Prop) (db db' : Database ι K R B) :
    Prop where
  lawful : db.Lawful check clash → db'.Lawful check clash
  leaves : ∀ i, Leaves i db db'

section Outside

variable {check : R → Prop} {clash : B → B → Prop} {db db' : Database ι K R B} {k : K} {r : R}
  {b old new : B}

/-- A change of the committed records alone. -/
theorem outside_of_records {records : List B}
    (h : db.Lawful check clash →
      (records ++ db.inserts.map Prod.snd).Pairwise (fun a b => ¬ clash a b)) :
    Outside check clash db { db with records := records } :=
  ⟨fun hdb => ⟨hdb.rows, hdb.locks, h hdb⟩, fun _ => ⟨fun _ _ => Iff.rfl, fun _ _ _ => rfl, rfl⟩⟩

/-- A change of a row that nobody has locked. -/
theorem outside_of_row [DecidableEq K] (hfree : db.locks k = none) {row : Option R}
    (hcheck : ∀ r ∈ row, check r) :
    Outside check clash db { db with rows := Function.update db.rows k row } := by
  refine ⟨fun hdb => ⟨fun k' r' hr' => ?_, hdb.locks, hdb.records⟩,
    fun _ => ⟨fun _ _ => Iff.rfl, fun k' r' hl => ?_, rfl⟩⟩
  · by_cases hk : k' = k
    · subst hk
      replace hr' : Function.update db.rows k' row k' = some r' := hr'
      rw [Function.update_self] at hr'
      exact hcheck r' hr'
    · replace hr' : Function.update db.rows k row k' = some r' := hr'
      rw [Function.update_of_ne hk] at hr'
      exact hdb.rows k' r' hr'
  · refine Function.update_of_ne ?_ _ _
    rintro rfl
    exact absurd (hfree.symm.trans hl) (by simp)

omit [DecidableEq ι] in
theorem addRecord_cases [DecidableRel clash] (h : db.addRecord clash b = some db') :
    db' = { db with records := db.records ++ [b] }
      ∧ ∀ b' ∈ db.records ++ db.inserts.map Prod.snd, ¬ clash b' b := by
  unfold addRecord at h
  by_cases hclash : ∃ b' ∈ db.records ++ db.inserts.map Prod.snd, clash b' b
  · rw [if_pos hclash] at h
    exact absurd h (by simp)
  · rw [if_neg hclash] at h
    exact ⟨(Option.some.inj h).symm, fun b' hb' hc => hclash ⟨b', hb', hc⟩⟩

/-- Adding a record is a change from outside. -/
theorem outside_addRecord [DecidableRel clash] (hsymm : ∀ a b, clash a b → clash b a)
    (h : db.addRecord clash b = some db') : Outside check clash db db' := by
  obtain ⟨rfl, hnone⟩ := addRecord_cases h
  refine outside_of_records (fun hdb => ?_)
  have hperm : (db.records ++ db.inserts.map Prod.snd ++ [b]).Perm
      (db.records ++ [b] ++ db.inserts.map Prod.snd) := by
    rw [List.append_assoc, List.append_assoc]
    exact List.perm_append_comm.append_left _
  refine (List.Perm.pairwise_iff (fun hab hba => hab (hsymm _ _ hba)) hperm).mp ?_
  rw [List.pairwise_append]
  refine ⟨hdb.records, List.pairwise_singleton _ _, fun a ha c hc => ?_⟩
  rw [List.mem_singleton.mp hc]
  exact hnone a ha

omit [DecidableEq ι] in
theorem replaceRecord_cases [DecidableEq B] [DecidableRel clash]
    (h : db.replaceRecord clash old new = some db') :
    db' = { db with records := db.records.map (fun b => if b = old then new else b) }
      ∧ old ∈ db.records
      ∧ ∀ b ∈ db.records ++ db.inserts.map Prod.snd, b ≠ old → ¬ clash b new := by
  unfold replaceRecord at h
  split at h
  · next hand => exact ⟨(Option.some.inj h).symm, hand⟩
  · exact absurd h (by simp)

/-- So is writing a record anew: every record clashes with itself. -/
theorem outside_replaceRecord [DecidableEq B] [DecidableRel clash]
    (hsymm : ∀ a b, clash a b → clash b a) (hrefl : ∀ a, clash a a)
    (h : db.replaceRecord clash old new = some db') : Outside check clash db db' := by
  obtain ⟨rfl, hold, hnone⟩ := replaceRecord_cases h
  refine outside_of_records (fun hdb => ?_)
  -- no insert is the record itself
  have hinserts : db.inserts.map Prod.snd
      = (db.inserts.map Prod.snd).map (fun b => if b = old then new else b) := by
    refine (List.map_id _).symm.trans (List.map_congr_left (fun b hb => ?_))
    refine (if_neg (fun he => ?_)).symm
    have hpair := (List.pairwise_append.mp hdb.records).2.2 old hold b hb
    rw [he] at hpair
    exact hpair (hrefl old)
  rw [hinserts, ← List.map_append, List.pairwise_map]
  refine hdb.records.imp_of_mem (fun {a c} ha hc hac => ?_)
  by_cases ha' : a = old
  · have hc' : c ≠ old := by
      rintro rfl
      exact hac (ha' ▸ hrefl c)
    rw [if_pos ha', if_neg hc']
    exact fun hclash => hnone c hc hc' (hsymm _ _ hclash)
  · rw [if_neg ha']
    by_cases hc' : c = old
    · rw [if_pos hc']
      exact hnone a ha ha'
    · rwa [if_neg hc']

/-- So is removing records. -/
theorem outside_removeRecords (p : B → Bool) :
    Outside check clash db (db.removeRecords p) :=
  outside_of_records (fun hdb => hdb.records.sublist (List.filter_sublist.append_right _))

omit [DecidableEq ι] in
theorem addRow_cases [DecidableEq K] [DecidablePred check] (h : db.addRow check k r = some db') :
    db' = { db with rows := Function.update db.rows k (some r) } ∧ db.rows k = none
      ∧ db.locks k = none ∧ check r := by
  unfold addRow at h
  split at h
  · next hand =>
    exact ⟨(Option.some.inj h).symm, Option.isNone_iff_eq_none.mp hand.1,
      Option.isNone_iff_eq_none.mp hand.2.1, hand.2.2⟩
  · exact absurd h (by simp)

/-- So is adding a row. -/
theorem outside_addRow [DecidableEq K] [DecidablePred check]
    (h : db.addRow check k r = some db') : Outside check clash db db' := by
  obtain ⟨rfl, -, hfree, hcheck⟩ := addRow_cases h
  refine outside_of_row hfree (fun r' hr' => ?_)
  rwa [← Option.some.inj hr']

omit [DecidableEq ι] in
theorem replaceRow_cases [DecidableEq K] [DecidablePred check]
    (h : db.replaceRow check k r = some db') :
    db' = { db with rows := Function.update db.rows k (some r) } ∧ db.locks k = none
      ∧ check r := by
  unfold replaceRow at h
  split at h
  · next hand =>
    exact ⟨(Option.some.inj h).symm, Option.isNone_iff_eq_none.mp hand.2.1, hand.2.2⟩
  · exact absurd h (by simp)

/-- Or writing one anew. -/
theorem outside_replaceRow [DecidableEq K] [DecidablePred check]
    (h : db.replaceRow check k r = some db') : Outside check clash db db' := by
  obtain ⟨rfl, hfree, hcheck⟩ := replaceRow_cases h
  refine outside_of_row hfree (fun r' hr' => ?_)
  rwa [← Option.some.inj hr']

omit [DecidableEq ι] in
theorem removeRow_cases [DecidableEq K] (h : db.removeRow k = some db') :
    db' = { db with rows := Function.update db.rows k none } ∧ db.locks k = none := by
  unfold removeRow at h
  split at h
  · next hfree => exact ⟨(Option.some.inj h).symm, Option.isNone_iff_eq_none.mp hfree⟩
  · exact absurd h (by simp)

/-- And removing one. -/
theorem outside_removeRow [DecidableEq K] (h : db.removeRow k = some db') :
    Outside check clash db db' := by
  obtain ⟨rfl, hfree⟩ := removeRow_cases h
  exact outside_of_row hfree (fun r hr => absurd hr (by simp))

end Outside

end Database
