import QueueFair.SortedSet
import Mathlib.Data.Rat.Floor
import Mathlib.Data.String.Basic
import Mathlib.Logic.Function.Basic

/-!
# A Redis server

The keyspace of a Redis server and the commands a script calls on it. A key
holds a string, a hash or a sorted set, possibly with an instant at which it
expires; a key past that instant reads as missing. A command on a value of
another type is an error, and – as in Redis – what was written before an
error stays written.

A string is kept as what it spells. A number is the number itself (Redis
prints a double with seventeen significant digits, which a double survives),
a word is a word, and text some program serialised is the object it
serialised, of the type `P` the library leaves open. Scores are integers: a
sorted set keeps doubles, which hold integers up to `2^53` exactly.

A script is a computation of `Redis P`. The server runs it to completion
before any other, so one script is one step.
-/

namespace Redis

/-- The content of a string: what it spells. -/
inductive Cell (P : Type) where
  /-- A decimal number. -/
  | num (q : ℚ)
  /-- A word, for instance a member of a sorted set. -/
  | word (s : String)
  /-- The text of a serialised object. -/
  | blob (p : P)

/-- The value of a key. -/
inductive Value (P : Type) where
  | string (c : Cell P)
  | hash (fields : String → Option (Cell P))
  | zset (z : ZSet String ℤ)

/-- A key's value and the instant, in milliseconds, at which it expires. -/
structure Entry (P : Type) where
  /-- What the key holds. -/
  value : Value P
  /-- When it stops holding it, if ever. -/
  expireAt : Option ℤ

/-- The errors a command can answer. -/
inductive Error where
  /-- `WRONGTYPE Operation against a key holding the wrong kind of value`. -/
  | wrongType
  /-- `value is not an integer or out of range`. -/
  | notInteger
  /-- `invalid expire time in 'set' command`. -/
  | invalidExpire
deriving DecidableEq

/-- What a script answers: the Redis form of the Lua value it returns. -/
inductive Reply (P : Type) where
  /-- An integer. -/
  | int (n : ℤ)
  /-- A string. -/
  | bulk (c : Cell P)
  /-- A table. -/
  | array (xs : List (Reply P))

/-- The data of a server: its keys and its clock, in milliseconds. -/
structure Keyspace (P : Type) where
  /-- What each key holds, if anything. -/
  entries : String → Option (Entry P)
  /-- The clock keys expire by. -/
  clock : ℤ

variable {P α β : Type}

/-- Lua's `tonumber`, of a string. -/
def Cell.tonumber : Cell P → Option ℚ
  | num q => some q
  | word _ => none
  | blob _ => none

/-- A Lua number in a reply: Redis drops its fraction. -/
def Reply.number (q : ℚ) : Reply P := .int (if 0 ≤ q then ⌊q⌋ else ⌈q⌉)

@[simp] theorem Reply.number_intCast (n : ℤ) :
    (Reply.number (n : ℚ) : Reply P) = .int n := by
  unfold Reply.number
  rw [Int.floor_intCast, Int.ceil_intCast, ite_self]

/-- A Lua table in a reply: Redis reads it up to its first `nil`. -/
def Reply.table (xs : List (Option (Reply P))) : Reply P :=
  .array ((xs.takeWhile Option.isSome).filterMap id)

namespace Keyspace

/-- The value a key holds now: what is past its expiry is gone. A key is still
there in the very millisecond it expires at. -/
def find (σ : Keyspace P) (k : String) : Option (Value P) :=
  match σ.entries k with
  | none => none
  | some ⟨v, none⟩ => some v
  | some ⟨v, some d⟩ => if σ.clock ≤ d then some v else none

/-- The expiry a write that keeps it keeps: the one of the live key. -/
def ttlOf (σ : Keyspace P) (k : String) : Option ℤ :=
  match σ.find k, σ.entries k with
  | some _, some e => e.expireAt
  | _, _ => none

/-- Make a key hold an entry, or nothing. -/
def write (σ : Keyspace P) (k : String) (e : Option (Entry P)) : Keyspace P :=
  { σ with entries := Function.update σ.entries k e }

/-- Replace the value of a key, keeping its expiry. -/
def put (σ : Keyspace P) (k : String) (v : Value P) : Keyspace P :=
  σ.write k (some ⟨v, σ.ttlOf k⟩)

/-- Let time pass. -/
def wait (σ : Keyspace P) (d : ℕ) : Keyspace P := { σ with clock := σ.clock + d }

@[simp] theorem write_entries_self (σ : Keyspace P) (k : String)
    (e : Option (Entry P)) : (σ.write k e).entries k = e :=
  Function.update_self _ _ _

@[simp] theorem write_entries_of_ne (σ : Keyspace P) {k k' : String}
    (h : k' ≠ k) (e : Option (Entry P)) :
    (σ.write k e).entries k' = σ.entries k' :=
  Function.update_of_ne h _ _

/-- What DEL leaves at a key. -/
theorem entries_foldl_write_none (ks : List String) (σ : Keyspace P) (k : String) :
    (ks.foldl (fun σ k => σ.write k none) σ).entries k
      = if k ∈ ks then none else σ.entries k := by
  induction ks generalizing σ with
  | nil => rfl
  | cons k' ks ih =>
    rw [List.foldl_cons, ih]
    by_cases hk : k ∈ ks
    · rw [if_pos hk, if_pos (List.mem_cons_of_mem k' hk)]
    · rw [if_neg hk]
      by_cases he : k = k'
      · rw [if_pos (he ▸ List.mem_cons_self), he, write_entries_self]
      · rw [if_neg (List.not_mem_cons_of_ne_of_not_mem he hk), write_entries_of_ne σ he]

/-- Reading a key that never expires. -/
theorem find_of_entries {σ : Keyspace P} {k : String} {v : Value P}
    (h : σ.entries k = some ⟨v, none⟩) : σ.find k = some v := by
  unfold find
  rw [h]

theorem find_of_missing {σ : Keyspace P} {k : String}
    (h : σ.entries k = none) : σ.find k = none := by
  unfold find
  rw [h]

/-- Reading a key that expires. -/
theorem find_of_expiring {σ : Keyspace P} {k : String} {v : Value P} {d : ℤ}
    (h : σ.entries k = some ⟨v, some d⟩) :
    σ.find k = if σ.clock ≤ d then some v else none := by
  unfold find
  rw [h]

/-- A write to a key that has no expiry leaves it without one. -/
theorem put_of_persistent {σ : Keyspace P} {k : String} (v : Value P)
    (h : ∀ e, σ.entries k = some e → e.expireAt = none) :
    σ.put k v = σ.write k (some ⟨v, none⟩) := by
  have httl : σ.ttlOf k = none := by
    unfold ttlOf
    cases hf : σ.find k with
    | none => rfl
    | some _ =>
      cases he : σ.entries k with
      | none => rfl
      | some e => exact h e he
  unfold put
  rw [httl]

end Keyspace

end Redis

/-! ## Scripts -/

/-- **A script**: what it answers, or the error that stopped it, and the
keyspace it leaves. -/
def Redis (P α : Type) := Redis.Keyspace P → Except Redis.Error α × Redis.Keyspace P

namespace Redis

variable {P α β : Type}

/-- Run a script on a server. -/
def run (x : Redis P α) (σ : Keyspace P) : Except Error α × Keyspace P := x σ

instance : Monad (Redis P) where
  pure a := fun σ => (.ok a, σ)
  bind x f := fun σ =>
    match x σ with
    | (.ok a, σ') => f a σ'
    | (.error e, σ') => (.error e, σ')

/-- A command that answers without writing. -/
def read (f : Keyspace P → Except Error α) : Redis P α := fun σ => (f σ, σ)

/-- A command that writes. -/
def command (f : Keyspace P → Except Error (α × Keyspace P)) : Redis P α := fun σ =>
  match f σ with
  | .ok (a, σ') => (.ok a, σ')
  | .error e => (.error e, σ)

@[simp] theorem run_pure (a : α) (σ : Keyspace P) :
    (pure a : Redis P α).run σ = (.ok a, σ) := rfl

@[simp] theorem run_read (f : Keyspace P → Except Error α) (σ : Keyspace P) :
    (read f).run σ = (f σ, σ) := rfl

theorem run_command_ok {f : Keyspace P → Except Error (α × Keyspace P)}
    {σ σ' : Keyspace P} {a : α} (h : f σ = .ok (a, σ')) :
    (command f).run σ = (.ok a, σ') := by
  show (match f σ with
    | .ok (a, σ') => (.ok a, σ')
    | .error e => (.error e, σ) : Except Error α × Keyspace P) = _
  rw [h]

theorem run_command_error {f : Keyspace P → Except Error (α × Keyspace P)}
    {σ : Keyspace P} {e : Error} (h : f σ = .error e) :
    (command f).run σ = (.error e, σ) := by
  show (match f σ with
    | .ok (a, σ') => (.ok a, σ')
    | .error e => (.error e, σ) : Except Error α × Keyspace P) = _
  rw [h]

theorem run_bind_ok {x : Redis P α} {f : α → Redis P β} {σ σ' : Keyspace P} {a : α}
    (h : x.run σ = (.ok a, σ')) : (x >>= f).run σ = (f a).run σ' := by
  show (match x.run σ with
    | (.ok a, σ') => (f a).run σ'
    | (.error e, σ') => (.error e, σ')) = _
  rw [h]

/-- An error stops a script where it is. -/
theorem run_bind_error {x : Redis P α} {f : α → Redis P β} {σ σ' : Keyspace P} {e : Error}
    (h : x.run σ = (.error e, σ')) : (x >>= f).run σ = (.error e, σ') := by
  show (match x.run σ with
    | (.ok a, σ') => (f a).run σ'
    | (.error e, σ') => (.error e, σ')) = _
  rw [h]

/-! ## The commands -/

/-- EXISTS: whether the key is there, as `1` or `0`. -/
def EXISTS (k : String) : Redis P ℤ :=
  read (fun σ => .ok (if (σ.find k).isSome then 1 else 0))

/-- GET: the string at a key, if there is one. -/
def GET (k : String) : Redis P (Option (Cell P)) :=
  read (fun σ => match σ.find k with
    | none => .ok none
    | some (.string c) => .ok (some c)
    | some _ => .error .wrongType)

/-- SET with EX: make a key hold a string for `ex` seconds. -/
def SETEX (k : String) (c : Cell P) (ex : ℤ) : Redis P Unit :=
  command (fun σ => if ex ≤ 0 then .error .invalidExpire
    else .ok ((), σ.write k (some ⟨.string c, some (σ.clock + 1000 * ex)⟩)))

/-- INCRBY: add to the integer a string spells, a missing key being `0`. The
number to add is one a script computed, and must be an integer too. -/
def INCRBY (k : String) (n : ℚ) : Redis P ℤ :=
  command (fun σ =>
    if n.den ≠ 1 then .error .notInteger else
    match σ.find k with
    | none => .ok (n.num, σ.put k (.string (.num n)))
    | some (.string (.num q)) =>
      if q.den ≠ 1 then .error .notInteger
      else .ok (q.num + n.num, σ.put k (.string (.num (q + n))))
    | some (.string _) => .error .notInteger
    | some _ => .error .wrongType)

/-- INCR: add one. -/
def INCR (k : String) : Redis P ℤ := INCRBY k 1

/-- DEL: remove keys, whatever they hold. -/
def DEL (ks : List String) : Redis P Unit :=
  command (fun σ => .ok ((), ks.foldl (fun σ k => σ.write k none) σ))

/-- The hash at a key, a missing one having no field. -/
def Keyspace.hashAt (σ : Keyspace P) (k : String) :
    Except Error (String → Option (Cell P)) :=
  match σ.find k with
  | none => .ok (fun _ => none)
  | some (.hash f) => .ok f
  | some _ => .error .wrongType

/-- HGET: a field of a hash. -/
def HGET (k field : String) : Redis P (Option (Cell P)) :=
  read (fun σ => (σ.hashAt k).map (fun f => f field))

/-- HMGET: several fields of a hash. -/
def HMGET (k : String) (fields : List String) : Redis P (List (Option (Cell P))) :=
  read (fun σ => (σ.hashAt k).map (fun f => fields.map f))

/-- HSET: give fields of a hash their values. -/
def HSET (k : String) (fields : List (String × Cell P)) : Redis P Unit :=
  command (fun σ => (σ.hashAt k).map (fun f => ((), σ.put k
    (.hash (fields.foldl (fun g x => Function.update g x.1 (some x.2)) f)))))

/-- The sorted set at a key, a missing one being empty. -/
def Keyspace.zsetAt (σ : Keyspace P) (k : String) : Except Error (ZSet String ℤ) :=
  match σ.find k with
  | none => .ok ZSet.empty
  | some (.zset z) => .ok z
  | some _ => .error .wrongType

/-- Store a sorted set. Redis keeps no empty one. -/
def Keyspace.putZset (σ : Keyspace P) (k : String) (z : ZSet String ℤ) : Keyspace P :=
  if z.entries = [] then σ.write k none else σ.put k (.zset z)

/-- ZCARD. -/
def ZCARD (k : String) : Redis P ℤ :=
  read (fun σ => (σ.zsetAt k).map (fun z => z.card))

/-- ZSCORE. -/
def ZSCORE (k m : String) : Redis P (Option ℤ) :=
  read (fun σ => (σ.zsetAt k).map (fun z => z.score? m))

/-- ZRANK. -/
def ZRANK (k m : String) : Redis P (Option ℕ) :=
  read (fun σ => (σ.zsetAt k).map (fun z => z.rank? m))

/-- ZADD of one member. -/
def ZADD (k : String) (s : ℤ) (m : String) : Redis P Unit :=
  command (fun σ => (σ.zsetAt k).map (fun z => ((), σ.putZset k (z.add m s))))

/-- ZPOPMIN with a count. -/
def ZPOPMIN (k : String) (n : ℚ) : Redis P (List (String × ℤ)) :=
  command (fun σ =>
    if n.den ≠ 1 ∨ n < 0 then .error .notInteger else
    (σ.zsetAt k).map (fun z =>
      (z.popped n.num.toNat, σ.putZset k (z.popMin n.num.toNat))))

/-! ## What a key holds, and what a command does to it

The rules below read a command on a key that never expires, which is what a
script that owns its keys meets: the answer, and the one write. -/

namespace Keyspace

/-- A key that holds a sorted set, or is missing where the set is empty. -/
def HoldsZset (σ : Keyspace P) (k : String) (z : ZSet String ℤ) : Prop :=
  σ.entries k = if z.entries = [] then none else some ⟨.zset z, none⟩

/-- A key that counts: it spells an integer, or is missing where that is
`0`. -/
def HoldsCount (σ : Keyspace P) (k : String) (n : ℤ) : Prop :=
  (σ.entries k = none ∧ n = 0) ∨ σ.entries k = some ⟨.string (.num n), none⟩

/-- A key that holds a hash, or is missing where no field has a value. -/
def HoldsHash (σ : Keyspace P) (k : String) (f : String → Option (Cell P)) : Prop :=
  (σ.entries k = none ∧ f = fun _ => none) ∨ σ.entries k = some ⟨.hash f, none⟩

variable {σ : Keyspace P} {k : String}

theorem HoldsZset.write_of_ne {z : ZSet String ℤ} (h : σ.HoldsZset k z) {k' : String}
    (hk : k ≠ k') (e : Option (Entry P)) : (σ.write k' e).HoldsZset k z :=
  (write_entries_of_ne σ hk e).trans h

theorem HoldsCount.write_of_ne {n : ℤ} (h : σ.HoldsCount k n) {k' : String}
    (hk : k ≠ k') (e : Option (Entry P)) : (σ.write k' e).HoldsCount k n := by
  unfold HoldsCount
  rwa [write_entries_of_ne σ hk e]

theorem HoldsHash.write_of_ne {f : String → Option (Cell P)} (h : σ.HoldsHash k f)
    {k' : String} (hk : k ≠ k') (e : Option (Entry P)) :
    (σ.write k' e).HoldsHash k f := by
  unfold HoldsHash
  rwa [write_entries_of_ne σ hk e]

theorem HoldsZset.zsetAt {z : ZSet String ℤ} (h : σ.HoldsZset k z) :
    σ.zsetAt k = .ok z := by
  unfold HoldsZset at h
  unfold Keyspace.zsetAt
  split at h
  · next hz =>
    rw [find_of_missing h]
    exact congrArg Except.ok (ZSet.ext hz.symm)
  · rw [find_of_entries h]

theorem HoldsZset.putZset {z : ZSet String ℤ} (h : σ.HoldsZset k z)
    (z' : ZSet String ℤ) : σ.putZset k z'
      = σ.write k (if z'.entries = [] then none else some ⟨.zset z', none⟩) := by
  unfold Keyspace.putZset
  split
  · rfl
  · refine put_of_persistent _ (fun e he => ?_)
    unfold HoldsZset at h
    rw [he] at h
    split at h
    · exact absurd h (by simp)
    · exact congrArg Entry.expireAt (Option.some.inj h)

theorem HoldsCount.put {n : ℤ} (h : σ.HoldsCount k n) (v : Value P) :
    σ.put k v = σ.write k (some ⟨v, none⟩) := by
  refine put_of_persistent v (fun e he => ?_)
  rcases h with ⟨h, -⟩ | h
  · rw [h] at he
    exact absurd he (by simp)
  · rw [h] at he
    exact congrArg Entry.expireAt (Option.some.inj he).symm

theorem HoldsHash.put {f : String → Option (Cell P)} (h : σ.HoldsHash k f)
    (v : Value P) : σ.put k v = σ.write k (some ⟨v, none⟩) := by
  refine put_of_persistent v (fun e he => ?_)
  rcases h with ⟨h, -⟩ | h
  · rw [h] at he
    exact absurd he (by simp)
  · rw [h] at he
    exact congrArg Entry.expireAt (Option.some.inj he).symm

theorem HoldsHash.hashAt {f : String → Option (Cell P)} (h : σ.HoldsHash k f) :
    σ.hashAt k = .ok f := by
  unfold Keyspace.hashAt
  rcases h with ⟨h, rfl⟩ | h
  · rw [find_of_missing h]
  · rw [find_of_entries h]

/-- A key holds what a command just wrote there. -/
theorem holdsZset_write (z : ZSet String ℤ) :
    (σ.write k (if z.entries = [] then none else some ⟨.zset z, none⟩)).HoldsZset k z :=
  write_entries_self _ _ _

theorem holdsCount_write (n : ℤ) :
    (σ.write k (some ⟨.string (.num n), none⟩)).HoldsCount k n :=
  Or.inr (write_entries_self _ _ _)

theorem holdsHash_write (f : String → Option (Cell P)) :
    (σ.write k (some ⟨.hash f, none⟩)).HoldsHash k f :=
  Or.inr (write_entries_self _ _ _)

end Keyspace

open Keyspace

variable {σ : Keyspace P} {k : String}

theorem EXISTS_run (k : String) (σ : Keyspace P) :
    (EXISTS k : Redis P ℤ).run σ = (.ok (if (σ.find k).isSome then 1 else 0), σ) := rfl

theorem GET_run_count {n : ℤ} (h : σ.HoldsCount k n) :
    ∃ c : Option (Cell P), (GET k).run σ = (.ok c, σ)
      ∧ c.getD (.num 0) = .num n := by
  unfold GET
  rcases h with ⟨h, rfl⟩ | h
  · exact ⟨none, by rw [run_read, find_of_missing h], rfl⟩
  · exact ⟨some (.num n), by rw [run_read, find_of_entries h], rfl⟩

theorem INCRBY_run {n m : ℤ} (h : σ.HoldsCount k n) :
    (INCRBY k (m : ℚ) : Redis P ℤ).run σ
      = (.ok (n + m), σ.write k (some ⟨.string (.num ((n + m : ℤ) : ℚ)), none⟩)) := by
  have hput := fun v : Value P => h.put v
  refine run_command_ok ?_
  rcases h with ⟨h, rfl⟩ | h
  · simp [find_of_missing h, hput]
  · simp [find_of_entries h, hput]

theorem HGET_run {f : String → Option (Cell P)} (h : σ.HoldsHash k f) (x : String) :
    (HGET k x).run σ = (.ok (f x), σ) := by
  unfold HGET
  rw [run_read, h.hashAt]
  rfl

theorem HMGET_run {f : String → Option (Cell P)} (h : σ.HoldsHash k f)
    (xs : List String) : (HMGET k xs).run σ = (.ok (xs.map f), σ) := by
  unfold HMGET
  rw [run_read, h.hashAt]
  rfl

theorem HSET_run {f : String → Option (Cell P)} (h : σ.HoldsHash k f)
    (xs : List (String × Cell P)) :
    (HSET k xs).run σ = (.ok (), σ.write k (some ⟨.hash
      (xs.foldl (fun g x => Function.update g x.1 (some x.2)) f), none⟩)) := by
  refine run_command_ok ?_
  rw [h.hashAt, ← h.put]
  rfl

theorem ZCARD_run {z : ZSet String ℤ} (h : σ.HoldsZset k z) :
    (ZCARD k : Redis P ℤ).run σ = (.ok z.card, σ) := by
  unfold ZCARD
  rw [run_read, h.zsetAt]
  rfl

theorem ZSCORE_run {z : ZSet String ℤ} (h : σ.HoldsZset k z) (m : String) :
    (ZSCORE k m : Redis P _).run σ = (.ok (z.score? m), σ) := by
  unfold ZSCORE
  rw [run_read, h.zsetAt]
  rfl

theorem ZRANK_run {z : ZSet String ℤ} (h : σ.HoldsZset k z) (m : String) :
    (ZRANK k m : Redis P _).run σ = (.ok (z.rank? m), σ) := by
  unfold ZRANK
  rw [run_read, h.zsetAt]
  rfl

theorem ZADD_run {z : ZSet String ℤ} (h : σ.HoldsZset k z) (s : ℤ) (m : String) :
    (ZADD k s m : Redis P Unit).run σ = (.ok (), σ.write k
      (if (z.add m s).entries = [] then none else some ⟨.zset (z.add m s), none⟩)) := by
  refine run_command_ok ?_
  rw [h.zsetAt, ← h.putZset]
  rfl

theorem ZPOPMIN_run {z : ZSet String ℤ} (h : σ.HoldsZset k z) (n : ℕ) :
    (ZPOPMIN k (n : ℚ) : Redis P _).run σ = (.ok (z.popped n), σ.write k
      (if (z.popMin n).entries = [] then none else some ⟨.zset (z.popMin n), none⟩)) := by
  refine run_command_ok ?_
  rw [if_neg (by simp), h.zsetAt, ← h.putZset]
  rfl

end Redis
