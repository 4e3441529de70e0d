import QueueFair.Redis

/-!
# Two spellings of the serialised objects

A keyspace leaves open what a serialised object is. Where each object has a
rendering – its text, say – a keyspace of objects has a rendering too, key by
key, and a script *renders* another one if, on rendered keyspaces, it answers
the rendering of what the other answers and leaves the rendering of what the
other leaves. No command looks into a serialised object, so every command
renders itself, and what is made of commands renders itself, piece by piece
(`Renders.bind`): only a program that writes or reads an object has anything
to show.
-/

namespace Redis

variable {P Q α β γ δ : Type}

/-! ## Rendering what a server keeps -/

/-- A string, with its object rendered. -/
def Cell.map (f : P → Q) : Cell P → Cell Q
  | num q => .num q
  | word s => .word s
  | blob p => .blob (f p)

/-- A value, with its objects rendered. -/
def Value.map (f : P → Q) : Value P → Value Q
  | string c => .string (c.map f)
  | hash fields => .hash (fun x => (fields x).map (Cell.map f))
  | zset z => .zset z

/-- An entry, with its objects rendered. -/
def Entry.map (f : P → Q) (e : Entry P) : Entry Q := ⟨e.value.map f, e.expireAt⟩

/-- **A keyspace, with its objects rendered.** -/
def Keyspace.map (f : P → Q) (σ : Keyspace P) : Keyspace Q :=
  ⟨fun k => (σ.entries k).map (Entry.map f), σ.clock⟩

mutual

/-- A reply, with its objects rendered. -/
def Reply.map (f : P → Q) : Reply P → Reply Q
  | .int n => .int n
  | .bulk c => .bulk (c.map f)
  | .array xs => .array (Reply.mapAll f xs)

/-- Several replies, with their objects rendered. -/
def Reply.mapAll (f : P → Q) : List (Reply P) → List (Reply Q)
  | [] => []
  | x :: xs => x.map f :: Reply.mapAll f xs

end

theorem Reply.mapAll_eq (f : P → Q) (xs : List (Reply P)) :
    Reply.mapAll f xs = xs.map (Reply.map f) := by
  induction xs with
  | nil => rfl
  | cons x xs ih => rw [Reply.mapAll, ih, List.map_cons]

theorem Reply.map_array (f : P → Q) (xs : List (Reply P)) :
    (Reply.array xs).map f = .array (xs.map (Reply.map f)) := by
  rw [Reply.map, Reply.mapAll_eq]

/-- A table ends at its first `nil`, however its objects are rendered. -/
theorem Reply.map_table (f : P → Q) (xs : List (Option (Reply P))) :
    (Reply.table xs).map f = .table (xs.map (Option.map (Reply.map f))) := by
  unfold Reply.table
  rw [Reply.map_array]
  refine congrArg Reply.array ?_
  induction xs with
  | nil => rfl
  | cons x xs ih =>
    cases x with
    | none => rfl
    | some x =>
      rw [List.takeWhile_cons_of_pos rfl, List.map_cons, List.takeWhile_cons_of_pos rfl]
      exact congrArg (x.map f :: ·) ih

@[simp] theorem Reply.map_number (f : P → Q) (q : ℚ) :
    (Reply.number q : Reply P).map f = .number q := rfl

@[simp] theorem Cell.tonumber_map (f : P → Q) (c : Cell P) : (c.map f).tonumber = c.tonumber := by
  cases c <;> rfl

namespace Keyspace

variable (f : P → Q) (σ : Keyspace P) (k : String)

@[simp] theorem map_clock : (σ.map f).clock = σ.clock := rfl

theorem map_entries : (σ.map f).entries k = (σ.entries k).map (Entry.map f) := rfl

theorem find_map : (σ.map f).find k = (σ.find k).map (Value.map f) := by
  have hentries := map_entries f σ k
  cases he : σ.entries k with
  | none =>
    rw [he] at hentries
    rw [find_of_missing he, find_of_missing hentries]
    rfl
  | some e =>
    obtain ⟨v, d⟩ := e
    rw [he] at hentries
    cases d with
    | none =>
      rw [find_of_entries he, find_of_entries hentries]
      rfl
    | some d =>
      rw [find_of_expiring he, find_of_expiring hentries, map_clock]
      by_cases hd : σ.clock ≤ d
      · rw [if_pos hd, if_pos hd]
        rfl
      · rw [if_neg hd, if_neg hd]
        rfl

theorem ttlOf_map : (σ.map f).ttlOf k = σ.ttlOf k := by
  unfold ttlOf
  rw [find_map, map_entries]
  cases σ.find k with
  | none => rfl
  | some v => cases σ.entries k <;> rfl

theorem map_write (e : Option (Entry P)) :
    (σ.write k e).map f = (σ.map f).write k (e.map (Entry.map f)) := by
  refine congrArg (Keyspace.mk · σ.clock) ?_
  funext k'
  by_cases hk : k' = k
  · rw [hk, write_entries_self, Function.update_self]
  · rw [write_entries_of_ne σ hk, Function.update_of_ne hk]
    rfl

theorem map_put (v : Value P) : (σ.put k v).map f = (σ.map f).put k (v.map f) := by
  unfold put
  rw [map_write, ttlOf_map]
  rfl

theorem hashAt_map : (σ.map f).hashAt k
    = (σ.hashAt k).map (fun g x => (g x).map (Cell.map f)) := by
  unfold hashAt
  rw [find_map]
  cases σ.find k with
  | none => rfl
  | some v => cases v <;> rfl

theorem zsetAt_map : (σ.map f).zsetAt k = σ.zsetAt k := by
  unfold zsetAt
  rw [find_map]
  cases σ.find k with
  | none => rfl
  | some v => cases v <;> rfl

theorem map_putZset (z : ZSet String ℤ) :
    (σ.putZset k z).map f = (σ.map f).putZset k z := by
  unfold putZset
  by_cases hz : z.entries = []
  · rw [if_pos hz, if_pos hz, map_write]
    rfl
  · rw [if_neg hz, if_neg hz, map_put]
    rfl

end Keyspace

/-! ## Rendering what a script does -/

/-- **A script renders another**: on rendered keyspaces it answers what the other
answers, rendered by `g`, and leaves what the other leaves, rendered. -/
def Renders (f : P → Q) (g : α → β) (x : Redis P α) (y : Redis Q β) : Prop :=
  ∀ σ : Keyspace P, y.run (σ.map f) = ((x.run σ).1.map g, (x.run σ).2.map f)

variable {f : P → Q}

theorem renders_pure (g : α → β) (a : α) :
    Renders f g (pure a : Redis P α) (pure (g a) : Redis Q β) := fun _ => rfl

/-- **Piece by piece**: what is made of pieces renders what is made of the pieces
they render. -/
theorem Renders.bind {g : α → β} {h : γ → δ} {x : Redis P α} {y : Redis Q β}
    {k : α → Redis P γ} {l : β → Redis Q δ} (hxy : Renders f g x y)
    (hkl : ∀ a, Renders f h (k a) (l (g a))) : Renders f h (x >>= k) (y >>= l) := by
  intro σ
  have hrun := hxy σ
  cases hx : x.run σ with
  | mk r τ =>
    rw [hx] at hrun
    cases r with
    | ok a =>
      rw [run_bind_ok hx, run_bind_ok hrun]
      exact hkl a τ
    | error e =>
      rw [run_bind_error hx, run_bind_error hrun]
      rfl

/-- A reading that is rendered. -/
theorem renders_read {g : α → β} {r : Keyspace P → Except Error α}
    {r' : Keyspace Q → Except Error β} (h : ∀ σ, r' (σ.map f) = (r σ).map g) :
    Renders f g (read r) (read r') := by
  intro σ
  show (r' (σ.map f), σ.map f) = _
  rw [h]
  rfl

/-- A writing that is rendered. -/
theorem renders_command {g : α → β} {w : Keyspace P → Except Error (α × Keyspace P)}
    {w' : Keyspace Q → Except Error (β × Keyspace Q)}
    (h : ∀ σ, w' (σ.map f) = (w σ).map (fun p => (g p.1, p.2.map f))) :
    Renders f g (command w) (command w') := by
  intro σ
  have hσ := h σ
  cases hw : w σ with
  | ok p =>
    obtain ⟨a, τ⟩ := p
    rw [hw] at hσ
    rw [run_command_ok hw, run_command_ok hσ]
    rfl
  | error e =>
    rw [hw] at hσ
    rw [run_command_error hw, run_command_error hσ]
    rfl

/-! ## The commands -/

variable (f) (k : String)

theorem renders_EXISTS : Renders f id (EXISTS k : Redis P ℤ) (EXISTS k) := by
  refine renders_read (fun σ => ?_)
  rw [Keyspace.find_map, Option.isSome_map]
  rfl

theorem renders_GET :
    Renders f (Option.map (Cell.map f)) (GET k : Redis P (Option (Cell P))) (GET k) := by
  refine renders_read (fun σ => ?_)
  rw [Keyspace.find_map]
  cases σ.find k with
  | none => rfl
  | some v => cases v <;> rfl

theorem renders_HGET (x : String) :
    Renders f (Option.map (Cell.map f)) (HGET k x : Redis P (Option (Cell P))) (HGET k x) := by
  refine renders_read (fun σ => ?_)
  rw [Keyspace.hashAt_map]
  cases σ.hashAt k <;> rfl

theorem renders_HMGET (xs : List String) :
    Renders f (List.map (Option.map (Cell.map f)))
      (HMGET k xs : Redis P (List (Option (Cell P)))) (HMGET k xs) := by
  refine renders_read (fun σ => ?_)
  rw [Keyspace.hashAt_map]
  cases σ.hashAt k with
  | error e => rfl
  | ok g =>
    refine congrArg Except.ok ?_
    show xs.map (fun x => (g x).map (Cell.map f)) = (xs.map g).map (Option.map (Cell.map f))
    rw [List.map_map]
    rfl

theorem renders_ZCARD : Renders f id (ZCARD k : Redis P ℤ) (ZCARD k) := by
  refine renders_read (fun σ => ?_)
  rw [Keyspace.zsetAt_map]
  cases σ.zsetAt k <;> rfl

theorem renders_ZSCORE (m : String) :
    Renders f id (ZSCORE k m : Redis P (Option ℤ)) (ZSCORE k m) := by
  refine renders_read (fun σ => ?_)
  rw [Keyspace.zsetAt_map]
  cases σ.zsetAt k <;> rfl

theorem renders_ZRANK (m : String) :
    Renders f id (ZRANK k m : Redis P (Option ℕ)) (ZRANK k m) := by
  refine renders_read (fun σ => ?_)
  rw [Keyspace.zsetAt_map]
  cases σ.zsetAt k <;> rfl

theorem renders_SETEX (c : Cell P) (ex : ℤ) :
    Renders f id (SETEX k c ex) (SETEX k (c.map f) ex) := by
  refine renders_command (fun σ => ?_)
  by_cases hex : ex ≤ 0
  · rw [if_pos hex, if_pos hex]
    rfl
  · rw [if_neg hex, if_neg hex]
    show Except.ok _ = Except.ok ((), (σ.write k _).map f)
    rw [Keyspace.map_write]
    rfl

theorem renders_INCRBY (n : ℚ) : Renders f id (INCRBY k n : Redis P ℤ) (INCRBY k n) := by
  refine renders_command (fun σ => ?_)
  by_cases hn : n.den ≠ 1
  · rw [if_pos hn, if_pos hn]
    rfl
  · rw [if_neg hn, if_neg hn, Keyspace.find_map]
    cases σ.find k with
    | none =>
      show Except.ok (n.num, _) = Except.ok (n.num, (σ.put k _).map f)
      rw [Keyspace.map_put]
      rfl
    | some v =>
      cases v with
      | string c =>
        cases c with
        | num q =>
          by_cases hq : q.den ≠ 1
          · show (if q.den ≠ 1 then _ else _) = Except.map _ (if q.den ≠ 1 then _ else _)
            rw [if_pos hq, if_pos hq]
            rfl
          · show (if q.den ≠ 1 then _ else _) = Except.map _ (if q.den ≠ 1 then _ else _)
            rw [if_neg hq, if_neg hq]
            show Except.ok (q.num + n.num, _) = Except.ok (q.num + n.num, (σ.put k _).map f)
            rw [Keyspace.map_put]
            rfl
        | word s => rfl
        | blob p => rfl
      | hash g => rfl
      | zset z => rfl

theorem renders_INCR : Renders f id (INCR k : Redis P ℤ) (INCR k) := renders_INCRBY f k 1

theorem renders_DEL (ks : List String) : Renders f id (DEL ks : Redis P Unit) (DEL ks) := by
  refine renders_command (fun σ => congrArg (fun τ => Except.ok ((), τ)) ?_)
  induction ks generalizing σ with
  | nil => rfl
  | cons k ks ih =>
    rw [List.foldl_cons, List.foldl_cons, ← ih, Keyspace.map_write]
    rfl

theorem renders_HSET (xs : List (String × Cell P)) : Renders f id (HSET k xs : Redis P Unit)
    (HSET k (xs.map (fun x => (x.1, x.2.map f)))) := by
  refine renders_command (fun σ => ?_)
  rw [Keyspace.hashAt_map]
  cases σ.hashAt k with
  | error e => rfl
  | ok g =>
    -- the fields are given their values one after the other
    have hfold : ∀ g : String → Option (Cell P),
        (xs.map (fun x => (x.1, x.2.map f))).foldl
            (fun (h : String → Option (Cell Q)) x => Function.update h x.1 (some x.2))
            (fun y => (g y).map (Cell.map f))
          = fun y => (xs.foldl (fun (h : String → Option (Cell P)) x =>
              Function.update h x.1 (some x.2)) g y).map (Cell.map f) := by
      induction xs with
      | nil => exact fun g => rfl
      | cons x xs ih =>
        intro g
        rw [List.map_cons, List.foldl_cons, List.foldl_cons, ← ih]
        refine congrArg (List.foldl _ · _) ?_
        funext y
        by_cases hy : y = x.1
        · rw [hy, Function.update_self, Function.update_self]
          rfl
        · rw [Function.update_of_ne hy, Function.update_of_ne hy]
    show Except.ok ((), (σ.map f).put k _) = Except.ok ((), (σ.put k _).map f)
    rw [Keyspace.map_put, hfold]
    rfl

theorem renders_ZADD (s : ℤ) (m : String) :
    Renders f id (ZADD k s m : Redis P Unit) (ZADD k s m) := by
  refine renders_command (fun σ => ?_)
  rw [Keyspace.zsetAt_map]
  cases σ.zsetAt k with
  | error e => rfl
  | ok z =>
    show Except.ok ((), _) = Except.ok ((), (σ.putZset k _).map f)
    rw [Keyspace.map_putZset]

theorem renders_ZPOPMIN (n : ℚ) :
    Renders f id (ZPOPMIN k n : Redis P (List (String × ℤ))) (ZPOPMIN k n) := by
  refine renders_command (fun σ => ?_)
  by_cases hn : n.den ≠ 1 ∨ n < 0
  · rw [if_pos hn, if_pos hn]
    rfl
  · rw [if_neg hn, if_neg hn, Keyspace.zsetAt_map]
    cases σ.zsetAt k with
    | error e => rfl
    | ok z =>
      show Except.ok (z.popped _, _) = Except.ok (z.popped _, (σ.putZset k _).map f)
      rw [Keyspace.map_putZset]

end Redis
