import QueueFair.Redis
import Mathlib.Data.Set.Basic

/-!
# The keys a script works on

A script works *within* a set of keys if it leaves every other key alone and
does nothing that depends on one: on two keyspaces that agree on the set it
answers the same and leaves keyspaces that agree on the set. Every command
works within its own keys, and what is made of commands works within the keys
of its commands (`Within.bind`). Two scripts that work within disjoint sets of
keys do not notice each other.

Expiry makes the clock a part of what a command reads, so keyspaces that agree
have the same clock; no command moves it.
-/

namespace Redis

variable {P α β : Type}

namespace Keyspace

/-- Two keyspaces agree on a set of keys, and on the time. -/
structure Agree (K : Set String) (σ σ' : Keyspace P) : Prop where
  clock : σ.clock = σ'.clock
  entries : ∀ k ∈ K, σ.entries k = σ'.entries k

namespace Agree

variable {K : Set String} {σ σ' : Keyspace P} {k : String}

theorem refl (K : Set String) (σ : Keyspace P) : Agree K σ σ := ⟨rfl, fun _ _ => rfl⟩

theorem trans {σ'' : Keyspace P} (h : Agree K σ σ') (h' : Agree K σ' σ'') : Agree K σ σ'' :=
  ⟨h.clock.trans h'.clock, fun k hk => (h.entries k hk).trans (h'.entries k hk)⟩

theorem symm (h : Agree K σ σ') : Agree K σ' σ :=
  ⟨h.clock.symm, fun k hk => (h.entries k hk).symm⟩

theorem find (h : Agree K σ σ') (hk : k ∈ K) : σ.find k = σ'.find k := by
  unfold Keyspace.find
  rw [h.entries k hk, h.clock]

theorem ttlOf (h : Agree K σ σ') (hk : k ∈ K) : σ.ttlOf k = σ'.ttlOf k := by
  unfold Keyspace.ttlOf
  rw [h.find hk, h.entries k hk]

theorem hashAt (h : Agree K σ σ') (hk : k ∈ K) : σ.hashAt k = σ'.hashAt k := by
  unfold Keyspace.hashAt
  rw [h.find hk]

theorem zsetAt (h : Agree K σ σ') (hk : k ∈ K) : σ.zsetAt k = σ'.zsetAt k := by
  unfold Keyspace.zsetAt
  rw [h.find hk]

/-- The same write on both. -/
theorem write (h : Agree K σ σ') (k : String) (e : Option (Entry P)) :
    Agree K (σ.write k e) (σ'.write k e) := by
  refine ⟨h.clock, fun k' hk' => ?_⟩
  by_cases hkk : k' = k
  · rw [hkk, write_entries_self, write_entries_self]
  · rw [write_entries_of_ne _ hkk, write_entries_of_ne _ hkk]
    exact h.entries k' hk'

theorem wait (h : Agree K σ σ') (d : ℕ) : Agree K (σ.wait d) (σ'.wait d) :=
  ⟨congrArg (· + (d : ℤ)) h.clock, h.entries⟩

end Agree

/-- A write to a key outside the set is not seen from the set. -/
theorem agree_write {K : Set String} (σ : Keyspace P) {k : String} (hk : k ∉ K)
    (e : Option (Entry P)) : Agree K σ (σ.write k e) :=
  ⟨rfl, fun k' hk' => (write_entries_of_ne σ (fun he : k' = k => hk (he ▸ hk')) e).symm⟩

end Keyspace

open Keyspace

/-- **A script works within a set of keys.** -/
structure Within (K : Set String) (x : Redis P α) : Prop where
  /-- The other keys, and the clock, are left alone. -/
  frame : ∀ σ (K' : Set String), (∀ k ∈ K, k ∉ K') → Agree K' σ (x.run σ).2
  /-- What it does depends on its keys. -/
  congr : ∀ σ σ', Agree K σ σ' →
    (x.run σ).1 = (x.run σ').1 ∧ Agree K (x.run σ).2 (x.run σ').2

variable {K : Set String}

theorem within_pure (a : α) : Within K (pure a : Redis P α) :=
  ⟨fun σ K' _ => Agree.refl K' σ, fun _ _ h => ⟨rfl, h⟩⟩

/-- **What is made of scripts that work within a set of keys works within
it.** -/
theorem Within.bind {x : Redis P α} {f : α → Redis P β} (hx : Within K x)
    (hf : ∀ a, Within K (f a)) : Within K (x >>= f) := by
  refine ⟨fun σ K' hdisj => ?_, fun σ σ' h => ?_⟩
  · have hframe := hx.frame σ K' hdisj
    cases hrun : x.run σ with
    | mk r τ =>
      rw [hrun] at hframe
      cases r with
      | ok a =>
        rw [run_bind_ok hrun]
        exact hframe.trans ((hf a).frame τ K' hdisj)
      | error e =>
        rw [run_bind_error hrun]
        exact hframe
  · obtain ⟨hreply, hstore⟩ := hx.congr σ σ' h
    cases hrun : x.run σ with
    | mk r τ =>
      cases hrun' : x.run σ' with
      | mk r' τ' =>
        rw [hrun, hrun'] at hreply hstore
        obtain rfl : r = r' := hreply
        cases r with
        | ok a =>
          rw [run_bind_ok hrun, run_bind_ok hrun']
          exact (hf a).congr τ τ' hstore
        | error e =>
          rw [run_bind_error hrun, run_bind_error hrun']
          exact ⟨rfl, hstore⟩

/-- A command that answers what its keys say. -/
theorem within_read {f : Keyspace P → Except Error α}
    (hf : ∀ σ σ', Agree K σ σ' → f σ = f σ') : Within K (read f) :=
  ⟨fun σ K' _ => Agree.refl K' σ, fun σ σ' h => ⟨hf σ σ' h, h⟩⟩

/-- A command that writes one key, and answers and writes what its keys
say. -/
theorem within_command {k : String} (hk : k ∈ K)
    {f : Keyspace P → Except Error (α × Keyspace P)}
    {g : Keyspace P → Except Error (α × Option (Entry P))}
    (hfg : ∀ σ, f σ = (g σ).map (fun p => (p.1, σ.write k p.2)))
    (hg : ∀ σ σ', Agree K σ σ' → g σ = g σ') : Within K (command f) := by
  refine ⟨fun σ K' hdisj => ?_, fun σ σ' h => ?_⟩
  · cases hgσ : g σ with
    | ok p =>
      rw [run_command_ok (by rw [hfg, hgσ]; rfl)]
      exact agree_write σ (hdisj _ hk) p.2
    | error e =>
      rw [run_command_error (by rw [hfg, hgσ]; rfl)]
      exact Agree.refl K' σ
  · have hgσ' := hg σ σ' h
    cases hgσ : g σ with
    | ok p =>
      rw [hgσ] at hgσ'
      rw [run_command_ok (by rw [hfg, hgσ]; rfl), run_command_ok (by rw [hfg, ← hgσ']; rfl)]
      exact ⟨rfl, h.write k p.2⟩
    | error e =>
      rw [hgσ] at hgσ'
      rw [run_command_error (by rw [hfg, hgσ]; rfl),
        run_command_error (by rw [hfg, ← hgσ']; rfl)]
      exact ⟨rfl, h⟩

/-! ## The commands -/

variable {k : String}

theorem within_EXISTS (hk : k ∈ K) : Within K (EXISTS k : Redis P ℤ) :=
  within_read (fun σ σ' h => by rw [h.find hk])

theorem within_GET (hk : k ∈ K) : Within K (GET k : Redis P (Option (Cell P))) :=
  within_read (fun σ σ' h => by rw [h.find hk])

theorem within_HGET (hk : k ∈ K) (x : String) :
    Within K (HGET k x : Redis P (Option (Cell P))) :=
  within_read (fun σ σ' h => by rw [h.hashAt hk])

theorem within_HMGET (hk : k ∈ K) (xs : List String) :
    Within K (HMGET k xs : Redis P (List (Option (Cell P)))) :=
  within_read (fun σ σ' h => by rw [h.hashAt hk])

theorem within_ZCARD (hk : k ∈ K) : Within K (ZCARD k : Redis P ℤ) :=
  within_read (fun σ σ' h => by rw [h.zsetAt hk])

theorem within_ZSCORE (hk : k ∈ K) (m : String) : Within K (ZSCORE k m : Redis P (Option ℤ)) :=
  within_read (fun σ σ' h => by rw [h.zsetAt hk])

theorem within_ZRANK (hk : k ∈ K) (m : String) : Within K (ZRANK k m : Redis P (Option ℕ)) :=
  within_read (fun σ σ' h => by rw [h.zsetAt hk])

theorem within_SETEX (hk : k ∈ K) (c : Cell P) (ex : ℤ) : Within K (SETEX k c ex) := by
  refine within_command hk (g := fun σ => if ex ≤ 0 then .error .invalidExpire
    else .ok ((), some ⟨.string c, some (σ.clock + 1000 * ex)⟩)) (fun σ => ?_) (fun σ σ' h => ?_)
  · by_cases hex : ex ≤ 0
    · rw [if_pos hex, if_pos hex]
      rfl
    · rw [if_neg hex, if_neg hex]
      rfl
  · rw [h.clock]

theorem within_HSET (hk : k ∈ K) (xs : List (String × Cell P)) :
    Within K (HSET k xs : Redis P Unit) := by
  refine within_command hk (g := fun σ => (σ.hashAt k).map (fun f => ((), some
    ⟨.hash (xs.foldl (fun g x => Function.update g x.1 (some x.2)) f), σ.ttlOf k⟩)))
    (fun σ => ?_) (fun σ σ' h => by rw [h.hashAt hk, h.ttlOf hk])
  cases σ.hashAt k <;> rfl

/-- What storing a sorted set writes. -/
def zsetEntry (σ : Keyspace P) (k : String) (z : ZSet String ℤ) : Option (Entry P) :=
  if z.entries = [] then none else some ⟨.zset z, σ.ttlOf k⟩

theorem putZset_eq (σ : Keyspace P) (k : String) (z : ZSet String ℤ) :
    σ.putZset k z = σ.write k (zsetEntry σ k z) := by
  unfold Keyspace.putZset zsetEntry
  by_cases hz : z.entries = []
  · rw [if_pos hz, if_pos hz]
  · rw [if_neg hz, if_neg hz]
    rfl

theorem Keyspace.Agree.zsetEntry {σ σ' : Keyspace P} (h : Agree K σ σ') (hk : k ∈ K)
    (z : ZSet String ℤ) : zsetEntry σ k z = zsetEntry σ' k z := by
  unfold Redis.zsetEntry
  rw [h.ttlOf hk]

theorem within_ZADD (hk : k ∈ K) (s : ℤ) (m : String) :
    Within K (ZADD k s m : Redis P Unit) := by
  refine within_command hk (g := fun σ => (σ.zsetAt k).map
    (fun z => ((), zsetEntry σ k (z.add m s)))) (fun σ => ?_) (fun σ σ' h => ?_)
  · cases σ.zsetAt k with
    | ok z => exact congrArg (fun τ => Except.ok ((), τ)) (putZset_eq σ k _)
    | error e => rfl
  · simp only [h.zsetAt hk, h.zsetEntry hk]

theorem within_ZPOPMIN (hk : k ∈ K) (n : ℚ) :
    Within K (ZPOPMIN k n : Redis P (List (String × ℤ))) := by
  refine within_command hk (g := fun σ => if n.den ≠ 1 ∨ n < 0 then .error .notInteger
    else (σ.zsetAt k).map (fun z => (z.popped n.num.toNat,
      zsetEntry σ k (z.popMin n.num.toNat)))) (fun σ => ?_) (fun σ σ' h => ?_)
  · by_cases hn : n.den ≠ 1 ∨ n < 0
    · rw [if_pos hn, if_pos hn]
      rfl
    · rw [if_neg hn, if_neg hn]
      cases σ.zsetAt k with
      | ok z => exact congrArg (fun τ => Except.ok (_, τ)) (putZset_eq σ k _)
      | error e => rfl
  · simp only [h.zsetAt hk, h.zsetEntry hk]

/-- What INCRBY answers, and the number it writes. -/
def incremented (σ : Keyspace P) (k : String) (n : ℚ) : Except Error (ℤ × ℚ) :=
  if n.den ≠ 1 then .error .notInteger else
  match σ.find k with
  | none => .ok (n.num, n)
  | some (.string (.num q)) =>
    if q.den ≠ 1 then .error .notInteger else .ok (q.num + n.num, q + n)
  | some (.string _) => .error .notInteger
  | some _ => .error .wrongType

theorem within_INCRBY (hk : k ∈ K) (n : ℚ) : Within K (INCRBY k n : Redis P ℤ) := by
  refine within_command hk (g := fun σ => (incremented σ k n).map
    (fun p => (p.1, some ⟨.string (.num p.2), σ.ttlOf k⟩))) (fun σ => ?_) (fun σ σ' h => ?_)
  · unfold incremented
    by_cases hn : n.den ≠ 1
    · rw [if_pos hn, if_pos hn]
      rfl
    · rw [if_neg hn, if_neg hn]
      cases σ.find k with
      | none => rfl
      | some v =>
        cases v with
        | string c =>
          cases c with
          | num q =>
            dsimp only
            by_cases hq : q.den ≠ 1
            · rw [if_pos hq, if_pos hq]
              rfl
            · rw [if_neg hq, if_neg hq]
              rfl
          | _ => rfl
        | _ => rfl
  · unfold incremented
    rw [h.find hk, h.ttlOf hk]

theorem within_INCR (hk : k ∈ K) : Within K (INCR k : Redis P ℤ) := within_INCRBY hk 1

theorem within_DEL {ks : List String} (hks : ∀ k ∈ ks, k ∈ K) :
    Within K (DEL ks : Redis P Unit) := by
  have hrun : ∀ σ : Keyspace P, (DEL ks : Redis P Unit).run σ
      = (.ok (), ks.foldl (fun σ k => σ.write k none) σ) := fun σ => rfl
  refine ⟨fun σ K' hdisj => ?_, fun σ σ' h => ?_⟩
  · rw [hrun]
    induction ks generalizing σ with
    | nil => exact Agree.refl K' σ
    | cons k ks ih =>
      have hk : k ∉ K' := hdisj k (hks k List.mem_cons_self)
      exact (agree_write σ hk none).trans
        (ih (fun k' hk' => hks k' (List.mem_cons_of_mem k hk')) (fun _ => rfl) _)
  · rw [hrun, hrun]
    refine ⟨rfl, ?_⟩
    induction ks generalizing σ σ' with
    | nil => exact h
    | cons k ks ih =>
      exact ih (fun k' hk' => hks k' (List.mem_cons_of_mem k hk')) (fun _ => rfl) _ _
        (h.write k none)

end Redis
