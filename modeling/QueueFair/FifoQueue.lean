import Mathlib.Data.List.Nodup
import Mathlib.Data.List.Perm.Basic
import Mathlib.Order.Basic
import Mathlib.Tactic.Ring

/-!
# First-in first-out queues

The specification of a queue, by its history: the log of everyone who ever
joined, and how many of them were released. Who waits is then the rest of the
log, nobody twice, and releasing takes from the front by construction. A
member may come back once released, and then stands in the log again.

A place in the log is a ticket, numbered from `1`. A waiting member's
position is how many stand in front, plus one. It is the ticket's number less
the number released (`number_sub_served`), and over any stretch of a history
in which the member keeps waiting it drops by exactly the number released
(`position_advance`).
-/

/-- **A first-in first-out queue**, as its history. -/
structure FifoQueue (M : Type) where
  /-- Everyone who joined, in order. -/
  log : List M
  /-- How many of them were released. -/
  served : ℕ
  served_le : served ≤ log.length
  /-- Nobody waits twice. -/
  nodup : (log.drop served).Nodup

namespace FifoQueue

variable {M : Type}

/-- Nobody joined yet. -/
def empty : FifoQueue M := ⟨[], 0, le_rfl, List.nodup_nil⟩

/-- Who was released, in order. -/
def released (q : FifoQueue M) : List M := q.log.take q.served

/-- Who waits, in order. -/
def waiting (q : FifoQueue M) : List M := q.log.drop q.served

/-- The tickets of a log: its members, numbered from `1`. -/
def number (log : List M) : List (M × ℤ) :=
  log.mapIdx (fun i m => (m, (i : ℤ) + 1))

/-- The tickets of those who wait. -/
def line (q : FifoQueue M) : List (M × ℤ) := (number q.log).drop q.served

/-- A newcomer joins at the end. -/
def join (q : FifoQueue M) (m : M) (h : m ∉ q.waiting) : FifoQueue M where
  log := q.log ++ [m]
  served := q.served
  served_le := by
    rw [List.length_append]
    exact q.served_le.trans (Nat.le_add_right _ _)
  nodup := by
    rw [List.drop_append_of_le_length q.served_le]
    refine List.nodup_append.mpr ⟨q.nodup, List.nodup_singleton m, fun a ha b hb => ?_⟩
    rw [List.mem_singleton.mp hb]
    exact fun he => h (he ▸ ha)

/-- The first `n` of those who wait are released. -/
def release (q : FifoQueue M) (n : ℕ) (h : n ≤ q.waiting.length) : FifoQueue M where
  log := q.log
  served := q.served + n
  served_le := by
    have hle := q.served_le
    rw [waiting, List.length_drop] at h
    omega
  nodup := by
    rw [← List.drop_drop]
    exact q.nodup.sublist (List.drop_sublist n _)

/-- The position of a member: those in front, plus one. -/
def position [DecidableEq M] (q : FifoQueue M) (m : M) : ℕ := q.waiting.idxOf m + 1

@[simp] theorem waiting_empty : (empty : FifoQueue M).waiting = [] := rfl

variable (q : FifoQueue M)

/-- The log is who was released, then who waits. -/
theorem released_append_waiting : q.released ++ q.waiting = q.log :=
  List.take_append_drop _ _

theorem length_released : q.released.length = q.served :=
  List.length_take_of_le q.served_le

theorem served_add_length_waiting : q.served + q.waiting.length = q.log.length := by
  rw [← q.length_released, ← List.length_append, q.released_append_waiting]

theorem released_release (n : ℕ) (h : n ≤ q.waiting.length) :
    (q.release n h).released = q.released ++ q.waiting.take n := List.take_add

theorem waiting_join {m : M} (h : m ∉ q.waiting) :
    (q.join m h).waiting = q.waiting ++ [m] :=
  List.drop_append_of_le_length q.served_le

theorem released_join {m : M} (h : m ∉ q.waiting) :
    (q.join m h).released = q.released := List.take_append_of_le_length q.served_le

/-! ## Tickets -/

theorem length_number (log : List M) : (number log).length = log.length :=
  List.length_mapIdx

theorem map_fst_number (log : List M) : (number log).map Prod.fst = log := by
  refine List.ext_getElem (by simp [number]) (fun i h₁ h₂ => ?_)
  simp [number]

/-- The numbers are dense: `1`, `2`, and so on. -/
theorem map_snd_number (log : List M) :
    (number log).map Prod.snd
      = (List.range log.length).map (fun i : ℕ => (i : ℤ) + 1) := by
  refine List.ext_getElem (by simp [number]) (fun i h₁ h₂ => ?_)
  simp [number]

/-- No ticket is given out twice. -/
theorem number_nodup (log : List M) : (number log).Nodup := by
  refine List.Nodup.of_map Prod.snd ?_
  rw [map_snd_number]
  exact List.nodup_range.map (fun i j h => by simpa using h)

theorem number_append_singleton (log : List M) (m : M) :
    number (log ++ [m]) = number log ++ [(m, (log.length : ℤ) + 1)] := by
  unfold number
  rw [List.mapIdx_append]
  simp

theorem map_fst_line : q.line.map Prod.fst = q.waiting := by
  unfold line waiting
  rw [List.map_drop, map_fst_number]

theorem length_line : q.line.length = q.waiting.length := by
  rw [← q.map_fst_line, List.length_map]

/-- A newcomer's ticket is the next one. -/
theorem line_join {m : M} (h : m ∉ q.waiting) :
    (q.join m h).line = q.line ++ [(m, (q.log.length : ℤ) + 1)] := by
  show (number (q.log ++ [m])).drop q.served = _
  rw [number_append_singleton, List.drop_append_of_le_length]
  · rfl
  · rw [length_number]
    exact q.served_le

theorem line_release (n : ℕ) (h : n ≤ q.waiting.length) :
    (q.release n h).line = q.line.drop n := List.drop_drop.symm

/-- Every ticket has a number given out already. -/
theorem snd_le_of_mem_number {log : List M} {x : M × ℤ} (hx : x ∈ number log) :
    x.2 ≤ log.length := by
  obtain ⟨i, hi, rfl⟩ := List.getElem_of_mem hx
  have hlen := hi
  rw [length_number] at hlen
  have hget : (number log)[i] = (log[i], (i : ℤ) + 1) := by simp [number]
  rw [hget]
  show (i : ℤ) + 1 ≤ _
  omega

theorem snd_le_of_mem_line {x : M × ℤ} (hx : x ∈ q.line) : x.2 ≤ q.log.length :=
  snd_le_of_mem_number (List.mem_of_mem_drop hx)

/-- Nobody's ticket stands in the line twice. -/
theorem line_nodup : q.line.Nodup := by
  refine List.Nodup.of_map Prod.fst ?_
  rw [q.map_fst_line]
  exact q.nodup

/-- **A position is a ticket's number, less the number released.** -/
theorem number_sub_served [DecidableEq M] {m : M} {s : ℤ} (h : (m, s) ∈ q.line) :
    s - q.served = q.position m := by
  obtain ⟨i, hi, he⟩ := List.getElem_of_mem h
  have hlen := hi
  rw [q.length_line] at hlen
  have hget : q.line[i] = (q.waiting[i], (q.served : ℤ) + i + 1) := by
    simp [line, number, waiting]
  have hm : q.waiting[i] = m := congrArg Prod.fst (hget.symm.trans he)
  have hs : (q.served : ℤ) + i + 1 = s := congrArg Prod.snd (hget.symm.trans he)
  have hidx : q.waiting.idxOf m = i := by
    rw [← hm]
    exact q.nodup.idxOf_getElem i hlen
  unfold position
  rw [hidx, ← hs]
  push_cast
  ring

/-! ## Positions -/

variable [DecidableEq M]

theorem one_le_position (m : M) : 1 ≤ q.position m := Nat.succ_le_succ (Nat.zero_le _)

/-- Those who wait stand at `1`, `2`, and so on. -/
theorem map_position_waiting :
    q.waiting.map q.position = (List.range q.waiting.length).map (· + 1) := by
  refine List.ext_getElem (by simp) (fun i h₁ h₂ => ?_)
  rw [List.length_map] at h₁
  rw [List.getElem_map, List.getElem_map, List.getElem_range]
  exact congrArg (· + 1) (q.nodup.idxOf_getElem i h₁)

/-- The last to join stands last. -/
theorem position_last {m : M} (h : m ∉ q.waiting) :
    (q.join m h).position m = (q.join m h).waiting.length := by
  unfold position
  rw [q.waiting_join, List.idxOf_append_of_notMem h, List.length_append]
  simp

omit [DecidableEq M] in
/-- Those who waited and those who joined since are those released since, in
front, and those who wait. -/
theorem released_since {q q' : FifoQueue M} {xs ys : List M} (hlog : q'.log = q.log ++ xs)
    (hrel : q'.released = q.released ++ ys) : ys ++ q'.waiting = q.waiting ++ xs := by
  have h := q'.released_append_waiting
  rw [hlog, hrel, ← q.released_append_waiting, List.append_assoc, List.append_assoc] at h
  exact List.append_cancel_left h

/-- **Positions only improve**: whoever joins behind and whoever is released
in front, a member who keeps waiting moves up by exactly the number
released. -/
theorem position_advance {q q' : FifoQueue M} {xs ys : List M} {m : M}
    (hlog : q'.log = q.log ++ xs) (hrel : q'.released = q.released ++ ys)
    (hm : m ∈ q.waiting) (hys : m ∉ ys) :
    m ∈ q'.waiting ∧ q'.position m + ys.length = q.position m := by
  have hwait := released_since hlog hrel
  have hmem : m ∈ ys ++ q'.waiting := hwait ▸ List.mem_append_left xs hm
  refine ⟨(List.mem_append.mp hmem).resolve_left hys, ?_⟩
  have hidx := congrArg (List.idxOf m) hwait
  rw [List.idxOf_append_of_notMem hys, List.idxOf_append_of_mem hm] at hidx
  unfold position
  omega

end FifoQueue
