import QueueFair.EventState
import QueueFair.Machine

/-!
# The queue service as a machine

Any number of processes serve one event from one store, and each of their
calls is one step of the store. Whatever they do is therefore a run of the
machine below, in the order in which the store served the calls; nothing is
assumed about that order.

A run starts from an event an operator has just created: a configuration, and
no queue state yet. What an observer reads off its history is who was given a
place (`Visit.joined`), who was let in (`Visit.admitted`) and which positions
a waiter was shown (`Visit.shown`).
-/

open Redis

/-- **The queue service of one event**, as the store serves it. -/
def QueueService (rnd : ℚ → ℚ) (eventId : String) :
    Machine Store EventOp (Except Redis.Error Answer) :=
  ⟨fun σ op => (op.serve rnd eventId).run σ⟩

/-! ## What a history shows -/

namespace Visit

variable {S : Type} (x : Visit S EventOp (Except Redis.Error Answer))

/-- The place a join gave, if it gave one. -/
def joined : List (String × ℤ) :=
  match x.action, x.reply with
  | .join t, .ok (.join (.ok (some o))) => if o.joined then [(t, o.sequence)] else []
  | _, _ => []

/-- Who was let in. -/
def admitted : List String :=
  match x.action, x.reply with
  | .admitBatch _, .ok (.admitBatch (.ok (some b))) => b.admittedTokens
  | _, _ => []

/-- The position a waiter was shown, by either endpoint: what the view makes
of the reply. -/
def shown (rnd : ℚ → ℚ) (t : String) : Option ℤ :=
  match x.action, x.reply with
  | .join t', .ok (.join (.ok (some o))) =>
    if t' = t then some (stateFrom rnd o).position else none
  | .position t', .ok (.position (.ok (.waiting o))) =>
    if t' = t then some (stateFromPosition rnd o).position else none
  | _, _ => none

/-- A waiter is shown a position by a join or by a position call of its
own. -/
theorem shown_eq_some {x : Visit S EventOp (Except Redis.Error Answer)} {rnd : ℚ → ℚ}
    {t : String} {p : ℤ} (h : x.shown rnd t = some p) :
    (x.action = .join t ∧ ∃ o, x.reply = .ok (.join (.ok (some o)))
        ∧ p = (stateFrom rnd o).position)
      ∨ (x.action = .position t ∧ ∃ o, x.reply = .ok (.position (.ok (.waiting o)))
        ∧ p = (stateFromPosition rnd o).position) := by
  unfold shown at h
  split at h
  · next t' o ha hr =>
    by_cases ht : t' = t
    · rw [if_pos ht] at h
      exact Or.inl ⟨ht ▸ ha, o, hr, (Option.some.inj h).symm⟩
    · rw [if_neg ht] at h
      exact absurd h (by simp)
  · next t' o ha hr =>
    by_cases ht : t' = t
    · rw [if_pos ht] at h
      exact Or.inr ⟨ht ▸ ha, o, hr, (Option.some.inj h).symm⟩
    · rw [if_neg ht] at h
      exact absurd h (by simp)
  · exact absurd h (by simp)

end Visit

/-! ## An event just created -/

/-- **A store in which an event is configured and has no queue state yet.**
Passes of an earlier queue may still be parked. -/
structure Fresh (eventId : String) (σ : Store) (c : QueueConfig) : Prop where
  config : Configured eventId σ c
  queue : σ.entries (EventKeys.mk eventId).queue = none
  seq : σ.entries (EventKeys.mk eventId).seq = none
  admitted : σ.entries (EventKeys.mk eventId).admitted = none
  bucket : σ.entries (EventKeys.mk eventId).bucket = none
  passes : ∀ t, ∃ p : Option (Admission × ℤ), σ.entries ((EventKeys.mk eventId).passFor t)
    = p.map (fun p => ⟨.string (.blob p.1), some p.2⟩)

/-- The record of an event just created. -/
def EventState.created (c : QueueConfig) (passes : String → Option (Admission × ℤ))
    (clock : ℤ) : EventState where
  queue := .empty
  seq := 0
  admitted := 0
  bucket := none
  config := some c
  passes := passes
  clock := clock

theorem Fresh.holds {eventId : String} {σ : Store} {c : QueueConfig}
    (h : Fresh eventId σ c) :
    ∃ passes, Holds eventId σ (EventState.created c passes σ.clock) := by
  choose passes hpasses using h.passes
  exact ⟨passes, {
    queue := h.queue
    seq := Or.inl ⟨h.seq, rfl⟩
    admitted := Or.inl ⟨h.admitted, rfl⟩
    bucket := ⟨fun _ => none, Or.inl ⟨h.bucket, rfl⟩, rfl, rfl⟩
    config := h.config
    passes := hpasses
    clock := rfl }⟩

/-- The record after a run. -/
def EventState.run (rnd : ℚ → ℚ) (eventId : String) (v : EventState) (ops : List EventOp) :
    EventState :=
  ops.foldl (fun v op => (v.step rnd eventId op).2) v

theorem EventState.run_cons (rnd : ℚ → ℚ) (eventId : String) (v : EventState) (op : EventOp)
    (ops : List EventOp) :
    v.run rnd eventId (op :: ops) = (v.step rnd eventId op).2.run rnd eventId ops := rfl

theorem EventState.run_append (rnd : ℚ → ℚ) (eventId : String) (v : EventState)
    (as bs : List EventOp) :
    v.run rnd eventId (as ++ bs) = (v.run rnd eventId as).run rnd eventId bs :=
  List.foldl_append

/-- **The record simulates a whole run.** -/
theorem Holds.final (rnd : ℚ → ℚ) {eventId : String} {σ : Store} {v : EventState}
    (h : Holds eventId σ v) (ops : List EventOp) :
    Holds eventId ((QueueService rnd eventId).final σ ops) (v.run rnd eventId ops) := by
  induction ops generalizing σ v with
  | nil => exact h
  | cons op ops ih =>
    obtain ⟨σ', hrun, hσ'⟩ := h.serve rnd op
    show Holds eventId ((QueueService rnd eventId).final
      ((QueueService rnd eventId).step σ op).2 ops) _
    rw [show (QueueService rnd eventId).step σ op = _ from hrun]
    exact ih hσ'

/-- A state some run from a fresh event reaches. -/
def Reachable (rnd : ℚ → ℚ) (eventId : String) (σ : Store) : Prop :=
  ∃ σ₀ c ops, Fresh eventId σ₀ c ∧ σ = (QueueService rnd eventId).final σ₀ ops

/-- The store in which `create_event` has just configured one event. -/
def createdStore (eventId : String) (c : QueueConfig) : Store :=
  ((CreateEvent.configure eventId c).run ⟨fun _ => none, 0⟩).2

theorem createdStore_eq (eventId : String) (c : QueueConfig) :
    ∃ f, createdStore eventId c
        = Keyspace.write ⟨fun _ => none, 0⟩ (EventKeys.mk eventId).config
            (some ⟨.hash f, none⟩)
      ∧ f "rate_per_min" = some (.num c.ratePerMin)
      ∧ f "burst" = some (.num c.burst) ∧ f "batch_max" = some (.num c.batchMax) := by
  unfold createdStore CreateEvent.configure
  dsimp only
  rw [HSET_run (f := fun _ => none) (Or.inl ⟨rfl, rfl⟩)]
  exact ⟨_, rfl, rfl, rfl, rfl⟩

/-- An event just created is fresh. -/
theorem fresh_createdStore (eventId : String) (c : QueueConfig) :
    Fresh eventId (createdStore eventId c) c := by
  obtain ⟨f, hf, hr, hb, hm⟩ := createdStore_eq eventId c
  rw [hf]
  refine ⟨⟨f, Keyspace.write_entries_self _ _ _, hr, hb, hm⟩, ?_, ?_, ?_, ?_, fun t => ⟨none, ?_⟩⟩
  · exact Keyspace.write_entries_of_ne _ (EventKeys.key_ne _ (by decide)) _
  · exact Keyspace.write_entries_of_ne _ (EventKeys.key_ne _ (by decide)) _
  · exact Keyspace.write_entries_of_ne _ (EventKeys.key_ne _ (by decide)) _
  · exact Keyspace.write_entries_of_ne _ (EventKeys.key_ne _ (by decide)) _
  · exact Keyspace.write_entries_of_ne _ (EventKeys.passFor_ne _ t (by decide)) _

/-- The record of the store in which one event is configured. -/
theorem holds_createdStore (eventId : String) (c : QueueConfig) :
    Holds eventId (createdStore eventId c) (.created c (fun _ => none) 0) := by
  obtain ⟨f, hf, hr, hb, hm⟩ := createdStore_eq eventId c
  have hempty : Holds eventId ⟨fun _ => none, 0⟩
      ⟨.empty, 0, 0, none, none, fun _ => none, 0⟩ :=
    ⟨rfl, Or.inl ⟨rfl, rfl⟩, Or.inl ⟨rfl, rfl⟩, ⟨fun _ => none, Or.inl ⟨rfl, rfl⟩, rfl, rfl⟩, rfl,
      fun _ => rfl, rfl⟩
  rw [hf]
  exact hempty.write_config c hr hb hm
