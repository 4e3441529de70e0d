import QueueFair.EventRun
import QueueFair.Footprint
import QueueFair.Validation

/-!
# The queues of different events are isolated

All events share one server and one flat space of keys. What keeps them apart
is only how a key is spelt: every operation on an event works within the keys
that carry its id (`EventOp.within_serve`), and two well-formed ids share no
key. So an operation on one event is not noticed by another. A run from which
every operation on one event is deleted answers every other event as before,
and leaves its keys as before (`events_isolated`).

Time is shared: the keys of all events expire by one clock, and letting time
pass is an operation on none of them. A tick of an admitter is several
operations on its event – a batch, and a parking for each pass issued for it –
and what it parks depends on the answers to its own batch alone, so it makes
the same operations in both runs.
-/

open Redis

/-- The keys that carry the id of an event. -/
def keysOf (eventId : String) : Set String := Set.range (EventKeys.mk eventId).key

theorem key_mem_keysOf (eventId s : String) : (EventKeys.mk eventId).key s ∈ keysOf eventId :=
  Set.mem_range_self s

/-- Two well-formed ids share no key. -/
theorem disjoint_keysOf {e e' : String} (he : isValidEventId e = true)
    (he' : isValidEventId e' = true) (hne : e ≠ e') : ∀ k ∈ keysOf e, k ∉ keysOf e' := by
  rintro _ ⟨s, rfl⟩ ⟨s', h⟩
  exact hne (EventKeys.key_inj_of_colon (colon_notMem_of_isValidEventId he)
    (colon_notMem_of_isValidEventId he') h.symm).1

/-! ## What each operation works on -/

section Scripts

variable {P : Type} {K : Set String} {queue seq admitted bucket config pass : String}

/-- The figures a reply about a waiter ends with. -/
theorem within_figures (hq : queue ∈ K) (ha : admitted ∈ K) (hc : config ∈ K)
    (f : Option (Cell P) → Option (Cell P) → ℤ → Reply P) :
    Within K (do
      let total ← GET admitted
      let rate ← HGET config "rate_per_min"
      let waiting ← ZCARD queue
      return f total rate waiting) :=
  (within_GET ha).bind (fun _ => (within_HGET hc _).bind
    (fun _ => (within_ZCARD hq).bind (fun _ => within_pure _)))

theorem within_joinLua (hq : queue ∈ K) (hs : seq ∈ K) (ha : admitted ∈ K) (hc : config ∈ K)
    (t : String) : Within K (joinLua queue seq admitted config t : Redis P (Reply P)) := by
  unfold joinLua
  refine (within_EXISTS hc).bind (fun n => ?_)
  split
  · exact within_pure _
  · refine (within_ZSCORE hq t).bind (fun score => ?_)
    cases score with
    | some s => exact (within_pure _).bind (fun _ => within_figures hq ha hc _)
    | none =>
      exact (within_INCR hs).bind (fun s => (within_ZADD hq s t).bind
        (fun _ => (within_pure _).bind (fun _ => within_figures hq ha hc _)))

theorem within_positionLua (hq : queue ∈ K) (ha : admitted ∈ K) (hc : config ∈ K)
    (hp : pass ∈ K) (t : String) :
    Within K (positionLua queue admitted config pass t : Redis P (Reply P)) := by
  unfold positionLua
  refine (within_EXISTS hc).bind (fun n => ?_)
  split
  · exact within_pure _
  · refine (within_ZRANK hq t).bind (fun rank => ?_)
    cases rank with
    | none =>
      refine (within_GET hp).bind (fun admission => ?_)
      cases admission with
      | some a =>
        exact (within_ZCARD hq).bind (fun _ => (within_GET ha).bind (fun _ => within_pure _))
      | none => exact within_pure _
    | some r => exact within_figures hq ha hc _

theorem within_admitBatchLua (rnd : ℚ → ℚ) (hq : queue ∈ K) (ha : admitted ∈ K)
    (hb : bucket ∈ K) (hc : config ∈ K) (nowMs : ℤ) :
    Within K (admitBatchLua rnd queue admitted bucket config nowMs : Redis P (Reply P)) := by
  unfold admitBatchLua
  refine (within_EXISTS hc).bind (fun n => ?_)
  split
  · exact within_pure _
  · refine (within_HMGET hc _).bind (fun cfg => ?_)
    dsimp only
    split
    · exact (within_GET ha).bind (fun _ => within_pure _)
    · refine (within_HMGET hb _).bind (fun state => (within_ZCARD hq).bind (fun waiting =>
        (within_HSET hb _).bind (fun _ => ?_)))
      split
      · exact (within_GET ha).bind (fun _ => within_pure _)
      · exact (within_ZPOPMIN hq _).bind (fun _ => (within_INCRBY ha _).bind
          (fun _ => within_pure _))

end Scripts

/-- **An operation on an event works within the keys of the event.** -/
theorem EventOp.within_serve (rnd : ℚ → ℚ) (eventId : String) {op : EventOp}
    (hop : ∀ d, op ≠ .wait d) : Within (keysOf eventId) (op.serve rnd eventId) := by
  have hkey := key_mem_keysOf eventId
  cases op with
  | join t =>
    refine Within.bind ?_ (fun _ => within_pure _)
    refine (within_joinLua (hkey _) (hkey _) (hkey _) (hkey _) t).bind (fun r => ?_)
    split <;> exact within_pure _
  | position t =>
    refine Within.bind ?_ (fun _ => within_pure _)
    refine (within_positionLua (hkey _) (hkey _) (hkey _) (hkey _) t).bind (fun r => ?_)
    split <;> exact within_pure _
  | admitBatch now =>
    refine Within.bind ?_ (fun _ => within_pure _)
    refine (within_admitBatchLua rnd (hkey _) (hkey _) (hkey _) (hkey _) now).bind (fun r => ?_)
    split
    · exact within_pure _
    · split
      · split <;> exact within_pure _
      · exact within_pure _
    · exact within_pure _
  | configure c => exact (within_HSET (hkey _) _).bind (fun _ => within_pure _)
  | reset =>
    refine (within_DEL (fun k hk => ?_)).bind (fun _ => within_pure _)
    simp only [List.mem_cons, List.not_mem_nil, or_false] at hk
    rcases hk with rfl | rfl | rfl | rfl <;> exact hkey _
  | recordAdmission p ttl => exact (within_SETEX (hkey _) _ _).bind (fun _ => within_pure _)
  | wait d => exact absurd rfl (hop d)

/-! ## One server for every event -/

/-- **The server of all events**: each call is an operation on one event. -/
def QueueServer (rnd : ℚ → ℚ) : Machine Store (String × EventOp) (Except Redis.Error Answer) :=
  ⟨fun σ a => (a.2.serve rnd a.1).run σ⟩

/-- Whether a call only lets time pass. -/
def EventOp.isWait : EventOp → Bool
  | .wait _ => true
  | _ => false

/-- A run without the operations on one event. -/
def withoutEvent (eventId : String) (ops : List (String × EventOp)) : List (String × EventOp) :=
  ops.filter (fun a => a.1 != eventId || a.2.isWait)

/-- What a run shows of one event: the calls on it, and their replies. -/
def eventView (eventId : String)
    (xs : List (Visit Store (String × EventOp) (Except Redis.Error Answer))) :
    List (EventOp × Except Redis.Error Answer) :=
  (xs.filter (fun x => x.action.1 == eventId && !x.action.2.isWait)).map
    (fun x => (x.action.2, x.reply))

theorem EventOp.ne_wait {op : EventOp} (h : op.isWait = false) (d : ℕ) : op ≠ .wait d := by
  rintro rfl
  exact Bool.noConfusion h

namespace QueueServer

variable (rnd : ℚ → ℚ) {e e' : String} {op : EventOp}

/-- A call on another event is not seen from the keys of an event. -/
theorem agree_step (he : isValidEventId e = true) (he' : isValidEventId e' = true)
    (hne : e' ≠ e) (hop : op.isWait = false) (σ : Store) :
    Keyspace.Agree (keysOf e) σ ((QueueServer rnd).step σ (e', op)).2 :=
  (EventOp.within_serve rnd e' (EventOp.ne_wait hop)).frame σ _ (disjoint_keysOf he' he hne)

/-- Stores that agree on the keys of an event go on to agree on them, whatever
event a call is on. -/
theorem step_agree (he : isValidEventId e = true) (he' : isValidEventId e' = true)
    {σ σ' : Store} (h : Keyspace.Agree (keysOf e) σ σ') :
    Keyspace.Agree (keysOf e) ((QueueServer rnd).step σ (e', op)).2
      ((QueueServer rnd).step σ' (e', op)).2 := by
  cases hop : op.isWait with
  | true =>
    cases op with
    | wait d => exact h.wait d
    | _ => exact Bool.noConfusion hop
  | false =>
    by_cases hne : e' = e
    · rw [hne]
      exact ((EventOp.within_serve rnd e (EventOp.ne_wait hop)).congr σ σ' h).2
    · exact (agree_step rnd he he' hne hop σ).symm.trans
        (h.trans (agree_step rnd he he' hne hop σ'))

/-- They answer a call on the event alike. -/
theorem step_fst_eq (hop : op.isWait = false) {σ σ' : Store}
    (h : Keyspace.Agree (keysOf e) σ σ') :
    ((QueueServer rnd).step σ (e, op)).1 = ((QueueServer rnd).step σ' (e, op)).1 :=
  ((EventOp.within_serve rnd e (EventOp.ne_wait hop)).congr σ σ' h).1

end QueueServer

/-- **The queues of different events are isolated.** Take any run of
operations on well-formed events over one store, and delete from it every
operation on one of them. Every call on another event is answered as before,
and every key of that event holds what it held before, until the same
instant. No two keys of well-formed events coincide, unless event, purpose
and token all do. -/
theorem events_isolated (rnd : ℚ → ℚ) {e₁ e₂ : String} (h₁ : isValidEventId e₁ = true)
    (h₂ : isValidEventId e₂ = true) (hne : e₁ ≠ e₂) (σ : Store) (ops : List (String × EventOp))
    (hops : ∀ a ∈ ops, isValidEventId a.1 = true) :
    eventView e₂ ((QueueServer rnd).trace σ ops)
        = eventView e₂ ((QueueServer rnd).trace σ (withoutEvent e₁ ops))
      ∧ (∀ k, ((QueueServer rnd).final σ ops).entries ((EventKeys.mk e₂).keyOf k)
          = ((QueueServer rnd).final σ (withoutEvent e₁ ops)).entries ((EventKeys.mk e₂).keyOf k)
        ∧ ((QueueServer rnd).final σ ops).find ((EventKeys.mk e₂).keyOf k)
          = ((QueueServer rnd).final σ (withoutEvent e₁ ops)).find ((EventKeys.mk e₂).keyOf k))
      ∧ ∀ e e' k k', isValidEventId e = true → isValidEventId e' = true →
        (EventKeys.mk e).keyOf k = (EventKeys.mk e').keyOf k' → e = e' ∧ k = k' := by
  have hrun := @Machine.trace_filter _ _ _ (QueueServer rnd) _ (Keyspace.Agree (keysOf e₂))
    (fun a => a.1 != e₁ || a.2.isWait) (fun a => a.1 == e₂ && !a.2.isWait)
    (fun x => (x.action.2, x.reply)) ops
    (fun σ σ' a ha _ h => ⟨fun hseen => ?_, QueueServer.step_agree rnd h₂ (hops a ha) h⟩)
    (fun σ σ' a ha hdrop h => ?_) σ σ (Keyspace.Agree.refl _ σ)
  · have hfind := hrun.2
    refine ⟨hrun.1, fun k => ?_, fun e e' k k' he he' h => EventKeys.keyOf_inj he he' h⟩
    have hk : (EventKeys.mk e₂).keyOf k ∈ keysOf e₂ := by
      rw [EventKeys.keyOf_eq_key]
      exact key_mem_keysOf e₂ _
    exact ⟨hfind.entries _ hk, hfind.find hk⟩
  · -- a call on the event that is watched
    obtain ⟨e, op⟩ := a
    rw [Bool.and_eq_true, beq_iff_eq, Bool.not_eq_true'] at hseen
    obtain ⟨rfl, hop⟩ := hseen
    show (op, _) = (op, _)
    rw [QueueServer.step_fst_eq rnd hop h]
  · -- a call on the event that is deleted
    obtain ⟨e, op⟩ := a
    rw [Bool.or_eq_false_iff, bne_eq_false_iff_eq] at hdrop
    obtain ⟨rfl, hop⟩ := hdrop
    refine ⟨?_, (QueueServer.agree_step rnd h₂ h₁ hne hop σ).symm.trans h⟩
    rw [Bool.and_eq_false_iff]
    exact Or.inl (beq_eq_false_iff_ne.mpr hne)

/-- One waiter, with one token, in the queues of two events. -/
theorem events_isolated_of_one_token :
    eventView "e-2" ((QueueServer id).trace ⟨fun _ => none, 0⟩
        [("e-1", .configure ⟨60, 1, 1⟩), ("e-2", .configure ⟨60, 1, 1⟩), ("e-1", .join "a"),
          ("e-2", .join "a"), ("e-1", .admitBatch 0), ("e-1", .reset), ("e-2", .position "a")])
      = eventView "e-2" ((QueueServer id).trace ⟨fun _ => none, 0⟩
        [("e-2", .configure ⟨60, 1, 1⟩), ("e-2", .join "a"), ("e-2", .position "a")]) :=
  (@events_isolated id "e-1" "e-2" (by decide +kernel) (by decide +kernel)
    (by decide) ⟨fun _ => none, 0⟩
    [("e-1", .configure ⟨60, 1, 1⟩), ("e-2", .configure ⟨60, 1, 1⟩), ("e-1", .join "a"),
      ("e-2", .join "a"), ("e-1", .admitBatch 0), ("e-1", .reset), ("e-2", .position "a")]
    (by decide +kernel)).1
