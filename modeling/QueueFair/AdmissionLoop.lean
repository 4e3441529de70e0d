import QueueFair.Stampede

/-!
# The admission loop

`admit_once` as it is written: one call after another, an exception where a call
raises one, and the pipeline of `record_admissions` in one piece. `run_forever`
runs it again and again, whatever it raises, and any number of processes do.

What such loops do while nothing interrupts a tick is what the admitters do that
take one step at a time (`whole_ticks_are_paths`): a tick is a path through their
states, from rest to rest. So whatever holds of every interleaving of the steps
holds of the loops.

More can be said where ticks are whole and passes have a lifetime. No tick leaves
anybody behind; the passes come out in the order in which their holders came, one
to each, and what is left in the queue are those who came after; and each pass
is there to be collected when its tick returns (`whole_ticks_serve_in_order`).
-/

open Redis

/-! ## A pipeline -/

/-- **A pipeline that is no transaction**: every command is executed, whatever the
ones before it answered, and the first error is raised. -/
def Redis.pipeline {P : Type} : List (Redis P Unit) → Redis P Unit
  | [] => pure ()
  | x :: xs => fun σ =>
    let rest := (Redis.pipeline xs).run (x.run σ).2
    ((x.run σ).1 >>= fun _ => rest.1, rest.2)

namespace Redis

variable {P : Type} {x : Redis P Unit} {xs : List (Redis P Unit)} {σ σ' : Keyspace P}

/-- A command that is answered leaves the rest to do. -/
theorem pipeline_cons_of_ok (h : x.run σ = (.ok (), σ')) :
    (pipeline (x :: xs)).run σ = (pipeline xs).run σ' := by
  show ((x.run σ).1 >>= fun _ => ((pipeline xs).run (x.run σ).2).1,
    ((pipeline xs).run (x.run σ).2).2) = _
  rw [h]
  rfl

/-- Commands that are all refused leave the store as it is. -/
theorem pipeline_of_error {e : Error} (h : ∀ x ∈ xs, x.run σ = (.error e, σ)) (hne : xs ≠ []) :
    (pipeline xs).run σ = (.error e, σ) := by
  have hsnd : ∀ ys ⊆ xs, ((pipeline ys).run σ).2 = σ := by
    intro ys hys
    induction ys with
    | nil => rfl
    | cons y ys ih =>
      show ((pipeline ys).run (y.run σ).2).2 = σ
      rw [h y (hys List.mem_cons_self)]
      exact ih (fun z hz => hys (List.mem_cons_of_mem y hz))
  obtain ⟨x, ys, rfl⟩ := List.exists_cons_of_ne_nil hne
  have hx := h x List.mem_cons_self
  refine Prod.ext ?_ (hsnd _ (List.Subset.refl _))
  show ((x.run σ).1 >>= fun _ => _) = _
  rw [hx]
  rfl

end Redis

/-! ## A tick, as it is written -/

/-- Park each pass where its holder can collect it. An empty batch makes no round
trip, which is an empty pipeline. -/
def RedisQueueRepository.recordAdmissions (eventId : String) (passes : List IssuedPass)
    (ttlSeconds : ℤ) : Redis Admission Unit :=
  pipeline (passes.map (fun issued =>
    RedisQueueRepository.recordAdmission eventId issued ttlSeconds))

/-- What a tick raises itself. -/
inductive TickError where
  /-- No queue is configured for this event id. -/
  | unknownEvent (eventId : String)
  /-- What the repository raised. -/
  | repository (e : QueueError)
deriving DecidableEq

namespace AdmissionController

/-- The passes of a batch, in its order; `jtis n` is what `uuid4` returns the
`n`-th time. -/
def passes (K : AdmissionController) (encode : PassClaims → String → String)
    (eventId : String) (nowMs : ℤ) (admittedTokens : List String) (jtis : ℕ → String) :
    List IssuedPass :=
  admittedTokens.mapIdx (fun n t => K.issuer.issue encode eventId t (nowMs / 1000) (jtis n))

/-- **Run one admission tick**: consume rate budget, pop that many waiters, issue
their passes. -/
def admitOnce (rnd : ℚ → ℚ) (K : AdmissionController) (encode : PassClaims → String → String)
    (eventId : String) (nowMs : ℤ) (jtis : ℕ → String) :
    Redis Admission (Except TickError (List IssuedPass)) := do
  match ← RedisQueueRepository.admitBatch rnd eventId nowMs with
  | .error e => return .error (.repository e)
  | .ok none => return .error (.unknownEvent eventId)
  | .ok (some batch) =>
    if batch.admittedTokens = [] then return .ok []
    else
      let passes := K.passes encode eventId nowMs batch.admittedTokens jtis
      RedisQueueRepository.recordAdmissions eventId passes K.passTtlSeconds
      return .ok passes

end AdmissionController

/-! ## What a tick does to the record -/

namespace EventState

/-- Parking passes, one after another. -/
def recordAdmissions (v : EventState) (eventId : String) (ps : List IssuedPass) (ttl : ℤ) :
    EventState :=
  ps.foldl (fun v p => v.recordAdmission eventId p ttl) v

variable {v : EventState} {eventId : String} {ttl : ℤ}

@[simp] theorem recordAdmissions_cons (p : IssuedPass) (ps : List IssuedPass) :
    v.recordAdmissions eventId (p :: ps) ttl
      = (v.recordAdmission eventId p ttl).recordAdmissions eventId ps ttl := rfl

/-- Parking passes writes nothing but the passes. -/
theorem exists_recordAdmissions (v : EventState) (eventId : String) (ps : List IssuedPass)
    (ttl : ℤ) : ∃ passes, v.recordAdmissions eventId ps ttl = { v with passes := passes } := by
  induction ps generalizing v with
  | nil => exact ⟨v.passes, rfl⟩
  | cons p ps ih => exact ih (v.recordAdmission eventId p ttl)

/-- Tokens for which nothing is parked keep what they have. -/
theorem passes_recordAdmissions_of_notMem {t : String} {ps : List IssuedPass}
    (h : t ∉ ps.map IssuedPass.queueToken) :
    (v.recordAdmissions eventId ps ttl).passes t = v.passes t := by
  induction ps generalizing v with
  | nil => rfl
  | cons p ps ih =>
    rw [List.map_cons, List.mem_cons, not_or] at h
    rw [recordAdmissions_cons, ih h.2]
    exact Function.update_of_ne h.1 _ _

/-- **Every pass is parked**, if they are for different tokens. -/
theorem passes_recordAdmissions {p : IssuedPass} {ps : List IssuedPass} (hp : p ∈ ps)
    (hnodup : (ps.map IssuedPass.queueToken).Nodup) :
    (v.recordAdmissions eventId ps ttl).passes p.queueToken
      = some (RedisQueueRepository.payload eventId p, v.clock + 1000 * ttl) := by
  induction ps generalizing v with
  | nil => exact absurd hp List.not_mem_nil
  | cons q ps ih =>
    rw [List.map_cons, List.nodup_cons] at hnodup
    rw [recordAdmissions_cons]
    rcases List.mem_cons.mp hp with rfl | hp
    · rw [passes_recordAdmissions_of_notMem hnodup.1]
      exact Function.update_self _ _ _
    · exact ih hp hnodup.2

end EventState

namespace Holds

variable {eventId : String} {σ : Store} {v : EventState}

/-- **The pipeline, on the store.** -/
theorem recordAdmissions_run (h : Holds eventId σ v) (ps : List IssuedPass) {ttl : ℤ}
    (httl : 0 < ttl) :
    ∃ σ', (RedisQueueRepository.recordAdmissions eventId ps ttl).run σ = (.ok (), σ')
      ∧ Holds eventId σ' (v.recordAdmissions eventId ps ttl) := by
  induction ps generalizing σ v with
  | nil => exact ⟨σ, rfl, h⟩
  | cons p ps ih =>
    have hset := h.recordAdmission_run p ttl
    rw [if_neg (not_le.mpr httl)] at hset
    obtain ⟨σ₁, hrun, hσ₁⟩ := hset
    obtain ⟨σ', hrest, hσ'⟩ := ih hσ₁
    exact ⟨σ', (pipeline_cons_of_ok hrun).trans hrest, hσ'⟩

/-- Where passes have no lifetime, every SET is refused. -/
theorem recordAdmissions_run_of_nonpos (h : Holds eventId σ v) {ps : List IssuedPass} {ttl : ℤ}
    (httl : ttl ≤ 0) (hne : ps ≠ []) :
    (RedisQueueRepository.recordAdmissions eventId ps ttl).run σ = (.error .invalidExpire, σ) := by
  refine pipeline_of_error (fun x hx => ?_) (fun he => hne (List.map_eq_nil_iff.mp he))
  obtain ⟨p, -, rfl⟩ := List.mem_map.mp hx
  have hset := h.recordAdmission_run p ttl
  rwa [if_pos httl] at hset

end Holds

/-! ## Loops -/

/-- One thing that happens, where a tick is one. -/
inductive LoopAct (ι : Type) where
  | join (queueToken : String)
  | position (queueToken : String)
  | configure (options : QueueConfig)
  | wait (ms : ℕ)
  /-- A loop runs `admit_once`, at a reading of its clock. -/
  | tick (i : ι) (nowMs : ℤ) (jtis : ℕ → String)

/-- What comes of it. Whatever a tick raises is logged, and the loop goes on. -/
inductive LoopReply where
  | answered (reply : Except Redis.Error Answer)
  | ticked (outcome : Except Redis.Error (Except TickError (List IssuedPass)))

namespace LoopAct

variable {ι : Type}

/-- The operation of a client or an operator. -/
def op : LoopAct ι → Option EventOp
  | .join t => some (.join t)
  | .position t => some (.position t)
  | .configure c => some (.configure c)
  | .wait d => some (.wait d)
  | .tick _ _ _ => none

end LoopAct

/-- The passes a tick returned. -/
def LoopReply.issued : LoopReply → List IssuedPass
  | .ticked (.ok (.ok passes)) => passes
  | _ => []

variable {ι : Type}

/-- **The queue service and its admission loops.** -/
def Loops (rnd : ℚ → ℚ) (K : AdmissionController) (encode : PassClaims → String → String)
    (eventId : String) : Machine Store (LoopAct ι) LoopReply :=
  ⟨fun σ a =>
    match a with
    | .join t => ((QueueService rnd eventId).step σ (.join t)).map .answered id
    | .position t => ((QueueService rnd eventId).step σ (.position t)).map .answered id
    | .configure c => ((QueueService rnd eventId).step σ (.configure c)).map .answered id
    | .wait d => ((QueueService rnd eventId).step σ (.wait d)).map .answered id
    | .tick _ nowMs jtis => ((K.admitOnce rnd encode eventId nowMs jtis).run σ).map .ticked id⟩

/-- The visits of the loops. -/
abbrev LoopVisit (ι : Type) : Type := Visit Store (LoopAct ι) LoopReply

/-- What a client or an operator asked, and was answered. -/
def LoopVisit.answered (x : LoopVisit ι) : Option (EventOp × Except Redis.Error Answer) :=
  match x.action.op, x.reply with
  | some op, .answered reply => some (op, reply)
  | _, _ => none

/-- The placement a join gave, if it gave one. -/
def LoopVisit.joined (x : LoopVisit ι) : List Placement :=
  x.answered.elim [] (fun z => Visit.joined ⟨x.before, z.1, z.2⟩)

/-! ## A tick is a path -/

/-- The placements popped by a tick, with the passes signed for them. -/
def AdmissionController.signed (K : AdmissionController) (encode : PassClaims → String → String)
    (eventId : String) (nowMs : ℤ) (popped : List Placement) (jtis : ℕ → String) :
    List (Placement × IssuedPass) :=
  popped.mapIdx (fun n p => (p, K.issuer.issue encode eventId p.1 (nowMs / 1000) (jtis n)))

section Signed

variable (K : AdmissionController) (encode : PassClaims → String → String) (eventId : String)
  (nowMs : ℤ)

theorem AdmissionController.signed_cons (p : Placement) (popped : List Placement)
    (jtis : ℕ → String) : K.signed encode eventId nowMs (p :: popped) jtis
      = (p, K.issuer.issue encode eventId p.1 (nowMs / 1000) (jtis 0))
        :: K.signed encode eventId nowMs popped (fun n => jtis (n + 1)) := List.mapIdx_cons

theorem AdmissionController.passes_cons (t : String) (tokens : List String) (jtis : ℕ → String) :
    K.passes encode eventId nowMs (t :: tokens) jtis
      = K.issuer.issue encode eventId t (nowMs / 1000) (jtis 0)
        :: K.passes encode eventId nowMs tokens (fun n => jtis (n + 1)) := List.mapIdx_cons

theorem AdmissionController.map_snd_signed (popped : List Placement) (jtis : ℕ → String) :
    (K.signed encode eventId nowMs popped jtis).map Prod.snd
      = K.passes encode eventId nowMs (popped.map Prod.fst) jtis := by
  induction popped generalizing jtis with
  | nil => rfl
  | cons p popped ih => rw [signed_cons, List.map_cons, List.map_cons, passes_cons, ih]

/-- A batch has a pass for each of its tokens. -/
theorem AdmissionController.map_queueToken_passes (tokens : List String) (jtis : ℕ → String) :
    (K.passes encode eventId nowMs tokens jtis).map IssuedPass.queueToken = tokens := by
  induction tokens generalizing jtis with
  | nil => rfl
  | cons t tokens ih =>
    rw [passes_cons, List.map_cons, ih]
    rfl

end Signed

namespace Admitters

variable [DecidableEq ι] (rnd : ℚ → ℚ) {K : AdmissionController}
  (encode : PassClaims → String → String) {eventId : String} {s : AdmitterState ι} {i : ι}

/-- **The signatures of a tick**, one after another. -/
theorem run_issue {now : ℤ} {signed : List (Placement × IssuedPass)} {rest : List Placement}
    (h : s.attempt i = .issuing now signed rest) (jtis : ℕ → String) :
    (Admitters rnd K encode eventId).final s (rest.mapIdx (fun n _ => .issue i (jtis n)))
        = ⟨s.store, Function.update s.attempt i
          (.issuing now (signed ++ K.signed encode eventId now rest jtis) [])⟩
      ∧ ((Admitters rnd K encode eventId).trace s
          (rest.mapIdx (fun n _ => .issue i (jtis n)))).flatMap
            (AdmitterVisit.issued K encode eventId)
        = (K.signed encode eventId now rest jtis).map Prod.snd := by
  induction rest generalizing s signed jtis with
  | nil =>
    refine ⟨?_, rfl⟩
    show s = ⟨s.store, _⟩
    rw [show K.signed encode eventId now [] jtis = [] from rfl, List.append_nil, ← h,
      Function.update_eq_self]
  | cons p rest ih =>
    -- the first pass is signed, and the rest are left
    have hissue : Function.update s.attempt i ((s.attempt i).issue K encode eventId (jtis 0)) i
        = .issuing now (signed ++ [(p, K.issuer.issue encode eventId p.1 (now / 1000) (jtis 0))])
          rest := by
      rw [Function.update_self, h]
      rfl
    obtain ⟨hfinal, htrace⟩ := ih (s := ⟨s.store, Function.update s.attempt i
      ((s.attempt i).issue K encode eventId (jtis 0))⟩) hissue (fun n => jtis (n + 1))
    rw [Function.update_idem, List.append_assoc] at hfinal
    rw [List.mapIdx_cons, K.signed_cons]
    refine ⟨hfinal, ?_⟩
    rw [Machine.trace_cons, List.flatMap_cons, List.map_cons]
    have hfirst : AdmitterVisit.issued K encode eventId ⟨s, .issue i (jtis 0),
        ((Admitters rnd K encode eventId).step s (.issue i (jtis 0))).1⟩
        = [K.issuer.issue encode eventId p.1 (now / 1000) (jtis 0)] := by
      show (((s.attempt i).unsigned.take 1).map _ : List IssuedPass) = [_]
      rw [h]
      rfl
    rw [hfirst]
    exact congrArg (_ :: ·) htrace

/-- **The pipeline of a tick**, one SET after another. -/
theorem run_set {v : EventState} (hv : Holds eventId s.store v) (hK : 0 < K.passTtlSeconds)
    {batch : List Placement} {pending : List (Placement × IssuedPass)}
    (h : s.attempt i = .recording batch pending) :
    (Admitters rnd K encode eventId).final s (List.replicate pending.length (.set i 0))
      = ⟨((RedisQueueRepository.recordAdmissions eventId (pending.map Prod.snd)
          K.passTtlSeconds).run s.store).2, Function.update s.attempt i (.recording batch [])⟩ := by
  induction pending generalizing s v with
  | nil =>
    show s = ⟨s.store, _⟩
    rw [← h, Function.update_eq_self]
  | cons p pending ih =>
    have hset := hv.recordAdmission_run p.2 K.passTtlSeconds
    rw [if_neg (not_le.mpr hK)] at hset
    obtain ⟨σ', hrun, hσ'⟩ := hset
    have hop : AdmitterAct.op K s (.set i 0)
        = some (.recordAdmission p.2 K.passTtlSeconds) := by
      show (s.attempt i).pending[0]?.map _ = _
      rw [h]
      rfl
    have hstep : (QueueService rnd eventId).step s.store (.recordAdmission p.2 K.passTtlSeconds)
        = (.ok .done, σ') := run_bind_ok hrun
    have hnext : (Admitters rnd K encode eventId).step s (.set i 0) = (some (.ok .done),
        ⟨σ', Function.update s.attempt i (.recording batch pending)⟩) := by
      rw [step_of_op rnd encode hop, hstep]
      show (_, AdmitterState.mk σ' (Function.update s.attempt i ((s.attempt i).settle 0))) = _
      rw [h]
      rfl
    have hrest := ih (s := ⟨σ', Function.update s.attempt i (.recording batch pending)⟩) hσ'
      (Function.update_self _ _ _)
    rw [Function.update_idem] at hrest
    show (Admitters rnd K encode eventId).final
      ((Admitters rnd K encode eventId).step s (.set i 0)).2 _ = _
    rw [hnext, hrest, List.map_cons]
    show _ = AdmitterState.mk ((RedisQueueRepository.recordAdmissions eventId
      (p.2 :: pending.map Prod.snd) K.passTtlSeconds).run s.store).2 _
    rw [show (RedisQueueRepository.recordAdmissions eventId (p.2 :: pending.map Prod.snd)
      K.passTtlSeconds).run s.store = _ from pipeline_cons_of_ok hrun]
    rfl

end Admitters

/-! ### The whole of it -/

/-- A step that is no failure. -/
def AdmitterAct.Completes : AdmitterAct ι → Prop
  | .failBefore _ | .loseReply _ _ | .fail _ => False
  | _ => True

/-- The operation of a client or an operator. -/
def AdmitterAct.client : AdmitterAct ι → Option EventOp
  | .join t => some (.join t)
  | .position t => some (.position t)
  | .configure c => some (.configure c)
  | .wait d => some (.wait d)
  | _ => none

/-- What a client or an operator asked, and was answered. -/
def AdmitterVisit.answered (x : AdmitterVisit ι) : Option (EventOp × Except Redis.Error Answer) :=
  match x.action.client, x.reply with
  | some op, some reply => some (op, reply)
  | _, _ => none

section Histories

variable {K : AdmissionController} {encode : PassClaims → String → String} {eventId : String}

/-- Where nothing is signed, no pass is issued. -/
theorem AdmitterVisit.flatMap_issued_eq_nil {xs : List (AdmitterVisit ι)}
    (h : ∀ x ∈ xs, ∀ i jti, x.action ≠ .issue i jti) :
    xs.flatMap (AdmitterVisit.issued K encode eventId) = [] := by
  refine List.flatMap_eq_nil_iff.mpr (fun x hx => ?_)
  unfold AdmitterVisit.issued
  split
  · next i jti ha => exact absurd ha (h x hx i jti)
  · rfl

end Histories

namespace Holds

variable {eventId : String} {σ : Store} {v : EventState}

/-- **A tick that pops nobody** writes what the batch script wrote, and returns
nothing, or that the event is unknown. -/
theorem admitOnce_run_of_nil (rnd : ℚ → ℚ) (K : AdmissionController)
    (encode : PassClaims → String → String) (h : Holds eventId σ v) (now : ℤ) (jtis : ℕ → String)
    (hnil : v.queue.popped (v.batch rnd now) = []) :
    ∃ r σ', (K.admitOnce rnd encode eventId now jtis).run σ = (.ok r, σ')
      ∧ (RedisQueueRepository.admitBatch rnd eventId now).run σ
        = (.ok (.ok (v.admitBatch rnd now).1), σ')
      ∧ Holds eventId σ' (v.admitBatch rnd now).2
      ∧ ((v.config = none ∧ r = .error (.unknownEvent eventId))
        ∨ (∃ c, v.config = some c) ∧ r = .ok []) := by
  obtain ⟨σ', hrun, hσ'⟩ := h.admitBatch_run rnd now
  cases hc : v.config with
  | none =>
    refine ⟨.error (.unknownEvent eventId), σ', ?_, hrun, hσ', Or.inl ⟨rfl, rfl⟩⟩
    rw [EventState.admitBatch_of_unconfigured rnd hc] at hrun
    unfold AdmissionController.admitOnce
    rw [run_bind_ok hrun]
    rfl
  | some c =>
    obtain ⟨b, hb⟩ := EventState.admitBatch_eq rnd hc now
    refine ⟨.ok [], σ', ?_, hrun, hσ', Or.inr ⟨⟨c, rfl⟩, rfl⟩⟩
    rw [hb, hnil] at hrun
    unfold AdmissionController.admitOnce
    rw [run_bind_ok hrun]
    rfl

/-- **A tick that pops somebody** goes on with the pipeline. -/
theorem admitOnce_run_of_ne_nil (rnd : ℚ → ℚ) (K : AdmissionController)
    (encode : PassClaims → String → String) (h : Holds eventId σ v) (now : ℤ) (jtis : ℕ → String)
    (hne : v.queue.popped (v.batch rnd now) ≠ []) :
    ∃ σ₁, (RedisQueueRepository.admitBatch rnd eventId now).run σ
        = (.ok (.ok (v.admitBatch rnd now).1), σ₁)
      ∧ Holds eventId σ₁ (v.admitBatch rnd now).2
      ∧ (K.admitOnce rnd encode eventId now jtis).run σ
        = (RedisQueueRepository.recordAdmissions eventId
            (K.passes encode eventId now ((v.queue.popped (v.batch rnd now)).map Prod.fst) jtis)
            K.passTtlSeconds >>= fun _ => pure (.ok (K.passes encode eventId now
              ((v.queue.popped (v.batch rnd now)).map Prod.fst) jtis))).run σ₁ := by
  obtain ⟨σ₁, hrun, hσ₁⟩ := h.admitBatch_run rnd now
  refine ⟨σ₁, hrun, hσ₁, ?_⟩
  obtain ⟨c, hc⟩ : ∃ c, v.config = some c := by
    refine Option.ne_none_iff_exists'.mp (fun hc => hne ?_)
    have hbatch : v.batch rnd now = 0 := by simp only [EventState.batch, hc]
    rw [hbatch]
    rfl
  obtain ⟨b, hb⟩ := EventState.admitBatch_eq rnd hc now
  rw [hb] at hrun
  unfold AdmissionController.admitOnce
  rw [run_bind_ok hrun]
  dsimp only
  rw [if_neg (fun he => hne (List.map_eq_nil_iff.mp he))]

end Holds

/-- **The steps of a tick** that pops `popped`: each pass is signed, the pipeline is
sent, and its SETs are answered in their order – or, where passes have no lifetime,
refused, and the tick raises. -/
def AdmissionController.path (K : AdmissionController) (i : ι) (nowMs : ℤ)
    (popped : List Placement) (jtis : ℕ → String) : List (AdmitterAct ι) :=
  if popped = [] then [.admitBatch i nowMs]
  else .admitBatch i nowMs :: (popped.mapIdx (fun n _ => .issue i (jtis n)) ++ .send i ::
    if 0 < K.passTtlSeconds then List.replicate popped.length (.set i 0) ++ [.finish i]
    else [.fail i])

/-- The steps of a tick are its own: no client takes part, and nothing fails where
passes have a lifetime. -/
theorem AdmissionController.mem_path {K : AdmissionController} {i : ι} {nowMs : ℤ}
    {popped : List Placement} {jtis : ℕ → String} {a : AdmitterAct ι}
    (h : a ∈ K.path i nowMs popped jtis) :
    a = .admitBatch i nowMs ∨ (∃ jti, a = .issue i jti) ∨ a = .send i ∨ a = .set i 0
      ∨ a = .finish i ∨ (a = .fail i ∧ ¬ 0 < K.passTtlSeconds) := by
  unfold path at h
  split at h
  · exact Or.inl (List.mem_singleton.mp h)
  rw [List.mem_cons, List.mem_append, List.mem_cons] at h
  rcases h with h | h | h | h
  · exact Or.inl h
  · obtain ⟨n, -, rfl⟩ := List.mem_mapIdx.mp h
    exact Or.inr (Or.inl ⟨_, rfl⟩)
  · exact Or.inr (Or.inr (Or.inl h))
  · split at h
    · rw [List.mem_append, List.mem_singleton] at h
      rcases h with h | h
      · exact Or.inr (Or.inr (Or.inr (Or.inl (List.eq_of_mem_replicate h))))
      · exact Or.inr (Or.inr (Or.inr (Or.inr (Or.inl h))))
    · next hK =>
      exact Or.inr (Or.inr (Or.inr (Or.inr (Or.inr ⟨List.mem_singleton.mp h, hK⟩))))

namespace Admitters

variable [DecidableEq ι] (rnd : ℚ → ℚ) {K : AdmissionController}
  (encode : PassClaims → String → String) {eventId : String} {s : AdmitterState ι} {i : ι}

/-- The script of a tick, and what is left to sign. -/
theorem step_admitBatch {v : EventState} (hv : Holds eventId s.store v)
    (hidle : s.attempt i = .idle) {now : ℤ} {σ' : Store}
    (hrun : (RedisQueueRepository.admitBatch rnd eventId now).run s.store
      = (.ok (.ok (v.admitBatch rnd now).1), σ')) :
    (Admitters rnd K encode eventId).step s (.admitBatch i now)
      = (some (.ok (.admitBatch (.ok (v.admitBatch rnd now).1))), ⟨σ', Function.update s.attempt i
          (.afterBatch now (v.queue.popped (v.batch rnd now)))⟩) := by
  have hop : AdmitterAct.op K s (.admitBatch i now) = some (.admitBatch now) := if_pos hidle
  have hstep : (QueueService rnd eventId).step s.store (.admitBatch now)
      = (.ok (.admitBatch (.ok (v.admitBatch rnd now).1)), σ') := run_bind_ok hrun
  rw [step_of_op rnd encode hop, hstep, ← (hv.poppedFrom_eq rnd now).1]
  rfl

/-- **A tick is a path**, from rest to rest: it writes what its steps write, and signs
the passes they sign. -/
theorem final_path {v : EventState} (hv : Holds eventId s.store v) (hidle : s.attempt i = .idle)
    (now : ℤ) (jtis : ℕ → String) :
    (Admitters rnd K encode eventId).final s
        (K.path i now (v.queue.popped (v.batch rnd now)) jtis)
      = ⟨((K.admitOnce rnd encode eventId now jtis).run s.store).2, s.attempt⟩ := by
  by_cases hnil : v.queue.popped (v.batch rnd now) = []
  · obtain ⟨r, σ', hrun, hbatch, -⟩ := hv.admitOnce_run_of_nil rnd K encode now jtis hnil
    rw [hrun]
    unfold AdmissionController.path
    rw [if_pos hnil]
    show ((Admitters rnd K encode eventId).step s (.admitBatch i now)).2 = _
    rw [step_admitBatch rnd encode hv hidle hbatch, hnil]
    show AdmitterState.mk σ' (Function.update s.attempt i .idle) = _
    rw [← hidle, Function.update_eq_self]
  · obtain ⟨σ₁, hbatch, hσ₁, hrun⟩ := hv.admitOnce_run_of_ne_nil rnd K encode now jtis hnil
    rw [hrun]
    unfold AdmissionController.path
    rw [if_neg hnil]
    show (Admitters rnd K encode eventId).final
      ((Admitters rnd K encode eventId).step s (.admitBatch i now)).2 _ = _
    rw [step_admitBatch rnd encode hv hidle hbatch]
    generalize v.queue.popped (v.batch rnd now) = popped at hnil ⊢
    have hafter : Attempt.afterBatch now popped = .issuing now [] popped := by
      obtain ⟨p, rest, rfl⟩ := List.exists_cons_of_ne_nil hnil
      rfl
    rw [Machine.final_append, (run_issue rnd encode (s := ⟨σ₁, _⟩)
      ((Function.update_self _ _ _).trans hafter) jtis).1, Function.update_idem, List.nil_append,
      ← K.map_snd_signed encode eventId now popped jtis]
    have hlength : popped.length = (K.signed encode eventId now popped jtis).length :=
      List.length_mapIdx.symm
    have hne : K.signed encode eventId now popped jtis ≠ [] :=
      fun he => hnil (List.length_eq_zero_iff.mp (hlength.trans (List.length_eq_zero_iff.mpr he)))
    generalize K.signed encode eventId now popped jtis = signed at hlength hne
    -- every pass is signed, and the pipeline is sent
    have hsend (f : ι → Attempt) (hf : f i = .issuing now signed []) :
        Function.update f i (f i).send
          = Function.update f i (.recording (signed.map Prod.fst) signed) := by
      rw [hf]
      rfl
    show (Admitters rnd K encode eventId).final ⟨σ₁, Function.update (Function.update s.attempt i
      (.issuing now signed [])) i (Function.update s.attempt i (.issuing now signed []) i).send⟩ _
        = _
    rw [hsend _ (Function.update_self _ _ _), Function.update_idem]
    by_cases hK : 0 < K.passTtlSeconds
    · rw [if_pos hK, Machine.final_append, hlength, run_set rnd encode (s := ⟨σ₁, _⟩) hσ₁ hK
        (Function.update_self _ _ _), Function.update_idem]
      have hfinish (f : ι → Attempt) (hf : f i = .recording (signed.map Prod.fst) []) :
          Function.update f i (f i).finish = Function.update f i .idle := by
        rw [hf]
        rfl
      show AdmitterState.mk _ (Function.update (Function.update s.attempt i
        (.recording (signed.map Prod.fst) [])) i (Function.update s.attempt i
          (.recording (signed.map Prod.fst) []) i).finish) = _
      rw [hfinish _ (Function.update_self _ _ _), Function.update_idem, ← hidle,
        Function.update_eq_self]
      obtain ⟨σ', hset, -⟩ := hσ₁.recordAdmissions_run (signed.map Prod.snd) hK
      rw [run_bind_ok hset, hset]
      rfl
    · rw [if_neg hK]
      show AdmitterState.mk _ (Function.update (Function.update s.attempt i _) i .idle) = _
      rw [Function.update_idem, ← hidle, Function.update_eq_self, run_bind_error
        (hσ₁.recordAdmissions_run_of_nonpos (not_lt.mp hK)
          (fun he => hne (List.map_eq_nil_iff.mp he)))]

end Admitters

namespace Holds

variable {eventId : String} {σ : Store} {v : EventState}

/-- **A tick**, where passes have a lifetime: whoever is popped has a pass parked, and
the tick returns the passes. -/
theorem admitOnce_run (rnd : ℚ → ℚ) {K : AdmissionController} (hK : 0 < K.passTtlSeconds)
    (encode : PassClaims → String → String) (h : Holds eventId σ v) (now : ℤ)
    (jtis : ℕ → String) :
    let passes := K.passes encode eventId now ((v.queue.popped (v.batch rnd now)).map Prod.fst) jtis
    ∃ r σ', (K.admitOnce rnd encode eventId now jtis).run σ = (.ok r, σ')
      ∧ Holds eventId σ' ((v.admitBatch rnd now).2.recordAdmissions eventId passes K.passTtlSeconds)
      ∧ LoopReply.issued (.ticked (.ok r)) = passes := by
  intro passes
  by_cases hnil : v.queue.popped (v.batch rnd now) = []
  · obtain ⟨r, σ', hrun, -, hσ', hr⟩ := h.admitOnce_run_of_nil rnd K encode now jtis hnil
    have hpasses : passes = [] := by
      show K.passes encode eventId now ((v.queue.popped (v.batch rnd now)).map Prod.fst) jtis = []
      rw [hnil]
      rfl
    rw [hpasses]
    refine ⟨r, σ', hrun, hσ', ?_⟩
    obtain ⟨-, rfl⟩ | ⟨-, rfl⟩ := hr <;> rfl
  · obtain ⟨σ₁, -, hσ₁, hrun⟩ := h.admitOnce_run_of_ne_nil rnd K encode now jtis hnil
    obtain ⟨σ', hset, hσ'⟩ := hσ₁.recordAdmissions_run passes hK
    exact ⟨.ok passes, σ', hrun.trans ((run_bind_ok hset).trans (run_pure _ _)), hσ', rfl⟩

/-- Whatever a tick does, the store holds a record after it. -/
theorem exists_admitOnce (rnd : ℚ → ℚ) (K : AdmissionController)
    (encode : PassClaims → String → String) (h : Holds eventId σ v) (now : ℤ)
    (jtis : ℕ → String) :
    ∃ v', Holds eventId ((K.admitOnce rnd encode eventId now jtis).run σ).2 v' := by
  by_cases hK : 0 < K.passTtlSeconds
  · obtain ⟨r, σ', hrun, hσ', -⟩ := h.admitOnce_run rnd hK encode now jtis
    rw [hrun]
    exact ⟨_, hσ'⟩
  by_cases hnil : v.queue.popped (v.batch rnd now) = []
  · obtain ⟨r, σ', hrun, -, hσ', -⟩ := h.admitOnce_run_of_nil rnd K encode now jtis hnil
    rw [hrun]
    exact ⟨_, hσ'⟩
  · obtain ⟨σ₁, -, hσ₁, hrun⟩ := h.admitOnce_run_of_ne_nil rnd K encode now jtis hnil
    have hne : K.passes encode eventId now ((v.queue.popped (v.batch rnd now)).map Prod.fst) jtis
        ≠ [] := by
      intro he
      have hmap := K.map_queueToken_passes encode eventId now
        ((v.queue.popped (v.batch rnd now)).map Prod.fst) jtis
      rw [he] at hmap
      exact hnil (List.map_eq_nil_iff.mp hmap.symm)
    rw [hrun, run_bind_error (hσ₁.recordAdmissions_run_of_nonpos (not_lt.mp hK) hne)]
    exact ⟨_, hσ₁⟩

end Holds

section Paths

variable [DecidableEq ι] (rnd : ℚ → ℚ) {K : AdmissionController}
  (encode : PassClaims → String → String) {eventId : String}

/-- What the path of a tick signs is what the tick returns, where passes have a
lifetime. -/
theorem Admitters.issued_path {s : AdmitterState ι} {i : ι} {v : EventState}
    (hv : Holds eventId s.store v) (hidle : s.attempt i = .idle) (now : ℤ)
    (jtis : ℕ → String) :
    ((Admitters rnd K encode eventId).trace s
        (K.path i now (v.queue.popped (v.batch rnd now)) jtis)).flatMap
          (AdmitterVisit.issued K encode eventId)
      = K.passes encode eventId now ((v.queue.popped (v.batch rnd now)).map Prod.fst) jtis := by
  obtain ⟨σ₁, hbatch, -⟩ := hv.admitBatch_run rnd now
  unfold AdmissionController.path
  by_cases hnil : v.queue.popped (v.batch rnd now) = []
  · rw [if_pos hnil, hnil]
    rfl
  rw [if_neg hnil, Machine.trace_cons, List.flatMap_cons,
    step_admitBatch rnd encode hv hidle hbatch]
  generalize v.queue.popped (v.batch rnd now) = popped at hnil ⊢
  have hafter : Attempt.afterBatch now popped = .issuing now [] popped := by
    obtain ⟨p, rest, rfl⟩ := List.exists_cons_of_ne_nil hnil
    rfl
  rw [Machine.trace_append, List.flatMap_append, (run_issue rnd encode (s := ⟨σ₁, _⟩)
    ((Function.update_self _ _ _).trans hafter) jtis).2, K.map_snd_signed,
    AdmitterVisit.flatMap_issued_eq_nil (fun x hx j jti he => ?_)]
  · exact List.append_nil _
  · -- nothing is signed once the pipeline is sent
    have hact := Machine.action_mem_of_mem_trace _ hx
    rw [he, List.mem_cons] at hact
    have hrest := hact.resolve_left (by simp)
    split at hrest
    · rw [List.mem_append, List.mem_singleton] at hrest
      rcases hrest with hrest | hrest
      · exact absurd (List.eq_of_mem_replicate hrest) (by simp)
      · exact absurd hrest (by simp)
    · exact absurd (List.mem_singleton.mp hrest) (by simp)

/-- **One thing that happens** to the loops is a path of the admitters, from rest to
rest. -/
theorem Loops.exists_path {σ : Store} {v : EventState} (h : Holds eventId σ v) (a : LoopAct ι) :
    ∃ path : List (AdmitterAct ι),
      (Admitters rnd K encode eventId).final ⟨σ, fun _ => .idle⟩ path
          = ⟨((Loops rnd K encode eventId).step σ a).2, fun _ => .idle⟩
        ∧ ((Admitters rnd K encode eventId).trace ⟨σ, fun _ => .idle⟩ path).filterMap
            AdmitterVisit.answered
          = (LoopVisit.answered ⟨σ, a, ((Loops rnd K encode eventId).step σ a).1⟩).toList
        ∧ (0 < K.passTtlSeconds → (∀ b ∈ path, b.Completes)
          ∧ ((Admitters rnd K encode eventId).trace ⟨σ, fun _ => .idle⟩ path).flatMap
              (AdmitterVisit.issued K encode eventId)
            = ((Loops rnd K encode eventId).step σ a).1.issued) := by
  cases a with
  | join t => exact ⟨[.join t], rfl, rfl, fun _ => ⟨by simp [AdmitterAct.Completes], rfl⟩⟩
  | position t => exact ⟨[.position t], rfl, rfl, fun _ => ⟨by simp [AdmitterAct.Completes], rfl⟩⟩
  | configure c => exact ⟨[.configure c], rfl, rfl, fun _ => ⟨by simp [AdmitterAct.Completes], rfl⟩⟩
  | wait d => exact ⟨[.wait d], rfl, rfl, fun _ => ⟨by simp [AdmitterAct.Completes], rfl⟩⟩
  | tick i now jtis =>
    have hidle : (⟨σ, fun _ => .idle⟩ : AdmitterState ι).attempt i = .idle := rfl
    refine ⟨K.path i now (v.queue.popped (v.batch rnd now)) jtis, ?_, ?_, fun hK => ⟨?_, ?_⟩⟩
    · exact Admitters.final_path rnd encode h hidle now jtis
    · refine List.filterMap_eq_nil_iff.mpr (fun x hx => ?_)
      have hclient : x.action.client = none := by
        rcases AdmissionController.mem_path (Machine.action_mem_of_mem_trace _ hx) with
          hx | ⟨jti, hx⟩ | hx | hx | hx | ⟨hx, -⟩ <;> rw [hx] <;> rfl
      unfold AdmitterVisit.answered
      rw [hclient]
    · intro b hb
      rcases AdmissionController.mem_path hb with rfl | ⟨jti, rfl⟩ | rfl | rfl | rfl | ⟨-, hne⟩
      · trivial
      · trivial
      · trivial
      · trivial
      · trivial
      · exact absurd hK hne
    · rw [Admitters.issued_path rnd encode h hidle]
      obtain ⟨r, σ', hrun, -, hr⟩ := h.admitOnce_run rnd hK encode now jtis
      rw [← hr]
      show _ = LoopReply.issued (.ticked ((K.admitOnce rnd encode eventId now jtis).run σ).1)
      rw [hrun]

omit [DecidableEq ι] in
/-- The store holds a record after it. -/
theorem Holds.loops_step {σ : Store} {v : EventState} (h : Holds eventId σ v) (a : LoopAct ι) :
    ∃ v', Holds eventId ((Loops rnd K encode eventId).step σ a).2 v' := by
  have hserve (op : EventOp) : ∃ v', Holds eventId ((QueueService rnd eventId).step σ op).2 v' := by
    obtain ⟨σ', hrun, hσ'⟩ := h.serve rnd op
    rw [show (QueueService rnd eventId).step σ op = _ from hrun]
    exact ⟨_, hσ'⟩
  cases a with
  | join t => exact hserve (.join t)
  | position t => exact hserve (.position t)
  | configure c => exact hserve (.configure c)
  | wait d => exact hserve (.wait d)
  | tick i now jtis => exact h.exists_admitOnce rnd K encode now jtis

/-- **Whole ticks are paths.** Whatever loops and clients do while no tick is
interrupted, there is a run of the admitters that take one step at a time which ends
in the same store with every admitter at rest, and in which every client and operator
is answered alike and in the same order. Where passes have a lifetime, no step of it
is a failure, and it signs the passes that the ticks return, in their order. -/
theorem whole_ticks_are_paths {σ : Store} {v : EventState} (h : Holds eventId σ v)
    (acts : List (LoopAct ι)) :
    ∃ path : List (AdmitterAct ι),
      (Admitters rnd K encode eventId).final ⟨σ, fun _ => .idle⟩ path
          = ⟨(Loops rnd K encode eventId).final σ acts, fun _ => .idle⟩
        ∧ ((Admitters rnd K encode eventId).trace ⟨σ, fun _ => .idle⟩ path).filterMap
            AdmitterVisit.answered
          = ((Loops rnd K encode eventId).trace σ acts).filterMap LoopVisit.answered
        ∧ (0 < K.passTtlSeconds → (∀ b ∈ path, b.Completes)
          ∧ ((Admitters rnd K encode eventId).trace ⟨σ, fun _ => .idle⟩ path).flatMap
              (AdmitterVisit.issued K encode eventId)
            = ((Loops rnd K encode eventId).trace σ acts).flatMap (fun x => x.reply.issued)) := by
  induction acts generalizing σ v with
  | nil => exact ⟨[], rfl, rfl, fun _ => ⟨fun b hb => absurd hb List.not_mem_nil, rfl⟩⟩
  | cons a acts ih =>
    obtain ⟨first, hfinal, hanswered, hfirst⟩ := Loops.exists_path rnd encode h a
    obtain ⟨v', hv'⟩ := h.loops_step rnd (K := K) encode a
    obtain ⟨rest, hfinal', hanswered', hrest⟩ := ih hv'
    refine ⟨first ++ rest, ?_, ?_, fun hK => ⟨?_, ?_⟩⟩
    · rw [Machine.final_append, hfinal]
      exact hfinal'
    · rw [Machine.trace_append, List.filterMap_append, hanswered, hfinal, hanswered',
        Machine.trace_cons, List.filterMap_cons]
      cases LoopVisit.answered ⟨σ, a, ((Loops rnd K encode eventId).step σ a).1⟩ <;> rfl
    · intro b hb
      rcases List.mem_append.mp hb with hb | hb
      · exact (hfirst hK).1 b hb
      · exact (hrest hK).1 b hb
    · rw [Machine.trace_append, List.flatMap_append, (hfirst hK).2, hfinal, (hrest hK).2]
      rfl

end Paths

/-- Two loops on one queue. -/
theorem whole_ticks_are_paths_of_two_loops :
    let K := buildAdmissionController "secret" (by decide) 60
    let encode : PassClaims → String → String := fun claims _ => claims.jti
    let acts : List (LoopAct Bool) := [.join "a", .join "b", .tick true 0 (fun _ => "j"),
      .wait 1000, .tick false 1000 (fun _ => "k"), .position "a"]
    ∃ path : List (AdmitterAct Bool),
      (Admitters id K encode "e").final ⟨createdStore "e" ⟨60, 1, 5⟩, fun _ => .idle⟩ path
          = ⟨(Loops id K encode "e").final (createdStore "e" ⟨60, 1, 5⟩) acts, fun _ => .idle⟩
        ∧ ((Admitters id K encode "e").trace ⟨createdStore "e" ⟨60, 1, 5⟩, fun _ => .idle⟩
            path).filterMap AdmitterVisit.answered
          = ((Loops id K encode "e").trace (createdStore "e" ⟨60, 1, 5⟩) acts).filterMap
              LoopVisit.answered
        ∧ (0 < K.passTtlSeconds → (∀ b ∈ path, b.Completes)
          ∧ ((Admitters id K encode "e").trace ⟨createdStore "e" ⟨60, 1, 5⟩, fun _ => .idle⟩
              path).flatMap (AdmitterVisit.issued K encode "e")
            = ((Loops id K encode "e").trace (createdStore "e" ⟨60, 1, 5⟩) acts).flatMap
                (fun x => x.reply.issued)) :=
  whole_ticks_are_paths id (K := buildAdmissionController "secret" (by decide) 60)
    (fun claims _ => claims.jti) (holds_createdStore "e" ⟨60, 1, 5⟩) _

/-! ## Order, and delivery -/

/-- How long a step waits. -/
def LoopAct.elapsed : LoopAct ι → ℕ
  | .wait ms => ms
  | _ => 0

/-- **A pass in reach**: its token is not in the queue, so a position call finds
it. -/
structure EventState.InReach (v : EventState) (t : String) (a : Admission) (d : ℤ) : Prop where
  configured : ∃ c, v.config = some c
  apart : t ∉ v.queue.members
  parked : v.passes t = some (a, d)

/-- A pass in reach is answered up to the millisecond it expires at. -/
theorem Holds.position_of_inReach {eventId : String} {σ : Store} {v : EventState}
    (h : Holds eventId σ v) {t : String} {a : Admission} {d : ℤ} (hv : v.InReach t a d)
    (hd : v.clock ≤ d) :
    ∃ o, (RedisQueueRepository.position eventId t).run σ = (.ok (.ok (.admitted o)), σ)
      ∧ o.admission = a := by
  obtain ⟨c, hc⟩ := hv.configured
  have hlive : v.livePass t = some a := by
    unfold EventState.livePass
    rw [hv.parked, Option.bind_some, if_pos hd]
  rw [h.position_run, EventState.position_of_admitted hc eventId
    (v.queue.rank?_eq_none_iff.mpr hv.apart) hlive]
  exact ⟨_, rfl, rfl⟩

section Order

variable (rnd : ℚ → ℚ) {K : AdmissionController} (encode : PassClaims → String → String)
  {eventId : String} {σ : Store} {v : EventState} {q : FifoQueue String}

/-- **What a tick leaves** as it was, and of the queue: the front is gone. -/
theorem EventState.recordAdmissions_admitBatch (v : EventState) (eventId : String) (now : ℤ)
    (ps : List IssuedPass) (ttl : ℤ) :
    let v' := (v.admitBatch rnd now).2.recordAdmissions eventId ps ttl
    v'.config = v.config ∧ v'.queue = v.queue.popMin (v.batch rnd now) ∧ v'.clock = v.clock
      ∧ ∀ t ∉ ps.map IssuedPass.queueToken, v'.passes t = v.passes t := by
  intro v'
  obtain ⟨b, n, hbatch⟩ := v.admitBatch_snd rnd now
  have hpark (t : String) (ht : t ∉ ps.map IssuedPass.queueToken) : v'.passes t = v.passes t := by
    show ((v.admitBatch rnd now).2.recordAdmissions eventId ps ttl).passes t = _
    rw [passes_recordAdmissions_of_notMem ht, hbatch]
  obtain ⟨passes, hpasses⟩ := exists_recordAdmissions (v.admitBatch rnd now).2 eventId ps ttl
  rw [show v' = _ from hpasses, hbatch] at hpark ⊢
  exact ⟨rfl, rfl, rfl, hpark⟩

/-- **A pass stays in reach** unless its token joins anew. -/
theorem Holds.inReach_step (h : Holds eventId σ v) {t : String} {a : Admission} {d : ℤ}
    (hv : v.InReach t a d) (hK : 0 < K.passTtlSeconds) {b : LoopAct ι} (hb : b ≠ .join t) :
    ∃ v', Holds eventId ((Loops rnd K encode eventId).step σ b).2 v' ∧ v'.InReach t a d
      ∧ v'.clock = v.clock + b.elapsed := by
  have hserve (op : EventOp) :
      Holds eventId ((QueueService rnd eventId).step σ op).2 (v.step rnd eventId op).2 := by
    obtain ⟨σ', hrun, hσ'⟩ := h.serve rnd op
    rw [show (QueueService rnd eventId).step σ op = _ from hrun]
    exact hσ'
  cases b with
  | join t' =>
    have ht : t ∉ (v.join t').2.queue.members := by
      rw [EventState.mem_members_join hv.configured]
      exact fun hor => hor.elim (fun he => hb (he ▸ rfl)) hv.apart
    obtain ⟨z, n, hsame⟩ := v.join_snd t'
    refine ⟨_, hserve (.join t'), ⟨EventState.configured_step rnd eventId hv.configured _, ht, ?_⟩,
      ?_⟩
    · show (v.join t').2.passes t = _
      rw [hsame]
      exact hv.parked
    · show (v.join t').2.clock = _
      rw [hsame]
      exact (add_zero _).symm
  | position t' => exact ⟨_, hserve (.position t'), hv, (add_zero _).symm⟩
  | configure c =>
    exact ⟨_, hserve (.configure c), ⟨⟨c, rfl⟩, hv.apart, hv.parked⟩, (add_zero _).symm⟩
  | wait ms => exact ⟨_, hserve (.wait ms), ⟨hv.configured, hv.apart, hv.parked⟩, rfl⟩
  | tick i now jtis =>
    obtain ⟨r, σ', hrun, hσ', -⟩ := h.admitOnce_run rnd hK encode now jtis
    rw [show (Loops rnd K encode eventId).step σ (.tick i now jtis) = (.ticked (.ok r), σ') from
      congrArg (Prod.map LoopReply.ticked id) hrun]
    obtain ⟨hconfig, hqueue, hclock, hpasses⟩ := v.recordAdmissions_admitBatch rnd eventId now
      (K.passes encode eventId now ((v.queue.popped (v.batch rnd now)).map Prod.fst) jtis)
      K.passTtlSeconds
    rw [K.map_queueToken_passes] at hpasses
    -- whom a pass is parked for was in the queue
    have hout : t ∉ (v.queue.popped (v.batch rnd now)).map Prod.fst := by
      rw [ZSet.map_fst_popped]
      exact fun hmem => hv.apart (List.mem_of_mem_take hmem)
    refine ⟨_, hσ', ⟨hconfig ▸ hv.configured, ?_, (hpasses t hout).trans hv.parked⟩,
      hclock.trans (add_zero _).symm⟩
    rw [hqueue, ZSet.members_popMin]
    exact fun hmem => hv.apart (List.mem_of_mem_drop hmem)

/-- In every run in which it does not. -/
theorem Holds.inReach_run (hK : 0 < K.passTtlSeconds) {t : String} {a : Admission} {d : ℤ}
    {acts : List (LoopAct ι)} (hacts : LoopAct.join t ∉ acts) (h : Holds eventId σ v)
    (hv : v.InReach t a d) :
    ∃ v', Holds eventId ((Loops rnd K encode eventId).final σ acts) v' ∧ v'.InReach t a d
      ∧ v'.clock = v.clock + ((acts.map LoopAct.elapsed).sum : ℕ) := by
  induction acts generalizing σ v with
  | nil => exact ⟨v, h, hv, (add_zero _).symm⟩
  | cons b acts ih =>
    rw [List.mem_cons, not_or] at hacts
    obtain ⟨v', h', hv', hclock⟩ := h.inReach_step rnd encode hv hK (Ne.symm hacts.1)
    obtain ⟨v'', h'', hv'', hclock'⟩ := ih hacts.2 h' hv'
    refine ⟨v'', h'', hv'', ?_⟩
    rw [hclock', hclock, List.map_cons, List.sum_cons, Nat.cast_add, add_assoc]

/-- **Until it expires**, or its token joins anew, a pass in reach is what a position
call answers. -/
theorem Holds.collects_run (hK : 0 < K.passTtlSeconds) {t : String} {a : Admission} {d : ℤ}
    {acts : List (LoopAct ι)} (hacts : LoopAct.join t ∉ acts) (h : Holds eventId σ v)
    (hv : v.InReach t a d) (hd : v.clock + ((acts.map LoopAct.elapsed).sum : ℕ) ≤ d) :
    let σ' := (Loops rnd K encode eventId).final σ acts
    ∃ o, (RedisQueueRepository.position eventId t).run σ' = (.ok (.ok (.admitted o)), σ')
      ∧ o.admission = a := by
  obtain ⟨v', h', hv', hclock⟩ := h.inReach_run rnd encode hK hacts hv
  exact h'.position_of_inReach hv' (hclock ▸ hd)

/-- A batch of waiters has its tokens apart. -/
theorem AdmissionController.nodup_queueToken_passes (K : AdmissionController) (eventId : String)
    (v : EventState) (n : ℕ) (now : ℤ) (jtis : ℕ → String) :
    ((K.passes encode eventId now ((v.queue.popped n).map Prod.fst) jtis).map
      IssuedPass.queueToken).Nodup := by
  rw [K.map_queueToken_passes, ZSet.map_fst_popped]
  exact v.queue.members_nodup.sublist (List.take_sublist n _)

/-- **What a tick returns is in reach** when it returns. -/
theorem Holds.inReach_tick (hK : 0 < K.passTtlSeconds) (h : Holds eventId σ v)
    (hc : ∃ c, v.config = some c) {i : ι} {now : ℤ} {jtis : ℕ → String} {p : IssuedPass}
    (hp : p ∈ ((Loops rnd K encode eventId).step σ (.tick i now jtis)).1.issued) :
    ∃ v', Holds eventId ((Loops rnd K encode eventId).step σ (.tick i now jtis)).2 v'
      ∧ v'.InReach p.queueToken (RedisQueueRepository.payload eventId p)
        (v'.clock + 1000 * K.passTtlSeconds)
      ∧ v'.clock = v.clock := by
  obtain ⟨r, σ', hrun, hσ', hissued⟩ := h.admitOnce_run rnd hK encode now jtis
  rw [show (Loops rnd K encode eventId).step σ (.tick i now jtis) = (.ticked (.ok r), σ') from
    congrArg (Prod.map LoopReply.ticked id) hrun] at hp ⊢
  rw [hissued] at hp
  obtain ⟨hconfig, hqueue, hclock, -⟩ := v.recordAdmissions_admitBatch rnd eventId now
    (K.passes encode eventId now ((v.queue.popped (v.batch rnd now)).map Prod.fst) jtis)
    K.passTtlSeconds
  have hnodup := AdmissionController.nodup_queueToken_passes encode K eventId v
    (v.batch rnd now) now jtis
  refine ⟨_, hσ', ⟨hconfig ▸ hc, ?_, ?_⟩, hclock⟩
  · -- whoever is popped is not among those who are left
    have hpopped := List.mem_map_of_mem (f := IssuedPass.queueToken) hp
    rw [K.map_queueToken_passes, ZSet.map_fst_popped] at hpopped
    rw [hqueue, ZSet.members_popMin]
    have hapart := v.queue.members_nodup
    rw [← List.take_append_drop (v.batch rnd now) v.queue.members, List.nodup_append] at hapart
    exact fun hmem => hapart.2.2 _ hpopped _ hmem rfl
  · rw [EventState.passes_recordAdmissions hp hnodup, hclock]
    obtain ⟨b, n, hbatch⟩ := v.admitBatch_snd rnd now
    rw [hbatch]

/-- **One thing that happens** extends the line by the place it gives, and takes from
its front those whose passes it returns. -/
theorem Queues.loops_step (hK : 0 < K.passTtlSeconds) (h : Queues eventId σ q) (a : LoopAct ι) :
    ∃ q', Queues eventId ((Loops rnd K encode eventId).step σ a).2 q'
      ∧ FifoQueue.number q'.log = FifoQueue.number q.log
        ++ LoopVisit.joined ⟨σ, a, ((Loops rnd K encode eventId).step σ a).1⟩
      ∧ q'.released = q.released
        ++ ((Loops rnd K encode eventId).step σ a).1.issued.map IssuedPass.queueToken := by
  have hserve (op : EventOp) (hreset : op ≠ .reset) (hnow : op.nowMs = none) :
      ∃ q', Queues eventId ((QueueService rnd eventId).step σ op).2 q'
        ∧ FifoQueue.number q'.log = FifoQueue.number q.log
          ++ Visit.joined ⟨σ, op, ((QueueService rnd eventId).step σ op).1⟩
        ∧ q'.released = q.released ++ [] := by
    obtain ⟨q', hq', hlog, hreleased⟩ := h.step rnd hreset
    rw [Visit.admitted_of_not_tick hnow] at hreleased
    exact ⟨q', hq', hlog, hreleased⟩
  cases a with
  | join t => exact hserve (.join t) (by simp) rfl
  | position t => exact hserve (.position t) (by simp) rfl
  | configure c => exact hserve (.configure c) (by simp) rfl
  | wait d => exact hserve (.wait d) (by simp) rfl
  | tick i now jtis =>
    obtain ⟨v, hv, hq⟩ := h
    obtain ⟨hn, -, hlines⟩ := hq.admitBatch rnd now
    obtain ⟨r, σ', hrun, hσ', hissued⟩ := hv.admitOnce_run rnd hK encode now jtis
    rw [show (Loops rnd K encode eventId).step σ (.tick i now jtis) = (.ticked (.ok r), σ') from
      congrArg (Prod.map LoopReply.ticked id) hrun]
    obtain ⟨passes, hpasses⟩ := EventState.exists_recordAdmissions (v.admitBatch rnd now).2 eventId
      (K.passes encode eventId now ((v.queue.popped (v.batch rnd now)).map Prod.fst) jtis)
      K.passTtlSeconds
    rw [hpasses] at hσ'
    refine ⟨q.release _ hn, ⟨_, hσ', hlines.queue, hlines.seq, hlines.admitted,
      hlines.configured⟩, (List.append_nil _).symm, ?_⟩
    show (q.release _ hn).released
      = q.released ++ (LoopReply.issued (.ticked (.ok r))).map IssuedPass.queueToken
    rw [hissued, K.map_queueToken_passes, ZSet.map_fst_popped, hq.members_eq]
    exact q.released_release _ hn

/-- **A whole run** does. -/
theorem Queues.loops_run (hK : 0 < K.passTtlSeconds) (h : Queues eventId σ .empty)
    (acts : List (LoopAct ι)) :
    ∃ q, Queues eventId ((Loops rnd K encode eventId).final σ acts) q
      ∧ FifoQueue.number q.log
        = ((Loops rnd K encode eventId).trace σ acts).flatMap LoopVisit.joined
      ∧ q.released = (((Loops rnd K encode eventId).trace σ acts).flatMap
          (fun x => x.reply.issued)).map IssuedPass.queueToken := by
  have hnothing : ∃ q, Queues eventId σ q
      ∧ FifoQueue.number q.log = ([] : List (LoopVisit ι)).flatMap LoopVisit.joined
      ∧ q.released = (([] : List (LoopVisit ι)).flatMap (fun x => x.reply.issued)).map
          IssuedPass.queueToken := ⟨.empty, h, rfl, rfl⟩
  refine (Loops rnd K encode eventId).history_invariant (P := fun xs σ => ∃ q,
    Queues eventId σ q ∧ FifoQueue.number q.log = xs.flatMap LoopVisit.joined
      ∧ q.released = (xs.flatMap (fun x => x.reply.issued)).map IssuedPass.queueToken)
    (fun xs σ a hσ => ?_) hnothing acts
  obtain ⟨q, hq, hlog, hreleased⟩ := hσ
  obtain ⟨q', hq', hlog', hreleased'⟩ := hq.loops_step rnd encode hK a
  refine ⟨q', hq', ?_, ?_⟩
  · rw [hlog', hlog, List.flatMap_append, List.flatMap_singleton]
  · rw [hreleased', hreleased, List.flatMap_append, List.flatMap_singleton, List.map_append]

/-- **Whole ticks serve in order, and deliver.** Where passes have a lifetime and no
tick is interrupted, from a new event: the placements are numbered from one on in the
order of the joins; the passes returned so far are for the tokens of the first of
them, one to each and in their order, and those of the rest are who waits. From when
its tick returns, for as long as its lifetime, and as long as its token does not join
anew, a position call is answered with the pass. -/
theorem whole_ticks_serve_in_order {c : QueueConfig} (hK : 0 < K.passTtlSeconds)
    (h : Fresh eventId σ c) (acts : List (LoopAct ι)) :
    let M := Loops (ι := ι) rnd K encode eventId
    let placed := (M.trace σ acts).flatMap LoopVisit.joined
    let issued := (M.trace σ acts).flatMap (fun x => x.reply.issued)
    placed.map Prod.snd = (List.range placed.length).map (fun n : ℕ => (n : ℤ) + 1)
      ∧ (placed.take issued.length).map Prod.fst = issued.map IssuedPass.queueToken
      ∧ waiters eventId (M.final σ acts) = placed.drop issued.length
      ∧ ∀ bs i now jtis ds, acts = bs ++ .tick i now jtis :: ds →
        ∀ p ∈ (M.step (M.final σ bs) (.tick i now jtis)).1.issued,
          .join p.queueToken ∉ ds →
          ((ds.map LoopAct.elapsed).sum : ℕ) < 1000 * K.passTtlSeconds →
          ∃ o, (RedisQueueRepository.position eventId p.queueToken).run (M.final σ acts)
              = (.ok (.ok (.admitted o)), M.final σ acts)
            ∧ o.admission = RedisQueueRepository.payload eventId p := by
  intro M placed issued
  obtain ⟨q, ⟨v, hv, hq⟩, hlog, hreleased⟩ := h.queues.loops_run rnd encode hK acts
  have hlength : placed.length = q.log.length := by
    show ((M.trace σ acts).flatMap LoopVisit.joined).length = _
    rw [← hlog, FifoQueue.length_number]
  have hserved : issued.length = q.served := by
    rw [← q.length_released, hreleased, List.length_map]
  refine ⟨?_, ?_, ?_, fun bs i now jtis ds hacts p hp hds helapsed => ?_⟩
  · rw [hlength, show placed = _ from hlog.symm, FifoQueue.map_snd_number]
  · rw [hserved, show placed = _ from hlog.symm, List.map_take, FifoQueue.map_fst_number]
    exact hreleased
  · rw [hv.waiters_eq, hq.queue, hserved, show placed = _ from hlog.symm]
    rfl
  · obtain ⟨q', ⟨w, hw, hq'⟩, -⟩ := h.queues.loops_run rnd encode hK bs
    obtain ⟨w', hw', hreach, -⟩ := hw.inReach_tick rnd encode hK hq'.configured hp
    have hcollects := hw'.collects_run rnd encode hK hds hreach (by omega)
    rw [hacts, Machine.final_append]
    exact hcollects

end Order

/-- The second of two who joined is let in by another loop, and collects its pass half a
minute later. -/
theorem whole_ticks_serve_in_order_of_two_loops :
    let K := buildAdmissionController "secret" (by decide) 60
    let M := Loops (ι := Bool) id K (fun claims _ => claims.jti) "e"
    let σ := M.final (createdStore "e" ⟨60, 1, 5⟩) [.join "a", .join "b",
      .tick true 0 (fun _ => "j"), .tick false 1000 (fun _ => "k"), .wait 30000, .join "c"]
    waiters "e" σ = [("c", 3)]
      ∧ ∃ o, (RedisQueueRepository.position "e" "b").run σ = (.ok (.ok (.admitted o)), σ)
        ∧ o.admission = ⟨"k", 61, "/events/e/book"⟩ := by
  intro K M σ
  obtain ⟨-, -, hwaiters, hcollects⟩ := whole_ticks_serve_in_order (ι := Bool) id
    (K := buildAdmissionController "secret" (by decide) 60) (fun claims _ => claims.jti)
    (by decide) (fresh_createdStore "e" ⟨60, 1, 5⟩) [.join "a", .join "b",
      .tick true 0 (fun _ => "j"), .tick false 1000 (fun _ => "k"), .wait 30000, .join "c"]
  refine ⟨hwaiters.trans (by decide +kernel), ?_⟩
  exact hcollects [.join "a", .join "b", .tick true 0 (fun _ => "j")] false 1000 (fun _ => "k")
    [.wait 30000, .join "c"] rfl ⟨"b", "k", "k", 61⟩ (by decide +kernel) (by simp) (by decide)
