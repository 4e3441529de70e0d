import QueueFair.Admission
import QueueFair.FifoRefinement

/-!
# Admitters whose ticks may fail

A tick is a call of the batch script, one signature after another, and a
pipeline of SETs, and it may fail between any two of these and within the
first and the last. The script may commit and its reply be lost. The pipeline
is not a transaction: the server executes its SETs one at a time, any of them
may be missing when the connection breaks, and the tick succeeds only once
all of them are answered. `run_forever` swallows whatever is raised, and the
next tick starts from nothing.

The system below is the queue service with any number of such admitters, and
a step is one thing that happens to one of them or one call of somebody else.
The scores of a batch, which the reply carries and the code drops, are kept
with the tokens: a token may be placed again once it is let in, and the
sequence is what tells its placements apart.
-/

open Redis

/-- A placement: a token, and the sequence a join gave it. -/
abbrev Placement := String × ℤ

/-- Who waits in the store, in order. -/
def waiters (eventId : String) (σ : Store) : List Placement :=
  match σ.zsetAt (EventKeys.mk eventId).queue with
  | .ok z => z.entries
  | .error _ => []

/-- What the script pops from a store it answers so: the front of the queue,
as many as the tokens of its reply. -/
def poppedFrom (eventId : String) (σ : Store) : Except Redis.Error Answer → List Placement
  | .ok (.admitBatch (.ok (some batch))) =>
    (waiters eventId σ).take batch.admittedTokens.length
  | _ => []

/-! ## An attempt -/

/-- Where an admitter stands in one tick of `admit_once`. -/
inductive Attempt where
  /-- Between two ticks. -/
  | idle
  /-- The batch is popped; its front is signed, and `rest` is not. -/
  | issuing (nowMs : ℤ) (signed : List (Placement × IssuedPass)) (rest : List Placement)
  /-- The pipeline is sent; the SETs of `pending` are not answered yet. -/
  | recording (batch : List Placement) (pending : List (Placement × IssuedPass))
deriving DecidableEq

namespace Attempt

/-- The placements a tick in progress popped. -/
def batch : Attempt → List Placement
  | .idle => []
  | .issuing _ signed rest => signed.map Prod.fst ++ rest
  | .recording batch _ => batch

/-- The SETs in flight. -/
def pending : Attempt → List (Placement × IssuedPass)
  | .recording _ pending => pending
  | _ => []

/-- The placements a tick holds: popped, and their passes not stored. -/
def unsaved : Attempt → List Placement
  | .recording _ pending => pending.map Prod.fst
  | attempt => attempt.batch

/-- The placements a tick has still to sign for, with the reading its batch was
popped at. -/
def unsigned : Attempt → List (Placement × ℤ)
  | .issuing nowMs _ rest => rest.map (fun p => (p, nowMs))
  | _ => []

/-- The signed passes of a tick. -/
def signed : Attempt → List (Placement × IssuedPass)
  | .idle => []
  | .issuing _ signed _ => signed
  | .recording _ pending => pending

/-- After the batch script: an empty batch ends the tick, and so does an
unknown event. -/
def afterBatch (nowMs : ℤ) : List Placement → Attempt
  | [] => .idle
  | popped => .issuing nowMs [] popped

/-- Sign the next pass. -/
def issue (K : AdmissionController) (encode : PassClaims → String → String)
    (eventId jti : String) : Attempt → Attempt
  | .issuing nowMs signed (p :: rest) =>
    .issuing nowMs
      (signed ++ [(p, K.issuer.issue encode eventId p.1 (nowMs / 1000) jti)]) rest
  | attempt => attempt

/-- Send the pipeline, once every pass is signed. -/
def send : Attempt → Attempt
  | .issuing _ signed [] => .recording (signed.map Prod.fst) signed
  | attempt => attempt

/-- One of the SETs in flight is answered. -/
def settle (n : ℕ) : Attempt → Attempt
  | .recording batch pending => .recording batch (pending.eraseIdx n)
  | attempt => attempt

/-- The tick returns, once every SET is answered. -/
def finish : Attempt → Attempt
  | .recording _ [] => .idle
  | attempt => attempt

end Attempt

/-! ## The system -/

/-- The store, and where each admitter stands. -/
structure AdmitterState (ι : Type) where
  store : Store
  attempt : ι → Attempt

/-- One thing that happens. -/
inductive AdmitterAct (ι : Type) where
  | join (queueToken : String)
  | position (queueToken : String)
  | configure (options : QueueConfig)
  | wait (ms : ℕ)
  /-- A tick fails before its script runs. -/
  | failBefore (i : ι)
  /-- The script runs, and its reply arrives. -/
  | admitBatch (i : ι) (nowMs : ℤ)
  /-- The script runs, and its reply is lost. -/
  | loseReply (i : ι) (nowMs : ℤ)
  /-- The next pass of a batch is signed. -/
  | issue (i : ι) (jti : String)
  /-- The pipeline is sent. -/
  | send (i : ι)
  /-- The server executes the `n`-th of the SETs still in flight. -/
  | set (i : ι) (n : ℕ)
  /-- A tick fails, wherever it stands. -/
  | fail (i : ι)
  /-- A tick returns. -/
  | finish (i : ι)
deriving DecidableEq

variable {ι : Type} [DecidableEq ι]

/-- The operation a step asks of the store, if it asks one. -/
def AdmitterAct.op (K : AdmissionController) (s : AdmitterState ι) :
    AdmitterAct ι → Option EventOp
  | .join t => some (.join t)
  | .position t => some (.position t)
  | .configure c => some (.configure c)
  | .wait d => some (.wait d)
  | .admitBatch i nowMs => if s.attempt i = .idle then some (.admitBatch nowMs) else none
  | .loseReply i nowMs => if s.attempt i = .idle then some (.admitBatch nowMs) else none
  | .set i n =>
    (s.attempt i).pending[n]?.map (fun p => .recordAdmission p.2 K.passTtlSeconds)
  | _ => none

/-- **What a step asks of the store**: the script is asked for by an idle
admitter only, and a SET by one that has it in flight. -/
inductive AdmitterAct.Asks (K : AdmissionController) (s : AdmitterState ι) :
    AdmitterAct ι → EventOp → Prop
  | join (t : String) : Asks K s (.join t) (.join t)
  | position (t : String) : Asks K s (.position t) (.position t)
  | configure (c : QueueConfig) : Asks K s (.configure c) (.configure c)
  | wait (d : ℕ) : Asks K s (.wait d) (.wait d)
  | admitBatch {i : ι} (now : ℤ) (hidle : s.attempt i = .idle) :
    Asks K s (.admitBatch i now) (.admitBatch now)
  | loseReply {i : ι} (now : ℤ) (hidle : s.attempt i = .idle) :
    Asks K s (.loseReply i now) (.admitBatch now)
  | set {i : ι} {n : ℕ} {p : Placement × IssuedPass}
    (hpending : (s.attempt i).pending[n]? = some p) :
    Asks K s (.set i n) (.recordAdmission p.2 K.passTtlSeconds)

/-- The ticks after a step, given what the store answered. A SET that is
answered with an error stays unanswered for. -/
def AdmitterAct.attempts (K : AdmissionController) (encode : PassClaims → String → String)
    (eventId : String) (s : AdmitterState ι) :
    AdmitterAct ι → Option (Except Redis.Error Answer) → ι → Attempt
  | .admitBatch i nowMs, some reply =>
    Function.update s.attempt i (.afterBatch nowMs (poppedFrom eventId s.store reply))
  | .issue i jti, _ => Function.update s.attempt i ((s.attempt i).issue K encode eventId jti)
  | .send i, _ => Function.update s.attempt i (s.attempt i).send
  | .set i n, some (.ok _) => Function.update s.attempt i ((s.attempt i).settle n)
  | .fail i, _ => Function.update s.attempt i .idle
  | .finish i, _ => Function.update s.attempt i (s.attempt i).finish
  | _, _ => s.attempt

/-- **The queue service and admitters whose ticks may fail.** -/
def Admitters (rnd : ℚ → ℚ) (K : AdmissionController) (encode : PassClaims → String → String)
    (eventId : String) :
    Machine (AdmitterState ι) (AdmitterAct ι) (Option (Except Redis.Error Answer)) :=
  ⟨fun s a =>
    match a.op K s with
    | some op =>
      let r := (QueueService rnd eventId).step s.store op
      (some r.1, ⟨r.2, a.attempts K encode eventId s (some r.1)⟩)
    | none => (none, ⟨s.store, a.attempts K encode eventId s none⟩)⟩

/-- The visits of the system. -/
abbrev AdmitterVisit (ι : Type) : Type :=
  Visit (AdmitterState ι) (AdmitterAct ι) (Option (Except Redis.Error Answer))

namespace AdmitterVisit

/-- The placement a join gave, if it gave one. -/
def joined (x : AdmitterVisit ι) : List Placement :=
  match x.action, x.reply with
  | .join t, some (.ok (.join (.ok (some o)))) => if o.joined then [(t, o.sequence)] else []
  | _, _ => []

/-- The placements a run of the script popped, whether or not its reply
arrived. -/
def pops (eventId : String) (x : AdmitterVisit ι) : List Placement :=
  match x.action, x.reply with
  | .admitBatch _ _, some reply => poppedFrom eventId x.before.store reply
  | .loseReply _ _, some reply => poppedFrom eventId x.before.store reply
  | _, _ => []

/-- The placement whose pass was stored. -/
def stores (x : AdmitterVisit ι) : List Placement :=
  match x.action, x.reply with
  | .set i n, some (.ok _) => ((x.before.attempt i).pending[n]?).toList.map Prod.fst
  | _, _ => []

/-- The placements a failing tick leaves behind: popped, and no pass
stored. -/
def strands (eventId : String) (x : AdmitterVisit ι) : List Placement :=
  match x.action with
  | .loseReply _ _ => pops eventId x
  | .fail i => (x.before.attempt i).unsaved
  | _ => []

/-- The reading of the clock at which the script ran, if it ran. -/
def reading (x : AdmitterVisit ι) : Option ℤ :=
  match x.action, x.reply with
  | .admitBatch _ nowMs, some _ => some nowMs
  | .loseReply _ nowMs, some _ => some nowMs
  | _, _ => none

/-- The call a step made on the store, if it made one. -/
def call (K : AdmissionController) (x : AdmitterVisit ι) :
    Option (Visit Store EventOp (Except Redis.Error Answer)) :=
  match x.action.op K x.before, x.reply with
  | some op, some reply => some ⟨x.before.store, op, reply⟩
  | _, _ => none

end AdmitterVisit

/-! ## One step -/

namespace Admitters

variable (rnd : ℚ → ℚ) {K : AdmissionController} (encode : PassClaims → String → String)
  {eventId : String} {s : AdmitterState ι} {a : AdmitterAct ι}

/-- A step that asks nothing of the store leaves it as it is. -/
theorem step_of_none (hop : a.op K s = none) :
    (Admitters rnd K encode eventId).step s a
      = (none, ⟨s.store, a.attempts K encode eventId s none⟩) := by
  simp only [Admitters, hop]

/-- A step that asks an operation of the store is a call of the service. -/
theorem step_of_op {op : EventOp} (hop : a.op K s = some op) :
    (Admitters rnd K encode eventId).step s a
      = (some ((QueueService rnd eventId).step s.store op).1,
        ⟨((QueueService rnd eventId).step s.store op).2, a.attempts K encode eventId s
          (some ((QueueService rnd eventId).step s.store op).1)⟩) := by
  simp only [Admitters, hop]

/-- A step that asks an operation of the store is served as the record is. -/
theorem step_of_some {v : EventState} (hv : Holds eventId s.store v) {op : EventOp}
    (hop : a.op K s = some op) :
    ∃ σ', Holds eventId σ' (v.step rnd eventId op).2
      ∧ (Admitters rnd K encode eventId).step s a
        = (some (v.step rnd eventId op).1, ⟨σ', a.attempts K encode eventId s
            (some (v.step rnd eventId op).1)⟩) := by
  obtain ⟨σ', hrun, hσ'⟩ := hv.serve rnd op
  have hstep : (QueueService rnd eventId).step s.store op = _ := hrun
  refine ⟨σ', hσ', ?_⟩
  rw [step_of_op rnd encode hop, hstep]

/-- The ticks after a step. -/
theorem attempt_step (s : AdmitterState ι) (a : AdmitterAct ι) :
    ((Admitters rnd K encode eventId).step s a).2.attempt
      = a.attempts K encode eventId s ((Admitters rnd K encode eventId).step s a).1 := by
  cases hop : a.op K s with
  | none => rw [step_of_none rnd encode hop]
  | some op => rw [step_of_op rnd encode hop]

omit [DecidableEq ι] in
/-- A step asks what it does, and nothing else. -/
theorem asks_of_op {op : EventOp} (hop : a.op K s = some op) : a.Asks K s op := by
  -- the script is asked for alike, whether or not its reply will arrive
  have hscript : ∀ {i : ι} {now : ℤ},
      (if s.attempt i = .idle then some (EventOp.admitBatch now) else none) = some op →
        s.attempt i = .idle ∧ op = .admitBatch now := by
    intro i now hop
    by_cases hi : s.attempt i = .idle
    · rw [if_pos hi] at hop
      exact ⟨hi, (Option.some.inj hop).symm⟩
    · rw [if_neg hi] at hop
      exact nomatch hop
  cases a with
  | join t =>
    obtain rfl := Option.some.inj hop
    exact .join t
  | position t =>
    obtain rfl := Option.some.inj hop
    exact .position t
  | configure c =>
    obtain rfl := Option.some.inj hop
    exact .configure c
  | wait d =>
    obtain rfl := Option.some.inj hop
    exact .wait d
  | admitBatch i now =>
    obtain ⟨hidle, rfl⟩ := hscript hop
    exact .admitBatch now hidle
  | loseReply i now =>
    obtain ⟨hidle, rfl⟩ := hscript hop
    exact .loseReply now hidle
  | set i n =>
    obtain ⟨p, hpending, rfl⟩ := Option.map_eq_some_iff.mp hop
    exact .set hpending
  | _ => exact nomatch hop

omit [DecidableEq ι] in
/-- No admitter resets a queue. -/
theorem op_ne_reset (hop : a.op K s = some .reset) : False :=
  nomatch asks_of_op hop

omit [DecidableEq ι] in
/-- Only an operator's rewrite is one. -/
theorem eq_configure_of_op {c : QueueConfig} (hop : a.op K s = some (.configure c)) :
    a = .configure c := by
  cases asks_of_op hop
  rfl

/-- **What the admitters and the clients ask of the store is a run of the
queue service**, without a reset. -/
theorem trace_call (K : AdmissionController) (eventId : String) (s : AdmitterState ι)
    (acts : List (AdmitterAct ι)) :
    ∃ ops, EventOp.reset ∉ ops
      ∧ ((Admitters rnd K encode eventId).trace s acts).filterMap (AdmitterVisit.call K)
        = (QueueService rnd eventId).trace s.store ops
      ∧ ((Admitters rnd K encode eventId).final s acts).store
        = (QueueService rnd eventId).final s.store ops := by
  induction acts generalizing s with
  | nil => exact ⟨[], List.not_mem_nil, rfl, rfl⟩
  | cons a acts ih =>
    obtain ⟨ops, hreset, htrace, hfinal⟩ := ih ((Admitters rnd K encode eventId).step s a).2
    cases hop : a.op K s with
    | none =>
      have hcall : AdmitterVisit.call K
          ⟨s, a, ((Admitters rnd K encode eventId).step s a).1⟩ = none := by
        unfold AdmitterVisit.call
        rw [hop]
      have hstore : ((Admitters rnd K encode eventId).step s a).2.store = s.store := by
        rw [step_of_none rnd encode hop]
      rw [hstore] at htrace hfinal
      refine ⟨ops, hreset, ?_, hfinal⟩
      rw [Machine.trace_cons, List.filterMap_cons_none hcall, htrace]
    | some op =>
      have hcall : AdmitterVisit.call K
          ⟨s, a, ((Admitters rnd K encode eventId).step s a).1⟩
            = some ⟨s.store, op, ((QueueService rnd eventId).step s.store op).1⟩ := by
        unfold AdmitterVisit.call
        rw [hop, step_of_op rnd encode hop]
      have hstore : ((Admitters rnd K encode eventId).step s a).2.store
          = ((QueueService rnd eventId).step s.store op).2 := by
        rw [step_of_op rnd encode hop]
      rw [hstore] at htrace hfinal
      refine ⟨op :: ops, fun hmem => ?_, ?_, hfinal⟩
      · rcases List.mem_cons.mp hmem with he | hmem
        · exact op_ne_reset (he ▸ hop)
        · exact hreset hmem
      · rw [Machine.trace_cons, List.filterMap_cons_some hcall, htrace]
        rfl

end Admitters

/-- Who waits in the store is who waits in the record. -/
theorem Holds.waiters_eq {eventId : String} {σ : Store} {v : EventState}
    (h : Holds eventId σ v) : waiters eventId σ = v.queue.entries := by
  unfold waiters
  rw [h.queue.zsetAt]

/-- **The batch of a tick**: the placements it pops are the front of the
queue, and its reply names their tokens. -/
theorem Holds.poppedFrom_eq (rnd : ℚ → ℚ) {eventId : String} {σ : Store} {v : EventState}
    (h : Holds eventId σ v) (now : ℤ) :
    poppedFrom eventId σ (v.step rnd eventId (.admitBatch now)).1
        = v.queue.popped (v.batch rnd now)
      ∧ (v.admitBatch rnd now).1.elim [] AdmissionBatch.admittedTokens
        = (v.queue.popped (v.batch rnd now)).map Prod.fst := by
  cases hc : v.config with
  | none =>
    have hbatch : v.batch rnd now = 0 := by simp only [EventState.batch, hc]
    rw [hbatch]
    simp only [EventState.step, EventState.admitBatch_of_unconfigured rnd hc]
    exact ⟨rfl, rfl⟩
  | some c =>
    obtain ⟨b, hb⟩ := EventState.admitBatch_eq rnd hc now
    have hlen := ZSet.length_popped_of_le (EventState.batch_le_card rnd v now)
    refine ⟨?_, by rw [hb]; rfl⟩
    simp only [EventState.step, hb]
    show (waiters eventId σ).take ((v.queue.popped _).map Prod.fst).length = _
    rw [h.waiters_eq, List.length_map, hlen]
    rfl
