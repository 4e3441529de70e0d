import QueueFair.EventRun

/-!
# The admission controller, among others

One tick of the controller is three steps: the batch script pops waiters, the
issuer signs a pass for each, and a pipeline parks the passes. Only the first
and the commands of the last touch the store, and between any two of them the
store serves whoever calls next. The system below has any number of
admitters, each with its own tick in progress, over one store; a step is one
call of one of them or of a client or an operator.

PyJWT's `encode` is a parameter: nothing here reads what it returns. The
`uuid4` of a pass is supplied with the step that signs it.
-/

open Redis

/-- The claims of an admission pass. -/
structure PassClaims where
  /-- The queue token. -/
  sub : String
  eventId : String
  jti : String
  /-- When the pass was issued, in Unix seconds. -/
  iat : ℤ
  /-- When the pass expires, in Unix seconds. -/
  exp : ℤ
deriving DecidableEq

/-- Signs admission passes. An empty secret is refused at construction. -/
structure Hs256PassIssuer where
  secret : String
  ttlSeconds : ℤ
  secret_ne : secret ≠ ""

/-- Sign one pass admitting a token to an event, valid for the configured
time. -/
def Hs256PassIssuer.issue (issuer : Hs256PassIssuer) (encode : PassClaims → String → String)
    (eventId queueToken : String) (nowSeconds : ℤ) (jti : String) : IssuedPass :=
  let expiresAt := nowSeconds + issuer.ttlSeconds
  let claims : PassClaims := ⟨queueToken, eventId, jti, nowSeconds, expiresAt⟩
  ⟨queueToken, encode claims issuer.secret, jti, expiresAt⟩

/-- Admits waiters for an event. -/
structure AdmissionController where
  issuer : Hs256PassIssuer
  passTtlSeconds : ℤ

/-- The controller a process runs: the issuer and the controller take one
lifetime from the settings. -/
def buildAdmissionController (secret : String) (h : secret ≠ "") (ttlSeconds : ℤ) :
    AdmissionController :=
  ⟨⟨secret, ttlSeconds, h⟩, ttlSeconds⟩

/-! ## A tick in progress -/

/-- Where an admitter stands in `admit_once`. -/
inductive Tick where
  /-- Between two ticks. -/
  | idle
  /-- The batch is popped, and no pass is signed. -/
  | popped (nowMs : ℤ) (admittedTokens : List String)
  /-- The passes are signed, and these are still to be parked. -/
  | recording (nowMs : ℤ) (passes : List IssuedPass)
deriving DecidableEq

namespace Tick

/-- After the batch script: an empty batch and an unknown event end the
tick. -/
def afterBatch (nowMs : ℤ) : Except Redis.Error Answer → Tick
  | .ok (.admitBatch (.ok (some batch))) =>
    if batch.admittedTokens = [] then .idle else .popped nowMs batch.admittedTokens
  | _ => .idle

/-- The passes of a batch, each with its own `jti`. -/
def sign (K : AdmissionController) (encode : PassClaims → String → String)
    (eventId : String) (jtis : List String) : Tick → Tick
  | .popped nowMs tokens =>
    if jtis.length = tokens.length then
      .recording nowMs (List.zipWith
        (fun t jti => K.issuer.issue encode eventId t (nowMs / 1000) jti) tokens jtis)
    else .popped nowMs tokens
  | tick => tick

/-- The next pass to park, with the reading its batch was popped at. -/
def next : Tick → Option (ℤ × IssuedPass)
  | .recording nowMs (p :: _) => some (nowMs, p)
  | _ => none

/-- After one command of the pipeline. -/
def afterPark : Tick → Tick
  | .recording _ [_] => .idle
  | .recording nowMs (_ :: ps) => .recording nowMs ps
  | tick => tick

end Tick

/-! ## The system -/

/-- The store, and where each admitter stands. -/
structure SystemState (ι : Type) where
  store : Store
  tick : ι → Tick

/-- One step of somebody. -/
inductive SystemAct (ι : Type) where
  | join (queueToken : String)
  | position (queueToken : String)
  | configure (options : QueueConfig)
  | wait (ms : ℕ)
  /-- An idle admitter runs the batch script. -/
  | admitBatch (i : ι) (nowMs : ℤ)
  /-- An admitter signs the passes of its batch. -/
  | sign (i : ι) (jtis : List String)
  /-- The next command of an admitter's pipeline. -/
  | park (i : ι)

variable {ι : Type} [DecidableEq ι]

/-- The operation a step asks of the store, if it asks one. -/
def SystemAct.op (K : AdmissionController) (s : SystemState ι) : SystemAct ι → Option EventOp
  | .join t => some (.join t)
  | .position t => some (.position t)
  | .configure c => some (.configure c)
  | .wait d => some (.wait d)
  | .admitBatch i nowMs => if s.tick i = .idle then some (.admitBatch nowMs) else none
  | .sign _ _ => none
  | .park i => (s.tick i).next.map (fun p => .recordAdmission p.2 K.passTtlSeconds)

/-- **What a step asks of the store**: the script is asked for by an idle
admitter only, and a pass is parked by one that has it next. -/
inductive SystemAct.Asks (K : AdmissionController) (s : SystemState ι) :
    SystemAct ι → EventOp → Prop
  | join (t : String) : Asks K s (.join t) (.join t)
  | position (t : String) : Asks K s (.position t) (.position t)
  | configure (c : QueueConfig) : Asks K s (.configure c) (.configure c)
  | wait (d : ℕ) : Asks K s (.wait d) (.wait d)
  | admitBatch {i : ι} (now : ℤ) (hidle : s.tick i = .idle) :
    Asks K s (.admitBatch i now) (.admitBatch now)
  | park {i : ι} {now : ℤ} {p : IssuedPass} (hnext : (s.tick i).next = some (now, p)) :
    Asks K s (.park i) (.recordAdmission p K.passTtlSeconds)

/-- The ticks after a step, given what the store answered. -/
def SystemAct.ticks (K : AdmissionController) (encode : PassClaims → String → String)
    (eventId : String) (tick : ι → Tick) :
    SystemAct ι → Option (Except Redis.Error Answer) → ι → Tick
  | .admitBatch i nowMs, some reply => Function.update tick i (.afterBatch nowMs reply)
  | .sign i jtis, _ => Function.update tick i ((tick i).sign K encode eventId jtis)
  | .park i, _ => Function.update tick i (tick i).afterPark
  | _, _ => tick

/-- **The queue service and its admitters.** -/
def AdmissionSystem (rnd : ℚ → ℚ) (K : AdmissionController)
    (encode : PassClaims → String → String) (eventId : String) :
    Machine (SystemState ι) (SystemAct ι) (Option (Except Redis.Error Answer)) :=
  ⟨fun s a =>
    match a.op K s with
    | some op =>
      let r := (QueueService rnd eventId).step s.store op
      (some r.1, ⟨r.2, a.ticks K encode eventId s.tick (some r.1)⟩)
    | none => (none, ⟨s.store, a.ticks K encode eventId s.tick none⟩)⟩

section Step

variable (rnd : ℚ → ℚ) {K : AdmissionController} (encode : PassClaims → String → String)
  {eventId : String} {s : SystemState ι} {a : SystemAct ι}

omit [DecidableEq ι] in
/-- A step asks what it does, and nothing else. -/
theorem AdmissionSystem.asks_of_op {op : EventOp} (hop : a.op K s = some op) :
    a.Asks K s op := by
  cases a with
  | join t =>
    obtain rfl := Option.some.inj hop
    exact .join t
  | position t =>
    obtain rfl := Option.some.inj hop
    exact .position t
  | configure c =>
    obtain rfl := Option.some.inj hop
    exact .configure c
  | wait d =>
    obtain rfl := Option.some.inj hop
    exact .wait d
  | admitBatch i now =>
    by_cases hidle : s.tick i = .idle
    · rw [SystemAct.op, if_pos hidle] at hop
      obtain rfl := Option.some.inj hop
      exact .admitBatch now hidle
    · rw [SystemAct.op, if_neg hidle] at hop
      exact nomatch hop
  | sign i jtis => exact nomatch hop
  | park i =>
    obtain ⟨⟨now, p⟩, hnext, rfl⟩ := Option.map_eq_some_iff.mp hop
    exact .park hnext

/-- A step that asks nothing of the store leaves it as it is. -/
theorem AdmissionSystem.step_of_none (hop : a.op K s = none) :
    (AdmissionSystem rnd K encode eventId).step s a
      = (none, ⟨s.store, a.ticks K encode eventId s.tick none⟩) := by
  simp only [AdmissionSystem, hop]

/-- A step that asks an operation of the store is served as the record is. -/
theorem AdmissionSystem.step_of_some {v : EventState} (hv : Holds eventId s.store v)
    {op : EventOp} (hop : a.op K s = some op) :
    ∃ σ', Holds eventId σ' (v.step rnd eventId op).2
      ∧ (AdmissionSystem rnd K encode eventId).step s a
        = (some (v.step rnd eventId op).1, ⟨σ', a.ticks K encode eventId s.tick
            (some (v.step rnd eventId op).1)⟩) := by
  obtain ⟨σ', hrun, hσ'⟩ := hv.serve rnd op
  have hstep : (QueueService rnd eventId).step s.store op = _ := hrun
  refine ⟨σ', hσ', ?_⟩
  simp only [AdmissionSystem, hop, hstep]

end Step

/-! ## What a tick keeps -/

/-- Every pass waiting to be parked expires a lifetime after its batch was
popped. -/
def Tick.Dated (K : AdmissionController) (tick : Tick) : Prop :=
  ∀ nowMs ps, tick = .recording nowMs ps →
    ∀ p ∈ ps, p.expiresAt = nowMs / 1000 + K.issuer.ttlSeconds

namespace Tick

variable {K : AdmissionController}

/-- The next pass to park is dated. -/
theorem Dated.next {tick : Tick} (h : tick.Dated K) {now : ℤ} {p : IssuedPass}
    (hnext : tick.next = some (now, p)) :
    p.expiresAt = now / 1000 + K.issuer.ttlSeconds := by
  unfold Tick.next at hnext
  split at hnext
  · obtain ⟨rfl, rfl⟩ := Prod.mk.inj (Option.some.inj hnext)
    exact h _ _ rfl _ List.mem_cons_self
  · exact absurd hnext (by simp)

theorem dated_idle : (idle).Dated K := fun _ _ h => nomatch h

theorem dated_afterBatch (nowMs : ℤ) (reply : Except Redis.Error Answer) :
    (afterBatch nowMs reply).Dated K := by
  intro now ps h
  unfold afterBatch at h
  split at h
  · split at h <;> exact nomatch h
  · exact nomatch h

theorem Dated.sign {tick : Tick} (h : tick.Dated K) (encode : PassClaims → String → String)
    (eventId : String) (jtis : List String) : (tick.sign K encode eventId jtis).Dated K := by
  cases tick with
  | idle => exact h
  | recording now ps => exact h
  | popped now tokens =>
    unfold Tick.sign
    dsimp only
    by_cases hlen : jtis.length = tokens.length
    · rw [if_pos hlen]
      intro now' ps he p hp
      obtain ⟨rfl, rfl⟩ := Tick.recording.inj he
      obtain ⟨i, hi, rfl⟩ := List.getElem_of_mem hp
      rw [List.getElem_zipWith]
      rfl
    · rw [if_neg hlen]
      exact fun _ _ h => nomatch h

theorem Dated.afterPark {tick : Tick} (h : tick.Dated K) : tick.afterPark.Dated K := by
  unfold Tick.afterPark
  split
  · exact dated_idle
  · intro now ps he p hp
    obtain ⟨rfl, rfl⟩ := Tick.recording.inj he
    exact h _ _ rfl p (List.mem_cons_of_mem _ hp)
  · exact h

end Tick

/-- Whatever happens, passes waiting to be parked stay dated. -/
theorem SystemAct.ticks_dated {K : AdmissionController} {tick : ι → Tick}
    (h : ∀ i, (tick i).Dated K) (encode : PassClaims → String → String) (eventId : String)
    (a : SystemAct ι) (r : Option (Except Redis.Error Answer)) (i : ι) :
    (a.ticks K encode eventId tick r i).Dated K := by
  have hupd : ∀ (j : ι) (t : Tick), t.Dated K → (Function.update tick j t i).Dated K := by
    intro j t ht
    by_cases hij : i = j
    · rw [hij, Function.update_self]
      exact ht
    · rw [Function.update_of_ne hij]
      exact h i
  unfold SystemAct.ticks
  split
  · exact hupd _ _ (Tick.dated_afterBatch _ _)
  · exact hupd _ _ ((h _).sign encode eventId _)
  · exact hupd _ _ (h _).afterPark
  · exact h i
