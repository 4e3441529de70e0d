import QueueFair.Isolation
import QueueFair.Json
import QueueFair.Rendering

/-!
# The store keeps texts

What is parked for an admitted waiter is an object in the model of the store,
and a text in the store: `record_admissions` parks what `json.dumps` makes of
a dictionary, and `position` answers what `json.loads` makes of that text.
The repository of this module keeps texts, as the service does. It renders the
one that keeps objects (`renders_serve`), since a pass is read back as it was
parked (`Admission.loads_text`), so whatever the service answers in a run over
objects it answers in the run over texts (`TextService.trace_eq`).
-/

open Redis

/-! ## The text of an admission -/

/-- What is parked for a waiter, as `record_admissions` writes it down. -/
def Admission.json (a : Admission) : Json :=
  .obj [("pass", .str a.pass), ("expires_at", .num a.expiresAt), ("book_url", .str a.bookUrl)]

/-- The text that is parked. -/
def Admission.text (a : Admission) : String := a.json.dumps

theorem Admission.distinct_json (a : Admission) : a.json.Distinct := by
  refine .obj (by decide : ["pass", "expires_at", "book_url"].Nodup) (fun f hf => ?_)
  rcases List.mem_cons.mp hf with rfl | hf
  · exact .str _
  rcases List.mem_cons.mp hf with rfl | hf
  · exact .num _
  rcases List.mem_cons.mp hf with rfl | hf
  · exact .str _
  · exact absurd hf List.not_mem_nil

/-- **What is parked is read back.** -/
theorem Admission.loads_text (a : Admission) : Json.loads a.text = some a.json :=
  Json.loads_dumps a.distinct_json

/-- The store of the queue service, which keeps texts. -/
abbrev TextStore := Keyspace String

/-- A store of objects, with each of them written down. -/
def Redis.Keyspace.written (σ : Store) : TextStore := σ.map Admission.text

/-! ## The repository -/

/-- What a position call returns, the pass as it is read off its text. -/
inductive TextStanding where
  | waiting (outcome : PositionOutcome)
  | admitted (outcome : AdmittedOutcome Json)

/-- A standing, with its pass read off the text. -/
def Standing.written : Standing → TextStanding
  | .waiting outcome => .waiting outcome
  | .admitted outcome =>
    .admitted ⟨outcome.admission.json, outcome.totalWaiting, outcome.admittedTotal⟩

namespace TextRepository

/-- Place a token in an event's queue, or return the place it already holds;
`none` if the event is not configured. -/
def join (eventId queueToken : String) :
    Redis String (Except QueueError (Option JoinOutcome)) := do
  let keys : EventKeys := ⟨eventId⟩
  match ← joinLua keys.queue keys.seq keys.admitted keys.config queueToken with
  | .array (.int 0 :: _) => return .ok none
  | .array [_, .int sequence, .int joined, .int totalWaiting, .int admittedTotal,
      .int ratePerMin] =>
    return .ok (some { sequence, joined := joined ≠ 0, totalWaiting, admittedTotal, ratePerMin })
  | _ => return .error .valueError

/-- Where a token stands: still waiting, or admitted with a pass waiting. A text
that does not parse is a `ValueError` too. -/
def position (eventId queueToken : String) :
    Redis String (Except QueueError TextStanding) := do
  let keys : EventKeys := ⟨eventId⟩
  match ← positionLua keys.queue keys.admitted keys.config (keys.passFor queueToken)
      queueToken with
  | .array (.int 0 :: _) => return .error (.unknownEvent eventId)
  | .array (.int 1 :: _) => return .error (.unknownToken queueToken)
  | .array [.int 3, .bulk (.blob admissionJson), .int totalWaiting, .int admittedTotal] =>
    return (Json.loads admissionJson).elim (.error .valueError)
      (fun admission => .ok (.admitted ⟨admission, totalWaiting, admittedTotal⟩))
  | .array (.int 3 :: _) => return .error .valueError
  | .array [_, .int position, .int totalWaiting, .int admittedTotal, .int ratePerMin] =>
    return .ok (.waiting { position, totalWaiting, admittedTotal, ratePerMin })
  | _ => return .error .valueError

/-- The members of a flat ZPOPMIN reply: every second string of it. -/
def members : List (Reply String) → Option (List String)
  | [] => some []
  | .bulk (.word m) :: _ :: rest => (members rest).map (fun ms => m :: ms)
  | _ => none

/-- Consume rate budget and pop that many waiters off the front; `none` if
the event is not configured. -/
def admitBatch (rnd : ℚ → ℚ) (eventId : String) (nowMs : ℤ) :
    Redis String (Except QueueError (Option AdmissionBatch)) := do
  let keys : EventKeys := ⟨eventId⟩
  match ← admitBatchLua rnd keys.queue keys.admitted keys.bucket keys.config nowMs with
  | .array (.int 0 :: _) => return .ok none
  | .array [_, .int count, .int admittedTotal, .array popped] =>
    match members popped with
    | some admittedTokens =>
      if (admittedTokens.length : ℤ) = count then
        return .ok (some { admittedTokens, admittedTotal })
      else return .error (.assertionError "script reported a count its pop did not match")
    | none => return .error .valueError
  | _ => return .error .valueError

/-- One SET of the pipeline of `record_admissions`. -/
def recordAdmission (eventId : String) (issued : IssuedPass) (ttlSeconds : ℤ) :
    Redis String Unit :=
  SETEX ((⟨eventId⟩ : EventKeys).passFor issued.queueToken)
    (.blob (RedisQueueRepository.payload eventId issued).json.dumps) ttlSeconds

/-- The `--reset` of `create_event`. -/
def reset (eventId : String) : Redis String Unit :=
  let keys : EventKeys := ⟨eventId⟩
  DEL [keys.queue, keys.seq, keys.admitted, keys.bucket]

/-- The write of `create_event`. -/
def configure (eventId : String) (options : QueueConfig) : Redis String Unit :=
  let keys : EventKeys := ⟨eventId⟩
  HSET keys.config [("rate_per_min", .num options.ratePerMin),
    ("burst", .num options.burst), ("batch_max", .num options.batchMax)]

end TextRepository

/-- What an operation returns to its caller. -/
inductive TextAnswer where
  | join (outcome : Except QueueError (Option JoinOutcome))
  | position (outcome : Except QueueError TextStanding)
  | admitBatch (outcome : Except QueueError (Option AdmissionBatch))
  | done

/-- An answer, with a pass read off its text. -/
def Answer.written : Answer → TextAnswer
  | .join outcome => .join outcome
  | .position outcome => .position (outcome.map Standing.written)
  | .admitBatch outcome => .admitBatch outcome
  | .done => .done

/-- An operation on the store of texts. -/
def EventOp.serveText (rnd : ℚ → ℚ) (eventId : String) : EventOp → Redis String TextAnswer
  | join t => do return .join (← TextRepository.join eventId t)
  | position t => do return .position (← TextRepository.position eventId t)
  | admitBatch now => do return .admitBatch (← TextRepository.admitBatch rnd eventId now)
  | configure c => do TextRepository.configure eventId c; return .done
  | reset => do TextRepository.reset eventId; return .done
  | recordAdmission p ttl => do
    TextRepository.recordAdmission eventId p ttl
    return .done
  | wait d => fun σ => (.ok .done, σ.wait d)

/-! ## The scripts render themselves -/

section Scripts

variable {P Q : Type} (f : P → Q)

theorem counterValue_map (c : Option (Cell P)) :
    counterValue (c.map (Cell.map f)) = counterValue c := by
  unfold counterValue
  cases c with
  | none => rfl
  | some c => exact c.tonumber_map f

theorem tonumberOrZero_map (c : Option (Cell P)) :
    tonumberOrZero (c.map (Cell.map f)) = tonumberOrZero c := by
  unfold tonumberOrZero
  cases c with
  | none => rfl
  | some c => exact congrArg (Option.getD · 0) (c.tonumber_map f)

theorem readBucket_map (tokens lastRefill : Option (Cell P)) (burst now : ℚ) :
    readBucket (tokens.map (Cell.map f)) (lastRefill.map (Cell.map f)) burst now
      = readBucket tokens lastRefill burst now := by
  have hbind : ∀ c : Option (Cell P),
      (c.map (Cell.map f)).bind Cell.tonumber = c.bind Cell.tonumber := by
    intro c
    cases c with
    | none => rfl
    | some c => exact c.tonumber_map f
  unfold readBucket
  rw [hbind, hbind]

/-- A list of replies, at an index. -/
theorem getD_map_cells (cs : List (Option (Cell P))) (n : ℕ) :
    (cs.map (Option.map (Cell.map f))).getD n none = (cs.getD n none).map (Cell.map f) := by
  rw [List.getD_eq_getElem?_getD, List.getD_eq_getElem?_getD, List.getElem?_map]
  cases cs[n]? <;> rfl

theorem map_flatReply (popped : List (String × ℤ)) :
    (flatReply popped : Reply P).map f = flatReply popped := by
  unfold flatReply
  rw [Reply.map_array, List.map_flatMap]
  rfl

/-- A table without serialised objects renders itself. -/
theorem renders_table {xs : List (Option (Reply P))} {ys : List (Option (Reply Q))}
    (h : xs.map (Option.map (Reply.map f)) = ys) :
    Renders f (Reply.map f) (pure (Reply.table xs)) (pure (Reply.table ys)) := by
  rw [← h, ← Reply.map_table]
  exact renders_pure _ _

variable (queue seq admitted bucket config pass : String)

theorem renders_joinLua (t : String) : Renders f (Reply.map f)
    (joinLua queue seq admitted config t) (joinLua queue seq admitted config t) := by
  have hfigures : ∀ s j : ℤ, Renders f (Reply.map f)
      (do
        let total ← GET admitted
        let rate ← HGET config "rate_per_min"
        let waiting ← ZCARD queue
        return .table [some (.int 1), some (.int s), some (.int j),
          some (.int waiting), (counterValue total).map .number,
          (counterValue rate).map .number])
      (do
        let total ← GET admitted
        let rate ← HGET config "rate_per_min"
        let waiting ← ZCARD queue
        return .table [some (.int 1), some (.int s), some (.int j),
          some (.int waiting), (counterValue total).map .number,
          (counterValue rate).map .number]) := by
    intro s j
    refine (renders_GET f admitted).bind (fun total => (renders_HGET f config _).bind
      (fun rate => (renders_ZCARD f queue).bind (fun waiting => renders_table f ?_)))
    rw [counterValue_map, counterValue_map]
    simp [Reply.map, Function.comp_def]
  unfold joinLua
  refine (renders_EXISTS f config).bind (fun n => ?_)
  rw [id]
  split
  · exact renders_table f rfl
  · refine (renders_ZSCORE f queue t).bind (fun score => ?_)
    cases score with
    | some s => exact (renders_pure id (s, (0 : ℤ))).bind (fun p => hfigures p.1 p.2)
    | none =>
      exact (renders_INCR f seq).bind (fun s => (renders_ZADD f queue s t).bind
        (fun _ => (renders_pure id (s, (1 : ℤ))).bind (fun p => hfigures p.1 p.2)))

theorem renders_positionLua (t : String) : Renders f (Reply.map f)
    (positionLua queue admitted config pass t) (positionLua queue admitted config pass t) := by
  unfold positionLua
  refine (renders_EXISTS f config).bind (fun n => ?_)
  rw [id]
  split
  · exact renders_table f rfl
  · refine (renders_ZRANK f queue t).bind (fun rank => ?_)
    cases rank with
    | none =>
      refine (renders_GET f pass).bind (fun admission => ?_)
      cases admission with
      | none => exact renders_table f rfl
      | some a =>
        refine (renders_ZCARD f queue).bind (fun waiting => (renders_GET f admitted).bind
          (fun total => renders_table f ?_))
        rw [counterValue_map]
        simp [Reply.map, Function.comp_def]
    | some r =>
      refine (renders_GET f admitted).bind (fun total => (renders_HGET f config _).bind
        (fun rate => (renders_ZCARD f queue).bind (fun waiting => renders_table f ?_)))
      rw [counterValue_map, counterValue_map]
      simp [Reply.map, Function.comp_def]

theorem renders_admitBatchLua (rnd : ℚ → ℚ) (nowMs : ℤ) : Renders f (Reply.map f)
    (admitBatchLua rnd queue admitted bucket config nowMs)
    (admitBatchLua rnd queue admitted bucket config nowMs) := by
  unfold admitBatchLua
  refine (renders_EXISTS f config).bind (fun n => ?_)
  rw [id]
  split
  · exact renders_table f rfl
  · refine (renders_HMGET f config _).bind (fun cfg => ?_)
    simp only [getD_map_cells, tonumberOrZero_map]
    split
    · refine (renders_GET f admitted).bind (fun total => renders_table f ?_)
      rw [counterValue_map]
      simp [Reply.map, map_flatReply, Function.comp_def]
    · refine (renders_HMGET f bucket _).bind (fun state => (renders_ZCARD f queue).bind
        (fun waiting => ?_))
      simp only [getD_map_cells, readBucket_map, id]
      refine (renders_HSET f bucket _).bind (fun _ => ?_)
      split
      · refine (renders_GET f admitted).bind (fun total => renders_table f ?_)
        rw [counterValue_map]
        simp [Reply.map, map_flatReply, Function.comp_def]
      · refine (renders_ZPOPMIN f queue _).bind (fun popped => (renders_INCRBY f admitted _).bind
          (fun total => renders_table f ?_))
        simp [Reply.map, map_flatReply]

end Scripts

/-! ## The repository renders the one of objects -/

section Shapes

variable {P Q : Type} {f : P → Q} {r : Reply P} {n : ℤ}

theorem map_eq_int : r.map f = .int n ↔ r = .int n := by
  cases r <;> simp [Reply.map]

theorem map_eq_ints {rs : List (Reply P)} {ns : List ℤ} :
    rs.map (Reply.map f) = ns.map Reply.int ↔ rs = ns.map Reply.int := by
  induction rs generalizing ns with
  | nil => cases ns <;> simp
  | cons r rs ih => cases ns <;> simp [map_eq_int, ih]

/-- A rendered reply is a table if the reply is. -/
theorem exists_of_map_eq_array {ys : List (Reply Q)} (h : r.map f = .array ys) :
    ∃ xs, r = .array xs ∧ xs.map (Reply.map f) = ys := by
  cases r with
  | int n => exact nomatch h
  | bulk c => exact nomatch h
  | array xs =>
    rw [Reply.map_array] at h
    exact ⟨xs, rfl, Reply.array.inj h⟩

/-- Such a table starts with the status the reply starts with. -/
theorem exists_of_map_eq_status {ys : List (Reply Q)} (h : r.map f = .array (.int n :: ys)) :
    ∃ xs, r = .array (.int n :: xs) := by
  obtain ⟨xs, rfl, hxs⟩ := exists_of_map_eq_array h
  obtain ⟨x, xs, rfl, hx, -⟩ := List.map_eq_cons_iff.mp hxs
  exact ⟨xs, by rw [map_eq_int.mp hx]⟩

theorem head_of_map_eq {x : Reply P} {xs : List (Reply P)} {ys : List (Reply Q)}
    (h : (Reply.array (x :: xs)).map f = .array (.int n :: ys)) : x = .int n := by
  obtain ⟨zs, hzs⟩ := exists_of_map_eq_status h
  exact (List.cons.inj (Reply.array.inj hzs)).1

/-- And it holds the figures the reply holds. -/
theorem exists_of_map_eq_figures {y : Reply Q} (ns : List ℤ)
    (h : r.map f = .array (y :: ns.map Reply.int)) :
    ∃ x, r = .array (x :: ns.map Reply.int) ∧ x.map f = y := by
  obtain ⟨xs, rfl, hxs⟩ := exists_of_map_eq_array h
  obtain ⟨x, xs, rfl, hx, hxs⟩ := List.map_eq_cons_iff.mp hxs
  exact ⟨x, by rw [map_eq_ints.mp hxs], hx⟩

/-- And the batch the reply holds. -/
theorem exists_of_map_eq_batch {y : Reply Q} {m : ℤ} {ys : List (Reply Q)}
    (h : r.map f = .array [y, .int n, .int m, .array ys]) :
    ∃ x xs, r = .array [x, .int n, .int m, .array xs] ∧ xs.map (Reply.map f) = ys := by
  obtain ⟨rs, rfl, hrs⟩ := exists_of_map_eq_array h
  obtain ⟨x, rs₁, rfl, -, h₁⟩ := List.map_eq_cons_iff.mp hrs
  obtain ⟨a, rs₂, rfl, ha, h₂⟩ := List.map_eq_cons_iff.mp h₁
  obtain ⟨b, rs₃, rfl, hb, h₃⟩ := List.map_eq_cons_iff.mp h₂
  obtain ⟨c, rs₄, rfl, hc, h₄⟩ := List.map_eq_cons_iff.mp h₃
  obtain ⟨xs, rfl, hxs⟩ := exists_of_map_eq_array hc
  obtain rfl := List.map_eq_nil_iff.mp h₄
  rw [map_eq_int.mp ha, map_eq_int.mp hb]
  exact ⟨x, xs, rfl, hxs⟩

/-- And the object the reply holds, rendered. -/
theorem exists_of_map_eq_object {q : Q} (ns : List ℤ)
    (h : r.map f = .array (.int n :: .bulk (.blob q) :: ns.map Reply.int)) :
    ∃ p, r = .array (.int n :: .bulk (.blob p) :: ns.map Reply.int) ∧ f p = q := by
  obtain ⟨xs, rfl, hxs⟩ := exists_of_map_eq_array h
  obtain ⟨x, xs, rfl, hx, hxs⟩ := List.map_eq_cons_iff.mp hxs
  obtain ⟨y, xs, rfl, hy, hxs⟩ := List.map_eq_cons_iff.mp hxs
  rw [map_eq_int.mp hx, map_eq_ints.mp hxs]
  cases y with
  | int n => exact nomatch hy
  | array ys => exact nomatch hy
  | bulk c =>
    cases c with
    | num q => exact nomatch hy
    | word s => exact nomatch hy
    | blob p => exact ⟨p, rfl, by injection hy with hy; injection hy⟩

end Shapes

theorem renders_join (eventId t : String) : Renders Admission.text id
    (RedisQueueRepository.join eventId t) (TextRepository.join eventId t) := by
  refine Renders.bind (renders_joinLua _ _ _ _ _ t) (fun r => ?_)
  split
  · exact renders_pure _ _
  · next x s j w a n hx =>
    split
    · next h => exact absurd (head_of_map_eq h) hx
    · next y s' j' w' a' n' _ h =>
      obtain ⟨z, hz, -⟩ := exists_of_map_eq_figures [s', j', w', a', n'] h
      cases hz
      exact renders_pure _ _
    · next h => exact absurd rfl (h _ _ _ _ _ _)
  · next hzero hfigures =>
    split
    · next h =>
      obtain ⟨xs, hxs⟩ := exists_of_map_eq_status h
      exact absurd hxs (hzero xs)
    · next y s j w a n _ h =>
      obtain ⟨x, hx, -⟩ := exists_of_map_eq_figures [s, j, w, a, n] h
      exact absurd hx (hfigures _ _ _ _ _ _)
    · exact renders_pure _ _

/-- **A pass is read off its text as it was parked.** -/
theorem renders_position (eventId t : String) :
    Renders Admission.text (Except.map Standing.written)
      (RedisQueueRepository.position eventId t) (TextRepository.position eventId t) := by
  refine Renders.bind (renders_positionLua _ _ _ _ _ t) (fun r => ?_)
  split
  · exact renders_pure _ _
  · exact renders_pure _ _
  · next a w n =>
    simp only [Reply.map, Reply.mapAll, Cell.map, Admission.loads_text]
    exact renders_pure _ _
  · next xs hobject =>
    split
    · next h => exact absurd (head_of_map_eq h) (by simp)
    · next h => exact absurd (head_of_map_eq h) (by simp)
    · next q w n h =>
      obtain ⟨a, ha, -⟩ := exists_of_map_eq_object [w, n] h
      exact absurd (List.cons.inj (Reply.array.inj ha)).2 (hobject _ _ _)
    · exact renders_pure _ _
    · next y p w a n _ _ hthree h =>
      obtain ⟨x, hx, hy⟩ := exists_of_map_eq_figures [p, w, a, n] h
      exact absurd ((List.cons.inj (Reply.array.inj hx)).1 ▸ hy).symm hthree
    · exact renders_pure _ _
  · next x p w a n hzero hone hthree =>
    split
    · next h => exact absurd (head_of_map_eq h) hzero
    · next h => exact absurd (head_of_map_eq h) hone
    · next h => exact absurd (head_of_map_eq h) hthree
    · next h => exact absurd (head_of_map_eq h) hthree
    · next y p' w' a' n' _ _ _ h =>
      obtain ⟨z, hz, -⟩ := exists_of_map_eq_figures [p', w', a', n'] h
      cases hz
      exact renders_pure _ _
    · next h => exact absurd rfl (h _ _ _ _ _)
  · next hzero hone hobject hthree hfigures =>
    split
    · next h =>
      obtain ⟨xs, hxs⟩ := exists_of_map_eq_status h
      exact absurd hxs (hzero xs)
    · next h =>
      obtain ⟨xs, hxs⟩ := exists_of_map_eq_status h
      exact absurd hxs (hone xs)
    · next q w n h =>
      obtain ⟨a, ha, -⟩ := exists_of_map_eq_object [w, n] h
      exact absurd ha (hobject _ _ _)
    · exact renders_pure _ _
    · next y p w a n _ _ _ h =>
      obtain ⟨x, hx, -⟩ := exists_of_map_eq_figures [p, w, a, n] h
      exact absurd hx (hfigures _ _ _ _ _)
    · exact renders_pure _ _

theorem members_map (xs : List (Reply Admission)) :
    TextRepository.members (xs.map (Reply.map Admission.text))
      = RedisQueueRepository.members xs := by
  induction xs using RedisQueueRepository.members.induct with
  | case1 => rfl
  | case2 m x rest ih =>
    show (TextRepository.members (rest.map _)).map _ = (RedisQueueRepository.members rest).map _
    rw [ih]
  | case3 xs hnil hmember =>
    match xs with
    | [] => exact absurd rfl hnil
    | .int _ :: _ | .array _ :: _ | .bulk (.num _) :: _ | .bulk (.blob _) :: _
    | [.bulk (.word _)] => rfl
    | .bulk (.word m) :: x :: rest => exact absurd rfl (hmember m x rest)

theorem renders_admitBatch (rnd : ℚ → ℚ) (eventId : String) (nowMs : ℤ) :
    Renders Admission.text id (RedisQueueRepository.admitBatch rnd eventId nowMs)
      (TextRepository.admitBatch rnd eventId nowMs) := by
  refine Renders.bind (renders_admitBatchLua _ _ _ _ _ rnd nowMs) (fun r => ?_)
  split
  · exact renders_pure _ _
  · next x count total popped hx =>
    -- the reply that is rendered is taken apart first
    refine (?_ : ∀ left : Redis Admission _, left = _ → Renders _ _ left _) _ rfl
    intro left hleft
    split
    · next h => exact absurd (head_of_map_eq h) hx
    · next y count' total' popped' _ h =>
      obtain ⟨z, zs, hz, hzs⟩ := exists_of_map_eq_batch h
      cases hz
      rw [hleft, ← hzs, members_map]
      cases RedisQueueRepository.members popped with
      | none => exact renders_pure _ _
      | some tokens =>
        show Renders _ _ (if _ then _ else _) (if _ then _ else _)
        split <;> exact renders_pure _ _
    · next h => exact absurd (Reply.map_array _ _) (h _ _ _ _)
  · next hzero hbatch =>
    split
    · next h =>
      obtain ⟨xs, hxs⟩ := exists_of_map_eq_status h
      exact absurd hxs (hzero xs)
    · next h =>
      obtain ⟨x, xs, hx, -⟩ := exists_of_map_eq_batch h
      exact absurd hx (hbatch _ _ _ _)
    · exact renders_pure _ _

theorem renders_configure (eventId : String) (c : QueueConfig) : Renders Admission.text id
    (CreateEvent.configure eventId c) (TextRepository.configure eventId c) :=
  renders_HSET _ _ _

theorem renders_reset (eventId : String) : Renders Admission.text id
    (CreateEvent.reset eventId) (TextRepository.reset eventId) :=
  renders_DEL _ _

/-- **An operation on texts renders the operation on objects.** -/
theorem renders_serve (rnd : ℚ → ℚ) (eventId : String) (op : EventOp) :
    Renders Admission.text Answer.written (op.serve rnd eventId) (op.serveText rnd eventId) := by
  cases op with
  | join t => exact (renders_join eventId t).bind (fun _ => renders_pure _ _)
  | position t => exact (renders_position eventId t).bind (fun _ => renders_pure _ _)
  | admitBatch now => exact (renders_admitBatch rnd eventId now).bind (fun _ => renders_pure _ _)
  | configure c => exact (renders_configure eventId c).bind (fun _ => renders_pure _ _)
  | reset => exact (renders_reset eventId).bind (fun _ => renders_pure _ _)
  | recordAdmission p ttl =>
    exact (renders_SETEX _ _ _ ttl).bind (fun _ => renders_pure _ _)
  | wait d => exact fun _ => rfl

/-! ## Runs -/

/-- **The server of all events**, as it keeps texts. -/
def TextServer (rnd : ℚ → ℚ) :
    Machine TextStore (String × EventOp) (Except Redis.Error TextAnswer) :=
  ⟨fun σ a => (a.2.serveText rnd a.1).run σ⟩

theorem TextServer.step_written (rnd : ℚ → ℚ) (σ : Store) (a : String × EventOp) :
    (TextServer rnd).step σ.written a
      = (((QueueServer rnd).step σ a).1.map Answer.written,
        ((QueueServer rnd).step σ a).2.written) :=
  renders_serve rnd a.1 a.2 σ

/-- **The service over texts answers as the service over objects**: in every run
of operations on any events, from any store, each operation is answered the
same, a pass being read off its text as it was parked, and the store ends up
written down as the other ends up. -/
theorem texts_answer_as_objects (rnd : ℚ → ℚ) (σ : Store) (ops : List (String × EventOp)) :
    ((TextServer rnd).trace σ.written ops).map Visit.reply
        = ((QueueServer rnd).trace σ ops).map (fun x => x.reply.map Answer.written)
      ∧ (TextServer rnd).final σ.written ops = ((QueueServer rnd).final σ ops).written := by
  constructor
  · have hrun := @Machine.trace_simulation _ _ _ (QueueServer rnd) _ _ _ _ (TextServer rnd)
      (fun τ τ' => τ' = τ.written) id (fun x => x.reply.map Answer.written) Visit.reply
      (fun τ τ' a h => ?_) σ σ.written rfl ops
    · rw [List.map_id] at hrun
      exact hrun.symm
    · subst h
      rw [id, TextServer.step_written]
      exact ⟨rfl, rfl⟩
  · induction ops generalizing σ with
    | nil => rfl
    | cons a ops ih =>
      show (TextServer rnd).final ((TextServer rnd).step σ.written a).2 ops = _
      rw [TextServer.step_written]
      exact ih _
