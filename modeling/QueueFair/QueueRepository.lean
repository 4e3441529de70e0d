import QueueFair.EventKeys
import QueueFair.QueueState
import QueueFair.LuaScripts

/-!
# The queue repository

The methods of `RedisQueueRepository`, the step of its pipeline that parks
one pass, and what `create_event` writes. A method calls one script and takes
its reply apart; a reply of a shape it does not expect is a `ValueError`.

The payload parked for a waiter is serialised to text and back. The text is
kept as the object it spells, so a store is a `Keyspace Admission`.
-/

open Redis

/-- The store of the queue service. -/
abbrev Store := Keyspace Admission

/-- The exceptions a method raises itself. -/
inductive QueueError where
  /-- No queue is configured for this event id. -/
  | unknownEvent (eventId : String)
  /-- The event exists, but this token holds no place in it. -/
  | unknownToken (queueToken : String)
  /-- The repository's own assertion. -/
  | assertionError (message : String)
  /-- A reply that does not unpack. -/
  | valueError
deriving DecidableEq

/-- What a position call returns: still waiting, or admitted. -/
inductive Standing where
  | waiting (outcome : PositionOutcome)
  | admitted (outcome : AdmittedOutcome)
deriving DecidableEq

/-- An event's queue configuration, as an operator writes it. -/
structure QueueConfig where
  ratePerMin : ℤ
  burst : ℤ
  batchMax : ℤ
deriving DecidableEq

namespace RedisQueueRepository

/-- Place a token in an event's queue, or return the place it already holds;
`none` if the event is not configured. -/
def join (eventId queueToken : String) :
    Redis Admission (Except QueueError (Option JoinOutcome)) := do
  let keys : EventKeys := ⟨eventId⟩
  match ← joinLua keys.queue keys.seq keys.admitted keys.config queueToken with
  | .array (.int 0 :: _) => return .ok none
  | .array [_, .int sequence, .int joined, .int totalWaiting, .int admittedTotal,
      .int ratePerMin] =>
    return .ok (some { sequence, joined := joined ≠ 0, totalWaiting, admittedTotal, ratePerMin })
  | _ => return .error .valueError

/-- Where a token stands: still waiting, or admitted with a pass waiting. -/
def position (eventId queueToken : String) :
    Redis Admission (Except QueueError Standing) := do
  let keys : EventKeys := ⟨eventId⟩
  match ← positionLua keys.queue keys.admitted keys.config (keys.passFor queueToken)
      queueToken with
  | .array (.int 0 :: _) => return .error (.unknownEvent eventId)
  | .array (.int 1 :: _) => return .error (.unknownToken queueToken)
  | .array [.int 3, .bulk (.blob admission), .int totalWaiting, .int admittedTotal] =>
    return .ok (.admitted { admission, totalWaiting, admittedTotal })
  | .array (.int 3 :: _) => return .error .valueError
  | .array [_, .int position, .int totalWaiting, .int admittedTotal, .int ratePerMin] =>
    return .ok (.waiting { position, totalWaiting, admittedTotal, ratePerMin })
  | _ => return .error .valueError

/-- The members of a flat ZPOPMIN reply: every second string of it. -/
def members : List (Reply Admission) → Option (List String)
  | [] => some []
  | .bulk (.word m) :: _ :: rest => (members rest).map (fun ms => m :: ms)
  | _ => none

/-- Consume rate budget and pop that many waiters off the front; `none` if
the event is not configured. -/
def admitBatch (rnd : ℚ → ℚ) (eventId : String) (nowMs : ℤ) :
    Redis Admission (Except QueueError (Option AdmissionBatch)) := do
  let keys : EventKeys := ⟨eventId⟩
  match ← admitBatchLua rnd keys.queue keys.admitted keys.bucket keys.config nowMs with
  | .array (.int 0 :: _) => return .ok none
  | .array [_, .int count, .int admittedTotal, .array popped] =>
    match members popped with
    | some admittedTokens =>
      if (admittedTokens.length : ℤ) = count then
        return .ok (some { admittedTokens, admittedTotal })
      else return .error (.assertionError "script reported a count its pop did not match")
    | none => return .error .valueError
  | _ => return .error .valueError

/-- What is parked for the holder of a pass. -/
def payload (eventId : String) (issued : IssuedPass) : Admission where
  pass := issued.jwt
  expiresAt := issued.expiresAt
  bookUrl := "/events/" ++ eventId ++ "/book"

/-- One SET of the pipeline of `record_admissions`: park a pass where its
holder can collect it, for as long as it is said to live. The pipeline is not
a transaction, so each SET is a step of its own. -/
def recordAdmission (eventId : String) (issued : IssuedPass) (ttlSeconds : ℤ) :
    Redis Admission Unit :=
  SETEX ((⟨eventId⟩ : EventKeys).passFor issued.queueToken)
    (.blob (payload eventId issued)) ttlSeconds

end RedisQueueRepository

namespace CreateEvent

/-- The `--reset` of `create_event`: one DEL of the queue state. -/
def reset (eventId : String) : Redis Admission Unit :=
  let keys : EventKeys := ⟨eventId⟩
  DEL [keys.queue, keys.seq, keys.admitted, keys.bucket]

/-- The write of `create_event`: the configuration, in place. -/
def configure (eventId : String) (options : QueueConfig) : Redis Admission Unit :=
  let keys : EventKeys := ⟨eventId⟩
  HSET keys.config [("rate_per_min", .num options.ratePerMin),
    ("burst", .num options.burst), ("batch_max", .num options.batchMax)]

end CreateEvent
