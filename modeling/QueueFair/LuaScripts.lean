import QueueFair.Redis
import Mathlib.Order.Lattice

/-!
# The three scripts

`join.lua`, `position.lua` and `admit_batch.lua`, command by command. Each is
one atomic step of the server. `KEYS` and `ARGV` are arguments under the
names the scripts' headers give them.

A Lua number is a double: the bucket arithmetic of `admit_batch.lua` rounds
after every operation, by `rnd`, and is exact where `rnd` is the identity.
The numbers the other two scripts handle are counters, small enough for a
double to hold exactly.
-/

open Redis

variable {P : Type}

/-- Lua's `tonumber(x) or 0`, of a field that may be missing. -/
def tonumberOrZero (c : Option (Cell P)) : ℚ := (c.bind Cell.tonumber).getD 0

/-- `tonumber(redis.call('GET', key) or '0')`: `nil` where the key spells no
number. -/
def counterValue (c : Option (Cell P)) : Option ℚ := (c.getD (.num 0)).tonumber

/-- `join.lua`: place a waiter in the queue, or answer the place held. -/
def joinLua (queue seq admitted config queueToken : String) : Redis P (Reply P) := do
  if (← EXISTS config) = 0 then
    return .table [some (.int 0)]
  let score ← ZSCORE queue queueToken
  let (sequence, joined) ← match score with
    -- already queued: the existing sequence, untouched
    | some s => pure (s, (0 : ℤ))
    | none => do
      let s ← INCR seq
      ZADD queue s queueToken
      pure (s, 1)
  let total ← GET admitted
  let rate ← HGET config "rate_per_min"
  let waiting ← ZCARD queue
  return .table [some (.int 1), some (.int sequence), some (.int joined),
    some (.int waiting), (counterValue total).map .number,
    (counterValue rate).map .number]

/-- `position.lua`: where a waiter stands. -/
def positionLua (queue admitted config pass queueToken : String) : Redis P (Reply P) := do
  if (← EXISTS config) = 0 then
    return .table [some (.int 0)]
  match ← ZRANK queue queueToken with
  | none =>
    -- out of the queue: admitted if a pass is waiting, a stranger otherwise
    match ← GET pass with
    | some admission =>
      let waiting ← ZCARD queue
      let total ← GET admitted
      return .table [some (.int 3), some (.bulk admission), some (.int waiting),
        (counterValue total).map .number]
    | none => return .table [some (.int 1)]
  | some rank =>
    let total ← GET admitted
    let rate ← HGET config "rate_per_min"
    let waiting ← ZCARD queue
    return .table [some (.int 2), some (.int (rank + 1)), some (.int waiting),
      (counterValue total).map .number, (counterValue rate).map .number]

/-- The flat reply of ZPOPMIN: member, score, member, score. -/
def flatReply (popped : List (String × ℤ)) : Reply P :=
  .array (popped.flatMap (fun x => [.bulk (.word x.1), .bulk (.num x.2)]))

/-- The bucket of `admit_batch.lua` as it was left, or a full one where this
is the first call for the event. -/
def readBucket (tokens lastRefill : Option (Cell P)) (burst now : ℚ) : ℚ × ℚ :=
  match tokens.bind Cell.tonumber, lastRefill.bind Cell.tonumber with
  | some tokens, some lastRefill => (tokens, lastRefill)
  | _, _ => (burst, now)

/-- The refill of `admit_batch.lua`: the time since the last one, a negative
interval counting as none, credited at the rate and capped at the burst. -/
def refill (rnd : ℚ → ℚ) (rate burst tokens lastRefill now : ℚ) : ℚ :=
  let elapsed := rnd (now - lastRefill)
  let elapsed := if elapsed < 0 then 0 else elapsed
  min burst (rnd (tokens + rnd (rnd (elapsed * rate) / 60000)))

/-- The three ceilings of `admit_batch.lua`: whole tokens, the batch limit,
the waiters there are. -/
def batchCeilings (tokens batchMax : ℚ) (waiting : ℤ) : ℚ :=
  let n : ℚ := ⌊tokens⌋
  let n := if n > batchMax then batchMax else n
  if n > waiting then (waiting : ℚ) else n

/-- `admit_batch.lua`: release the next waiters, at most as many as the
bucket, the batch limit and the queue allow. -/
def admitBatchLua (rnd : ℚ → ℚ) (queue admitted bucket config : String) (nowMs : ℤ) :
    Redis P (Reply P) := do
  if (← EXISTS config) = 0 then
    return .table [some (.int 0)]
  let cfg ← HMGET config ["rate_per_min", "burst", "batch_max"]
  let rate := tonumberOrZero (cfg.getD 0 none)
  let burst := tonumberOrZero (cfg.getD 1 none)
  let batchMax := tonumberOrZero (cfg.getD 2 none)
  let now := rnd nowMs
  -- a paused drop leaves the bucket as it is
  if rate ≤ 0 then
    let total ← GET admitted
    return .table [some (.int 1), some (.int 0), (counterValue total).map .number,
      some (flatReply [])]
  let state ← HMGET bucket ["tokens", "last_refill_ms"]
  let banked := readBucket (state.getD 0 none) (state.getD 1 none) burst now
  let tokens := refill rnd rate burst banked.1 banked.2 now
  let waiting ← ZCARD queue
  let n := batchCeilings tokens batchMax waiting
  -- written back even when nobody is released, so that the refill time advances
  HSET bucket [("tokens", .num (rnd (tokens - n))), ("last_refill_ms", .num now)]
  if n ≤ 0 then
    let total ← GET admitted
    return .table [some (.int 1), some (.int 0), (counterValue total).map .number,
      some (flatReply [])]
  let popped ← ZPOPMIN queue n
  let admittedTotal ← INCRBY admitted n
  return .table [some (.int 1), some (.number n), some (.int admittedTotal),
    some (flatReply popped)]
