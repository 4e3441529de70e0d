import Mathlib.Data.Rat.Floor

/-!
# What a waiter is told

The facts a script answers about a waiter, and the state the waiter is shown
for them. There are two ways to a position: a join answers the waiter's
sequence, from which `positionFrom` subtracts the admitted counter, and a
position call answers a rank measured in the sorted set. That the two agree
is not visible here; it is an invariant of the queue.

The estimate is computed in doubles, through a division and a product that
round. `rnd` stands for the rounding – the identity for exact arithmetic –
and nothing below depends on what it is.
-/

/-- The `state` field of what a waiter is told. -/
inductive WaiterState where
  | waiting
  | admitted
  | expired
  | unknown
deriving DecidableEq

/-- The raw facts a join returns. -/
structure JoinOutcome where
  /-- The waiter's arrival sequence. -/
  sequence : ℤ
  /-- Whether this join made the place, rather than resume it. -/
  joined : Bool
  totalWaiting : ℤ
  admittedTotal : ℤ
  ratePerMin : ℤ
deriving DecidableEq

/-- The raw facts a position lookup returns about someone still waiting. -/
structure PositionOutcome where
  /-- How many waiters are ahead, plus the waiter. -/
  position : ℤ
  totalWaiting : ℤ
  admittedTotal : ℤ
  ratePerMin : ℤ
deriving DecidableEq

/-- What is parked for an admitted waiter to collect. -/
structure Admission where
  /-- The signed credential. -/
  pass : String
  /-- When the credential expires, in Unix seconds. -/
  expiresAt : ℤ
  /-- Where to present it. -/
  bookUrl : String
deriving DecidableEq

/-- The raw facts about a waiter whose pass is waiting: an object, or whatever
its text spells. -/
structure AdmittedOutcome (A : Type := Admission) where
  admission : A
  totalWaiting : ℤ
  admittedTotal : ℤ
deriving DecidableEq

/-- What a waiter is told. -/
structure QueueState where
  position : ℤ
  totalWaiting : ℤ
  admittedTotal : ℤ
  /-- The estimate, where there is an honest one. -/
  etaSeconds : Option ℤ
  state : WaiterState
deriving DecidableEq

/-- What one atomic admission released. -/
structure AdmissionBatch where
  admittedTokens : List String
  /-- The event's running total after this batch. -/
  admittedTotal : ℤ
deriving DecidableEq

/-- One admission pass, minted for one waiter. -/
structure IssuedPass where
  queueToken : String
  jwt : String
  jti : String
  /-- In Unix seconds. -/
  expiresAt : ℤ
deriving DecidableEq

/-- The position a sequence has once `admittedTotal` waiters are gone,
clamped at `1`. -/
def positionFrom (sequence admittedTotal : ℤ) : ℤ := max 1 (sequence - admittedTotal)

/-- Roughly how long until a waiter is admitted, in seconds; nothing while
the drop is paused. -/
def etaSecondsFor (rnd : ℚ → ℚ) (position ratePerMin : ℤ) : Option ℤ :=
  if ratePerMin ≤ 0 then none
  else some ⌈rnd (rnd ((position : ℚ) / ratePerMin) * 60)⌉

/-- What a waiter is told after a join. -/
def stateFrom (rnd : ℚ → ℚ) (outcome : JoinOutcome) : QueueState :=
  let position := positionFrom outcome.sequence outcome.admittedTotal
  { position := position
    totalWaiting := outcome.totalWaiting
    admittedTotal := outcome.admittedTotal
    etaSeconds := etaSecondsFor rnd position outcome.ratePerMin
    state := .waiting }

/-- What a waiter is told after a position call. -/
def stateFromPosition (rnd : ℚ → ℚ) (outcome : PositionOutcome) : QueueState where
  position := outcome.position
  totalWaiting := outcome.totalWaiting
  admittedTotal := outcome.admittedTotal
  etaSeconds := etaSecondsFor rnd outcome.position outcome.ratePerMin
  state := .waiting

/-- What an admitted waiter is told about the queue just left. -/
def stateFromAdmission {A : Type} (outcome : AdmittedOutcome A) : QueueState where
  position := 0
  totalWaiting := outcome.totalWaiting
  admittedTotal := outcome.admittedTotal
  etaSeconds := none
  state := .admitted

/-- **Where a sequence is a position plus the admitted count, the two ways to
a state agree.** -/
theorem stateFrom_eq_stateFromPosition (rnd : ℚ → ℚ) {j : JoinOutcome}
    {p : PositionOutcome} (hpos : j.sequence - j.admittedTotal = p.position)
    (hone : 1 ≤ p.position) (hwait : j.totalWaiting = p.totalWaiting)
    (hadm : j.admittedTotal = p.admittedTotal) (hrate : j.ratePerMin = p.ratePerMin) :
    stateFrom rnd j = stateFromPosition rnd p := by
  have hp : positionFrom j.sequence j.admittedTotal = p.position := by
    rw [positionFrom, hpos, max_eq_right hone]
  unfold stateFrom stateFromPosition
  rw [hp, hwait, hadm, hrate]
