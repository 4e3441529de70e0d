import QueueFair.NoStall
import QueueFair.AdmissionLoop
import QueueFair.Delivery
import QueueFair.Serial

/-!
# Getting through

What the two services are for: whoever waits comes to a ticket. The queue moves on by
somebody at every tick that is a token's time after the last one, so the position says
how many ticks it takes; the tick that lets a waiter in parks the pass before it
returns; position calls hand it over for as long as it lives; and the booking service
takes it for what it was signed for, and books, if a ticket is left. Where the ticks read
the clock of the store, a pass is in reach and good for a ticket at one moment
(`who_waits_gets_a_ticket`).

The loops do whole ticks, so what they do to the store is what the calls of their ticks
do, one after another (`Unrolled`). What is known of the calls of the store is known of
the loops, that there is no stall above all.
-/

open Redis

variable {ι : Type} {K : AdmissionController} {encode : PassClaims → String → String}
  {eventId : String} {σ : Store} {v : EventState} {c : QueueConfig}

/-! ## Loops, call by call -/

/-- The clock reading of a tick. -/
def LoopAct.nowMs : LoopAct ι → Option ℤ
  | .tick _ nowMs _ => some nowMs
  | _ => none

/-- What leaves the configuration as it is. -/
def LoopAct.Keeps (c : QueueConfig) (a : LoopAct ι) : Prop :=
  ∀ c', a = .configure c' → c' = c

/-- What a call is answered once it has ended. -/
def CallPoint.outcome : CallPoint → Outcome
  | .done o => o
  | _ => .raised .aborted
