import Mathlib.Data.String.Basic

/-!
# The keys of an event

Every key of an event is its event id between a fixed prefix and a suffix
that says what the key is for. Within one event the suffix determines the
key, so no two of its keys collide – the pass keys, which carry the token of
a waiter, included.
-/

/-- The prefix of every key. -/
def NAMESPACE : String := "qf"

/-- The keys of one event. -/
structure EventKeys where
  /-- The event. -/
  eventId : String

namespace EventKeys

/-- The key of an event for a purpose: `{NAMESPACE}:{event_id}:{suffix}`. -/
def key (keys : EventKeys) (suffix : String) : String :=
  NAMESPACE ++ ":" ++ keys.eventId ++ ":" ++ suffix

/-- Sorted set: a queue token scored by its arrival sequence. -/
def queue (keys : EventKeys) : String := keys.key "queue"

/-- Counter: the last arrival sequence given out. -/
def seq (keys : EventKeys) : String := keys.key "seq"

/-- Counter: how many waiters were ever admitted. -/
def admitted (keys : EventKeys) : String := keys.key "admitted"

/-- Hash: the token bucket, `tokens` and `last_refill_ms`. -/
def bucket (keys : EventKeys) : String := keys.key "bucket"

/-- Hash: `rate_per_min`, `burst` and `batch_max`. -/
def config (keys : EventKeys) : String := keys.key "config"

/-- String: the admission pass waiting for its holder. -/
def passFor (keys : EventKeys) (queueToken : String) : String :=
  keys.key ("pass:" ++ queueToken)

/-- **Within one event the suffix determines the key.** -/
theorem key_inj (keys : EventKeys) {s s' : String} :
    keys.key s = keys.key s' ↔ s = s' := String.append_right_inj _

theorem key_ne (keys : EventKeys) {s s' : String} (h : s ≠ s') :
    keys.key s ≠ keys.key s' := fun he => h (keys.key_inj.mp he)

/-- Tokens have distinct pass keys. -/
theorem passFor_inj (keys : EventKeys) {t t' : String} :
    keys.passFor t = keys.passFor t' ↔ t = t' :=
  keys.key_inj.trans (String.append_right_inj _)

/-- A pass key is none of the keys whose suffix does not start like one. -/
theorem passFor_ne (keys : EventKeys) (t : String) {s : String}
    (h : s.toList.take 5 ≠ "pass:".toList) : keys.passFor t ≠ keys.key s := by
  intro he
  refine h ?_
  rw [← keys.key_inj.mp he, String.toList_append]
  rfl

end EventKeys
