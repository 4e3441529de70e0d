import QueueFair.Booking
import Mathlib.Data.Rat.Defs
import Mathlib.Algebra.Order.Ring.Unbundled.Rat

/-!
# Admission tokens

The booking service verifies the passes the queue service signs. It trusts
PyJWT for the signature and the times, and then takes the claims out of the
payload one by one: a claim that is missing or of another type makes the
token invalid (`verifyAdmissionToken`).

PyJWT is a parameter. A payload is the dictionary it returns, with the JSON
values the verifier tells apart; the times it compares are Unix seconds, and
the moment of a verification may fall between two of them.
-/

/-- A JSON value, as far as a claim is read. -/
inductive ClaimValue where
  | str (s : String)
  | int (n : ℤ)
  | bool (b : Bool)
  /-- Any other value, as it is written. -/
  | other (text : String)
deriving DecidableEq

/-- The payload of a token: its claims by name. -/
abbrev Payload := List (String × ClaimValue)

/-- What `jwt.decode` raises. -/
inductive JwtError where
  /-- `ExpiredSignatureError`. -/
  | expiredSignature (message : String)
  /-- Any other `InvalidTokenError`. -/
  | invalidToken (message : String)
  /-- What is none of PyJWT's, such as the `RecursionError` of a deeply nested
  header. -/
  | other (exception : String)
deriving DecidableEq

/-- **PyJWT**, as far as the two services use it: `decode` is told the
algorithms it accepts, the claims it requires, and the moment. -/
structure PyJwt where
  encode : Payload → (secret algorithm : String) → String
  decode : (token secret : String) → (algorithms require : List String) → (now : ℚ) →
    Except JwtError Payload

/-! ## The verifier -/

/-- Why there are no claims. -/
inductive AdmissionTokenError where
  /-- Signature valid, but the token's `exp` is in the past. -/
  | expired (message : String)
  /-- Signature failed, token malformed, or a required claim is missing or
  ill-typed. -/
  | invalid (message : String)
  /-- An exception of `jwt.decode` that the verifier lets through. -/
  | uncaught (exception : String)
deriving DecidableEq

/-- Why a claim is refused. -/
inductive ClaimError where
  | keyError (key : String)
  | typeError (message : String)
deriving DecidableEq

/-- What Python makes of the exception in a message. -/
def ClaimError.message : ClaimError → String
  | .keyError key => "'" ++ key ++ "'"
  | .typeError message => message

/-- A claim that is a non-empty string. -/
def requireStr (payload : Payload) (key : String) : Except ClaimError String :=
  match payload.lookup key with
  | none => .error (.keyError key)
  | some (.str value) =>
    if value = "" then .error (.typeError ("claim '" ++ key ++ "' must be a non-empty string"))
    else .ok value
  | some _ => .error (.typeError ("claim '" ++ key ++ "' must be a non-empty string"))

/-- A claim that is an int; a bool is none. -/
def requireInt (payload : Payload) (key : String) : Except ClaimError ℤ :=
  match payload.lookup key with
  | none => .error (.keyError key)
  | some (.int value) => .ok value
  | some _ => .error (.typeError ("claim '" ++ key ++ "' must be an int"))

/-- The claims of a payload, in the order they are read. -/
def Payload.claims (payload : Payload) : Except ClaimError AdmissionClaims := do
  let userId ← requireStr payload "sub"
  let eventId ← requireStr payload "event_id"
  let jti ← requireStr payload "jti"
  let issuedAt ← requireInt payload "iat"
  let expiresAt ← requireInt payload "exp"
  return { userId, eventId, jti, issuedAt, expiresAt }

/-- Verify an HS256 admission token and return its trusted claims. -/
def verifyAdmissionToken (jwt : PyJwt) (token secret : String) (now : ℚ) :
    Except AdmissionTokenError AdmissionClaims :=
  match jwt.decode token secret ["HS256"] ["exp", "iat", "sub"] now with
  | .error (.expiredSignature message) => .error (.expired message)
  | .error (.invalidToken message) => .error (.invalid message)
  | .error (.other exception) => .error (.uncaught exception)
  | .ok payload =>
    match payload.claims with
    | .ok claims => .ok claims
    | .error e => .error (.invalid ("missing or ill-typed claim: " ++ e.message))

/-! ## What a verified token says -/

section Claims

variable {payload : Payload} {key : String}

/-- A claim that is read is there, and is not empty. -/
theorem requireStr_eq_ok {s : String} :
    requireStr payload key = .ok s ↔ payload.lookup key = some (.str s) ∧ s ≠ "" := by
  unfold requireStr
  split
  · next h => simp [h]
  · next value h =>
    by_cases hv : value = ""
    · rw [if_pos hv, h]
      constructor
      · exact fun he => nomatch he
      · rintro ⟨he, hs⟩
        obtain rfl := ClaimValue.str.inj (Option.some.inj he)
        exact absurd hv hs
    · rw [if_neg hv, h]
      constructor
      · intro he
        obtain rfl := Except.ok.inj he
        exact ⟨rfl, hv⟩
      · rintro ⟨he, -⟩
        rw [ClaimValue.str.inj (Option.some.inj he)]
  · next v hne h =>
    rw [h]
    constructor
    · exact fun he => nomatch he
    · rintro ⟨he, -⟩
      exact absurd (Option.some.inj he) (hne s)

theorem requireInt_eq_ok {n : ℤ} :
    requireInt payload key = .ok n ↔ payload.lookup key = some (.int n) := by
  unfold requireInt
  split
  · next h => simp [h]
  · next value h => simp [h]
  · next v hne h =>
    rw [h]
    constructor
    · exact fun he => nomatch he
    · exact fun he => absurd (Option.some.inj he) (hne n)

/-- A computation of two parts succeeds where both do. -/
theorem bind_eq_ok {ε α β : Type} {x : Except ε α} {f : α → Except ε β} {b : β} :
    x >>= f = .ok b ↔ ∃ a, x = .ok a ∧ f a = .ok b := by
  cases x with
  | error e =>
    constructor
    · exact fun h => nomatch h
    · exact fun ⟨_, h, _⟩ => nomatch h
  | ok a =>
    constructor
    · exact fun h => ⟨a, rfl, h⟩
    · rintro ⟨a', ha, h⟩
      rw [Except.ok.inj ha]
      exact h

/-- **What the claims of a payload are.** -/
theorem Payload.claims_eq_ok {c : AdmissionClaims} :
    payload.claims = .ok c ↔
      (payload.lookup "sub" = some (.str c.userId) ∧ c.userId ≠ "")
      ∧ (payload.lookup "event_id" = some (.str c.eventId) ∧ c.eventId ≠ "")
      ∧ (payload.lookup "jti" = some (.str c.jti) ∧ c.jti ≠ "")
      ∧ payload.lookup "iat" = some (.int c.issuedAt)
      ∧ payload.lookup "exp" = some (.int c.expiresAt) := by
  unfold Payload.claims
  simp only [bind_eq_ok, requireStr_eq_ok, requireInt_eq_ok]
  constructor
  · rintro ⟨u, hu, e, he, j, hj, i, hi, x, hx, h⟩
    obtain rfl := Except.ok.inj h
    exact ⟨hu, he, hj, hi, hx⟩
  · rintro ⟨hu, he, hj, hi, hx⟩
    exact ⟨_, hu, _, he, _, hj, _, hi, _, hx, rfl⟩

end Claims
