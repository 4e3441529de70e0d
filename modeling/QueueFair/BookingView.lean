import QueueFair.Tokens
import QueueFair.Validation

/-!
# The protected endpoint

A `POST` meets three readers before a ticket is booked: the route takes the
event id out of the path, the authentication takes the token out of the
header and verifies it, and the view compares the event of the claims with
the event of the path. Only then `book_ticket` is called, which is a
parameter here. The view has no other method, and what the framework answers
to one is not modelled; nothing is booked by it.

A header is the text after `Authorization:`, empty where there is none.
-/

/-! ## Routes -/

/-- `[-a-zA-Z0-9_]`, what Django's slug converter reads. -/
def slugConverterChar (c : Char) : Bool := c.isAlphanum || c = '-' || c = '_'

/-- A route of one slug between two fixed texts: the slug of a path. No slug
holds the start of the text behind it, so there is one way to read a path. -/
def slugRoute (before after path : String) : Option String :=
  if before.toList <+: path.toList then
    let rest := path.toList.drop before.length
    let slug := rest.takeWhile slugConverterChar
    if slug ≠ [] ∧ rest.dropWhile slugConverterChar = after.toList then some (String.ofList slug)
    else none
  else none

/-- `api/queue/<slug:event_id>/join`, of the queue service. -/
def joinRoute : String → Option String := slugRoute "/api/queue/" "/join"

/-- `events/<slug:event_id>/book`, of the booking service. -/
def bookRoute : String → Option String := slugRoute "/events/" "/book"

section Routes

variable {before after path eventId : String}

/-- What a route reads is a slug. -/
theorem slug_of_slugRoute (h : slugRoute before after path = some eventId) :
    eventId.toList ≠ [] ∧ ∀ c ∈ eventId.toList, slugConverterChar c = true := by
  unfold slugRoute at h
  by_cases hpre : before.toList <+: path.toList
  · rw [if_pos hpre] at h
    dsimp only at h
    split at h
    · next hslug =>
      obtain rfl := Option.some.inj h
      rw [String.toList_ofList]
      exact ⟨hslug.1, List.all_eq_true.mp List.all_takeWhile⟩
    · exact nomatch h
  · rw [if_neg hpre] at h
    exact nomatch h

/-- **A route reads the slug it is given**, where the text behind it starts
with a character of no slug. -/
theorem slugRoute_append {c : Char} {cs : List Char} (hafter : after.toList = c :: cs)
    (hc : slugConverterChar c = false) (hne : eventId.toList ≠ [])
    (hslug : ∀ c ∈ eventId.toList, slugConverterChar c = true) :
    slugRoute before after (before ++ eventId ++ after) = some eventId := by
  have hpath : (before ++ eventId ++ after).toList
      = before.toList ++ (eventId.toList ++ c :: cs) := by
    rw [String.toList_append, String.toList_append, hafter, List.append_assoc]
  have hrest : (before.toList ++ (eventId.toList ++ c :: cs)).drop before.length
      = eventId.toList ++ c :: cs := by
    rw [← String.length_toList]
    exact List.drop_left
  have htake : (eventId.toList ++ c :: cs).takeWhile slugConverterChar = eventId.toList := by
    rw [List.takeWhile_append_of_pos hslug, List.takeWhile_cons_of_neg (by simp [hc]),
      List.append_nil]
  have hdrop : (eventId.toList ++ c :: cs).dropWhile slugConverterChar = after.toList := by
    rw [List.dropWhile_append_of_pos hslug, List.dropWhile_cons_of_neg (by simp [hc]), hafter]
  unfold slugRoute
  dsimp only
  rw [hpath, if_pos (List.prefix_append _ _), hrest, htake, hdrop, if_pos ⟨hne, rfl⟩,
    String.ofList_toList]

end Routes

/-! ## Authentication -/

/-- What `bytes.split` takes for a blank. -/
def asciiSpace (c : Char) : Bool :=
  c = ' ' || c = '\t' || c = '\n' || c = '\r' || c = '\x0b' || c = '\x0c'

/-- `split()`: the texts between blanks. -/
def words (cs : List Char) : List (List Char) := (cs.splitOnP asciiSpace).filter (· ≠ [])

/-- The token of `Authorization: Bearer <token>`; an error is the detail of a
401. -/
def bearerToken (header : String) : Except String String :=
  match words header.toList with
  | [] => .error "missing 'Authorization: Bearer <token>' header"
  | keyword :: rest =>
    if keyword.map Char.toLower ≠ "bearer".toList then
      .error "missing 'Authorization: Bearer <token>' header"
    else
      match rest with
      | [token] =>
        if token.all (fun c => c.toNat < 128) then .ok (String.ofList token)
        else .error "malformed token encoding"
      | _ => .error "malformed Authorization header"

/-- Why a request is not authenticated. -/
inductive AuthenticationError where
  /-- `AuthenticationFailed`, with its detail. -/
  | failed (detail : String)
  /-- An exception that nobody catches. -/
  | uncaught (exception : String)
deriving DecidableEq

/-- The claims of a valid token. -/
def authenticate (jwt : PyJwt) (secret header : String) (now : ℚ) :
    Except AuthenticationError AdmissionClaims := do
  let token ← (bearerToken header).mapError .failed
  match verifyAdmissionToken jwt token secret now with
  | .ok claims => .ok claims
  | .error (.expired _) => .error (.failed "admission token has expired")
  | .error (.invalid _) => .error (.failed "invalid admission token")
  | .error (.uncaught exception) => .error (.uncaught exception)

/-- **A compact token is read as it was sent**: it holds neither blanks nor
anything but ASCII. -/
theorem bearerToken_bearer {token : String} (hne : token.toList ≠ [])
    (hspace : ∀ c ∈ token.toList, asciiSpace c = false)
    (hascii : ∀ c ∈ token.toList, c.toNat < 128) :
    bearerToken ("Bearer " ++ token) = .ok token := by
  have hheader : ("Bearer " ++ token).toList = "Bearer".toList ++ ' ' :: token.toList := by
    rw [String.toList_append]
    rfl
  have hkeyword : "Bearer".toList.all (fun c => !asciiSpace c) = true := rfl
  have hwords : words ("Bearer " ++ token).toList = ["Bearer".toList, token.toList] := by
    unfold words
    rw [hheader, List.splitOnP_append_cons _ _ (by decide),
      List.splitOnP_eq_singleton (by simpa using hkeyword), List.splitOnP_eq_singleton hspace]
    simp [hne]
  unfold bearerToken
  rw [hwords]
  dsimp only
  rw [if_neg (by decide), if_pos (by simpa using hascii), String.ofList_toList]

/-- A request is authenticated by a token that is verified. -/
theorem authenticate_eq_ok {jwt : PyJwt} {secret header : String} {now : ℚ}
    {claims : AdmissionClaims} :
    authenticate jwt secret header now = .ok claims ↔ ∃ token,
      bearerToken header = .ok token ∧ verifyAdmissionToken jwt token secret now = .ok claims := by
  unfold authenticate
  rw [bind_eq_ok]
  have hmap {token : String} : (bearerToken header).mapError AuthenticationError.failed = .ok token
      ↔ bearerToken header = .ok token := by
    cases bearerToken header <;> simp [Except.mapError]
  refine exists_congr (fun token => and_congr hmap ?_)
  cases verifyAdmissionToken jwt token secret now with
  | ok c =>
    constructor
    · exact fun h => congrArg Except.ok (Except.ok.inj h)
    · exact fun h => congrArg Except.ok (Except.ok.inj h)
  | error e =>
    constructor
    · intro h
      cases e <;> exact nomatch h
    · exact fun h => nomatch h

/-- An expired token is refused as such. -/
theorem authenticate_of_expired {jwt : PyJwt} {secret header token message : String} {now : ℚ}
    (htoken : bearerToken header = .ok token)
    (h : verifyAdmissionToken jwt token secret now = .error (.expired message)) :
    authenticate jwt secret header now = .error (.failed "admission token has expired") := by
  unfold authenticate
  rw [htoken]
  simp only [bind, Except.bind, Except.mapError, h]

/-! ## The view -/

/-- The body of a response. -/
inductive ResponseBody where
  | detail (text : String)
  /-- The fake ticket. -/
  | ticket (booking : Booking)
deriving DecidableEq

/-- A response. -/
structure Response where
  status : ℕ
  body : ResponseBody
deriving DecidableEq

/-- What is answered in place of the view. -/
def AuthenticationError.response : AuthenticationError → Response
  | .failed detail => ⟨401, .detail detail⟩
  | .uncaught _ => ⟨500, .detail "Server Error (500)"⟩

/-- What the view answers to an outcome of `book_ticket`; what it does not
catch is Django's answer. -/
def Outcome.response : Outcome → Response
  | .returned result => ⟨if result.created then 201 else 200, .ticket result.booking⟩
  | .raised (.eventNotFound _) => ⟨404, .detail "no such event"⟩
  | .raised (.soldOut _) => ⟨409, .detail "event is sold out"⟩
  | .raised _ => ⟨500, .detail "Server Error (500)"⟩

namespace BookingView

/-- Claim a ticket for the event of the path. -/
def post (bookTicket : AdmissionClaims → Outcome) (claims : AdmissionClaims) (eventId : String) :
    Response :=
  if claims.eventId ≠ eventId then ⟨403, .detail "admission token is for a different event"⟩
  else (bookTicket claims).response

/-- A `POST` to the service: nothing, if the path is not one of the view. -/
def request (jwt : PyJwt) (secret : String) (bookTicket : AdmissionClaims → Outcome)
    (path header : String) (now : ℚ) : Option Response :=
  (bookRoute path).map (fun eventId =>
    match authenticate jwt secret header now with
    | .error e => e.response
    | .ok claims => post bookTicket claims eventId)

/-- The claims a request is let through to `book_ticket` with, if it is. -/
def admitted (jwt : PyJwt) (secret path header : String) (now : ℚ) : Option AdmissionClaims :=
  (bookRoute path).bind (fun eventId =>
    match authenticate jwt secret header now with
    | .error _ => none
    | .ok claims => if claims.eventId ≠ eventId then none else some claims)

section Admitted

variable {jwt : PyJwt} {secret path header : String} {now : ℚ} {claims : AdmissionClaims}

/-- A request is let through at the path of the event its token is for. -/
theorem admitted_eq_some : admitted jwt secret path header now = some claims ↔
    bookRoute path = some claims.eventId ∧ authenticate jwt secret header now = .ok claims := by
  unfold admitted
  cases bookRoute path with
  | none => simp
  | some eventId =>
    rw [Option.bind_some]
    cases authenticate jwt secret header now with
    | error e => simp
    | ok c =>
      dsimp only
      by_cases he : c.eventId = eventId
      · rw [if_neg (not_not.mpr he), Option.some.injEq, Option.some.injEq, Except.ok.injEq, ← he]
        exact ⟨fun h => ⟨congrArg _ h, h⟩, And.right⟩
      · rw [if_pos he, Option.some.injEq, Except.ok.injEq]
        constructor
        · exact fun h => nomatch h
        · rintro ⟨hevent, rfl⟩
          exact absurd hevent.symm he

/-- A request that is let through is answered as `book_ticket` has it. -/
theorem request_of_admitted (bookTicket : AdmissionClaims → Outcome)
    (h : admitted jwt secret path header now = some claims) :
    request jwt secret bookTicket path header now = some (bookTicket claims).response := by
  obtain ⟨hroute, hauth⟩ := admitted_eq_some.mp h
  unfold request post
  rw [hroute, hauth]
  exact congrArg some (if_neg (not_not.mpr rfl))

/-- Any other request is answered without it. -/
theorem request_of_not_admitted (bookTicket bookTicket' : AdmissionClaims → Outcome)
    (h : admitted jwt secret path header now = none) :
    request jwt secret bookTicket path header now
      = request jwt secret bookTicket' path header now := by
  unfold admitted at h
  unfold request post
  cases hroute : bookRoute path with
  | none => rfl
  | some eventId =>
    rw [hroute, Option.bind_some] at h
    cases hauth : authenticate jwt secret header now with
    | error e => rfl
    | ok c =>
      rw [hauth] at h
      by_cases he : c.eventId = eventId
      · exact absurd h (by simp [he])
      · simp only [Option.map_some, if_pos he]

end Admitted

end BookingView

/-- Booking a ticket is never answered by a 401 or a 403. -/
theorem Outcome.response_status (o : Outcome) :
    o.response.status ≠ 401 ∧ o.response.status ≠ 403 := by
  cases o with
  | returned r =>
    show (if r.created then 201 else 200) ≠ 401 ∧ (if r.created then 201 else 200) ≠ 403
    cases r.created <;> decide
  | raised e =>
    cases e with
    | eventNotFound _ => exact (by decide : 404 ≠ 401 ∧ 404 ≠ 403)
    | soldOut _ => exact (by decide : 409 ≠ 401 ∧ 409 ≠ 403)
    | _ => exact (by decide : 500 ≠ 401 ∧ 500 ≠ 403)
