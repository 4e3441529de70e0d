import QueueFair.Admission
import QueueFair.BookingView
import Mathlib.Data.List.Forall2

/-!
# Issuer and verifier agree

The queue service signs a pass and parks it with the URL to book at; the
booking service reads the token, the claims in it and the event in the URL.
The two share no code, so what one writes has to be what the other reads: the
names and types of the claims, the unit of the times, the shape of the URL,
and how long an id may be.

They do agree (`issuer_and_verifier_agree`). A pass of any tick, presented at
the URL parked with it, is accepted in exactly its own window, with the claims
the issuer meant, and the answer is that of `book_ticket`.
-/

/-! ## What the issuer writes -/

/-- The claims of a pass, as they are signed. -/
def PassClaims.payload (c : PassClaims) : Payload :=
  [("sub", .str c.sub), ("event_id", .str c.eventId), ("jti", .str c.jti), ("iat", .int c.iat),
    ("exp", .int c.exp)]

/-- Sign the claims of a pass. -/
def PyJwt.sign (jwt : PyJwt) (c : PassClaims) (secret : String) : String :=
  jwt.encode c.payload secret "HS256"

/-- The claims of the pass a tick signs for a token, read at a clock in
milliseconds. -/
def AdmissionController.passClaims (K : AdmissionController) (eventId : String) (nowMs : ℤ)
    (queueToken jti : String) : PassClaims :=
  ⟨queueToken, eventId, jti, nowMs / 1000, nowMs / 1000 + K.issuer.ttlSeconds⟩

/-- The claims as the verifier returns them. -/
def PassClaims.admitted (c : PassClaims) : AdmissionClaims :=
  ⟨c.sub, c.eventId, c.jti, c.iat, c.exp⟩

/-- The width of an event's id. -/
def Event.maxLength : ℕ := 64

/-! ## What is known of PyJWT -/

/-- A payload whose registered claims are of the types PyJWT checks, with
these times, and no claims that need further arguments. -/
structure Payload.Regular (payload : Payload) (iat exp : ℤ) : Prop where
  names : (payload.map Prod.fst).Nodup
  iat : payload.lookup "iat" = some (.int iat)
  exp : payload.lookup "exp" = some (.int exp)
  sub : ∃ s, payload.lookup "sub" = some (.str s)
  jti : ∀ v ∈ payload.lookup "jti", ∃ s, v = .str s
  others : ∀ name ∈ ["nbf", "aud", "iss"], payload.lookup name = none

/-- `[-_.a-zA-Z0-9]`, what a compact token is made of. -/
def compactChar (c : Char) : Bool :=
  slugChar c || ('A' ≤ c && c ≤ 'Z') || c = '-' || c = '_' || c = '.'

/-- **What is documented of PyJWT** about a payload and a secret: the token is
compact, and under the same secret it decodes to the payload from its `iat`
until its `exp`. -/
structure PyJwt.RoundTrips (jwt : PyJwt) (payload : Payload) (iat exp : ℤ) (secret : String) :
    Prop where
  compact : ∀ c ∈ (jwt.encode payload secret "HS256").toList, compactChar c = true
  nonempty : (jwt.encode payload secret "HS256").toList ≠ []
  immature : ∀ now : ℚ, now < iat → ∃ message,
    jwt.decode (jwt.encode payload secret "HS256") secret ["HS256"] ["exp", "iat", "sub"] now
      = .error (.invalidToken message)
  decoded : ∀ now : ℚ, iat ≤ now → now < exp →
    jwt.decode (jwt.encode payload secret "HS256") secret ["HS256"] ["exp", "iat", "sub"] now
      = .ok payload
  expired : ∀ now : ℚ, iat ≤ now → exp ≤ now → ∃ message,
    jwt.decode (jwt.encode payload secret "HS256") secret ["HS256"] ["exp", "iat", "sub"] now
      = .error (.expiredSignature message)

/-- It is documented of every regular payload and every secret. -/
def PyJwt.Documented (jwt : PyJwt) (payload : Payload) (secret : String) : Prop :=
  secret ≠ "" → ∀ iat exp, payload.Regular iat exp → jwt.RoundTrips payload iat exp secret

/-- A compact character is ASCII. -/
theorem compactChar_lt {c : Char} (h : compactChar c = true) : c.toNat < 128 := by
  have hle : ∀ d : Char, c ≤ d → c.toNat ≤ d.toNat := fun _ hd => UInt32.le_iff_toNat_le.mp hd
  unfold compactChar slugChar at h
  simp only [Bool.or_eq_true, Bool.and_eq_true, decide_eq_true_eq] at h
  rcases h with ((((⟨-, h⟩ | ⟨-, h⟩) | ⟨-, h⟩) | rfl) | rfl) | rfl
  · exact lt_of_le_of_lt (hle 'z' h) (by decide)
  · exact lt_of_le_of_lt (hle '9' h) (by decide)
  · exact lt_of_le_of_lt (hle 'Z' h) (by decide)
  all_goals decide

/-- No blank is a compact character. -/
theorem asciiSpace_of_compactChar {c : Char} (h : compactChar c = true) :
    asciiSpace c = false := by
  rw [Bool.eq_false_iff]
  intro hspace
  unfold asciiSpace at hspace
  simp only [Bool.or_eq_true, decide_eq_true_eq] at hspace
  rcases hspace with ((((rfl | rfl) | rfl) | rfl) | rfl) | rfl <;> exact absurd h (by decide)

/-! ## What the verifier reads -/

/-- **The payload of a pass is regular.** -/
theorem PassClaims.regular_payload (c : PassClaims) : c.payload.Regular c.iat c.exp where
  names := by
    show ["sub", "event_id", "jti", "iat", "exp"].Nodup
    decide
  iat := rfl
  exp := rfl
  sub := ⟨c.sub, rfl⟩
  jti v hv := ⟨c.jti, (Option.some.inj hv).symm⟩
  others name hname := by
    simp only [List.mem_cons, List.not_mem_nil, or_false] at hname
    obtain rfl | rfl | rfl := hname <;> rfl

/-- The verifier finds every claim of a pass where the issuer put it. -/
theorem PassClaims.claims_payload {c : PassClaims} (hsub : c.sub ≠ "") (hevent : c.eventId ≠ "")
    (hjti : c.jti ≠ "") : c.payload.claims = .ok c.admitted :=
  Payload.claims_eq_ok.mpr ⟨⟨rfl, hsub⟩, ⟨rfl, hevent⟩, ⟨rfl, hjti⟩, rfl, rfl⟩

/-- **A pass that is honoured** where it is booked: what is parked for its
holder, and what it is taken for. -/
structure Honours (jwt : PyJwt) (secret : String) (parked : Admission) (claims : AdmissionClaims) :
    Prop where
  /-- In its window the pass is verified, and says what it was meant to. -/
  verified : ∀ now : ℚ, claims.issuedAt ≤ now → now < claims.expiresAt →
    verifyAdmissionToken jwt parked.pass secret now = .ok claims
  /-- A request with it is answered as `book_ticket` has it. -/
  served : ∀ (bookTicket : AdmissionClaims → Outcome) (now : ℚ), claims.issuedAt ≤ now →
    now < claims.expiresAt →
    BookingView.request jwt secret bookTicket parked.bookUrl ("Bearer " ++ parked.pass) now
        = some (bookTicket claims).response
      ∧ (bookTicket claims).response.status ≠ 401 ∧ (bookTicket claims).response.status ≠ 403
  /-- Before its window it is not accepted. -/
  early : ∀ now : ℚ, now < claims.issuedAt →
    ∃ message, verifyAdmissionToken jwt parked.pass secret now = .error (.invalid message)
  /-- From its end on it is rejected as expired. -/
  expired : ∀ now : ℚ, claims.expiresAt ≤ now →
    ∃ message, verifyAdmissionToken jwt parked.pass secret now = .error (.expired message)
  turnedAway : ∀ (bookTicket : AdmissionClaims → Outcome) (now : ℚ), claims.expiresAt ≤ now →
    BookingView.request jwt secret bookTicket parked.bookUrl ("Bearer " ++ parked.pass) now
      = some ⟨401, .detail "admission token has expired"⟩
  fits : claims.Fits
  eventFits : claims.eventId.length ≤ Event.maxLength

/-! ## The join -/

namespace PyJwt.RoundTrips

variable {jwt : PyJwt} {secret : String} {c : PassClaims} {now : ℚ}

/-- A pass in its window is verified, and its claims are those signed. -/
theorem verify_of_window (h : jwt.RoundTrips c.payload c.iat c.exp secret)
    (hc : c.payload.claims = .ok c.admitted) (hiat : c.iat ≤ now) (hexp : now < c.exp) :
    verifyAdmissionToken jwt (jwt.sign c secret) secret now = .ok c.admitted := by
  unfold verifyAdmissionToken sign
  rw [h.decoded now hiat hexp]
  dsimp only
  rw [hc]

/-- A pass whose window is over has expired. -/
theorem verify_of_expired (h : jwt.RoundTrips c.payload c.iat c.exp secret) (hiat : c.iat ≤ now)
    (hexp : c.exp ≤ now) : ∃ message,
    verifyAdmissionToken jwt (jwt.sign c secret) secret now = .error (.expired message) := by
  obtain ⟨message, hdecode⟩ := h.expired now hiat hexp
  refine ⟨message, ?_⟩
  unfold verifyAdmissionToken sign
  rw [hdecode]

/-- A pass whose window has not begun is not valid. -/
theorem verify_of_early (h : jwt.RoundTrips c.payload c.iat c.exp secret) (hiat : now < c.iat) :
    ∃ message,
    verifyAdmissionToken jwt (jwt.sign c secret) secret now = .error (.invalid message) := by
  obtain ⟨message, hdecode⟩ := h.immature now hiat
  refine ⟨message, ?_⟩
  unfold verifyAdmissionToken sign
  rw [hdecode]

/-- The token of a pass is read from the header as it was signed. -/
theorem bearerToken_sign (h : jwt.RoundTrips c.payload c.iat c.exp secret) :
    bearerToken ("Bearer " ++ jwt.sign c secret) = .ok (jwt.sign c secret) :=
  bearerToken_bearer h.nonempty (fun c hc => asciiSpace_of_compactChar (h.compact c hc))
    (fun c hc => compactChar_lt (h.compact c hc))

/-- **A pass that round-trips is honoured** at a path of its event. -/
theorem honours (h : jwt.RoundTrips c.payload c.iat c.exp secret) (hlife : c.iat < c.exp)
    (hc : c.payload.claims = .ok c.admitted) {parked : Admission}
    (hpass : parked.pass = jwt.sign c secret) (hpath : bookRoute parked.bookUrl = some c.eventId)
    (hfits : c.admitted.Fits) (hevent : c.eventId.length ≤ Event.maxLength) :
    Honours jwt secret parked c.admitted where
  verified now hiat hexp := by
    rw [hpass]
    exact h.verify_of_window hc hiat hexp
  served bookTicket now hiat hexp := by
    have hauth : authenticate jwt secret ("Bearer " ++ parked.pass) now = .ok c.admitted := by
      rw [hpass]
      exact authenticate_eq_ok.mpr ⟨_, h.bearerToken_sign, h.verify_of_window hc hiat hexp⟩
    exact ⟨BookingView.request_of_admitted bookTicket
      (BookingView.admitted_eq_some.mpr ⟨hpath, hauth⟩), Outcome.response_status _⟩
  early now hiat := by
    rw [hpass]
    exact h.verify_of_early hiat
  expired now hexp := by
    rw [hpass]
    exact h.verify_of_expired (le_trans (by exact_mod_cast hlife.le) hexp) hexp
  turnedAway bookTicket now hexp := by
    have hauth : authenticate jwt secret ("Bearer " ++ parked.pass) now
        = .error (.failed "admission token has expired") := by
      obtain ⟨message, hverify⟩ :=
        h.verify_of_expired (le_trans (by exact_mod_cast hlife.le) hexp) hexp
      rw [hpass]
      exact authenticate_of_expired h.bearerToken_sign hverify
    unfold BookingView.request
    rw [hpath, hauth]
    rfl
  fits := hfits
  eventFits := hevent

end PyJwt.RoundTrips

/-- **The URL parked with a pass is a path of its event.** -/
theorem bookRoute_bookUrl {path eventId : String} (hroute : joinRoute path = some eventId)
    (p : IssuedPass) :
    bookRoute (RedisQueueRepository.payload eventId p).bookUrl = some eventId := by
  obtain ⟨hne, hslug⟩ := slug_of_slugRoute hroute
  have hafter : "/book".toList = '/' :: "book".toList := rfl
  exact slugRoute_append hafter (by decide) hne hslug

/-- A hex text is not empty, and a valid token is as long as one, but for a
newline. -/
theorem isValidQueueToken_length {queueToken : String} (h : isValidQueueToken queueToken = true) :
    queueToken ≠ "" ∧ queueToken.length ≤ 33 := by
  have hlength : 32 ≤ queueToken.length ∧ queueToken.length ≤ 33 := by
    rw [← String.length_toList]
    obtain ⟨cs, hcs, htext | htext⟩ := toList_of_matchesLine h
    · rw [htext, length_of_hexText hcs]
      decide
    · rw [htext, List.length_append, length_of_hexText hcs]
      decide
  refine ⟨?_, hlength.2⟩
  rintro rfl
  exact absurd hlength.1 (by decide)

/-- **Issuer and verifier agree.** Every pass that a tick signs and parks, for
an event that the join route admits and for valid tokens, is honoured by the
booking service with the same secret: for the token, the event, the `jti` and
the times it was issued with. -/
theorem issuer_and_verifier_agree {jwt : PyJwt} (K : AdmissionController)
    (httl : 0 < K.issuer.ttlSeconds) {path eventId : String}
    (hroute : joinRoute path = some eventId) (hvalid : isValidEventId eventId = true) (nowMs : ℤ)
    {tokens jtis : List String} (htokens : ∀ t ∈ tokens, isValidQueueToken t = true)
    (hjtis : ∀ j ∈ jtis, hexText j.toList = true)
    (hjwt : ∀ t ∈ tokens, ∀ j ∈ jtis,
      jwt.Documented (K.passClaims eventId nowMs t j).payload K.issuer.secret)
    {passes : List IssuedPass}
    (hsign : (Tick.popped nowMs tokens).sign K jwt.sign eventId jtis = .recording nowMs passes) :
    List.Forall₂ (fun p x => Honours jwt K.issuer.secret (RedisQueueRepository.payload eventId p)
      ⟨x.1, eventId, x.2, nowMs / 1000, nowMs / 1000 + K.issuer.ttlSeconds⟩)
      passes (tokens.zip jtis) := by
  have hpasses : passes = (tokens.zip jtis).map
      (fun x => K.issuer.issue jwt.sign eventId x.1 (nowMs / 1000) x.2) := by
    unfold Tick.sign at hsign
    dsimp only at hsign
    by_cases hlen : jtis.length = tokens.length
    · rw [if_pos hlen] at hsign
      rw [← (Tick.recording.inj hsign).2, List.map_zip_eq_zipWith]
      rfl
    · rw [if_neg hlen] at hsign
      exact nomatch hsign
  rw [hpasses, List.forall₂_map_left_iff, List.forall₂_same]
  intro x hx
  have ht := isValidQueueToken_length (htokens _ (List.of_mem_zip hx).1)
  have hj : x.2.length = 32 := by
    rw [← String.length_toList]
    exact length_of_hexText (hjtis _ (List.of_mem_zip hx).2)
  have hjne : x.2 ≠ "" := by
    intro he
    rw [he] at hj
    exact absurd hj (by decide)
  have hene : eventId ≠ "" := by
    rintro rfl
    exact (slug_of_slugRoute hroute).1 rfl
  have hid : eventId.length ≤ Event.maxLength := by
    unfold isValidEventId at hvalid
    rw [Bool.and_eq_true] at hvalid
    exact of_decide_eq_true hvalid.1
  have hround := hjwt _ (List.of_mem_zip hx).1 _ (List.of_mem_zip hx).2 K.issuer.secret_ne _ _
    (K.passClaims eventId nowMs x.1 x.2).regular_payload
  refine hround.honours (lt_add_of_pos_right _ httl) (PassClaims.claims_payload ht.1 hene hjne) rfl
    (bookRoute_bookUrl hroute _) ⟨le_trans ht.2 (by decide), ?_⟩ hid
  show x.2.length ≤ Booking.maxLength
  rw [hj]
  decide

/-! ## One pass -/

/-- PyJWT as far as one token is concerned: the token of a payload under a
secret. -/
def PyJwt.ofToken (token : String) (payload : Payload) (iat exp : ℤ) (secret : String) : PyJwt where
  encode payload' secret' _ := if payload' = payload ∧ secret' = secret then token else ""
  decode token' secret' algorithms _ now :=
    if token' = token ∧ secret' = secret ∧ "HS256" ∈ algorithms then
      if now < iat then .error (.invalidToken "The token is not yet valid (iat)")
      else if exp ≤ now then .error (.expiredSignature "Signature has expired")
      else .ok payload
    else .error (.invalidToken "Signature verification failed")

/-- It is as documented, of this payload. -/
theorem PyJwt.documented_ofToken {token : String} {payload : Payload} {iat exp : ℤ}
    {secret : String} (hreg : payload.Regular iat exp) (hne : token.toList ≠ [])
    (hcompact : ∀ c ∈ token.toList, compactChar c = true) :
    (PyJwt.ofToken token payload iat exp secret).Documented payload secret := by
  intro _ iat' exp' hreg'
  obtain rfl : iat = iat' :=
    ClaimValue.int.inj (Option.some.inj (hreg.iat.symm.trans hreg'.iat))
  obtain rfl : exp = exp' :=
    ClaimValue.int.inj (Option.some.inj (hreg.exp.symm.trans hreg'.exp))
  have hencode : (PyJwt.ofToken token payload iat exp secret).encode payload secret "HS256"
      = token := if_pos ⟨rfl, rfl⟩
  have hdecode : ∀ now, (PyJwt.ofToken token payload iat exp secret).decode token secret ["HS256"]
      ["exp", "iat", "sub"] now
      = if now < iat then .error (.invalidToken "The token is not yet valid (iat)")
        else if exp ≤ now then .error (.expiredSignature "Signature has expired")
        else .ok payload := fun now => if_pos ⟨rfl, rfl, List.mem_singleton_self _⟩
  refine ⟨?_, ?_, fun now hiat => ⟨"The token is not yet valid (iat)", ?_⟩,
    fun now hiat hexp => ?_, fun now hiat hexp => ⟨"Signature has expired", ?_⟩⟩
  · rwa [hencode]
  · rwa [hencode]
  · rw [hencode, hdecode, if_pos hiat]
  · rw [hencode, hdecode, if_neg (not_lt.mpr hiat), if_neg (not_le.mpr hexp)]
  · rw [hencode, hdecode, if_neg (not_lt.mpr hiat), if_pos hexp]

/-- The secret of the booking service's tests. -/
def testSecret : String := "test-only-admission-secret-at-least-32-bytes-long"

/-- The claims of one pass. -/
def oneClaims : PassClaims :=
  ⟨"0123456789abcdef0123456789abcdef", "coldplay-mumbai-2026", "c0ffee00c0ffee00c0ffee00c0ffee00",
    1785283200, 1785283260⟩

/-- And its token, signed with the secret. -/
def oneToken : String := "eyJhbGciOiJIUzI1NiIsInR5cCI6IkpXVCJ9."
  ++ "eyJzdWIiOiIwMTIzNDU2Nzg5YWJjZGVmMDEyMzQ1Njc4OWFiY2RlZiIsImV2ZW50X2lkIjoiY29sZHBsYXktbXVt"
  ++ "YmFpLTIwMjYiLCJqdGkiOiJjMGZmZWUwMGMwZmZlZTAwYzBmZmVlMDBjMGZmZWUwMCIsImlhdCI6MTc4NTI4MzIw"
  ++ "MCwiZXhwIjoxNzg1MjgzMjYwfQ.1lcdI7Tt5t6SBVYKN0ie4o12PSagJ3HR_p5oTnSMznk"

/-- The pass of a tick in the last millisecond of a second. -/
theorem issuer_and_verifier_agree_on_one_pass :
    Honours (.ofToken oneToken oneClaims.payload 1785283200 1785283260 testSecret) testSecret
      ⟨oneToken, 1785283260, "/events/coldplay-mumbai-2026/book"⟩ oneClaims.admitted := by
  have hcompact : oneToken.toList.all compactChar = true := by decide +kernel
  have hne : oneToken.toList ≠ [] := String.toList_eq_nil_iff.not.mpr (by decide +kernel)
  have hagree := @issuer_and_verifier_agree
    (.ofToken oneToken oneClaims.payload 1785283200 1785283260 testSecret)
    (buildAdmissionController testSecret (by decide) 60) (by decide)
    "/api/queue/coldplay-mumbai-2026/join" "coldplay-mumbai-2026" (by decide +kernel)
    (by decide +kernel) 1785283200999 ["0123456789abcdef0123456789abcdef"]
    ["c0ffee00c0ffee00c0ffee00c0ffee00"] (by decide +kernel) (by decide +kernel)
    (fun t ht j hj => by
      obtain rfl := List.mem_singleton.mp ht
      obtain rfl := List.mem_singleton.mp hj
      exact PyJwt.documented_ofToken (PassClaims.regular_payload _) hne
        (List.all_eq_true.mp hcompact)) _ rfl
  exact (List.forall₂_cons.mp hagree).1
