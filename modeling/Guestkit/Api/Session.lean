import Guestkit.Api.Saml
import Guestkit.Lib.Expiring

/-! Sessions of the API: a token is accepted until it expires, with a leeway, and a logout stores
its identifier in Redis for as long as the token has left.  The leeway is not part of what
it has left. -/

namespace Guestkit.Api

open Lib Lib.Text Option

inductive StatusCode where
  | noContent
  | badRequest
  | unauthorized
  | forbidden
  | internalServerError
  deriving DecidableEq

structure ApiError where
  status : StatusCode
  error : String
  message : String
  deriving DecidableEq

def ApiError.internal (message : String) : ApiError :=
  { status := .internalServerError, error := "INTERNAL_ERROR", message := message }

def ApiError.badRequest (message : String) : ApiError :=
  { status := .badRequest, error := "BAD_REQUEST", message := message }

def ApiError.forbidden (message : String) : ApiError :=
  { status := .forbidden, error := "FORBIDDEN", message := message }

def ApiError.unauthorized (message : String) : ApiError :=
  { status := .unauthorized, error := "UNAUTHORIZED", message := message }

structure Config where
  authEnabled : Bool
  jwtSecret : String
  jwtIssuer : String

structure JwtClaims where
  sub : String
  email : Option String
  name : Option String
  role : String
  provider : String
  iss : String
  exp : UInt64
  iat : UInt64
  jti : String

/-- What `jsonwebtoken` finds in a token that is signed with the secret under HS256, whose issuer is
the given one, and that has all the claims. -/
abbrev JwtCrate := (secret issuer token : String) → Option JwtClaims

def second : ℕ := 10 ^ 9

def timestamp (now : ℕ) : ℕ := now / second

def leeway : ℕ := 60

def revokedPrefix : String := "auth:revoked:"

def revokedKey (jti : String) : String := revokedPrefix ++ jti

abbrev Redis := Expiring String String

/-- `SETEX`.  Redis refuses a time to live whose end is not a number of milliseconds in 64 bits. -/
def setEx (redis : Redis) (now : ℕ) (key value : String) (ttlSecs : ℕ) : Option Redis :=
  if 2 ^ 63 ≤ now / 10 ^ 6 + ttlSecs * 1000 then none
  else some (redis.set key value (now + ttlSecs * second))

/-- The clock as a logout reads it: when it verifies the token, when it does so again, when it takes
what is left, when Redis executes its command, and when it returns. -/
structure LogoutTimes where
  verified : ℕ
  reverified : ℕ
  remaining : ℕ
  stored : ℕ
  returned : ℕ
  verified_le : verified ≤ reverified
  reverified_le : reverified ≤ remaining
  remaining_le : remaining ≤ stored
  stored_le : stored ≤ returned

structure Request where
  method : String
  path : String
  authorization : Option String

section Sessions

variable (jwt : JwtCrate) (refusal : String) (config : Config)

def decode (validateExp : Bool) (now : ℕ) (token : String) : Option JwtClaims :=
  (jwt config.jwtSecret config.jwtIssuer token).filter fun claims =>
    !validateExp || decide (timestamp now ≤ claims.exp.toNat + leeway)

def verifyToken (now : ℕ) (token : String) : Option AuthUserClaims := do
  let claims ← decode jwt config true now token
  return {
    sub := claims.sub
    email := claims.email
    name := claims.name
    role := claims.role
    provider := claims.provider
    jti := some claims.jti }

/-- The difference is taken in 64 bits. -/
def tokenRemainingSecs (verified now : ℕ) (token : String) : Option ℕ := do
  let _ ← verifyToken jwt config verified token
  let claims ← decode jwt config false verified token
  let remaining := Int.bmod (claims.exp.toNat - timestamp now) (2 ^ 64)
  if remaining ≤ 0 then return 0
  return remaining.toNat

def revokeJti (redis : Redis) (now : ℕ) (jti : String) (ttlSecs : ℕ) : Except String Redis :=
  if jti.isEmpty || ttlSecs == 0 then .ok redis
  else
    match setEx redis now (revokedKey jti) "1" ttlSecs with
    | some redis => .ok redis
    | none => .error refusal

def isRevoked (redis : Redis) (now : ℕ) (jti : String) : Bool :=
  if jti.isEmpty then false else (redis.get now (revokedKey jti)).isSome

def extractBearer (authorization : Option String) : Option String :=
  authorization.bind (stripPrefix "Bearer ")

def isGuestAgentPublic (method path : String) : Bool :=
  if !startsWith "/api/v1/guest-agents" path then false
  else
    [("POST", "/api/v1/guest-agents/register"), ("GET", "/api/v1/guest-agents/bootstrap-info"),
      ("POST", "/api/v1/guest-agents/bootstrap")].contains (method, path) ||
    (method == "POST" && endsWith "/heartbeat" path) || endsWith "/report" path

def isPublicRoute (method path : String) : Bool :=
  isGuestAgentPublic method path ||
    [("GET", "/api/v1/health"), ("GET", "/api/v1/auth/config"), ("GET", "/api/v1/auth/me"),
      ("GET", "/api/v1/auth/oidc/login"), ("GET", "/api/v1/auth/oidc/callback"),
      ("GET", "/api/v1/auth/saml/login"), ("POST", "/api/v1/auth/saml/acs"),
      ("POST", "/api/v1/auth/local"), ("GET", "/api/v1/settings/sso/saml/metadata"),
      ("GET", "/api/v1/vmtools/bundle")].contains (method, path)

/-- Whether the request goes on, and as whom: a request that needs no token has no user. -/
def requireAuth (redis : Redis) (now : ℕ) (request : Request) :
    Except ApiError (Option AuthUserClaims) :=
  if !config.authEnabled then .ok none
  else if isPublicRoute request.method request.path then .ok none
  else
    match extractBearer request.authorization with
    | none => .error (.unauthorized "Bearer token required")
    | some token =>
      match verifyToken jwt config now token with
      | none => .error (.unauthorized "invalid or expired token")
      | some verified =>
        if verified.jti.any (isRevoked redis now) then .error (.unauthorized "token revoked")
        else .ok (some verified)

/-- `unwrap_or(3600)` is for a token that expires between the two verifications. -/
def logout (times : LogoutTimes) (authorization : Option String) (redis : Redis) :
    Except ApiError StatusCode × Redis :=
  if !config.authEnabled then (.ok .noContent, redis)
  else
    match extractBearer authorization with
    | none => (.ok .noContent, redis)
    | some token =>
      match (verifyToken jwt config times.verified token).bind (·.jti) with
      | none => (.ok .noContent, redis)
      | some jti =>
        let ttl := (tokenRemainingSecs jwt config times.reverified times.remaining token).getD 3600
        match revokeJti refusal redis times.stored jti ttl with
        | .error e => (.error (.internal e), redis)
        | .ok redis => (.ok .noContent, redis)

def jtiOf (token : String) : Option String :=
  (jwt config.jwtSecret config.jwtIssuer token).map (·.jti)

/-- What other logouts make of Redis: any number of them, at any times, of tokens with other
identifiers. -/
inductive OtherLogouts (jti : Option String) : Redis → Redis → Prop
  | refl (redis : Redis) : OtherLogouts jti redis redis
  | step {redis redis' : Redis} (before : OtherLogouts jti redis redis') (times : LogoutTimes)
      (authorization : Option String)
      (other : ∀ token, extractBearer authorization = some token → jtiOf jwt config token ≠ jti) :
      OtherLogouts jti redis (logout jwt refusal config times authorization redis').2

/-- No request goes on as the user of the token, at any time from `since` on. -/
def RejectedSince (token : String) (redis : Redis) (since : ℕ) : Prop :=
  ∀ redis', OtherLogouts jwt refusal config (jtiOf jwt config token) redis redis' →
    ∀ now, since ≤ now → ∀ request : Request, request.authorization = some ("Bearer " ++ token) →
      ∀ user, requireAuth jwt config redis' now request ≠ .ok (some user)

end Sessions

/-- The identifier is on record until the leeway is over: Redis has executed the command of the
logout late enough, or the logout has not stored anything and an earlier record lasts. -/
def RecordLasts (claims : JwtClaims) (times : LogoutTimes) (redis : Redis) : Prop :=
  claims.jti ≠ "" ∧
    if timestamp times.remaining < claims.exp.toNat ∧
        claims.exp.toNat < timestamp times.remaining + 2 ^ 63 then
      (timestamp times.remaining + leeway + 1) * second ≤ times.stored
    else
      ∃ entry, redis (revokedKey claims.jti) = some entry ∧
        (claims.exp.toNat + leeway + 1) * second ≤ entry.deadline

section Proofs

variable {jwt : JwtCrate} {refusal : String} {config : Config}
variable {now : ℕ} {token : String} {claims : JwtClaims} {redis redis' : Redis} {jti : String}
variable {redis : Redis}

theorem timestamp_mono {now later : ℕ} (h : now ≤ later) : timestamp now ≤ timestamp later :=
  Nat.div_le_div_right h

theorem timestamp_le_iff {now secs : ℕ} : timestamp now ≤ secs ↔ now < (secs + 1) * second := by
  unfold timestamp
  rw [← Nat.lt_succ_iff, Nat.div_lt_iff_lt_mul (by decide)]

theorem verifyToken_eq_some {user : AuthUserClaims} :
    verifyToken jwt config now token = some user ↔
      ∃ claims, jwt config.jwtSecret config.jwtIssuer token = some claims ∧
        timestamp now ≤ claims.exp.toNat + leeway ∧
        user = {
          sub := claims.sub
          email := claims.email
          name := claims.name
          role := claims.role
          provider := claims.provider
          jti := some claims.jti } := by
  unfold verifyToken decode
  rw [bind_eq_bind, bind_eq_some_iff]
  simp only [filter_eq_some_iff, Bool.not_true, Bool.false_or, decide_eq_true_eq,
    pure_def, some.injEq, and_assoc, eq_comm (b := user)]

theorem verifyToken_jti (hclaims : jwt config.jwtSecret config.jwtIssuer token = some claims)
    (hnow : timestamp now ≤ claims.exp.toNat + leeway) :
    (verifyToken jwt config now token).bind (·.jti) = some claims.jti := by
  rw [verifyToken_eq_some.mpr ⟨claims, hclaims, hnow, rfl⟩]
  rfl

theorem revokedKey_inj {jti jti' : String} (h : revokedKey jti = revokedKey jti') : jti = jti' := by
  unfold revokedKey at h
  exact String.append_right_inj _ |>.mp h

theorem revokeJti_other {now ttl : ℕ} {jti other : String}
    (h : revokeJti refusal redis now jti ttl = .ok redis') (hne : other ≠ jti) :
    redis' (revokedKey other) = redis (revokedKey other) := by
  unfold revokeJti setEx at h
  split_ifs at h
  · cases h
    rfl
  · cases h
    exact redis.set_other (fun heq => hne (revokedKey_inj heq)) _ _

theorem logout_other {times : LogoutTimes} {authorization : Option String}
    (h : ∀ token, extractBearer authorization = some token → jtiOf jwt config token ≠ some jti) :
    (logout jwt refusal config times authorization redis).2 (revokedKey jti) =
      redis (revokedKey jti) := by
  unfold logout
  split
  · rfl
  · split
    · rfl
    · next token htoken =>
      split
      · rfl
      · next jti' hjti =>
        dsimp only
        split
        · rfl
        · next redis' hrevoke =>
          refine revokeJti_other hrevoke fun heq => h token htoken ?_
          obtain ⟨user, huser, hjti⟩ := bind_eq_some_iff.mp hjti
          obtain ⟨claims, hclaims, -, rfl⟩ := verifyToken_eq_some.mp huser
          unfold jtiOf
          rw [hclaims, heq]
          exact hjti

theorem OtherLogouts.kept (h : OtherLogouts jwt refusal config (some jti) redis redis') :
    redis' (revokedKey jti) = redis (revokedKey jti) := by
  induction h with
  | refl => rfl
  | step before times authorization other ih => rw [logout_other other, ih]

theorem extractBearer_append (token : String) :
    extractBearer (some ("Bearer " ++ token)) = some token :=
  stripPrefix_append _ _

theorem requireAuth_eq_some {request : Request}
    (hheader : request.authorization = some ("Bearer " ++ token)) {user : AuthUserClaims} :
    requireAuth jwt config redis now request = .ok (some user) ↔
      config.authEnabled = true ∧ isPublicRoute request.method request.path = false ∧
        verifyToken jwt config now token = some user ∧
          user.jti.any (isRevoked redis now) = false := by
  unfold requireAuth
  rw [hheader, extractBearer_append]
  dsimp only
  cases config.authEnabled with
  | false => simp
  | true =>
    cases isPublicRoute request.method request.path with
    | true => simp
    | false =>
      cases verifyToken jwt config now token with
      | none => simp
      | some verified =>
        cases hrevoked : verified.jti.any (isRevoked redis now) with
        | true =>
          simp only [Bool.not_true, Bool.false_eq_true, if_false, hrevoked, if_true]
          constructor
          · exact nofun
          · rintro ⟨-, -, h, hnot⟩
            cases h
            exact absurd (hrevoked.symm.trans hnot) nofun
        | false =>
          simp only [Bool.not_true, Bool.false_eq_true, if_false, hrevoked]
          constructor
          · intro h
            cases h
            exact ⟨trivial, trivial, rfl, hrevoked⟩
          · rintro ⟨-, -, h, -⟩
            cases h
            rfl

/-- With authentication, what is rejected at all later times is what is on record as long as the
token would be accepted. -/
theorem rejectedSince_iff_revoked (hauth : config.authEnabled = true)
    (hclaims : jwt config.jwtSecret config.jwtIssuer token = some claims) {since : ℕ} :
    RejectedSince jwt refusal config token redis since ↔
      ∀ now, since ≤ now → now < (claims.exp.toNat + leeway + 1) * second →
        isRevoked redis now claims.jti = true := by
  have hjti : jtiOf jwt config token = some claims.jti := by
    unfold jtiOf
    rw [hclaims]
    rfl
  constructor
  · intro h now hsince hnow
    refine Bool.of_not_eq_false fun hnot => ?_
    have hverify := verifyToken_eq_some.mpr ⟨claims, hclaims, timestamp_le_iff.mpr hnow, rfl⟩
    have hroute : isPublicRoute "GET" "/api/v1/vms" = false := by decide +kernel
    exact h redis (.refl redis) now hsince ⟨"GET", "/api/v1/vms", _⟩ rfl _
      ((requireAuth_eq_some rfl).mpr ⟨hauth, hroute, hverify, hnot⟩)
  · intro h redis' hlater now hsince request hheader user haccepted
    obtain ⟨-, -, hverify, hnot⟩ := (requireAuth_eq_some hheader).mp haccepted
    obtain ⟨claims', hclaims', hnow, rfl⟩ := verifyToken_eq_some.mp hverify
    cases hclaims.symm.trans hclaims'
    rw [hjti] at hlater
    have hrevoked := h now hsince (timestamp_le_iff.mp hnow)
    have hsame : isRevoked redis' now claims.jti = isRevoked redis now claims.jti := by
      unfold isRevoked Expiring.get
      rw [hlater.kept]
    exact absurd (hnot.symm.trans (hsame.trans hrevoked)) nofun

/-- What is left is stored if it is a positive number of 64 bits; otherwise nothing is. -/
theorem tokenRemainingSecs_eq {verified now : ℕ}
    (hclaims : jwt config.jwtSecret config.jwtIssuer token = some claims)
    (hverified : timestamp verified ≤ claims.exp.toNat + leeway)
    (hnow : timestamp now ≤ claims.exp.toNat + leeway) :
    tokenRemainingSecs jwt config verified now token =
      some (if timestamp now < claims.exp.toNat ∧ claims.exp.toNat < timestamp now + 2 ^ 63 then
        claims.exp.toNat - timestamp now else 0) := by
  have hverify := verifyToken_eq_some.mpr ⟨claims, hclaims, hverified, rfl⟩
  have hexp := claims.exp.toNat_lt
  unfold leeway at hnow
  unfold tokenRemainingSecs
  rw [hverify]
  simp only [decode, hclaims, Bool.not_false, Bool.true_or, filter_some, if_true,
    bind_eq_bind, bind_some, pure_def]
  rw [Int.bmod]
  split_ifs <;> simp only [some.injEq] <;> omega

theorem logout_record (hauth : config.authEnabled = true)
    (hclaims : jwt config.jwtSecret config.jwtIssuer token = some claims) {times : LogoutTimes}
    (hreturned : timestamp times.returned ≤ claims.exp.toNat + leeway)
    (h : logout jwt refusal config times (some ("Bearer " ++ token)) redis =
      (.ok .noContent, redis')) (hjti : claims.jti ≠ "") :
    redis' (revokedKey claims.jti) =
      if timestamp times.remaining < claims.exp.toNat ∧
          claims.exp.toNat < timestamp times.remaining + 2 ^ 63 then
        some ⟨"1", times.stored + (claims.exp.toNat - timestamp times.remaining) * second⟩
      else redis (revokedKey claims.jti) := by
  have hremaining := timestamp_mono (Nat.le_trans times.remaining_le times.stored_le)
  have hreverified := timestamp_mono times.reverified_le
  have hverified := timestamp_mono times.verified_le
  unfold logout at h
  rw [hauth, extractBearer_append] at h
  simp only [Bool.not_true, Bool.false_eq_true, if_false] at h
  rw [verifyToken_jti hclaims (by omega), tokenRemainingSecs_eq hclaims (by omega) (by omega)] at h
  dsimp only [getD_some] at h
  unfold revokeJti setEx at h
  have hempty : claims.jti.isEmpty = false := by simpa using hjti
  rw [hempty, Bool.false_or] at h
  by_cases hleft : timestamp times.remaining < claims.exp.toNat ∧
      claims.exp.toNat < timestamp times.remaining + 2 ^ 63
  · rw [if_pos hleft] at h ⊢
    have hzero : (claims.exp.toNat - timestamp times.remaining == 0) = false := by
      rw [beq_eq_false_iff_ne]
      omega
    rw [hzero, if_neg Bool.false_ne_true] at h
    by_cases hlarge : 2 ^ 63 ≤ times.stored / 10 ^ 6 +
        (claims.exp.toNat - timestamp times.remaining) * 1000
    · rw [if_pos hlarge] at h
      cases h
    · rw [if_neg hlarge] at h
      cases h
      exact redis.set_same _ _ _
  · rw [if_neg hleft] at h ⊢
    cases h
    rfl

theorem isRevoked_eq_true :
    isRevoked redis now jti = true ↔
      jti ≠ "" ∧ (redis.get now (revokedKey jti)).isSome = true := by
  unfold isRevoked
  split_ifs with h
  · simp [String.isEmpty_iff.mp h]
  · simp [mt String.isEmpty_iff.mpr h]

/-- A logout rejects the token for good only if the token is accepted no more when the logout
returns, or if the record outlives the leeway, for which the logout itself does nothing. -/
theorem rejectedSince_logout_iff {times : LogoutTimes} {token : String} {redis redis' : Redis}
    (h : logout jwt refusal config times (some ("Bearer " ++ token)) redis =
      (.ok .noContent, redis')) :
    RejectedSince jwt refusal config token redis' times.returned ↔
      config.authEnabled = false ∨
        ∀ claims, jwt config.jwtSecret config.jwtIssuer token = some claims →
          claims.exp.toNat + leeway < timestamp times.returned ∨
            RecordLasts claims times redis := by
  cases hauth : config.authEnabled with
  | false =>
    refine ⟨fun _ => .inl rfl, fun _ redis' _ now _ request hheader user haccepted => ?_⟩
    exact absurd (hauth.symm.trans ((requireAuth_eq_some hheader).mp haccepted).1) nofun
  | true =>
    cases hclaims : jwt config.jwtSecret config.jwtIssuer token with
    | none =>
      refine ⟨fun _ => .inr nofun, fun _ redis' _ now _ request hheader user haccepted => ?_⟩
      obtain ⟨claims, hsome, -⟩ := verifyToken_eq_some.mp
        ((requireAuth_eq_some hheader).mp haccepted).2.2.1
      exact absurd (hclaims.symm.trans hsome) nofun
    | some claims =>
      simp only [Bool.true_eq_false, false_or, some.injEq, forall_eq']
      rw [rejectedSince_iff_revoked hauth hclaims]
      by_cases hreturned : claims.exp.toNat + leeway < timestamp times.returned
      · refine ⟨fun _ => .inl hreturned, fun _ now hsince hnow => ?_⟩
        have hlater := timestamp_mono hsince
        have hbefore := timestamp_le_iff.mpr hnow
        omega
      · rw [or_iff_right hreturned]
        have hearly := Nat.not_lt.mp hreturned
        have hend := timestamp_le_iff.mp hearly
        simp only [isRevoked_eq_true]
        by_cases hjti : claims.jti = ""
        · exact ⟨fun hall => absurd hjti (hall _ (Nat.le_refl _) hend).1,
            fun hlasts => absurd hjti hlasts.1⟩
        · simp only [RecordLasts, ne_eq, hjti, not_false_eq_true, true_and]
          rw [Expiring.get_isSome_until hend, logout_record hauth hclaims hearly h hjti]
          split_ifs with hleft
          · simp only [some.injEq, exists_eq_left', second]
            omega
          · rfl

end Proofs

def sessionClaims : JwtClaims where
  sub := "alice"
  email := none
  name := none
  role := "operator"
  provider := "local"
  iss := "zyvor"
  exp := 1000
  iat := 0
  jti := "6f1c"

def sessionJwt : JwtCrate := fun _ _ token => if token = "token" then some sessionClaims else none

def sessionConfig : Config := { authEnabled := true, jwtSecret := "secret", jwtIssuer := "zyvor" }

def atOnce (now : ℕ) : LogoutTimes where
  verified := now
  reverified := now
  remaining := now
  stored := now
  returned := now
  verified_le := Nat.le_refl _
  reverified_le := Nat.le_refl _
  remaining_le := Nat.le_refl _
  stored_le := Nat.le_refl _

def sessionLogout (now : ℕ) : Except ApiError StatusCode × Redis :=
  logout sessionJwt "refused" sessionConfig (atOnce now) (some ("Bearer " ++ "token")) fun _ => none

/-- Redis takes a minute to store the record. -/
def slowStore : LogoutTimes :=
  { atOnce (990 * second) with
    stored := 1051 * second
    returned := 1051 * second
    remaining_le := by decide
    stored_le := by decide }

def slowLogout : Except ApiError StatusCode × Redis :=
  logout sessionJwt "refused" sessionConfig slowStore (some ("Bearer " ++ "token")) fun _ => none

theorem late_logout_rejected :
    (slowLogout.2.get (1051 * second) (revokedKey "6f1c")).isSome = true ∧
    RejectedSince sessionJwt "refused" sessionConfig "token" slowLogout.2 (1051 * second) := by
  have h : slowLogout = (.ok .noContent, slowLogout.2) := Prod.ext rfl rfl
  refine ⟨by decide +kernel, (rejectedSince_logout_iff h).mpr (.inr ?_)⟩
  intro claims hclaims
  cases hclaims
  exact .inr ⟨by decide, by decide⟩

/-- A logout ten seconds before the session ends: thirty seconds after its end the token is accepted
again. -/
theorem accepted_after_logout : (sessionLogout (990 * second)).1 = .ok .noContent ∧
    requireAuth sessionJwt sessionConfig (sessionLogout (990 * second)).2 (1030 * second)
        ⟨"GET", "/api/v1/vms", some "Bearer token"⟩ =
      .ok (some {
        sub := "alice"
        email := none
        name := none
        role := "operator"
        provider := "local"
        jti := some "6f1c" }) := by
  decide +kernel

end Guestkit.Api
