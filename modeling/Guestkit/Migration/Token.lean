import Guestkit.Agent.Runtime
import Guestkit.Migration.Score
import Guestkit.Plan.ExecutorLive

/-! Readiness tokens: what a check before a migration signs, and what is verified before a
cutover. -/

namespace Guestkit.Migration

open Guestkit Lib Lib.Text

@[ext]
structure ReadinessToken where
  token : String
  score : Float
  readiness : ReadinessLevel
  baselineId : String
  expiresAt : String

/-- The functions of `sha2`, `chrono` and `serde_json` that tokens go through. -/
structure TokenCrates where
  sha256 : Bytes → Bytes
  parseFromRfc3339 : String → Except String Int
  toRfc3339 : Int → String
  readToken : Json → Option ReadinessToken

abbrev Key := { bytes : Bytes // bytes.length = 32 }

/-- What happens when the key is asked for: whether its file can be read, the random bytes of a new
key, and the errors of the file system.  A write that fails leaves some file behind, or none. -/
structure KeyIo where
  readable : Bool
  random : Key
  createDirAll : Except String Unit
  write : Except (String × Option Bytes) Unit

def makeKey (io : KeyIo) (file : Option Bytes) : Except String Key × Option Bytes :=
  match io.createDirAll with
  | .error e => (.error e, file)
  | .ok () =>
    match io.write with
    | .error (e, left) => (.error e, left)
    | .ok () => (.ok io.random, some io.random.1)

/-- A key file that cannot be read is replaced like one that is missing. -/
def tokenKey (io : KeyIo) (file : Option Bytes) : Except String Key × Option Bytes :=
  match if io.readable then file else none with
  | some bytes => if h : bytes.length = 32 then (.ok ⟨bytes, h⟩, file) else makeKey io file
  | none => makeKey io file

def keyBlock (mask : UInt8) (key : Key) : Bytes :=
  key.1.map (mask ^^^ ·) ++ List.replicate 32 mask

def hmacSha256 (sha256 : Bytes → Bytes) (key : Key) (message : Bytes) : Bytes :=
  sha256 (keyBlock 0x5c key ++ sha256 (keyBlock 0x36 key ++ message))

section Tokens

variable (crates : TokenCrates) (std : StdText)

def message (score : Float) (baselineId expiresAt : String) : String :=
  std.display score ++ "|" ++ baselineId ++ "|" ++ expiresAt

def tag (key : Key) (text : String) : String :=
  Plan.hexEncode (hmacSha256 crates.sha256 key text.toUTF8.data.toList)

def signToken (io : KeyIo) (score : Float) (baselineId expiresAt : String) (file : Option Bytes) :
    Except String String × Option Bytes :=
  let (key, file) := tokenKey io file
  (key.map fun key => tag crates key (message std score baselineId expiresAt), file)

def verifyToken (io : KeyIo) (now : Int) (token : ReadinessToken) (file : Option Bytes) :
    Except String Unit × Option Bytes :=
  match crates.parseFromRfc3339 token.expiresAt with
  | .error _ => (.error "token expiry", file)
  | .ok expires =>
    if now > expires then (.error s!"readiness token expired at {token.expiresAt}", file)
    else
      match signToken crates std io token.score token.baselineId token.expiresAt file with
      | (.error e, file) => (.error e, file)
      | (.ok expected, file) =>
        if expected ≠ token.token then (.error "readiness token signature mismatch", file)
        else (.ok (), file)

def tokenValidity : Int := 3600 * 10 ^ 9

/-- `evidence` and `baseline` are what the collectors of the agent return, `now` is the time at
which the token is made. -/
def preMigrationCheck (io : KeyIo) (target : String) (evidence : Except String EvidenceSnapshot)
    (assessedAt : String) (baseline : Except String String) (now : Int) (file : Option Bytes) :
    Except String ReadinessToken × Option Bytes :=
  match evidence, baseline with
  | .error e, _ => (.error e, file)
  | .ok _, .error e => (.error e, file)
  | .ok ev, .ok baselineId =>
    let assessment := assessMigration std ev (analyzeBootability std ev (.parse std target)) target
      true assessedAt
    let expiresAt := crates.toRfc3339 (now + tokenValidity)
    match signToken crates std io assessment.overallScore baselineId expiresAt file with
    | (.error e, file) => (.error e, file)
    | (.ok token, file) =>
      (.ok
        { token
          score := assessment.overallScore
          readiness := assessment.readiness
          baselineId
          expiresAt }, file)

def ReadinessToken.signed (token : ReadinessToken) : String :=
  message std token.score token.baselineId token.expiresAt

variable {crates std}

theorem signToken_eq (io : KeyIo) (score : Float) (baselineId expiresAt : String)
    (file : Option Bytes) :
    signToken crates std io score baselineId expiresAt file =
      ((tokenKey io file).1.map fun key => tag crates key (message std score baselineId expiresAt),
        (tokenKey io file).2) := rfl

theorem verifyToken_ok_iff {io : KeyIo} {now : Int} {token : ReadinessToken}
    {file : Option Bytes} :
    (verifyToken crates std io now token file).1 = .ok () ↔
      ∃ expires key, crates.parseFromRfc3339 token.expiresAt = .ok expires ∧ now ≤ expires ∧
        (tokenKey io file).1 = .ok key ∧ token.token = tag crates key (token.signed std) := by
  unfold verifyToken
  cases hparse : crates.parseFromRfc3339 token.expiresAt with
  | error e => simp
  | ok expires =>
    dsimp only
    rw [signToken_eq]
    by_cases hnow : now > expires
    · rw [if_pos hnow]
      simp [hnow]
    · rw [if_neg hnow]
      cases hkey : (tokenKey io file).1 with
      | error e => simp [Except.map]
      | ok key =>
        have htag : message std token.score token.baselineId token.expiresAt = token.signed std :=
          rfl
        by_cases h : token.token = tag crates key (token.signed std)
        · simp [Except.map, htag, h, not_lt.mp hnow]
        · simp [Except.map, htag, h, Ne.symm h]

theorem tokenKey_kept (key : Key) {io : KeyIo} (h : io.readable) :
    tokenKey io (some key.1) = (.ok key, some key.1) := by
  rw [tokenKey, if_pos h]
  exact dif_pos key.2

theorem tokenKey_file {io : KeyIo} {file : Option Bytes} {key : Key}
    (h : (tokenKey io file).1 = .ok key) :
    (tokenKey io file).2 = some key.1 := by
  unfold tokenKey makeKey at *
  grind

theorem preMigrationCheck_ok {io : KeyIo} {target assessedAt : String} {now : Int}
    {evidence : Except String EvidenceSnapshot} {baseline : Except String String}
    {file : Option Bytes} {token : ReadinessToken}
    (h : (preMigrationCheck crates std io target evidence assessedAt baseline now file).1 =
      .ok token) :
    (∃ key, (tokenKey io file).1 = .ok key ∧ token.token = tag crates key (token.signed std)) ∧
      token.expiresAt = crates.toRfc3339 (now + tokenValidity) := by
  unfold preMigrationCheck at h
  cases evidence with
  | error e => cases h
  | ok ev =>
    cases baseline with
    | error e => cases h
    | ok baselineId =>
      dsimp only at h
      cases hkey : (tokenKey io file).1 with
      | error e =>
        rw [signToken_eq, hkey] at h
        cases h
      | ok key =>
        rw [signToken_eq, hkey] at h
        cases h
        exact ⟨⟨key, rfl, rfl⟩, rfl⟩

end Tokens

end Guestkit.Migration
