import Guestkit.Lib.Hoare
import Guestkit.Lib.Json
import Guestkit.Migration.Score

/-! Cutover passports: the document that certifies a guest for cutover, and its verification, which
decides whether the guest may be converted.  The signature is over the document without it.  A build
without the feature `agent` cannot check signatures. -/

namespace Guestkit.Assurance

open Lib Lib.Text Migration

structure ImageFingerprint where
  path : String
  sizeBytes : UInt64
  contentSha256 : Option String

structure EvidenceDigest where
  os : String
  architecture : String
  bootloader : String
  rootFilesystem : String
  kernelCount : UInt64
  fstabEntries : UInt64
  virtioModulesLoaded : Bool
  vmTools : List String
  selinux : String

structure PassportScores where
  boot : Float
  migration : Float
  readiness : ReadinessLevel

structure PassportFinding where
  id : String
  title : String
  message : String
  severity : String

structure PlanDigest where
  profile : String
  operationCount : UInt64
  sha256 : String
  operationIds : List String

structure PolicyVerdict where
  passed : Bool
  summary : String
  failures : List String

structure WindowsPassportFlags where
  isWindows : Bool := false
  bitlockerBlocker : Bool := false
  bitlockerDetected : Bool := false
  rdpEnabled : Bool := false
  virtioDriverCount : UInt64 := 0
  windowsOfflineReady : Bool := false
  systemReservedLayout : Bool := false
  bcdStoreFound : Bool := false
  hotfixCount : UInt64 := 0
  hfMigPresent : Bool := false
  driverSignatureEnforcement : Option Bool := none
  activationChannel : Option String := none
  ghostNicCount : UInt64 := 0
  staticNicCount : UInt64 := 0
  bitlockerUncertain : Bool := false

structure LiveAttestation where
  source : String
  readinessScore : Option Float
  detail : Option Json
  error : Option String

structure SuiteHandoff where
  «export» : String
  convertDeploy : String
  assurance : String
  nextStep : String

structure PassportSignature where
  algorithm : String
  publicKeyHex : String
  signatureHex : String

structure CutoverPassport where
  schemaVersion : String
  kind : String
  generatedAt : String
  toolVersion : String
  target : String
  image : ImageFingerprint
  evidenceSchema : String
  evidenceDigest : EvidenceDigest
  scores : PassportScores
  criticalBlockers : List PassportFinding
  recommendedActions : List String
  fixPlan : PlanDigest
  policy : Option PolicyVerdict
  windows : WindowsPassportFlags
  liveAttestation : Option LiveAttestation
  suite : SuiteHandoff
  hardBlocked : Bool
  issuer : Option String
  expiresAt : Option String
  signature : Option PassportSignature

def passportSchemaVersion : String := "1"

structure PassportVerifyOptions where
  failBelow : Option Float := none
  requireSignature : Bool := false
  publicKey : Option String := none
  trustKeysFile : Option String := none
  maxAgeHours : Option UInt64 := none

abbrev PublicKey := { bytes : List UInt8 // bytes.length = 32 }

abbrev SignatureBytes := { bytes : List UInt8 // bytes.length = 64 }

/-- What verification is given: the functions of `chrono`, `serde_json`, `hex` and `ed25519_dalek`,
and the files.  Times are in nanoseconds.  `fromBytes` says whether the bytes are those of a key. -/
structure Outside where
  parseFromRfc3339 : String → Except String Int
  toVec : CutoverPassport → Except String (List UInt8)
  decode : String → Except String (List UInt8)
  fromBytes : PublicKey → Except String Unit
  verify : PublicKey → List UInt8 → SignatureBytes → Except String Unit
  readToString : String → Except String String

def isAsciiHexdigit (c : Char) : Bool := (digit 16 c).isSome

section Verify

variable (outside : Outside)

def trustKeys (path : String) : ℕ → List String → Except String (List String)
  | _, [] => .ok []
  | i, line :: rest =>
    let line := trim line
    if line.isEmpty || startsWith "#" line then trustKeys path (i + 1) rest
    else
      let hexKey := (splitWhitespace line).head?.getD line
      if hexKey.utf8ByteSize ≠ 64 || !hexKey.toList.all isAsciiHexdigit then
        .error s!"trust keys {path}:{i + 1}: expected 64 hex chars for Ed25519 public key"
      else do
        let keys ← trustKeys path (i + 1) rest
        return hexKey.toLower :: keys

def loadTrustKeys (path : String) : Except String (List String) := do
  let text ← withContext s!"read trust keys {path}" (outside.readToString path)
  let keys ← trustKeys path 0 (lines text)
  bailIf keys.isEmpty s!"trust keys file {path} has no public keys"
  return keys

def signingPayload (passport : CutoverPassport) : Except String (List UInt8) :=
  outside.toVec { passport with signature := none }

/-- The first `n` bytes; where the source would cut a character and panic, it is left out. -/
def firstBytes (n : ℕ) : List Char → List Char
  | [] => []
  | c :: cs => if c.utf8Size ≤ n then c :: firstBytes (n - c.utf8Size) cs else []

def checkTrusted (trustKeys : Option (List String)) (embedded : String) : Except String Unit :=
  match trustKeys with
  | some keys =>
    if keys.contains embedded then .ok ()
    else
      let first := String.ofList (firstBytes 16 embedded.toList)
      .error s!"passport signing key {first}… is not in --trust-keys allowlist"
  | none => .ok ()

def chooseKey (publicKey : Option String) (embedded : String) : Except String String :=
  match publicKey with
  | some key =>
    if key.toLower ≠ embedded then
      .error "--public-key does not match signature.public_key_hex embedded in passport"
    else .ok key.toLower
  | none => .ok embedded

def sized (n : ℕ) (error : String) (bytes : List UInt8) :
    Except String { bytes : List UInt8 // bytes.length = n } :=
  if h : bytes.length = n then .ok ⟨bytes, h⟩ else .error error

def decodeKey (hex : String) : Except String PublicKey := do
  let bytes ← withContext "decode public key hex" (outside.decode hex)
  let key ← sized 32 "public key must be 32 bytes" bytes
  match outside.fromBytes key with
  | .ok () => return key
  | .error e => .error s!"invalid public key: {e}"

def decodeSignature (hex : String) : Except String SignatureBytes := do
  let bytes ← withContext "decode signature hex" (outside.decode hex)
  sized 64 "signature must be 64 bytes" bytes

def verifySignatureAgent (passport : CutoverPassport) (publicKey : Option String)
    (trustKeys : Option (List String)) : Except String Unit :=
  match passport.signature with
  | none => .error "passport has no signature"
  | some sig => do
    bailIf (sig.algorithm ≠ "ed25519") s!"unsupported signature algorithm {sig.algorithm}"
    let embedded := sig.publicKeyHex.toLower
    checkTrusted trustKeys embedded
    let hex ← chooseKey publicKey embedded
    let key ← decodeKey outside hex
    let signature ← decodeSignature outside sig.signatureHex
    let payload ← signingPayload outside passport
    match outside.verify key payload signature with
    | .ok () => return ()
    | .error e => .error s!"passport signature verification failed: {e}"

def verifySignatureNoAgent (passport : CutoverPassport) : Except String Unit :=
  bailIf passport.signature.isSome
    "passport has a signature but this build lacks --features agent to verify Ed25519"

def verifySignature (agent : Bool) (passport : CutoverPassport) (publicKey : Option String)
    (trustKeys : Option (List String)) : Except String Unit :=
  if agent then verifySignatureAgent outside passport publicKey trustKeys
  else verifySignatureNoAgent passport

def checkExpiry (now : Int) (passport : CutoverPassport) : Except String Unit :=
  match passport.expiresAt with
  | none => .ok ()
  | some expires => do
    let exp ← withContext s!"parse expires_at '{expires}'" (outside.parseFromRfc3339 expires)
    bailIf (now > exp) s!"passport expired at {expires}"

def age (now generated : Int) : ℕ := (max ((now - generated).tdiv (10 ^ 9)) 0).toNat

def saturatingMul (n : UInt64) (m : ℕ) : ℕ := min (n.toNat * m) (2 ^ 64 - 1)

def checkAge (now : Int) (maxAgeHours : Option UInt64) (passport : CutoverPassport) :
    Except String Unit :=
  match maxAgeHours with
  | none => .ok ()
  | some maxAge => do
    let generated ← withContext s!"parse generated_at '{passport.generatedAt}'"
      (outside.parseFromRfc3339 passport.generatedAt)
    let age := age now generated
    let limit := saturatingMul maxAge 3600
    bailIf (age > limit)
      s!"passport generated_at is {age}s old (max-age-hours={maxAge} → {limit}s)"

def floatMin (x y : Float) : Float :=
  if x.isNaN then y else if y.isNaN then x else if y < x then y else x

def checkScore (std : StdText) (failBelow : Option Float) (passport : CutoverPassport) :
    Except String Unit :=
  match failBelow with
  | none => .ok ()
  | some threshold =>
    let score := floatMin passport.scores.boot passport.scores.migration
    let scores := std.displayRounded score ++ " (min of boot " ++
      std.displayRounded passport.scores.boot ++ " / migration " ++
      std.displayRounded passport.scores.migration ++ ")"
    bailIf (score < threshold)
      s!"passport score {scores} below --fail-below {std.display threshold}"

def loadTrusted (opts : PassportVerifyOptions) : Except String (Option (List String)) :=
  match opts.trustKeysFile with
  | some path => return some (← loadTrustKeys outside path)
  | none => return none

def checkSignature (agent : Bool) (opts : PassportVerifyOptions) (passport : CutoverPassport) :
    Except String Unit := do
  let trusted ← loadTrusted outside opts
  if opts.requireSignature || passport.signature.isSome || trusted.isSome then
    bailIf (trusted.isSome && passport.signature.isNone) "--trust-keys requires a signed passport"
    verifySignature outside agent passport opts.publicKey trusted
  else return ()

/-- The clock is read once for each of the two times that are checked. -/
def verifyPassport (std : StdText) (agent : Bool) (expiryNow ageNow : Int)
    (passport : CutoverPassport) (opts : PassportVerifyOptions) : Except String Unit := do
  let versions := passport.schemaVersion ++ " (expected " ++ passportSchemaVersion ++ ")"
  bailIf (passport.schemaVersion ≠ passportSchemaVersion)
    s!"unsupported passport schema_version {versions}"
  bailIf passport.hardBlocked
    "passport hard-blocked (BitLocker and/or boot/migration blockers) — cutover refused"
  bailIf passport.windows.bitlockerBlocker
    "BitLocker protection is active — suspend/escrow before cutover"
  checkExpiry outside expiryNow passport
  checkAge outside ageNow opts.maxAgeHours passport
  checkScore std opts.failBelow passport
  checkSignature outside agent opts passport

end Verify

/-- The passport carries an Ed25519 signature over all that is in it but the signature, and it is
valid under the key. -/
def SignedUnder (outside : Outside) (passport : CutoverPassport) (hex : String) : Prop :=
  ∃ sig key signature payload, passport.signature = some sig ∧ sig.algorithm = "ed25519" ∧
    outside.decode hex = .ok key.1 ∧ outside.fromBytes key = .ok () ∧
    outside.decode sig.signatureHex = .ok signature.1 ∧
    outside.toVec { passport with signature := none } = .ok payload ∧
    outside.verify key payload signature = .ok ()

section Spec

variable {outside : Outside} {passport : CutoverPassport} {opts : PassportVerifyOptions}
  {agent : Bool}
variable {publicKey : Option String} {trusted : Option (List String)}

theorem checkExpiry_ok {now : Int} (h : checkExpiry outside now passport = .ok ())
    {expires : String} (hexpires : passport.expiresAt = some expires) :
    ∃ exp, outside.parseFromRfc3339 expires = .ok exp ∧ now ≤ exp := by
  unfold checkExpiry at h
  rw [hexpires] at h
  obtain ⟨exp, hparse, h⟩ := except_ok_bind_iff.mp h
  exact ⟨exp, withContext_eq_ok.mp hparse, Int.not_lt.mp (bailIf_eq_ok.mp h)⟩

theorem lt_of_age_le {now generated : Int} {n : ℕ} (h : age now generated ≤ n) :
    now < generated + (n + 1) * 10 ^ 9 := by
  unfold age at h
  have hlt := Int.lt_tdiv_add_one_mul_self (now - generated) (show (0 : Int) < 10 ^ 9 by decide)
  omega

theorem saturatingMul_le (n : UInt64) (m : ℕ) : saturatingMul n m ≤ n.toNat * m :=
  Nat.min_le_left _ _

theorem checkAge_ok {now : Int} {hours : UInt64}
    (h : checkAge outside now (some hours) passport = .ok ()) :
    ∃ generated, outside.parseFromRfc3339 passport.generatedAt = .ok generated ∧
      now < generated + (hours.toNat * 3600 + 1) * 10 ^ 9 := by
  obtain ⟨generated, hparse, h⟩ := except_ok_bind_iff.mp h
  have hle := Nat.le_of_not_lt (bailIf_eq_ok.mp h)
  have hage := lt_of_age_le (Nat.le_trans hle (saturatingMul_le hours 3600))
  exact ⟨generated, withContext_eq_ok.mp hparse, by simpa using hage⟩

theorem checkTrusted_ok {keys : List String} {embedded : String}
    (h : checkTrusted (some keys) embedded = .ok ()) : embedded ∈ keys := by
  unfold checkTrusted at h
  dsimp only at h
  split at h
  · next hmem => exact List.contains_iff_mem.mp hmem
  · cases h

theorem chooseKey_ok {embedded hex : String} (h : chooseKey publicKey embedded = .ok hex) :
    hex = embedded ∧ ∀ key, publicKey = some key → key.toLower = embedded := by
  unfold chooseKey at h
  cases publicKey with
  | none =>
    cases h
    exact ⟨rfl, nofun⟩
  | some key =>
    dsimp only at h
    split at h
    · cases h
    · next heq =>
      cases h
      have heq := not_not.mp heq
      exact ⟨heq, fun key' hkey => by cases hkey; exact heq⟩

theorem sized_ok {n : ℕ} {error : String} {bytes : List UInt8}
    {value : { bytes : List UInt8 // bytes.length = n }} (h : sized n error bytes = .ok value) :
    bytes = value.1 := by
  unfold sized at h
  split at h
  · cases h
    rfl
  · cases h

theorem decodeKey_ok {hex : String} {key : PublicKey} (h : decodeKey outside hex = .ok key) :
    outside.decode hex = .ok key.1 ∧ outside.fromBytes key = .ok () := by
  obtain ⟨bytes, hdecode, h⟩ := except_ok_bind_iff.mp h
  obtain ⟨key', hsized, h⟩ := except_ok_bind_iff.mp h
  split at h
  · next hfrom =>
    cases h
    rw [sized_ok hsized] at hdecode
    exact ⟨withContext_eq_ok.mp hdecode, hfrom⟩
  · cases h

theorem decodeSignature_ok {hex : String} {signature : SignatureBytes}
    (h : decodeSignature outside hex = .ok signature) : outside.decode hex = .ok signature.1 := by
  obtain ⟨bytes, hdecode, hsized⟩ := except_ok_bind_iff.mp h
  rw [sized_ok hsized] at hdecode
  exact withContext_eq_ok.mp hdecode

theorem verifySignatureAgent_ok
    (h : verifySignatureAgent outside passport publicKey trusted = .ok ()) :
    ∃ sig, passport.signature = some sig ∧
      SignedUnder outside passport sig.publicKeyHex.toLower ∧
      (∀ key, publicKey = some key → key.toLower = sig.publicKeyHex.toLower) ∧
      ∀ keys, trusted = some keys → sig.publicKeyHex.toLower ∈ keys := by
  unfold verifySignatureAgent at h
  cases hsig : passport.signature with
  | none =>
    rw [hsig] at h
    cases h
  | some sig =>
    rw [hsig] at h
    simp only [except_ok_bind_iff] at h
    obtain ⟨_, halgorithm, _, htrusted, hex, hchoose, key, hkey, signature, hsignature, payload,
      hpayload, h⟩ := h
    obtain ⟨rfl, hpublic⟩ := chooseKey_ok hchoose
    obtain ⟨hdecode, hfrom⟩ := decodeKey_ok hkey
    refine ⟨sig, rfl, ⟨sig, key, signature, payload, hsig, not_not.mp (bailIf_eq_ok.mp halgorithm),
      hdecode, hfrom, decodeSignature_ok hsignature, hpayload, ?_⟩, hpublic, ?_⟩
    · split at h
      · next hverify => exact hverify
      · cases h
    · rintro keys rfl
      exact checkTrusted_ok htrusted

theorem loadTrusted_ok (h : loadTrusted outside opts = .ok trusted) {path : String}
    (hpath : opts.trustKeysFile = some path) :
    ∃ keys, loadTrustKeys outside path = .ok keys ∧ trusted = some keys := by
  unfold loadTrusted at h
  rw [hpath] at h
  obtain ⟨keys, hload, h⟩ := except_ok_bind_iff.mp h
  cases h
  exact ⟨keys, hload, rfl⟩

theorem verifySignature_ok (h : verifySignature outside agent passport publicKey trusted = .ok ())
    (hagent : agent = true ∨ passport.signature.isSome) :
    verifySignatureAgent outside passport publicKey trusted = .ok () := by
  unfold verifySignature at h
  split at h
  · exact h
  · next hnot => exact absurd (hagent.resolve_left hnot) (bailIf_eq_ok.mp h)

/-- A signature is checked whenever the passport has one, a trust file is given, or, by a build that
can, one is required. -/
theorem checkSignature_ok (h : checkSignature outside agent opts passport = .ok ())
    (hasked : passport.signature.isSome ∨ opts.trustKeysFile.isSome ∨
      agent = true ∧ opts.requireSignature = true) :
    ∃ sig, passport.signature = some sig ∧
      SignedUnder outside passport sig.publicKeyHex.toLower ∧
      (∀ key, opts.publicKey = some key → key.toLower = sig.publicKeyHex.toLower) ∧
      ∀ path, opts.trustKeysFile = some path →
        ∃ keys, loadTrustKeys outside path = .ok keys ∧ sig.publicKeyHex.toLower ∈ keys := by
  obtain ⟨trusted, hload, h⟩ := except_ok_bind_iff.mp h
  have htrusted : opts.trustKeysFile.isSome → trusted.isSome := by
    intro hsome
    obtain ⟨path, hpath⟩ := Option.isSome_iff_exists.mp hsome
    obtain ⟨keys, -, rfl⟩ := loadTrusted_ok hload hpath
    rfl
  rw [if_pos (by
    obtain hsigned | hfile | ⟨-, hrequired⟩ := hasked
    · simp [hsigned]
    · simp [htrusted hfile]
    · simp [hrequired])] at h
  obtain ⟨_, hbail, h⟩ := except_ok_bind_iff.mp h
  have hagent : agent = true ∨ passport.signature.isSome := by
    obtain hsigned | hfile | ⟨hagent, -⟩ := hasked
    · exact .inr hsigned
    · have hnot := bailIf_eq_ok.mp hbail
      rw [htrusted hfile] at hnot
      exact .inr (Option.isSome_iff_ne_none.mpr (by simpa using hnot))
    · exact .inl hagent
  obtain ⟨sig, hsig, hvalid, hpublic, hkeys⟩ :=
    verifySignatureAgent_ok (verifySignature_ok h hagent)
  refine ⟨sig, hsig, hvalid, hpublic, fun path hpath => ?_⟩
  obtain ⟨keys, hfile, rfl⟩ := loadTrusted_ok hload hpath
  exact ⟨keys, hfile, hkeys keys rfl⟩

/-- A passport that is verified is not blocked, not expired and not too old, and where a signature
is called for, it is signed under the key that it carries, which is the given one and trusted. -/
theorem verifyPassport_ok {std : StdText} {expiryNow ageNow : Int}
    (h : verifyPassport outside std agent expiryNow ageNow passport opts = .ok ()) :
    passport.hardBlocked = false ∧ passport.windows.bitlockerBlocker = false ∧
      (∀ expires, passport.expiresAt = some expires →
        ∃ exp, outside.parseFromRfc3339 expires = .ok exp ∧ expiryNow ≤ exp) ∧
      (∀ hours, opts.maxAgeHours = some hours →
        ∃ generated, outside.parseFromRfc3339 passport.generatedAt = .ok generated ∧
          ageNow < generated + (hours.toNat * 3600 + 1) * 10 ^ 9) ∧
      (passport.signature.isSome ∨ opts.trustKeysFile.isSome ∨
          agent = true ∧ opts.requireSignature = true →
        ∃ sig, passport.signature = some sig ∧
          SignedUnder outside passport sig.publicKeyHex.toLower ∧
          (∀ key, opts.publicKey = some key → key.toLower = sig.publicKeyHex.toLower) ∧
          ∀ path, opts.trustKeysFile = some path →
            ∃ keys, loadTrustKeys outside path = .ok keys ∧ sig.publicKeyHex.toLower ∈ keys) := by
  unfold verifyPassport at h
  simp only [except_ok_bind_iff] at h
  obtain ⟨_, -, _, hblocked, _, hbitlocker, _, hexpiry, _, hage, _, -, hsignature⟩ := h
  refine ⟨?_, ?_, fun expires hexpires => checkExpiry_ok hexpiry hexpires, ?_, ?_⟩
  · exact Bool.eq_false_iff.mpr (bailIf_eq_ok.mp hblocked)
  · exact Bool.eq_false_iff.mpr (bailIf_eq_ok.mp hbitlocker)
  · intro hours hhours
    rw [hhours] at hage
    exact checkAge_ok hage
  · exact checkSignature_ok hsignature

end Spec

def signingKey : String := "d75a980182b10ab7d54bfed3c964073a0ee172f3daa62325af021a68f707511a"

def smallOutside : Outside where
  parseFromRfc3339 time :=
    if time = "2026-01-01T00:00:00Z" then .ok (1767225600 * 10 ^ 9)
    else if time = "2026-01-02T00:00:00Z" then .ok (1767312000 * 10 ^ 9)
    else .error "input contains invalid characters"
  toVec passport := .ok passport.target.toUTF8.data.toList
  decode hex := .ok (List.replicate (hex.toList.length / 2) 0)
  fromBytes _ := .ok ()
  verify _ _ _ := .ok ()
  readToString path :=
    if path = "trusted.txt" then .ok ("# ci\n" ++ signingKey ++ " ci/prod\n")
    else .error "not found"

def smallText : StdText where
  toLowercase := id
  toUppercase := id
  display _ := ""
  displayRounded _ := ""
  debug := id

def signedPassport (generatedAt : String) : CutoverPassport where
  schemaVersion := "1"
  kind := "guestkit.cutover_passport"
  generatedAt
  toolVersion := "0.0.0"
  target := "kvm"
  image := { path := "vm.qcow2", sizeBytes := 1, contentSha256 := none }
  evidenceSchema := "1"
  evidenceDigest :=
    { os := "linux", architecture := "x86_64", bootloader := "grub", rootFilesystem := "ext4",
      kernelCount := 1, fstabEntries := 1, virtioModulesLoaded := true, vmTools := [],
      selinux := "disabled" }
  scores := { boot := 95, migration := 95, readiness := .ready }
  criticalBlockers := []
  recommendedActions := []
  fixPlan :=
    { profile := "migration-repair", operationCount := 0, sha256 := "", operationIds := [] }
  policy := none
  windows := {}
  liveAttestation := none
  suite := { «export» := "", convertDeploy := "", assurance := "", nextStep := "" }
  hardBlocked := false
  issuer := none
  expiresAt := some "2026-01-02T00:00:00Z"
  signature := some
    { algorithm := "ed25519", publicKeyHex := signingKey,
      signatureHex := String.ofList (List.replicate 128 '0') }

def newYear : Int := 1767225600 * 10 ^ 9

def strictOptions : PassportVerifyOptions :=
  { requireSignature := true, trustKeysFile := some "trusted.txt", maxAgeHours := some 1 }

theorem signedPassport_verified :
    verifyPassport smallOutside smallText true (newYear + 1800 * 10 ^ 9) (newYear + 1800 * 10 ^ 9)
        (signedPassport "2026-01-01T00:00:00Z") strictOptions = .ok () ∧
      ∃ sig, (signedPassport "2026-01-01T00:00:00Z").signature = some sig ∧
        SignedUnder smallOutside (signedPassport "2026-01-01T00:00:00Z") sig.publicKeyHex.toLower ∧
        ∃ keys, loadTrustKeys smallOutside "trusted.txt" = .ok keys ∧
          sig.publicKeyHex.toLower ∈ keys := by
  have hload : loadTrusted smallOutside strictOptions = .ok (some [signingKey]) := by
    decide +kernel
  have h : verifyPassport smallOutside smallText true (newYear + 1800 * 10 ^ 9)
      (newYear + 1800 * 10 ^ 9) (signedPassport "2026-01-01T00:00:00Z") strictOptions = .ok () := by
    unfold verifyPassport checkSignature
    rw [hload]
    decide +kernel
  obtain ⟨-, -, -, -, hsigned⟩ := verifyPassport_ok h
  obtain ⟨sig, hsig, hvalid, -, hkeys⟩ := hsigned (.inl rfl)
  exact ⟨h, sig, hsig, hvalid, hkeys "trusted.txt" rfl⟩

/-- A passport that will be made in twelve hours passes a limit of one hour on its age, and its
signature is only checked with the key that it carries itself. -/
theorem future_passport_verified :
    verifyPassport smallOutside smallText true (newYear - 43200 * 10 ^ 9)
        (newYear - 43200 * 10 ^ 9) (signedPassport "2026-01-01T00:00:00Z")
        { requireSignature := true, maxAgeHours := some 1 } = .ok () ∧
      smallOutside.parseFromRfc3339 (signedPassport "2026-01-01T00:00:00Z").generatedAt =
        .ok newYear ∧
      newYear - 43200 * 10 ^ 9 < newYear := by
  decide +kernel

end Guestkit.Assurance
