import Guestkit.Agent.Calls
import Guestkit.Migration.Token

/-! The requests around readiness tokens: checks before a migration, which issue them, and cutovers,
which need one. -/

namespace Guestkit.Cutover

open Lib Lib.Text Migration List

/-- What reaches the agent, with what the system around it answers: a check, a cutover with the
parameters of its request, and a change of the key file by others. -/
inductive Request where
  | preCheck (target : String) (evidence : Except String EvidenceSnapshot) (assessedAt : String)
      (baseline : Except String String) (now : Int) (io : KeyIo)
  | cutoverEnter (params : Json) (now : Int) (io : KeyIo)
  | replaceKey (file : Option Bytes)

inductive Answer where
  | issued (token : ReadinessToken)
  | letThrough
  | refused (message : String)
  | none

section Runs

variable (crates : TokenCrates) (std : StdText)
variable {file : Option Bytes}

def tokenOf (params : Json) : Option ReadinessToken :=
  (params.get "token").bind crates.readToken

/-- The check of `AgentHandler::cutover_enter` before the cutover is entered. -/
def gate (params : Json) (now : Int) (io : KeyIo) (file : Option Bytes) : Answer × Option Bytes :=
  match tokenOf crates params with
  | none => (.refused "missing readiness token (run migration.preCheck first)", file)
  | some token =>
    match verifyToken crates std io now token file with
    | (.error e, file) => (.refused s!"invalid readiness token: {e}", file)
    | (.ok (), file) => (.letThrough, file)

def serve : Request → Option Bytes → Answer × Option Bytes
  | .preCheck target evidence assessedAt baseline now io, file =>
    match preMigrationCheck crates std io target evidence assessedAt baseline now file with
    | (.error e, file) => (.refused e, file)
    | (.ok token, file) => (.issued token, file)
  | .cutoverEnter params now io, file => gate crates std params now io file
  | .replaceKey file, _ => (.none, file)

structure Entry where
  request : Request
  file : Option Bytes
  answer : Answer

def run : List Request → Option Bytes → List Entry
  | [], _ => []
  | request :: requests, file =>
    { request, file, answer := (serve crates std request file).1 } ::
      run requests (serve crates std request file).2

theorem run_answer {requests : List Request} {entry : Entry}
    (h : entry ∈ run crates std requests file) :
    entry.answer = (serve crates std entry.request entry.file).1 := by
  induction requests generalizing file with
  | nil => cases h
  | cons request requests ih =>
    obtain rfl | h := mem_cons.mp h
    · rfl
    · exact ih h

def scores (entries : List Entry) : Set Float :=
  { score | ∃ entry ∈ entries, ∃ token : ReadinessToken, token.score = score ∧
    (entry.answer = .issued token ∨
      ∃ params now io, entry.request = .cutoverEnter params now io ∧
        tokenOf crates params = some token) }

variable {crates std}

theorem gate_letThrough_iff {params : Json} {now : Int} {io : KeyIo} :
    (gate crates std params now io file).1 = .letThrough ↔ ∃ token,
      tokenOf crates params = some token ∧
        (verifyToken crates std io now token file).1 = .ok () := by
  unfold gate
  cases tokenOf crates params with
  | none => simp
  | some token =>
    dsimp only
    cases h : verifyToken crates std io now token file with
    | mk result left =>
      cases result <;> simp [h]

theorem preCheck_issued {target assessedAt : String} {evidence : Except String EvidenceSnapshot}
    {baseline : Except String String} {now : Int} {io : KeyIo} {token : ReadinessToken}
    (h : (serve crates std (.preCheck target evidence assessedAt baseline now io) file).1 =
      .issued token) :
    (preMigrationCheck crates std io target evidence assessedAt baseline now file).1 =
      .ok token := by
  unfold serve at h
  dsimp only at h
  cases hcheck : preMigrationCheck crates std io target evidence assessedAt baseline now file with
  | mk result left =>
    rw [hcheck] at h
    cases result with
    | error e => cases h
    | ok issued =>
      cases h
      rfl

/-- The key file is neither replaced by others nor unreadable when the agent asks for the key. -/
def Request.KeepsKey : Request → Prop
  | .preCheck _ _ _ _ _ io | .cutoverEnter _ _ io => io.readable
  | .replaceKey _ => False

theorem serve_keeps {key : Key} {request : Request} (h : request.KeepsKey) :
    (serve crates std request (some key.1)).2 = some key.1 := by
  cases request with
  | preCheck target evidence assessedAt baseline now io =>
    simp only [serve, preMigrationCheck, signToken_eq, tokenKey_kept key h, Except.map]
    cases evidence <;> cases baseline <;> rfl
  | cutoverEnter params now io =>
    simp only [serve, gate, verifyToken, signToken_eq, tokenKey_kept key h, Except.map]
    cases tokenOf crates params with
    | none => rfl
    | some token =>
      dsimp only
      cases crates.parseFromRfc3339 token.expiresAt with
      | error e => rfl
      | ok expires =>
        dsimp only
        split_ifs <;> rfl
  | replaceKey file => exact h.elim

theorem run_keeps {key : Key} {requests : List Request}
    (h : ∀ request ∈ requests, request.KeepsKey) :
    ∀ entry ∈ run crates std requests (some key.1),
      entry.file = some key.1 ∧ entry.request ∈ requests := by
  induction requests with
  | nil => simp [run]
  | cons request requests ih =>
    obtain ⟨hfirst, hrest⟩ := forall_mem_cons.mp h
    rw [run, serve_keeps hfirst]
    refine forall_mem_cons.mpr ⟨⟨rfl, mem_cons_self⟩, fun entry hentry => ?_⟩
    exact (ih hrest entry hentry).imp_right (mem_cons_of_mem _)

/-- A token is honoured while it is valid, whatever is asked in between, as long as the key
is kept. -/
theorem issued_token_honoured {target assessedAt : String}
    {evidence : Except String EvidenceSnapshot} {baseline : Except String String} {now : Int}
    {io : KeyIo} {token : ReadinessToken} {file' : Option Bytes}
    (hissued : serve crates std (.preCheck target evidence assessedAt baseline now io) file =
      (.issued token, file'))
    (hread : crates.parseFromRfc3339 token.expiresAt = .ok (now + tokenValidity))
    {requests : List Request} (hkept : ∀ request ∈ requests, request.KeepsKey) :
    ∀ entry ∈ run crates std requests file', ∀ params later io',
      entry.request = .cutoverEnter params later io' → tokenOf crates params = some token →
        (entry.answer = .letThrough ↔ later ≤ now + tokenValidity) := by
  intro entry hmem params later io' hrequest htoken
  obtain ⟨⟨key, hkey, htag⟩, -⟩ :=
    preMigrationCheck_ok (preCheck_issued (congrArg Prod.fst hissued))
  have hfile : file' = some key.1 := by
    simp only [serve, preMigrationCheck, signToken_eq, hkey, Except.map] at hissued
    cases evidence <;> cases baseline <;> cases hissued
    exact tokenKey_file hkey
  subst hfile
  obtain ⟨hfile, hmem'⟩ := run_keeps hkept entry hmem
  have hreadable : io'.readable := by
    have hkeeps := hkept _ hmem'
    rwa [hrequest] at hkeeps
  rw [run_answer crates std hmem, hrequest, hfile, serve, gate_letThrough_iff, htoken]
  simp [verifyToken_ok_iff, hread, tokenKey_kept key hreadable, htag]

end Runs

def localKey : Key := ⟨List.replicate 32 7, rfl⟩

def keyIo : KeyIo where
  readable := true
  random := localKey
  createDirAll := .ok ()
  write := .ok ()

/-- The score that is shown is that of the guest without a kernel, 77. -/
def scoreText : StdText := { plainText with display := fun _ => "77" }

def blockedAssessment : MigrationAssessment :=
  assessMigration scoreText noKernel (analyzeBootability scoreText noKernel
    (.parse scoreText "kvm")) "kvm" true ""

def innerDigest : Bytes :=
  [73, 132, 181, 177, 231, 15, 243, 9, 38, 226, 154, 76, 122, 155, 51, 250, 144, 223, 239, 214, 20,
    178, 100, 143, 29, 152, 237, 198, 230, 23, 191, 0]

def outerDigest : Bytes :=
  [75, 91, 225, 183, 103, 2, 239, 182, 75, 158, 222, 246, 135, 80, 135, 201, 35, 123, 198, 87, 116,
    46, 75, 147, 204, 14, 240, 90, 119, 188, 149, 122]

/-- The token of a check of a guest without a kernel, on the first of January. -/
def issuedToken : ReadinessToken where
  token := Plan.hexEncode outerDigest
  score := blockedAssessment.overallScore
  readiness := blockedAssessment.readiness
  baselineId := "pre-20260101T000000Z"
  expiresAt := "2026-01-01T01:00:00+00:00"

def newYear : Int := 1767225600 * 10 ^ 9

def readReadiness : String → Option ReadinessLevel
  | "ready" => some .ready
  | "ready_with_warnings" => some .readyWithWarnings
  | "blocked" => some .blocked
  | _ => none

/-- The double 77 is the score of the guest without a kernel. -/
def readScore : Json → Option Float
  | .number (.float bits) =>
    some (if bits = 4635118810238550016 then blockedAssessment.overallScore else .ofBits bits)
  | _ => none

/-- SHA-256 of the two texts that are hashed for the token. -/
def tokenSha256 (bytes : Bytes) : Bytes :=
  if bytes = keyBlock 0x5c localKey ++ innerDigest then outerDigest
  else if bytes = keyBlock 0x36 localKey ++ (issuedToken.signed scoreText).toUTF8.data.toList then
    innerDigest
  else []

def plainCrates : TokenCrates where
  sha256 := tokenSha256
  parseFromRfc3339 text :=
    if text = "2026-01-01T01:00:00+00:00" then .ok (newYear + tokenValidity)
    else .error "premature end of input"
  toRfc3339 time := if time = newYear + tokenValidity then "2026-01-01T01:00:00+00:00" else ""
  readToken value := do
    return {
      token := ← (value.get "token").bind Json.asStr
      score := ← (value.get "score").bind readScore
      readiness := ← ((value.get "readiness").bind Json.asStr).bind readReadiness
      baselineId := ← (value.get "baseline_id").bind Json.asStr
      expiresAt := ← (value.get "expires_at").bind Json.asStr }

def checkRequest : Request :=
  .preCheck "kvm" (.ok noKernel) "" (.ok "pre-20260101T000000Z") newYear keyIo

/-- The parameters of a cutover half an hour later, with the token and a readiness. -/
def enterParams (readiness : String) : Json :=
  .object [("token", .object [("token", .string issuedToken.token),
    ("score", .number (.float 4635118810238550016)), ("readiness", .string readiness),
    ("baseline_id", .string "pre-20260101T000000Z"),
    ("expires_at", .string "2026-01-01T01:00:00+00:00")])]

def enterRequest (readiness : String) : Request :=
  .cutoverEnter (enterParams readiness) (newYear + 1800 * 10 ^ 9) keyIo

theorem tag_issued : tag plainCrates localKey (issuedToken.signed scoreText) =
    issuedToken.token := by
  have hinner : tokenSha256
      (keyBlock 0x36 localKey ++ (issuedToken.signed scoreText).toUTF8.data.toList) =
        innerDigest := by
    rw [tokenSha256, if_neg fun h => absurd (congrArg head? h) (by decide), if_pos rfl]
  have houter : tokenSha256 (keyBlock 0x5c localKey ++ innerDigest) = outerDigest := if_pos rfl
  rw [tag, hmacSha256, show plainCrates.sha256 = tokenSha256 from rfl, hinner, houter]
  rfl

theorem expires_rendered :
    plainCrates.toRfc3339 (newYear + tokenValidity) = issuedToken.expiresAt := by
  simp [plainCrates, issuedToken]

theorem expires_parsed :
    plainCrates.parseFromRfc3339 issuedToken.expiresAt = .ok (newYear + tokenValidity) := by
  simp [plainCrates, issuedToken]

theorem check_issued :
    serve plainCrates scoreText checkRequest (some localKey.1) =
      (.issued issuedToken, some localKey.1) := by
  have hkey : tokenKey keyIo (some localKey.1) = (.ok localKey, some localKey.1) :=
    tokenKey_kept localKey rfl
  have hsigned : message scoreText blockedAssessment.overallScore "pre-20260101T000000Z"
      issuedToken.expiresAt = issuedToken.signed scoreText := rfl
  simp only [checkRequest, serve, preMigrationCheck, signToken_eq, hkey, Except.map,
    expires_rendered]
  rw [← blockedAssessment, hsigned, tag_issued]
  rfl

section Entering

variable {readiness : String} {level : ReadinessLevel} (h : readReadiness readiness = some level)

include h

theorem tokenOf_enter :
    tokenOf plainCrates (enterParams readiness) = some { issuedToken with readiness := level } := by
  show (do return ({ readiness := ← readReadiness readiness, .. } : ReadinessToken)) = _
  rw [h]
  rfl

end Entering

theorem issuedToken_blocked : issuedToken.readiness = .blocked := by decide +kernel

theorem tokenOf_issued : tokenOf plainCrates (enterParams "blocked") = some issuedToken := by
  rw [tokenOf_enter (show readReadiness "blocked" = some .blocked from rfl), ← issuedToken_blocked]

theorem issuedToken_honoured :
    (run plainCrates scoreText [checkRequest, enterRequest "blocked"]
      (some localKey.1)).length = 2 ∧
    ∀ entry ∈ run plainCrates scoreText [checkRequest, enterRequest "blocked"] (some localKey.1),
      entry.request = enterRequest "blocked" → entry.answer = .letThrough := by
  have hkept : ∀ request ∈ [checkRequest, enterRequest "blocked"], request.KeepsKey := by
    simp [checkRequest, enterRequest, Request.KeepsKey, keyIo]
  refine ⟨rfl, fun entry hentry hrequest => ?_⟩
  exact (issued_token_honoured check_issued expires_parsed hkept entry hentry _ _ _ hrequest
    tokenOf_issued).mpr (by decide)

end Guestkit.Cutover
