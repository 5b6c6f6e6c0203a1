import Guestkit.Agent.Runtime
import Guestkit.Lib.Hoare
import Guestkit.Plan.ExecutorLive

/-! Updates of the agent on Linux: an archive with a signed manifest is downloaded and its binary
staged, and the privileged helper installs what is staged. -/

namespace Guestkit.Agent.Updater

open Lib Lib.Text Function List

structure BundleInfo where
  version : String
  channel : String
  linuxTarUrl : Option String
  linuxTarSha256 : Option String
  linuxTarSignature : Option String

structure StagedUpdateMeta where
  version : String
  channel : String
  artifactUrl : String
  sha256 : String
  stagedAt : String
  platform : String
  deriving DecidableEq

structure UpdateCheckResult where
  currentVersion : String
  remoteVersion : Option String
  channel : String
  updateAvailable : Bool
  artifactUrl : Option String
  artifactSha256 : Option String
  artifactSignature : Option String
  platform : String

structure UpdateManifest where
  version : String
  channel : String
  linuxTarSha256 : String
  windowsZipSha256 : String
  deriving DecidableEq

/-- What an archive unpacks to, in the order in which a directory lists it.  A file is read when it
is copied. -/
inductive Entry where
  | file (name : String) (content : Except String Bytes)
  | dir (name : String) (entries : List Entry)

/-- The functions of `sha2`, `ed25519_dalek`, `tar`, `flate2` and `serde_json` that an update goes
through. -/
structure UpdateCrates where
  sha256 : Bytes → Bytes
  verifyManifest : UpdateManifest → String → Except String Unit
  unpack : Bytes → Except String (List Entry)
  toStringPretty : StagedUpdateMeta → Except String String
  fromStr : String → Except String StagedUpdateMeta

structure UpdateHost where
  currentVersion : String
  bundle : Except String BundleInfo
  download : String → Except String Bytes
  now : String
  createStagedDir : Except String Unit
  createExtractDir : Except String Unit
  copyStaged : Except String Unit
  setStagedPermissions : Except String Unit
  writeMeta : Except String Unit
  copyTo : String → Except String Unit
  setPermissions : String → Except String Unit
  executorAvailable : Bool

inductive Installed where
  | file (content : Bytes)
  | link
  deriving DecidableEq

structure Files where
  stagedAgent : Option Bytes
  stagedMeta : Option String
  installed : String → Option Installed

abbrev UpdateM := EStateM String Files

def ofExcept {α : Type} : Except String α → UpdateM α
  | .ok a => pure a
  | .error e => throw e

def stagedAgentPath : String := "/var/lib/zyvor/staged/zyvor-guest-agent"

/-! ### Checking for an update -/

def parseVersion (raw : String) : List Nat :=
  (split '.' raw).map fun part =>
    match parseUnsigned 10 (2 ^ 64) part with
    | .ok n => n
    | .error _ => 0

def versionGreater (remote current : String) : Bool :=
  decide (parseVersion current < parseVersion remote)

def checkUpdate (host : UpdateHost) : Except String UpdateCheckResult := do
  let bundle ← host.bundle
  return {
    currentVersion := host.currentVersion
    remoteVersion := some bundle.version
    channel := bundle.channel
    updateAvailable := versionGreater bundle.version host.currentVersion
    artifactUrl := bundle.linuxTarUrl
    artifactSha256 := bundle.linuxTarSha256
    artifactSignature := bundle.linuxTarSignature
    platform := "linux" }

section Stage

variable (crates : UpdateCrates) (host : UpdateHost)

def hexSha256 (bytes : Bytes) : String := Plan.hexEncode (crates.sha256 bytes)

def buildUpdateManifest (check : UpdateCheckResult) (expectedSha : String) : UpdateManifest :=
  if check.platform = "windows" then
    { version := check.remoteVersion.getD ""
      channel := check.channel
      linuxTarSha256 := ""
      windowsZipSha256 := expectedSha }
  else
    { version := check.remoteVersion.getD ""
      channel := check.channel
      linuxTarSha256 := expectedSha
      windowsZipSha256 := "" }

def required (field : Option String) (missing : String) : Except String String :=
  match field.filter (· ≠ "") with
  | some value => .ok value
  | none => .error missing

structure Artifact where
  url : String
  bytes : Bytes
  sha256 : String

/-- The archive of a bundle, once the manifest's signature and the archive's digest are checked. -/
def fetchArtifact (check : UpdateCheckResult) : Except String Artifact := do
  let url ← required check.artifactUrl ("bundle has no " ++ check.platform ++ " artifact URL")
  let expectedSha ← required check.artifactSha256
    ("bundle has no " ++ check.platform ++ " sha256; refusing unsigned download")
  let sig ← required check.artifactSignature
    "bundle has no artifact signature; refusing unsigned download"
  withContext "update manifest signature verification failed"
    (crates.verifyManifest (buildUpdateManifest check expectedSha) sig)
  let bytes ← host.download url
  let actualSha := hexSha256 crates bytes
  bailIf (eqIgnoreAsciiCase actualSha expectedSha = false)
    ("artifact sha256 mismatch (expected " ++ expectedSha ++ ", got " ++ actualSha ++ ")")
  return ⟨url, bytes, actualSha⟩

mutual

def findIn (name : String) : Entry → Option (Except String Bytes)
  | .file fileName content => if fileName = name then some content else none
  | .dir _ entries => findFileRecursive name entries

def findFileRecursive (name : String) : List Entry → Option (Except String Bytes)
  | [] => none
  | entry :: entries => (findIn name entry).or (findFileRecursive name entries)

end

def agentBinary (tarGz : Bytes) : Except String Bytes := do
  let entries ← withContext "unpack tar.gz" (crates.unpack tarGz)
  match (findFileRecursive "guestkitd" entries).or
      (findFileRecursive "zyvor-guest-agent" entries) with
  | none => throw "agent binary (guestkitd / zyvor-guest-agent) not found in artifact"
  | some content => withContext ("copy staged binary to " ++ stagedAgentPath) content

def extractAgentBinaryFromTarGz (tarGz : Bytes) : UpdateM Unit := do
  ofExcept (withContext "create extract dir" host.createExtractDir)
  let binary ← ofExcept (agentBinary crates tarGz)
  ofExcept (withContext ("copy staged binary to " ++ stagedAgentPath) host.copyStaged)
  modify fun s => { s with stagedAgent := some binary }
  ofExcept host.setStagedPermissions

def stage (check : UpdateCheckResult) : UpdateM StagedUpdateMeta := do
  let artifact ← ofExcept (fetchArtifact crates host check)
  ofExcept (withContext "create staged dir" host.createStagedDir)
  if check.platform = "windows" then
    throw "windows zip updates are only supported on Windows guests"
  extractAgentBinaryFromTarGz crates host artifact.bytes
  let staged : StagedUpdateMeta := {
    version := check.remoteVersion.getD ""
    channel := check.channel
    artifactUrl := artifact.url
    sha256 := artifact.sha256
    stagedAt := host.now
    platform := check.platform }
  let text ← ofExcept (crates.toStringPretty staged)
  ofExcept host.writeMeta
  modify fun s => { s with stagedMeta := some text }
  return staged

end Stage

section Apply

variable (crates : UpdateCrates) (host : UpdateHost)

def installTargets : List String :=
  ["/usr/bin/guestkitd", "/usr/local/bin/guestkitd", "/usr/bin/zyvor-guest-agent",
    "/usr/local/bin/zyvor-guest-agent"]

/-- Replaces the agent at a path.  A link is left alone, for its target is a path of its own. -/
def installAt (binary : Bytes) (target : String) : UpdateM Bool := do
  match (← get).installed target with
  | none => return false
  | some .link => return false
  | some (.file _) =>
    ofExcept (withContext ("install staged binary to " ++ target) (host.copyTo target))
    modify fun s => { s with installed := update s.installed target (some (.file binary)) }
    ofExcept (host.setPermissions target)
    return true

def installAll (binary : Bytes) : List String → UpdateM (List String)
  | [] => return []
  | target :: targets => do
    let replaced ← installAt host binary target
    let updated ← installAll binary targets
    return if replaced then target :: updated else updated

/-- The staged metadata and binary, if the digest of the binary is the one recorded. -/
def verifyStaged (s : Files) : Except String (StagedUpdateMeta × Bytes) := do
  let raw ← match s.stagedMeta with
    | some raw => .ok raw
    | none => .error "read staged update metadata"
  let staged ← withContext "parse staged update metadata" (crates.fromStr raw)
  let binary ← match s.stagedAgent with
    | some binary => .ok binary
    | none => .error ("staged binary missing at " ++ stagedAgentPath)
  bailIf (eqIgnoreAsciiCase (hexSha256 crates binary) staged.sha256 = false)
    "staged binary sha256 mismatch"
  return (staged, binary)

def applyStagedUpdatePrivileged : UpdateM String := do
  let (staged, binary) ← ofExcept (verifyStaged crates (← get))
  if staged.platform = "windows" then
    throw "windows staged apply only supported on Windows"
  let updated ← installAll host binary installTargets
  if updated.isEmpty then
    throw "no install target found for staged agent binary"
  return "applied " ++ staged.version ++ " to " ++ join ", " updated ++
    " (sha256 verified, services restarted)"

/-- The helper answers with an object, so that its message is not what is returned. -/
def stageUpdate (apply : Bool) : UpdateM String := do
  let check ← ofExcept (checkUpdate host)
  if !check.updateAvailable then
    return "Zyvor GuestAgent " ++ check.currentVersion ++ " is current (channel " ++
      check.channel ++ ")"
  let staged ← stage crates host check
  if apply then
    if host.executorAvailable then
      let _ ← applyStagedUpdatePrivileged crates host
      return "staged update applied via executor"
    return "staged " ++ staged.version ++ " to " ++ stagedAgentPath ++
      "; executor unavailable — apply via privileged helper"
  return "staged " ++ staged.version ++ " (sha256 verified) at " ++ stagedAgentPath

end Apply

theorem digitChar_injective : ∀ a < 16, ∀ b < 16, Nat.digitChar a = Nat.digitChar b → a = b := by
  decide

theorem toLower_digitChar : ∀ a < 16, (Nat.digitChar a).toLower = Nat.digitChar a := by
  decide

theorem hexEncode_cons (b : UInt8) (bytes : Bytes) :
    (Plan.hexEncode (b :: bytes)).toList =
      Nat.digitChar (b.toNat / 16) :: Nat.digitChar (b.toNat % 16) ::
        (Plan.hexEncode bytes).toList := by
  simp [Plan.hexEncode]

theorem hexEncode_injective : Injective Plan.hexEncode := by
  intro xs
  induction xs with
  | nil =>
    intro ys h
    cases ys with
    | nil => rfl
    | cons y ys =>
      have hlist := congrArg String.toList h
      rw [hexEncode_cons] at hlist
      cases hlist
  | cons x xs ih =>
    intro ys h
    have hlist := congrArg String.toList h
    cases ys with
    | nil =>
      rw [hexEncode_cons] at hlist
      cases hlist
    | cons y ys =>
      rw [hexEncode_cons, hexEncode_cons] at hlist
      injection hlist with hhigh hlist
      injection hlist with hlow hlist
      have hx := x.toNat_lt
      have hy := y.toNat_lt
      have hdiv := digitChar_injective _ (by omega) _ (by omega) hhigh
      have hmod := digitChar_injective _ (by omega) _ (by omega) hlow
      have hxy : x = y := UInt8.toNat_inj.mp (by omega)
      rw [hxy, ih (String.toList_inj.mp hlist)]

theorem hexEncode_toLower (bytes : Bytes) :
    (Plan.hexEncode bytes).toLower = Plan.hexEncode bytes := by
  rw [String.toLower, ← String.toList_inj, String.toList_map]
  induction bytes with
  | nil => rfl
  | cons b bytes ih =>
    have hb := b.toNat_lt
    rw [hexEncode_cons, map_cons, map_cons, ih, toLower_digitChar _ (by omega),
      toLower_digitChar _ (by omega)]

theorem eqIgnoreAsciiCase_hexSha256 (crates : UpdateCrates) (a b : Bytes) :
    eqIgnoreAsciiCase (hexSha256 crates a) (hexSha256 crates b) = true ↔
      crates.sha256 a = crates.sha256 b := by
  unfold eqIgnoreAsciiCase hexSha256
  rw [hexEncode_toLower, hexEncode_toLower, decide_eq_true_iff]
  exact hexEncode_injective.eq_iff

/-! ### What staging leaves behind -/

section Runs

variable {crates : UpdateCrates} {host : UpdateHost} {check : UpdateCheckResult} {s s' : Files}
  {staged : StagedUpdateMeta}

theorem ofExcept_eq_ok {α : Type} {x : Except String α} {a : α} :
    ofExcept x s = .ok a s' ↔ x = .ok a ∧ s' = s := by
  cases x with
  | ok b =>
    constructor
    · intro h
      cases h
      exact ⟨rfl, rfl⟩
    · rintro ⟨hb, rfl⟩
      cases hb
      rfl
  | error e =>
    constructor
    · intro h
      cases h
    · rintro ⟨h, -⟩
      cases h

theorem ofExcept_bind {α β : Type} {x : Except String α} {f : α → UpdateM β} {b : β}
    (h : (ofExcept x >>= f) s = .ok b s') : ∃ a, x = .ok a ∧ f a s = .ok b s' := by
  obtain ⟨a, s1, hx, hf⟩ := bind_eq_ok h
  obtain ⟨hvalue, rfl⟩ := ofExcept_eq_ok.mp hx
  exact ⟨a, hvalue, hf⟩

def Signed (crates : UpdateCrates) (host : UpdateHost) (check : UpdateCheckResult)
    (archive : Bytes) : Prop :=
  ∃ url expectedSha sig, check.artifactUrl = some url ∧ host.download url = .ok archive ∧
    crates.verifyManifest (buildUpdateManifest check expectedSha) sig = .ok () ∧
    eqIgnoreAsciiCase (hexSha256 crates archive) expectedSha = true

theorem required_eq_ok {field : Option String} {missing value : String}
    (h : required field missing = .ok value) : field = some value := by
  unfold required at h
  split at h
  · next hfield =>
    cases h
    exact (Option.filter_eq_some_iff.mp hfield).1
  · cases h

theorem fetchArtifact_signed {artifact : Artifact}
    (h : fetchArtifact crates host check = .ok artifact) :
    Signed crates host check artifact.bytes ∧
      artifact.sha256 = hexSha256 crates artifact.bytes := by
  unfold fetchArtifact at h
  obtain ⟨url, hurl, h⟩ := except_ok_bind_iff.mp h
  obtain ⟨expectedSha, -, h⟩ := except_ok_bind_iff.mp h
  obtain ⟨sig, -, h⟩ := except_ok_bind_iff.mp h
  obtain ⟨hverify, h⟩ := except_unit_bind_iff.mp h
  obtain ⟨bytes, hbytes, h⟩ := except_ok_bind_iff.mp h
  obtain ⟨hsha, h⟩ := except_unit_bind_iff.mp h
  cases h
  exact ⟨⟨url, expectedSha, sig, required_eq_ok hurl, hbytes, withContext_eq_ok.mp hverify,
    by simpa using bailIf_eq_ok.mp hsha⟩, rfl⟩

structure Staged (crates : UpdateCrates) (staged : StagedUpdateMeta) (archive binary : Bytes)
    (s : Files) : Prop where
  unpacked : agentBinary crates archive = .ok binary
  agent : s.stagedAgent = some binary
  recorded : ∃ text, crates.toStringPretty staged = .ok text ∧ s.stagedMeta = some text
  digest : staged.sha256 = hexSha256 crates archive
  linux : staged.platform ≠ "windows"

theorem extractAgentBinaryFromTarGz_ok {tarGz : Bytes}
    (h : extractAgentBinaryFromTarGz crates host tarGz s = .ok () s') :
    ∃ binary, agentBinary crates tarGz = .ok binary ∧
      s' = { s with stagedAgent := some binary } := by
  unfold extractAgentBinaryFromTarGz at h
  obtain ⟨-, -, h⟩ := ofExcept_bind h
  obtain ⟨binary, hbinary, h⟩ := ofExcept_bind h
  obtain ⟨-, -, h⟩ := ofExcept_bind h
  obtain ⟨_, s1, hmodify, h⟩ := bind_eq_ok h
  cases hmodify
  exact ⟨binary, hbinary, (ofExcept_eq_ok.mp h).2⟩

theorem stage_ok (h : stage crates host check s = .ok staged s') :
    ∃ archive binary, Signed crates host check archive ∧
      Staged crates staged archive binary s' := by
  unfold stage at h
  obtain ⟨artifact, hartifact, h⟩ := ofExcept_bind h
  obtain ⟨hsigned, hsha⟩ := fetchArtifact_signed hartifact
  obtain ⟨-, -, h⟩ := ofExcept_bind h
  by_cases hplatform : check.platform = "windows"
  · rw [if_pos hplatform] at h
    cases h
  · rw [if_neg hplatform] at h
    obtain ⟨_, s1, hextract, h⟩ := bind_eq_ok h
    obtain ⟨binary, hbinary, rfl⟩ := extractAgentBinaryFromTarGz_ok hextract
    obtain ⟨text, htext, h⟩ := ofExcept_bind h
    obtain ⟨-, -, h⟩ := ofExcept_bind h
    cases h
    exact ⟨artifact.bytes, binary, hsigned,
      { unpacked := hbinary
        agent := rfl
        recorded := ⟨text, htext, rfl⟩
        digest := hsha
        linux := hplatform }⟩

def replaced (binary : Bytes) : Option Installed → Option Installed
  | none => none
  | some .link => some .link
  | some (.file _) => some (.file binary)

def isFile : Option Installed → Bool
  | some (.file _) => true
  | _ => false

def Copies (host : UpdateHost) : Prop :=
  ∀ target, host.copyTo target = .ok () ∧ host.setPermissions target = .ok ()

theorem isFile_replaced (binary : Bytes) (present : Option Installed) :
    isFile (replaced binary present) = isFile present := by
  cases present with
  | none => rfl
  | some present => cases present <;> rfl

theorem replaced_replaced (binary : Bytes) (present : Option Installed) :
    replaced binary (replaced binary present) = replaced binary present := by
  cases present with
  | none => rfl
  | some present => cases present <;> rfl

theorem installAt_eq (hcopies : Copies host) (binary : Bytes) (target : String) (s : Files) :
    installAt host binary target s = .ok (isFile (s.installed target))
      { s with
        installed := update s.installed target
          (replaced binary (s.installed target)) } := by
  unfold installAt
  rw [get_bind]
  cases hpresent : s.installed target with
  | none =>
    rw [replaced, ← hpresent, update_eq_self, hpresent]
    rfl
  | some present =>
    cases present with
    | link =>
      rw [replaced, ← hpresent, update_eq_self, hpresent]
      rfl
    | file content =>
      simp only [(hcopies target).1, (hcopies target).2, withContext]
      rfl

theorem installAll_eq (hcopies : Copies host) (binary : Bytes) (targets : List String)
    (s : Files) :
    installAll host binary targets s =
      .ok (targets.filter fun target => isFile (s.installed target))
      { s with
        installed := fun target =>
          if target ∈ targets then replaced binary (s.installed target)
          else s.installed target } := by
  induction targets generalizing s with
  | nil =>
    simp only [not_mem_nil, if_false]
    rfl
  | cons target targets ih =>
    have hkept : ∀ other, isFile (update s.installed target
        (replaced binary (s.installed target)) other) = isFile (s.installed other) := by
      intro other
      by_cases h : other = target
      · rw [h, update_self, isFile_replaced]
      · rw [update_of_ne h]
    rw [installAll, bind_of_ok (installAt_eq hcopies binary target s), bind_of_ok (ih _)]
    simp only [hkept, filter_cons]
    change EStateM.Result.ok _ _ = _
    congr 2
    funext other
    by_cases h : other = target
    · rw [h, update_self, replaced_replaced, ite_self, if_pos mem_cons_self]
    · simp only [update_of_ne h, mem_cons, h, false_or]

/-- The helper's check of the staged binary passes exactly if its digest is that of the archive. -/
theorem verifyStaged_eq {archive binary : Bytes}
    (hserde : ∀ staged text, crates.toStringPretty staged = .ok text →
      crates.fromStr text = .ok staged)
    (h : Staged crates staged archive binary s) :
    verifyStaged crates s =
      if crates.sha256 binary = crates.sha256 archive then .ok (staged, binary)
      else .error "staged binary sha256 mismatch" := by
  obtain ⟨text, htext, hmeta⟩ := h.recorded
  have hcheck := eqIgnoreAsciiCase_hexSha256 crates binary archive
  unfold verifyStaged
  rw [hmeta, h.agent]
  change (withContext _ (crates.fromStr text) >>= _) = _
  rw [hserde staged text htext]
  change (bailIf _ _ >>= _) = _
  rw [h.digest]
  by_cases hsha : crates.sha256 binary = crates.sha256 archive
  · rw [if_pos hsha, hcheck.mpr hsha]
    rfl
  · rw [if_neg hsha, Bool.eq_false_of_not_eq_true (mt hcheck.mp hsha)]
    rfl

/-- The helper applies what is staged, and every agent that is a file is then `binary`. -/
def Installs (crates : UpdateCrates) (host : UpdateHost) (s : Files) (binary : Bytes) : Prop :=
  Returns (fun _ s' => ∀ target ∈ installTargets,
    s'.installed target = replaced binary (s.installed target))
    (applyStagedUpdatePrivileged crates host s)

theorem installs_of_verified {binary : Bytes} (hcopies : Copies host)
    (hverify : verifyStaged crates s = .ok (staged, binary)) (hlinux : staged.platform ≠ "windows")
    (htarget : ∃ target ∈ installTargets, isFile (s.installed target) = true) :
    Installs crates host s binary := by
  obtain ⟨target, hmem, hfile⟩ := htarget
  have hupdated : (installTargets.filter fun target => isFile (s.installed target)).isEmpty =
      false := by
    rw [isEmpty_eq_false_iff_exists_mem]
    exact ⟨target, mem_filter.mpr ⟨hmem, hfile⟩⟩
  unfold Installs applyStagedUpdatePrivileged
  rw [get_bind, bind_of_ok (ofExcept_eq_ok.mpr ⟨hverify, rfl⟩)]
  simp only [if_neg hlinux]
  rw [bind_of_ok (installAll_eq hcopies binary installTargets s)]
  simp only [hupdated]
  intro target hmem
  exact if_pos hmem

theorem applyStagedUpdatePrivileged_kept {message : String} (hcopies : Copies host)
    (h : applyStagedUpdatePrivileged crates host s = .ok message s') :
    s'.stagedAgent = s.stagedAgent ∧ s'.stagedMeta = s.stagedMeta := by
  unfold applyStagedUpdatePrivileged at h
  rw [get_bind] at h
  obtain ⟨⟨staged, binary⟩, -, h⟩ := ofExcept_bind h
  by_cases hplatform : staged.platform = "windows"
  · simp only [if_pos hplatform] at h
    cases h
  · simp only [if_neg hplatform] at h
    rw [bind_of_ok (installAll_eq hcopies binary installTargets s)] at h
    split at h
    · cases h
    · cases h
      exact ⟨rfl, rfl⟩

theorem stageUpdate_staged {apply : Bool} {message : String} (hcopies : Copies host)
    (hcheck : checkUpdate host = .ok check) (havailable : check.updateAvailable = true)
    (h : stageUpdate crates host apply s = .ok message s') :
    ∃ staged archive binary, Signed crates host check archive ∧
      Staged crates staged archive binary s' := by
  unfold stageUpdate at h
  rw [hcheck, bind_of_ok (ofExcept_eq_ok.mpr ⟨rfl, rfl⟩), havailable] at h
  obtain ⟨staged, s1, hstage, h⟩ := bind_eq_ok h
  obtain ⟨archive, binary, hsigned, hstaged⟩ := stage_ok hstage
  refine ⟨staged, archive, binary, hsigned, ?_⟩
  cases apply with
  | false =>
    cases h
    exact hstaged
  | true =>
    cases hexecutor : host.executorAvailable with
    | false =>
      rw [hexecutor] at h
      cases h
      exact hstaged
    | true =>
      rw [hexecutor] at h
      obtain ⟨_, s2, happly, h⟩ := bind_eq_ok h
      cases h
      obtain ⟨hagent, hmeta⟩ := applyStagedUpdatePrivileged_kept hcopies happly
      exact { hstaged with
        agent := hagent.trans hstaged.agent
        recorded := hmeta ▸ hstaged.recorded }

/-- A staged update is applied exactly if the digest of the agent's binary is that of the archive
that it came in: the one is compared with what was recorded of the other. -/
theorem installs_iff
    (hserde : ∀ staged text, crates.toStringPretty staged = .ok text →
      crates.fromStr text = .ok staged)
    (hcopies : Copies host) (hcheck : checkUpdate host = .ok check)
    (havailable : check.updateAvailable = true) {apply : Bool} {message : String}
    (hstage : stageUpdate crates host apply s = .ok message s')
    (htarget : ∃ target ∈ installTargets, isFile (s'.installed target) = true) :
    ∃ archive binary, Signed crates host check archive ∧
      agentBinary crates archive = .ok binary ∧
      (Installs crates host s' binary ↔ crates.sha256 binary = crates.sha256 archive) := by
  obtain ⟨staged, archive, binary, hsigned, hstaged⟩ :=
    stageUpdate_staged hcopies hcheck havailable hstage
  refine ⟨archive, binary, hsigned, hstaged.unpacked, ?_⟩
  have hverify := verifyStaged_eq hserde hstaged
  constructor
  · intro hinstalls
    by_contra hsha
    rw [if_neg hsha] at hverify
    unfold Installs applyStagedUpdatePrivileged at hinstalls
    rw [get_bind, hverify] at hinstalls
    exact hinstalls
  · intro hsha
    rw [if_pos hsha] at hverify
    exact installs_of_verified hcopies hverify hstaged.linux htarget

end Runs

def smallArchive : Bytes :=
  [31, 139, 8, 0, 0, 0, 0, 0, 2, 3, 75, 47, 77, 45, 46, 201, 206, 44, 73, 97, 160, 29, 48, 0, 2,
    115, 83, 83, 48, 13, 4, 232, 52, 16, 152, 34, 177, 65, 226, 230, 102, 230, 134, 12, 10, 6, 12,
    116, 0, 165, 197, 37, 137, 69, 64, 43, 25, 70, 38, 72, 76, 79, 205, 43, 97, 24, 5, 163, 96,
    20, 140, 130, 81, 48, 210, 0, 0, 133, 187, 175, 214, 0, 8, 0, 0]

def smallBinary : Bytes := [97, 103, 101, 110, 116]

def smallSha256 (bytes : Bytes) : Bytes :=
  if bytes = smallArchive then
    [129, 26, 57, 111, 230, 62, 182, 167, 47, 27, 13, 129, 161, 19, 130, 214, 169, 234, 192, 54,
      170, 105, 236, 64, 125, 139, 21, 192, 155, 150, 89, 198]
  else
    [212, 240, 188, 90, 41, 222, 6, 181, 16, 249, 170, 66, 143, 30, 237, 186, 146, 96, 18, 181,
      145, 254, 247, 165, 24, 231, 118, 167, 201, 189, 24, 36]

def smallMeta : StagedUpdateMeta where
  version := "0.5.0"
  channel := "stable"
  artifactUrl := "https://updates/agent.tar.gz"
  sha256 := "811a396fe63eb6a72f1b0d81a11382d6a9eac036aa69ec407d8b15c09b9659c6"
  stagedAt := "2026-01-01T00:00:00+00:00"
  platform := "linux"

def smallMetaText : String :=
  "\x7b\n  \"version\": \"0.5.0\",\n  \"channel\": \"stable\",\n" ++
    "  \"artifact_url\": \"https://updates/agent.tar.gz\",\n" ++
    "  \"sha256\": \"811a396fe63eb6a72f1b0d81a11382d6a9eac036aa69ec407d8b15c09b9659c6\",\n" ++
    "  \"staged_at\": \"2026-01-01T00:00:00+00:00\",\n  \"platform\": \"linux\"\n\x7d"

/-- The signature of the manifest under the development key. -/
def smallSignature : String :=
  "sZDhtaNIpynv8PTkSyrl/YY5DGD77Ffn4k7ra7liTwkhU4EqnPDUNi1P0phWw4MUWCjMyj3mj2CmaPQNtV3vCQ=="

def smallCrates : UpdateCrates where
  sha256 := smallSha256
  verifyManifest manifest signature :=
    if manifest = ⟨"0.5.0", "stable", smallMeta.sha256, ""⟩ ∧ signature = smallSignature then .ok ()
    else .error "manifest signature invalid"
  unpack bytes :=
    if bytes = smallArchive then .ok [.file "guestkitd" (.ok smallBinary)] else .error "invalid"
  toStringPretty staged := if staged = smallMeta then .ok smallMetaText else .error "unwritten"
  fromStr text := if text = smallMetaText then .ok smallMeta else .error "invalid"

def smallHost : UpdateHost where
  currentVersion := "0.4.9"
  bundle := .ok ⟨"0.5.0", "stable", some smallMeta.artifactUrl, some smallMeta.sha256,
    some smallSignature⟩
  download _ := .ok smallArchive
  now := smallMeta.stagedAt
  createStagedDir := .ok ()
  createExtractDir := .ok ()
  copyStaged := .ok ()
  setStagedPermissions := .ok ()
  writeMeta := .ok ()
  copyTo _ := .ok ()
  setPermissions _ := .ok ()
  executorAvailable := true

def smallCheck : UpdateCheckResult where
  currentVersion := "0.4.9"
  remoteVersion := some "0.5.0"
  channel := "stable"
  updateAvailable := true
  artifactUrl := some smallMeta.artifactUrl
  artifactSha256 := some smallMeta.sha256
  artifactSignature := some smallSignature
  platform := "linux"

def smallFiles : Files where
  stagedAgent := none
  stagedMeta := none
  installed path := if path = "/usr/bin/guestkitd" then some (.file [1]) else none

def smallStaged : Files :=
  { smallFiles with stagedAgent := some smallBinary, stagedMeta := some smallMetaText }

theorem smallCrates_serde (staged : StagedUpdateMeta) (text : String)
    (h : smallCrates.toStringPretty staged = .ok text) :
    smallCrates.fromStr text = .ok staged := by
  simp only [smallCrates] at h ⊢
  split at h
  · next heq =>
    cases h
    rw [if_pos rfl, heq]
  · cases h

theorem smallArchive_fetched :
    fetchArtifact smallCrates smallHost smallCheck =
      .ok ⟨smallMeta.artifactUrl, smallArchive, smallMeta.sha256⟩ := by
  have hsha : hexSha256 smallCrates smallArchive = smallMeta.sha256 := by decide +kernel
  have hsame : eqIgnoreAsciiCase smallMeta.sha256 smallMeta.sha256 = true := decide_eq_true rfl
  unfold fetchArtifact
  refine except_ok_bind_iff.mpr ⟨smallMeta.artifactUrl, rfl, ?_⟩
  refine except_ok_bind_iff.mpr ⟨smallMeta.sha256, rfl, ?_⟩
  refine except_ok_bind_iff.mpr ⟨smallSignature, rfl, ?_⟩
  refine except_unit_bind_iff.mpr ⟨rfl, ?_⟩
  refine except_ok_bind_iff.mpr ⟨smallArchive, rfl, ?_⟩
  simp only [hsha]
  exact except_unit_bind_iff.mpr ⟨bailIf_eq_ok.mpr (by rw [hsame]; decide), rfl⟩

theorem smallFiles_staged :
    stageUpdate smallCrates smallHost false smallFiles =
      .ok ("staged 0.5.0 (sha256 verified) at " ++ stagedAgentPath) smallStaged := by
  have hcheck : checkUpdate smallHost = .ok smallCheck := rfl
  have hstage : stage smallCrates smallHost smallCheck smallFiles = .ok smallMeta smallStaged := by
    unfold stage
    rw [smallArchive_fetched]
    rfl
  unfold stageUpdate
  rw [hcheck, bind_of_ok (ofExcept_eq_ok.mpr ⟨rfl, rfl⟩), if_neg (by decide), bind_of_ok hstage]
  rfl

theorem small_update_installs_iff :
    ∃ archive binary, Signed smallCrates smallHost smallCheck archive ∧
      agentBinary smallCrates archive = .ok binary ∧
      (Installs smallCrates smallHost smallStaged binary ↔
        smallCrates.sha256 binary = smallCrates.sha256 archive) :=
  installs_iff smallCrates_serde (fun _ => ⟨rfl, rfl⟩) rfl rfl smallFiles_staged
    ⟨"/usr/bin/guestkitd", by decide, by decide⟩

/-- The update is signed and staged, and then refused. -/
theorem staged_update_refused :
    stageUpdate smallCrates smallHost false smallFiles =
        .ok ("staged 0.5.0 (sha256 verified) at " ++ stagedAgentPath) smallStaged ∧
      isFile (smallStaged.installed "/usr/bin/guestkitd") = true ∧
      applyStagedUpdatePrivileged smallCrates smallHost smallStaged =
        .error "staged binary sha256 mismatch" smallStaged := by
  have hstaged : Staged smallCrates smallMeta smallArchive smallBinary smallStaged :=
    { unpacked := rfl
      agent := rfl
      recorded := ⟨smallMetaText, rfl, rfl⟩
      digest := by decide +kernel
      linux := by decide }
  have hverify := verifyStaged_eq smallCrates_serde hstaged
  rw [if_neg (by decide +kernel)] at hverify
  refine ⟨smallFiles_staged, by decide, ?_⟩
  unfold applyStagedUpdatePrivileged
  rw [get_bind, hverify]
  rfl

end Guestkit.Agent.Updater
