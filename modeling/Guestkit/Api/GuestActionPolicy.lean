import Guestkit.Api.Session
import Guestkit.Lib.Fs.Walk
import Guestkit.Lib.Json

/-! The `GuestActionPolicy` of the cluster: how it is looked up and read, and what the API allows
under it.  Whatever the lookup does not find, for any reason, allows everything. -/

namespace Guestkit.Api

open Lib Lib.Text Lib.Fs

structure GuestActionPolicySpec where
  allowedActions : List String
  restartUnitAllowlist : List String
  execAllowlist : List String
  fileReadAllowlist : List String
  fileWriteAllowlist : List String
  freezeAllowed : Bool
  maxExecOutputBytes : UInt64
  requireApproval : Bool

def defaultMaxOutput : UInt64 := 32 * 1024

/-- A field that is not there has its default; one that cannot be read is an error. -/
def fieldOr {α : Type} (default : α) (read : Json → Option α) : Option Json → Option α
  | none => some default
  | some value => read value

def readFields (field : String → ℕ → Option Json) : Option GuestActionPolicySpec := do
  return {
    allowedActions := ← fieldOr [] Json.asStrings (field "allowedActions" 0)
    restartUnitAllowlist := ← fieldOr [] Json.asStrings (field "restartUnitAllowlist" 1)
    execAllowlist := ← fieldOr [] Json.asStrings (field "execAllowlist" 2)
    fileReadAllowlist := ← fieldOr [] Json.asStrings (field "fileReadAllowlist" 3)
    fileWriteAllowlist := ← fieldOr [] Json.asStrings (field "fileWriteAllowlist" 4)
    freezeAllowed := ← fieldOr true Json.asBool (field "freezeAllowed" 5)
    maxExecOutputBytes := ← fieldOr defaultMaxOutput Json.asU64 (field "maxExecOutputBytes" 6)
    requireApproval := ← fieldOr false Json.asBool (field "requireApproval" 7) }

/-- The deserialisation that `serde` derives: by the names of fields, or by their places. -/
def GuestActionPolicySpec.fromValue : Json → Option GuestActionPolicySpec
  | .object fields => readFields fun key _ => fields.lookup key
  | .array items => if items.length ≤ 8 then readFields fun _ i => items[i]? else none
  | _ => none

def policyOfObject (data : Json) : Option GuestActionPolicySpec :=
  (data.get "spec").bind GuestActionPolicySpec.fromValue

abbrev ListAnswer := Except String (List Json)

def fetchGuestActionPolicy : ListAnswer → Option GuestActionPolicySpec
  | .error _ => none
  | .ok items => items.head?.bind policyOfObject

variable (policy : GuestActionPolicySpec)

def restartUnitAllowed (unit : String) : Bool :=
  if !policy.allowedActions.isEmpty &&
      !policy.allowedActions.any fun a => a == "restart_unit" || a == "restart-unit" then false
  else if policy.restartUnitAllowlist.isEmpty then true
  else policy.restartUnitAllowlist.contains unit

def underscored (action : String) : String := replaceChars ['-'] "_" action

def actionAllowed (action : String) : Bool :=
  if policy.allowedActions.isEmpty then true
  else policy.allowedActions.any fun a => a == action || underscored a == underscored action

def pathMatchesAllowlist (allowlist : List String) (path : String) (policyActive : Bool) : Bool :=
  if allowlist.isEmpty then !policyActive
  else allowlist.any fun p => startsWith p path || path == p

def commandMatchesAllowlist (allowlist : List String) (command : String) (policyActive : Bool) :
    Bool :=
  if allowlist.isEmpty then !policyActive
  else
    allowlist.any fun pat =>
      if endsWith "*" pat then startsWith (trimEndMatches (· == '*') pat) command
      else command == pat || contains command pat

def underPolicy {α : Type} (client : Option ListAnswer) (otherwise : α)
    (check : GuestActionPolicySpec → Except ApiError α) : Except ApiError α :=
  match client.bind fetchGuestActionPolicy with
  | none => .ok otherwise
  | some policy => check policy

def bailUnapproved (skipApproval : Bool) (what : String) :
    Except ApiError Unit :=
  bailIf (!skipApproval && policy.requireApproval)
    (ApiError.badRequest s!"GuestActionPolicy requires approval for {what}")

def bailUnlisted (action : String) : Except ApiError Unit :=
  bailIf (!actionAllowed policy action && !policy.allowedActions.isEmpty)
    (ApiError.badRequest s!"{action} denied by GuestActionPolicy")

def enforceRestartUnit (client : Option ListAnswer) (unit : String) (skipApproval : Bool) :
    Except ApiError Unit :=
  underPolicy client () fun policy => do
    bailUnapproved policy skipApproval "remediation actions"
    bailIf (!restartUnitAllowed policy unit)
      (ApiError.badRequest s!"restart_unit denied by GuestActionPolicy for {unit}")

def enforceSupportBundle (client : Option ListAnswer) (skipApproval : Bool) :
    Except ApiError Unit :=
  underPolicy client () fun policy => do
    bailUnapproved policy skipApproval "support bundle collection"
    bailIf (!actionAllowed policy "collect_support_bundle")
      (ApiError.badRequest "collect_support_bundle denied by GuestActionPolicy")

def enforceExec (client : Option ListAnswer) (command : String) (skipApproval : Bool) :
    Except ApiError UInt64 :=
  underPolicy client defaultMaxOutput fun policy => do
    bailUnapproved policy skipApproval "exec"
    bailUnlisted policy "exec"
    bailIf policy.execAllowlist.isEmpty (ApiError.badRequest
      "exec denied: configure execAllowlist in GuestActionPolicy (no raw shell by default)")
    bailIf (!commandMatchesAllowlist policy.execAllowlist command true)
      (ApiError.badRequest "exec command not in GuestActionPolicy allowlist")
    return policy.maxExecOutputBytes

/-- Reading and writing files differ in the names of the action and of its allowlist. -/
def enforceFile (what action verb field : String) (allowlist : GuestActionPolicySpec → List String)
    (client : Option ListAnswer) (path : String) (skipApproval : Bool) : Except ApiError Unit :=
  underPolicy client () fun policy => do
    bailUnapproved policy skipApproval what
    bailUnlisted policy action
    bailIf (!pathMatchesAllowlist (allowlist policy) path true) (ApiError.badRequest
      s!"file path not in GuestActionPolicy {verb} allowlist (configure {field})")

def enforceFileRead : Option ListAnswer → String → Bool → Except ApiError Unit :=
  enforceFile "file read" "file_read" "read" "fileReadAllowlist" (·.fileReadAllowlist)

def enforceFileWrite : Option ListAnswer → String → Bool → Except ApiError Unit :=
  enforceFile "file write" "file_write" "write" "fileWriteAllowlist" (·.fileWriteAllowlist)

inductive GuestRequest where
  | exec (command : String)
  | fileRead (path : String)
  | fileWrite (path : String)

namespace GuestRequest

def action : GuestRequest → String
  | exec _ => "exec"
  | fileRead _ => "file_read"
  | fileWrite _ => "file_write"

def enforced (client : Option ListAnswer) : GuestRequest → Bool
  | exec command => (enforceExec client command false).isOk
  | fileRead path => (enforceFileRead client path false).isOk
  | fileWrite path => (enforceFileWrite client path false).isOk

/-- The components that are left when `..` has taken away the one before it; at the root there is
none to take away. -/
def resolveDots (path : Path) : List String :=
  (path.components.foldl (fun above c =>
    if c ≠ ".." then c :: above
    else
      match above with
      | [] => if path.isAbsolute then [] else [".."]
      | last :: rest => if last = ".." then ".." :: above else rest) []).reverse

def AtOrBelow (entry path : Path) : Prop :=
  entry.isAbsolute = path.isAbsolute ∧ resolveDots entry <+: resolveDots path

instance (entry path : Path) : Decidable (AtOrBelow entry path) :=
  inferInstanceAs (Decidable (_ ∧ _))

def Listed : GuestRequest → Prop
  | exec command => ∃ pat ∈ policy.execAllowlist,
      command = pat ∨ endsWith "*" pat = true ∧
        startsWith (trimEndMatches (· == '*') pat) command = true
  | fileRead path => ∃ p ∈ policy.fileReadAllowlist, AtOrBelow (.ofString p) (.ofString path)
  | fileWrite path => ∃ p ∈ policy.fileWriteAllowlist, AtOrBelow (.ofString p) (.ofString path)

instance : (request : GuestRequest) → Decidable (request.Listed policy)
  | exec command => inferInstanceAs (Decidable (∃ pat ∈ policy.execAllowlist,
      command = pat ∨ endsWith "*" pat = true ∧
        startsWith (trimEndMatches (· == '*') pat) command = true))
  | fileRead path => inferInstanceAs (Decidable
      (∃ p ∈ policy.fileReadAllowlist, AtOrBelow (.ofString p) (.ofString path)))
  | fileWrite path => inferInstanceAs (Decidable
      (∃ p ∈ policy.fileWriteAllowlist, AtOrBelow (.ofString p) (.ofString path)))

def Permitted (request : GuestRequest) : Prop :=
  policy.requireApproval = false ∧ actionAllowed policy request.action = true ∧
    request.Listed policy

instance (request : GuestRequest) : Decidable (request.Permitted policy) :=
  inferInstanceAs (Decidable (_ ∧ _))

/-- The text of an entry is found in the request: anywhere in a command, or at the start of a
path. -/
def LooksListed : GuestRequest → Prop
  | exec command => ∃ pat ∈ policy.execAllowlist,
      if endsWith "*" pat = true then startsWith (trimEndMatches (· == '*') pat) command = true
      else contains command pat = true
  | fileRead path => ∃ p ∈ policy.fileReadAllowlist, startsWith p path = true
  | fileWrite path => ∃ p ∈ policy.fileWriteAllowlist, startsWith p path = true

end GuestRequest

variable {policy} {client : Option ListAnswer}

/-- The server answers with what there is, up to the limit it is given or less, or not at all. -/
def AnswersFor (cluster : List Json) (answer : ListAnswer) : Prop :=
  ∀ items, answer = .ok items → items <+: cluster

theorem bailUnapproved_eq_ok {what : String} :
    bailUnapproved policy false what = .ok () ↔ policy.requireApproval = false := by
  unfold bailUnapproved
  rw [bailIf_eq_ok]
  simp

theorem bailUnlisted_eq_ok {action : String} :
    bailUnlisted policy action = .ok () ↔ actionAllowed policy action = true := by
  unfold bailUnlisted
  rw [bailIf_eq_ok]
  have hempty : policy.allowedActions.isEmpty = true → actionAllowed policy action = true := by
    intro h
    unfold actionAllowed
    rw [if_pos h]
  cases hallowed : actionAllowed policy action with
  | true => simp
  | false => simpa [hallowed] using hempty

theorem isOk_underPolicy {α : Type} {otherwise : α}
    {check : GuestActionPolicySpec → Except ApiError α} :
    (underPolicy client otherwise check).isOk = true ↔
      ∀ policy, client.bind fetchGuestActionPolicy = some policy → ∃ a, check policy = .ok a := by
  unfold underPolicy
  cases client.bind fetchGuestActionPolicy with
  | none => simp [Except.isOk, Except.toBool]
  | some policy =>
    cases h : check policy with
    | ok a => simp [h, Except.isOk, Except.toBool]
    | error e => simp [h, Except.isOk, Except.toBool]

theorem startsWith_self (s : String) : startsWith s s = true := by
  unfold startsWith
  rw [List.isPrefixOf_iff_prefix]

theorem contains_self (s : String) : contains s s = true := by
  unfold contains
  rw [isInfix_iff]

theorem pathMatchesAllowlist_active {allowlist : List String} {path : String} :
    pathMatchesAllowlist allowlist path true = true ↔
      ∃ p ∈ allowlist, startsWith p path = true := by
  unfold pathMatchesAllowlist
  split_ifs with hempty
  · simp [List.isEmpty_iff.mp hempty]
  · simp only [List.any_eq_true, Bool.or_eq_true, beq_iff_eq]
    refine exists_congr fun p => and_congr_right fun _ => or_iff_left_of_imp fun heq => ?_
    rw [heq]
    exact startsWith_self p

theorem commandMatchesAllowlist_active {command : String} :
    commandMatchesAllowlist policy.execAllowlist command true = true ↔
      (GuestRequest.exec command).LooksListed policy := by
  unfold commandMatchesAllowlist GuestRequest.LooksListed
  split_ifs with hempty
  · simp [List.isEmpty_iff.mp hempty]
  · rw [List.any_eq_true]
    refine exists_congr fun pat => and_congr_right fun _ => ?_
    split_ifs with hstar
    · rfl
    · rw [Bool.or_eq_true, beq_iff_eq]
      refine or_iff_right_of_imp fun heq => ?_
      rw [heq]
      exact contains_self pat

theorem isOk_enforceFile {what action verb field : String}
    {allowlist : GuestActionPolicySpec → List String} {path : String} :
    (enforceFile what action verb field allowlist client path false).isOk = true ↔
      ∀ policy, client.bind fetchGuestActionPolicy = some policy →
        policy.requireApproval = false ∧ actionAllowed policy action = true ∧
          ∃ p ∈ allowlist policy, startsWith p path = true := by
  unfold enforceFile
  rw [isOk_underPolicy]
  refine forall_congr' fun policy => imp_congr_right fun _ => ?_
  rw [← pathMatchesAllowlist_active]
  simp only [except_unit_bind_iff, bailUnapproved_eq_ok, bailUnlisted_eq_ok]
  constructor
  · rintro ⟨_, happroval, hallowed, hmatches⟩
    exact ⟨happroval, hallowed, by simpa using bailIf_eq_ok.mp hmatches⟩
  · rintro ⟨happroval, hallowed, hmatches⟩
    exact ⟨(), happroval, hallowed, bailIf_eq_ok.mpr (by simpa using hmatches)⟩

theorem isOk_enforceExec {command : String} :
    (enforceExec client command false).isOk = true ↔
      ∀ policy, client.bind fetchGuestActionPolicy = some policy →
        policy.requireApproval = false ∧ actionAllowed policy "exec" = true ∧
          (GuestRequest.exec command).LooksListed policy := by
  unfold enforceExec
  rw [isOk_underPolicy]
  refine forall_congr' fun policy => imp_congr_right fun _ => ?_
  rw [← commandMatchesAllowlist_active]
  have hlisted : commandMatchesAllowlist policy.execAllowlist command true = true →
      ¬ policy.execAllowlist.isEmpty = true := by
    intro h hempty
    unfold commandMatchesAllowlist at h
    rw [if_pos hempty] at h
    cases h
  simp only [except_unit_bind_iff, bailUnapproved_eq_ok, bailUnlisted_eq_ok, bailIf_eq_ok,
    Bool.not_eq_true', Bool.not_eq_false]
  constructor
  · rintro ⟨_, happroval, hallowed, -, hmatches, -⟩
    exact ⟨happroval, hallowed, hmatches⟩
  · rintro ⟨happroval, hallowed, hmatches⟩
    exact ⟨_, happroval, hallowed, hlisted hmatches, hmatches, rfl⟩

/-- A request is let through unless a policy is found that asks for approval, does not allow the
action, or has no entry whose text is found in the request. -/
theorem GuestRequest.enforced_iff (request : GuestRequest) :
    request.enforced client = true ↔
      ∀ policy, client.bind fetchGuestActionPolicy = some policy →
        policy.requireApproval = false ∧ actionAllowed policy request.action = true ∧
          request.LooksListed policy := by
  cases request with
  | exec command => exact isOk_enforceExec
  | fileRead path => exact isOk_enforceFile
  | fileWrite path => exact isOk_enforceFile

theorem fetchGuestActionPolicy_of_answersFor {cluster : List Json} {answer : ListAnswer}
    (h : AnswersFor cluster answer) (hpolicy : fetchGuestActionPolicy answer = some policy) :
    cluster.head?.bind policyOfObject = some policy := by
  cases answer with
  | error e => cases hpolicy
  | ok items =>
    obtain ⟨rest, rfl⟩ := h items rfl
    cases items with
    | nil => cases hpolicy
    | cons object items => exact hpolicy

/-- Letting a request through means that the policy permits it exactly where the policy can be read,
and permits it, or is found and denies it: it asks for approval, does not allow the action, or has
no entry whose text is found in the request. -/
theorem permitted_of_enforced_iff {cluster : List Json} {client : Option ListAnswer}
    (hclient : ∀ answer, client = some answer → AnswersFor cluster answer)
    (request : GuestRequest) :
    (request.enforced client = true →
      ∃ policy, cluster.head?.bind policyOfObject = some policy ∧ request.Permitted policy) ↔
    ∃ policy, cluster.head?.bind policyOfObject = some policy ∧
      (request.Permitted policy ∨
        (client.bind fetchGuestActionPolicy).isSome = true ∧
          (policy.requireApproval = true ∨ actionAllowed policy request.action = false ∨
            ¬ request.LooksListed policy)) := by
  constructor
  · intro h
    by_cases henforced : request.enforced client = true
    · obtain ⟨policy, hpolicy, hpermitted⟩ := h henforced
      exact ⟨policy, hpolicy, .inl hpermitted⟩
    · rw [GuestRequest.enforced_iff] at henforced
      obtain ⟨policy, hnot⟩ := not_forall.mp henforced
      obtain ⟨hfound, hdenied⟩ := Classical.not_imp.mp hnot
      obtain ⟨answer, rfl, hfetch⟩ := Option.bind_eq_some_iff.mp hfound
      refine ⟨policy, fetchGuestActionPolicy_of_answersFor (hclient answer rfl) hfetch,
        .inr ⟨?_, ?_⟩⟩
      · rw [hfound]
        rfl
      · rw [not_and_or, not_and_or, Bool.not_eq_false, Bool.not_eq_true] at hdenied
        exact hdenied
  · rintro ⟨policy, hpolicy, hpermitted | ⟨hsome, hdenied⟩⟩ henforced
    · exact ⟨policy, hpolicy, hpermitted⟩
    · obtain ⟨found, hfound⟩ := Option.isSome_iff_exists.mp hsome
      obtain ⟨answer, rfl, hfetch⟩ := Option.bind_eq_some_iff.mp hfound
      have hsame := fetchGuestActionPolicy_of_answersFor (hclient answer rfl) hfetch
      cases hpolicy.symm.trans hsame
      obtain ⟨happroval, hallowed, hlooks⟩ := request.enforced_iff.mp henforced policy hfound
      rcases hdenied with happroval' | hnot | hnot
      · exact absurd (happroval.symm.trans happroval') nofun
      · exact absurd (hallowed.symm.trans hnot) nofun
      · exact absurd hlooks hnot

def listOf (texts : List String) : Json := .array (texts.map .string)

def clusterPolicy : Json :=
  .object [("spec", .object [
    ("execAllowlist", listOf ["uptime"]),
    ("fileReadAllowlist", listOf ["/var/log"]),
    ("fileWriteAllowlist", listOf ["/opt/app"])])]

theorem rm_denied : (policyOfObject clusterPolicy).isSome = true ∧
    ((GuestRequest.exec "rm -rf /").enforced (some (.ok [clusterPolicy])) = true →
      ∃ policy, [clusterPolicy].head?.bind policyOfObject = some policy ∧
        (GuestRequest.exec "rm -rf /").Permitted policy) := by
  refine ⟨rfl, (permitted_of_enforced_iff ?_ _).mpr ⟨_, rfl, .inr ⟨rfl, .inr (.inr ?_)⟩⟩⟩
  · intro answer hanswer items hitems
    cases hanswer
    cases hitems
    exact List.prefix_refl _
  · rintro ⟨pat, hpat, hlooks⟩
    obtain rfl : pat = "uptime" := List.mem_singleton.mp hpat
    exact absurd hlooks (by decide)

/-- A command that has the text of an entry in it, paths that begin with the text of an entry, and
any command when the server does not answer, or when the policy cannot be read. -/
theorem let_through :
    (GuestRequest.exec "rm -rf / # uptime").enforced (some (.ok [clusterPolicy])) = true ∧
    (GuestRequest.fileRead "/var/log/../../etc/shadow").enforced
      (some (.ok [clusterPolicy])) = true ∧
    (GuestRequest.fileWrite "/opt/application/x").enforced (some (.ok [clusterPolicy])) = true ∧
    (GuestRequest.exec "rm -rf /").enforced (some (.error "timeout")) = true ∧
    (GuestRequest.exec "rm -rf /").enforced
      (some (.ok [.object [("spec", .object [("execAllowlist", .string "uptime")])]])) = true ∧
    ∀ policy, policyOfObject clusterPolicy = some policy →
      ¬ (GuestRequest.exec "rm -rf / # uptime").Permitted policy ∧
      ¬ (GuestRequest.fileRead "/var/log/../../etc/shadow").Permitted policy ∧
      ¬ (GuestRequest.fileWrite "/opt/application/x").Permitted policy ∧
      ¬ (GuestRequest.exec "rm -rf /").Permitted policy := by
  refine ⟨by decide +kernel, by decide +kernel, by decide +kernel, by decide +kernel,
    by decide +kernel, ?_⟩
  intro policy hpolicy
  cases hpolicy
  decide +kernel

end Guestkit.Api
