import Guestkit.Api.GuestActionPolicy
import Guestkit.Lib.Program

/-! Guest actions that wait for approval.  Each is a record in Redis; approving it loads the record,
executes the action and saves the record as approved, and rejecting it loads the record and saves it
as rejected.  Loading, executing and saving are separate, so what other requests do can come in
between. -/

namespace Guestkit.Api

open Lib Lib.Text Lib.Program Machine List Option

structure PendingGuestAction where
  id : String
  action : String
  «namespace» : String
  vmName : String
  unit : Option String
  status : String
  createdAt : String
  requestedBy : Option String
  approvedAt : Option String
  approvedBy : Option String
  rejectedAt : Option String
  rejectedBy : Option String
  result : Option Json

def pendingKey (id : String) : String := s!"guest-action:pending:{id}"

def pendingIndex : String := "guest-action:pending:index"

def pendingRestartUnit (id ns vmName unit createdAt : String) (requestedBy : Option String) :
    PendingGuestAction where
  id := id
  action := "restart_unit"
  «namespace» := ns
  vmName := vmName
  unit := some unit
  status := "pending"
  createdAt := createdAt
  requestedBy := requestedBy
  approvedAt := none
  approvedBy := none
  rejectedAt := none
  rejectedBy := none
  result := none

def pendingSupportBundle (id ns vmName createdAt : String) (requestedBy : Option String) :
    PendingGuestAction where
  id := id
  action := "collect_support_bundle"
  «namespace» := ns
  vmName := vmName
  unit := none
  status := "pending"
  createdAt := createdAt
  requestedBy := requestedBy
  approvedAt := none
  approvedBy := none
  rejectedAt := none
  rejectedBy := none
  result := none

/-- How `serde_json` writes a record and reads it again.  A result may come back with other numbers;
the fields that decide what happens to the action do not change. -/
structure ActionText (Text : Type) where
  write : PendingGuestAction → Text
  read : Text → Option PendingGuestAction
  read_write : ∀ action, ∃ action', read (write action) = some action' ∧ action'.id = action.id ∧
    action'.action = action.action ∧ action'.unit = action.unit ∧ action'.status = action.status

inductive ActionOp where
  | load (id : String)
  | save (action : PendingGuestAction)
  | srem (index member : String)
  | now
  /-- `execute_pending` begins; this is noted for what is proved about runs. -/
  | begin (id : String)
  | enforceRestartUnit (unit : String)
  | enforceSupportBundle
  | pullForVm (ns name method : String) (params : Json)

abbrev ActionReply : ActionOp → Type
  | .load _ => Except String (Option PendingGuestAction)
  | .save _ => Except String Unit
  | .srem _ _ => Except String Unit
  | .now => String
  | .begin _ => Unit
  | .enforceRestartUnit _ => Except ApiError Unit
  | .enforceSupportBundle => Except ApiError Unit
  | .pullForVm _ _ _ _ => Except ApiError Json

abbrev ActionProgram (α : Type) := Program ActionOp ActionReply α

def act (op : ActionOp) : ActionProgram (ActionReply op) := perform op

def orReturn {α β : Type} (result : Except ApiError α)
    (next : α → ActionProgram (Except ApiError β)) : ActionProgram (Except ApiError β) :=
  match result with
  | .error e => .ret (.error e)
  | .ok value => next value

def redisResult {α : Type} (result : Except String α) : Except ApiError α :=
  result.mapError .internal

def roleOperator : String := "operator"

def isAdmin (user : AuthUserClaims) : Bool := eqIgnoreAsciiCase user.role roleAdmin

def canApproveGuestActions (user : AuthUserClaims) : Bool :=
  isAdmin user || eqIgnoreAsciiCase user.role roleOperator

def requireGuestActionApprover (config : Config) (user : Option AuthUserClaims) :
    Except ApiError Unit :=
  if !config.authEnabled then .ok ()
  else
    match user with
    | none => .error (.unauthorized "authentication required")
    | some user =>
      bailIf (!canApproveGuestActions user) (ApiError.forbidden "operator or admin role required")

def actorLabel (user : Option AuthUserClaims) : Option String :=
  user.map fun u => (u.email <|> u.name).getD u.sub

def loadPending (id : String) : ActionProgram (Except ApiError PendingGuestAction) := do
  let loaded ← act (.load id)
  orReturn (redisResult loaded) fun raw =>
    match raw with
    | none => return .error (.badRequest "pending action not found")
    | some action => return .ok action

def rpcResult (response : Json) : Json := (response.get "result").getD response

def executePending (action : PendingGuestAction) : ActionProgram (Except ApiError Json) := do
  act (.begin action.id)
  if action.action = "restart_unit" then
    match action.unit with
    | none => return .error (.badRequest "unit missing on pending action")
    | some unit => do
      let allowed ← act (.enforceRestartUnit unit)
      orReturn allowed fun _ => do
        let pulled ← act (.pullForVm action.namespace action.vmName "guestkit.restartUnit"
          (.object [("unit", .string unit)]))
        orReturn pulled fun response => return .ok (.object [
          ("namespace", .string action.namespace), ("name", .string action.vmName),
          ("unit", .string unit), ("result", response)])
  else if action.action = "collect_support_bundle" then do
    let allowed ← act .enforceSupportBundle
    orReturn allowed fun _ => do
      let pulled ← act (.pullForVm action.namespace action.vmName
        "guestkit.collectSupportBundle" (.object []))
      orReturn pulled fun response => return .ok (.object [
        ("namespace", .string action.namespace), ("name", .string action.vmName),
        ("bundle", rpcResult response)])
  else return .error (.badRequest s!"unsupported action: {action.action}")

def savePending (id : String) (action : PendingGuestAction) (answer : Json) :
    ActionProgram (Except ApiError Json) := do
  let saved ← act (.save action)
  orReturn (redisResult saved) fun _ => do
    let removed ← act (.srem pendingIndex id)
    orReturn (redisResult removed) fun _ => return .ok answer

def approveGuestAction (config : Config) (id : String) (user : Option AuthUserClaims) :
    ActionProgram (Except ApiError Json) :=
  orReturn (requireGuestActionApprover config user) fun _ => do
    let loaded ← loadPending id
    orReturn loaded fun action => do
      if action.status ≠ "pending" then return .error (.badRequest "action is not pending")
      else do
        let result ← executePending action
        orReturn result fun result => do
          let approvedAt ← act .now
          savePending id
            { action with
              status := "approved"
              approvedAt := some approvedAt
              approvedBy := actorLabel user
              result := some result }
            (.object [("action_id", .string id), ("status", .string "approved"),
              ("result", result)])

def rejectGuestAction (config : Config) (id : String) (user : Option AuthUserClaims) :
    ActionProgram (Except ApiError Json) :=
  orReturn (requireGuestActionApprover config user) fun _ => do
    let loaded ← loadPending id
    orReturn loaded fun action => do
      if action.status ≠ "pending" then return .error (.badRequest "action is not pending")
      else do
        let rejectedAt ← act .now
        savePending id
          { action with
            status := "rejected"
            rejectedAt := some rejectedAt
            rejectedBy := actorLabel user }
          (.object [("action_id", .string id), ("status", .string "rejected")])

/-- What an operation meets with.  An operation that is lost has taken effect, but its answer does
not arrive. -/
inductive ActionOutcome where
  | done
  | answers (client : Option ListAnswer)
  | returns (value : Json)
  | failed (error : ApiError)
  | lost (error : ApiError)

/-- `executions` and `rejections` note which actions have been executed and for which a rejection
has been saved. -/
structure ActionState (Text : Type) where
  redis : Expiring String Text
  index : List String
  now : ℕ
  executions : List String := []
  rejections : List String := []

inductive ActionRequest where
  | approve (user : Option AuthUserClaims)
  | reject (user : Option AuthUserClaims)

section Machine

variable {Text : Type} (text : ActionText Text) (toRfc3339 : ℕ → String)

def saved (action : PendingGuestAction) (s : ActionState Text) : ActionState Text :=
  { s with
    redis := s.redis.set (pendingKey action.id) (text.write action) (s.now + 86400 * second)
    rejections := if action.status = "rejected" then s.rejections ++ [action.id] else s.rejections }

def execAction : (op : ActionOp) → ActionOutcome → ActionState Text →
    Option (ActionReply op × ActionState Text)
  | .load id, .done, s => some (.ok ((s.redis.get s.now (pendingKey id)).bind text.read), s)
  | .load _, .failed e, s => some (.error e.message, s)
  | .save action, .done, s => some (.ok (), saved text action s)
  | .save _, .failed e, s => some (.error e.message, s)
  | .save action, .lost e, s => some (.error e.message, saved text action s)
  | .srem _ id, .done, s => some (.ok (), { s with index := s.index.erase id })
  | .srem _ _, .failed e, s => some (.error e.message, s)
  | .srem _ id, .lost e, s => some (.error e.message, { s with index := s.index.erase id })
  | .now, .done, s => some (toRfc3339 s.now, s)
  | .begin id, .done, s => some ((), { s with executions := s.executions ++ [id] })
  | .enforceRestartUnit unit, .answers client, s => some (enforceRestartUnit client unit true, s)
  | .enforceSupportBundle, .answers client, s => some (enforceSupportBundle client true, s)
  | .pullForVm _ _ _ _, .returns value, s => some (.ok value, s)
  | .pullForVm _ _ _ _, .failed e, s => some (.error e, s)
  | _, _, _ => none

def approvals (config : Config) (id : String) :
    Machine ActionOp ActionReply ActionOutcome (ActionState Text) ActionRequest
      (Except ApiError Json) where
  program
    | .approve user => approveGuestAction config id user
    | .reject user => rejectGuestAction config id user
  arrive _ s := some s
  exec := execAction text toRfc3339
  pass duration s := { s with now := s.now + duration }
  crash s := s

end Machine

abbrev ActionConfig (Text : Type) :=
  Machine.Config ActionOp ActionReply (ActionState Text) ActionRequest (Except ApiError Json)

abbrev ActionEvent := Machine.Event ActionOutcome ActionRequest

abbrev ActionEntry (Text : Type) := Machine.Entry ActionOp ActionReply ActionOutcome
  (ActionState Text) ActionRequest (Except ApiError Json)

def Pauses : ActionOp → Prop
  | .load _ => True
  | _ => False

instance : DecidablePred Pauses
  | .load _ => .isTrue trivial
  | .save _ | .srem _ _ | .now | .begin _ | .enforceRestartUnit _ | .enforceSupportBundle
  | .pullForVm _ _ _ _ => .isFalse id

def Executing : ActionRequest → ActionOp → Prop
  | .approve _, .enforceRestartUnit _ | .approve _, .enforceSupportBundle
  | .approve _, .pullForVm _ _ _ _ | .approve _, .now | .approve _, .save _ => True
  | _, _ => False

instance : (request : ActionRequest) → (op : ActionOp) → Decidable (Executing request op)
  | .approve _, .enforceRestartUnit _ | .approve _, .enforceSupportBundle
  | .approve _, .pullForVm _ _ _ _ | .approve _, .now | .approve _, .save _ => .isTrue trivial
  | .approve _, .load _ | .approve _, .srem _ _ | .approve _, .begin _ | .reject _, _ =>
    .isFalse id

def succeeds : (op : ActionOp) → ActionReply op → Bool
  | .save _, reply => reply.isOk
  | .enforceRestartUnit _, reply => reply.isOk
  | .enforceSupportBundle, reply => reply.isOk
  | .pullForVm _ _ _ _, reply => reply.isOk
  | _, _ => true

section Runs

variable {Text : Type} (text : ActionText Text) (toRfc3339 : ℕ → String) (config : Config)
  (id : String)

def Met (request : ActionRequest) (op : ActionOp) (outcome : ActionOutcome)
    (s : ActionState Text) : Prop :=
  Executing request op →
    (execAction text toRfc3339 op outcome s).all (fun result => succeeds op result.1) = true

instance (request : ActionRequest) (op : ActionOp) (outcome : ActionOutcome)
    (s : ActionState Text) : Decidable (Met text toRfc3339 request op outcome s) :=
  inferInstanceAs (Decidable (_ → _))

/-- While a request has loaded the record and not returned, no other request does anything; an
action that is executed is also saved as approved, with no failure or crash in between. -/
def Orderly (c : ActionConfig Text) : ActionEvent → Prop
  | .act t outcome =>
    (∀ t' < c.threads.length, t' ≠ t → ¬ Inside Pauses (c.thread t')) ∧
      AtNext (fun request op => Met text toRfc3339 request op outcome c.shared) (c.thread t)
  | .crash => ∀ t < c.threads.length,
      AtNext (fun request op => ¬ Executing request op) (c.thread t)
  | .start _ | .pass _ => True

instance (c : ActionConfig Text) : (e : ActionEvent) → Decidable (Orderly text toRfc3339 c e)
  | .act _ _ => inferInstanceAs (Decidable (_ ∧ _))
  | .crash => inferInstanceAs (Decidable (∀ _ < _, _))
  | .start _ | .pass _ => .isTrue trivial

def record (s : ActionState Text) : Option PendingGuestAction :=
  (s.redis (pendingKey id)).bind fun entry => text.read entry.value

def storedStatus (s : ActionState Text) : Option String :=
  ((s.redis.get s.now (pendingKey id)).bind text.read).map (·.status)

def Supported (action : PendingGuestAction) : Prop :=
  action.action = "restart_unit" ∧ action.unit.isSome = true ∨
    action.action = "collect_support_bundle"

/-- At most one execution, and none besides a rejection. -/
structure Fair (s : ActionState Text) : Prop where
  known : ∀ action, record text id s = some action → action.id = id ∧ Supported action
  once : s.executions.length ≤ 1
  apart : s.rejections ≠ [] → s.executions = []
  rejected : ∀ action, record text id s = some action → action.status = "rejected" →
    s.rejections ≠ []

structure Settled (s : ActionState Text) : Prop extends Fair text id s where
  pending : ∀ action, record text id s = some action → action.status = "pending" →
    s.executions = [] ∧ s.rejections = []

def SameActions (s s' : ActionState Text) : Prop :=
  s'.redis = s.redis ∧ s'.executions = s.executions ∧ s'.rejections = s.rejections

def Ready (request : ActionRequest) (op : ActionOp) (s : ActionState Text) : Prop :=
  Fair text id s ∧ (¬ Executing request op → Settled text id s) ∧
    ∀ id', op = .begin id' → s.executions = [] ∧ s.rejections = []

def Ended (request : ActionRequest) (value : Except ApiError Json) (s : ActionState Text) : Prop :=
  Settled text id s ∧ ∀ user json, request = .reject user → value = .ok json → s.rejections ≠ []

/-- A part of a request, alone from its load on, ends with `ended`. -/
abbrev Handles {β : Type} (request : ActionRequest) (ended : β → ActionState Text → Prop) :
    ActionProgram β → ActionState Text → Prop :=
  Holds (approvals text toRfc3339 config id)
    (fun _ => Alone Pauses (Settled text id) SameActions)
    (SeesTo Pauses (Settled text id) (Ready text id)) (Met text toRfc3339) request ended

end Runs

def Enqueued {Text : Type} (text : ActionText Text) (id : String) (s : ActionState Text) : Prop :=
  s.executions = [] ∧ s.rejections = [] ∧ ∃ action entry,
    ((∃ ns vmName unit createdAt requestedBy,
        action = pendingRestartUnit id ns vmName unit createdAt requestedBy) ∨
      ∃ ns vmName createdAt requestedBy,
        action = pendingSupportBundle id ns vmName createdAt requestedBy) ∧
    s.redis (pendingKey id) = some entry ∧ entry.value = text.write action

def HasRejected {Text : Type} (c : ActionConfig Text) : Prop :=
  ∃ t user json, c.thread t = some (.reject user, .ret (.ok json))

def Begins {Text : Type} (entry : ActionEntry Text) : Prop :=
  ∃ t outcome request id next, entry.event = .act t outcome ∧
    entry.before.thread t = some (request, .call (.begin id) next)

instance {Text : Type} (c : ActionConfig Text) : Decidable (HasRejected c) :=
  decidable_of_iff (∃ thread ∈ c.threads, (match thread with
      | (.reject _, .ret (.ok _)) => true
      | _ => false) = true) <| by
    constructor
    · rintro ⟨⟨request, program⟩, hmem, hrejected⟩
      obtain ⟨t, hthread⟩ := mem_iff_getElem?.mp hmem
      split at hrejected
      · next user json heq => exact ⟨t, user, json, heq ▸ hthread⟩
      · cases hrejected
    · rintro ⟨t, user, json, hthread⟩
      exact ⟨_, mem_of_getElem? hthread, rfl⟩

instance {Text : Type} (entry : ActionEntry Text) : Decidable (Begins entry) :=
  decidable_of_iff ((match entry.event with
      | .act t _ =>
        match entry.before.thread t with
        | some (_, .call (.begin _) _) => true
        | _ => false
      | _ => false) = true) <| by
    constructor
    · intro hbegins
      split at hbegins
      · next t outcome hevent =>
        split at hbegins
        · next request id next hthread => exact ⟨t, outcome, request, id, next, hevent, hthread⟩
        · cases hbegins
      · cases hbegins
    · rintro ⟨t, outcome, request, id, next, hevent, hthread⟩
      rw [hevent]
      dsimp only
      rw [hthread]

section Proofs

variable {Text : Type} {text : ActionText Text} {toRfc3339 : ℕ → String} {config : Config}
  {id : String} {s s' : ActionState Text}

theorem record_of_get {action : PendingGuestAction}
    (h : (s.redis.get s.now (pendingKey id)).bind text.read = some action) :
    record text id s = some action := by
  obtain ⟨value, hget, hread⟩ := bind_eq_some_iff.mp h
  obtain ⟨entry, hentry, hvalue⟩ := bind_eq_some_iff.mp hget
  unfold record
  rw [hentry]
  obtain ⟨-, heq⟩ := ite_none_right_eq_some.mp hvalue
  cases heq
  exact hread

theorem SameActions.record_eq (h : SameActions s s') : record text id s' = record text id s := by
  unfold record
  rw [h.1]

theorem Fair.of_same (hs : Fair text id s) (h : SameActions s s') : Fair text id s' := by
  obtain ⟨known, once, apart, rejected⟩ := hs
  rw [← h.record_eq] at known rejected
  rw [← h.2.1] at once apart
  rw [← h.2.2] at apart rejected
  exact ⟨known, once, apart, rejected⟩

theorem Settled.of_same (hs : Settled text id s) (h : SameActions s s') : Settled text id s' := by
  refine ⟨hs.toFair.of_same h, fun action haction hstatus => ?_⟩
  rw [h.record_eq] at haction
  rw [h.2.1, h.2.2]
  exact hs.pending action haction hstatus

theorem written (text : ActionText Text) {action : PendingGuestAction} (hid : action.id = id)
    (hknown : Supported action) : ∀ a, text.read (text.write action) = some a →
      (a.id = id ∧ Supported a) ∧ a.status = action.status := by
  obtain ⟨action', hread, hid', haction, hunit, hstatus⟩ := text.read_write action
  rw [hread]
  rintro _ ⟨⟩
  unfold Supported
  rw [haction, hunit]
  exact ⟨⟨hid'.trans hid, hknown⟩, hstatus⟩

theorem Fair.saved (hs : Fair text id s) {action : PendingGuestAction} (hid : action.id = id)
    (hknown : Supported action) (hstatus : action.status ≠ "pending")
    (hreject : action.status = "rejected" → s.executions = []) :
    Settled text id (saved text action s) := by
  have hwritten := written text hid hknown
  have hrecord : record text id (Api.saved text action s) = text.read (text.write action) := by
    unfold record Api.saved
    dsimp only
    rw [hid, Expiring.set_same]
    rfl
  rw [← hrecord] at hwritten
  refine ⟨⟨fun a ha => (hwritten a ha).1, hs.once, fun hne => ?_, fun a ha hrejected => ?_⟩,
    fun a ha hpending => ?_⟩
  · unfold Api.saved at hne
    dsimp only at hne
    split_ifs at hne with hrejected
    · exact hreject hrejected
    · exact hs.apart hne
  · rw [(hwritten a ha).2] at hrejected
    unfold Api.saved
    dsimp only
    rw [if_pos hrejected]
    exact append_ne_nil_of_right_ne_nil _ (cons_ne_nil _ _)
  · rw [(hwritten a ha).2] at hpending
    exact absurd hpending hstatus

section Handles

variable {request : ActionRequest}

theorem handles_act {β : Type} {ended : β → ActionState Text → Prop} {op : ActionOp}
    {next : ActionReply op → ActionProgram β} (hop : ¬ Pauses op)
    (h : ∀ s1, SameActions s s1 → Ready text id request op s1 ∧
      ∀ outcome reply s2, Met text toRfc3339 request op outcome s1 →
        execAction text toRfc3339 op outcome s1 = some (reply, s2) →
        Handles text toRfc3339 config id request ended (next reply) s2) :
    Handles text toRfc3339 config id request ended (act op >>= next) s := by
  intro s1 halone
  obtain ⟨hready, hnext⟩ := h s1 (halone.2 hop)
  exact ⟨⟨fun hpauses => absurd hpauses hop, fun _ => hready⟩, hnext⟩

theorem handles_srem (hs : Settled text id s) {answer : Json}
    (hrejected : ∀ user, request = .reject user → s.rejections ≠ []) :
    Handles text toRfc3339 config id request (Ended text id request)
      (do
        let removed ← act (.srem pendingIndex id)
        orReturn (redisResult removed) fun _ => return .ok answer) s := by
  refine handles_act not_false fun s1 hsame => ⟨?_, fun outcome reply s2 _ hexec => ?_⟩
  · exact ⟨hs.toFair.of_same hsame, fun _ => hs.of_same hsame, nofun⟩
  · have hs1 := hs.of_same hsame
    have hrejected1 : ∀ user, request = .reject user → s1.rejections ≠ [] := by
      rw [hsame.2.2]
      exact hrejected
    cases outcome <;> cases hexec
    · exact ⟨hs1.of_same ⟨rfl, rfl, rfl⟩, fun user json huser _ => hrejected1 user huser⟩
    · exact ⟨hs1, nofun⟩
    · exact ⟨hs1.of_same ⟨rfl, rfl, rfl⟩, nofun⟩

theorem handles_savePending (hs : Fair text id s) {action : PendingGuestAction} {answer : Json}
    (hsettled : ¬ Executing request (.save action) → Settled text id s) (hid : action.id = id)
    (hknown : Supported action) (hstatus : action.status ≠ "pending")
    (hreject : action.status = "rejected" → s.executions = [])
    (hrejects : ∀ user, request = .reject user → action.status = "rejected") :
    Handles text toRfc3339 config id request (Ended text id request)
      (savePending id action answer) s := by
  refine handles_act not_false fun s1 hsame => ⟨?_, fun outcome reply s2 hmet hexec => ?_⟩
  · exact ⟨hs.of_same hsame, fun hnot => (hsettled hnot).of_same hsame, nofun⟩
  · have hsaved : Settled text id (saved text action s1) := by
      refine (hs.of_same hsame).saved hid hknown hstatus fun hrejected => ?_
      rw [hsame.2.1]
      exact hreject hrejected
    have hnot : ∀ e s2, execAction text toRfc3339 (.save action) outcome s1 = some (.error e, s2) →
        ¬ Executing request (.save action) := by
      intro e s2 hexec hexecuting
      have hsucceeds := hmet hexecuting
      rw [hexec] at hsucceeds
      cases hsucceeds
    cases outcome with
    | done =>
      cases hexec
      refine handles_srem hsaved fun user huser => ?_
      unfold saved
      dsimp only
      rw [if_pos (hrejects user huser)]
      exact append_ne_nil_of_right_ne_nil _ (cons_ne_nil _ _)
    | failed e =>
      cases hexec
      exact ⟨(hsettled (hnot _ _ rfl)).of_same hsame, nofun⟩
    | lost e =>
      cases hexec
      exact ⟨hsaved, nofun⟩
    | answers client => cases hexec
    | returns value => cases hexec

theorem handles_executing {β : Type} {ended : β → ActionState Text → Prop} {op : ActionOp}
    {next : ActionReply op → ActionProgram β} (hexecuting : Executing request op)
    (hsave : ∀ action, op ≠ .save action) (hs : Fair text id s) (hrejections : s.rejections = [])
    (hnext : ∀ s1 reply, Fair text id s1 → s1.rejections = [] → succeeds op reply = true →
      Handles text toRfc3339 config id request ended (next reply) s1) :
    Handles text toRfc3339 config id request ended (act op >>= next) s := by
  have hop : ¬ Pauses op := by
    cases op <;> first | exact not_false | cases request <;> exact hexecuting.elim
  refine handles_act hop fun s1 hsame => ⟨?_, fun outcome reply s2 hmet hexec => ?_⟩
  · refine ⟨hs.of_same hsame, fun hnot => absurd hexecuting hnot, ?_⟩
    rintro id' rfl
    cases request <;> exact hexecuting.elim
  · have hsucceeds := hmet hexecuting
    rw [hexec] at hsucceeds
    have hkept : s2 = s1 := by
      cases request <;> cases op <;> cases outcome <;> cases hexec <;>
        first | rfl | exact hexecuting.elim | exact absurd rfl (hsave _)
    rw [hkept]
    exact hnext s1 reply (hs.of_same hsame) (hsame.2.2.trans hrejections) hsucceeds

theorem eq_ok_of_isOk {α : Type} {result : Except ApiError α} (h : result.isOk = true) :
    ∃ value, result = .ok value := by
  cases result with
  | ok value => exact ⟨value, rfl⟩
  | error e => cases h

theorem handles_pullForVm {user : Option AuthUserClaims} (hs : Fair text id s)
    (hrejections : s.rejections = []) (ns name method : String) (params : Json)
    (answer : Json → Json) :
    Handles text toRfc3339 config id (.approve user)
      (fun value s => (∃ json, value = .ok json) ∧ Fair text id s ∧ s.rejections = [])
      (do
        let pulled ← act (.pullForVm ns name method params)
        orReturn pulled fun response => return .ok (answer response)) s := by
  refine handles_executing trivial nofun hs hrejections fun s1 reply hfair hnone hok => ?_
  obtain ⟨value, rfl⟩ := eq_ok_of_isOk hok
  exact ⟨⟨_, rfl⟩, hfair, hnone⟩

theorem handles_executePending {user : Option AuthUserClaims} (hs : Settled text id s)
    (hexecutions : s.executions = []) (hrejections : s.rejections = [])
    {action : PendingGuestAction} (hknown : Supported action) :
    Handles text toRfc3339 config id (.approve user)
      (fun value s => (∃ json, value = .ok json) ∧ Fair text id s ∧ s.rejections = [])
      (executePending action) s := by
  refine handles_act not_false fun s1 hsame => ⟨?_, fun outcome reply s2 _ hexec => ?_⟩
  · rw [← hsame.2.1] at hexecutions
    rw [← hsame.2.2] at hrejections
    exact ⟨hs.toFair.of_same hsame, fun _ => hs.of_same hsame,
      fun _ _ => ⟨hexecutions, hrejections⟩⟩
  · have hs1 := hs.of_same hsame
    have hexecutions1 := hsame.2.1.trans hexecutions
    have hrejections1 := hsame.2.2.trans hrejections
    cases outcome <;> cases hexec
    have hbegun : Fair text id { s1 with executions := s1.executions ++ [action.id] } := by
      refine ⟨hs1.known, ?_, fun hne => absurd hrejections1 hne, hs1.rejected⟩
      simp [hexecutions1]
    rcases hknown with ⟨hrestart, hunit⟩ | hbundle
    · obtain ⟨unit, hunit⟩ := isSome_iff_exists.mp hunit
      rw [if_pos hrestart, hunit]
      refine handles_executing trivial nofun hbegun hrejections1 fun s1 reply hfair hnone hok => ?_
      obtain ⟨value, rfl⟩ := eq_ok_of_isOk hok
      exact handles_pullForVm hfair hnone _ _ _ _ _
    · have hne : action.action ≠ "restart_unit" := by
        rw [hbundle]
        decide
      rw [if_neg hne, if_pos hbundle]
      refine handles_executing trivial nofun hbegun hrejections1 fun s1 reply hfair hnone hok => ?_
      obtain ⟨value, rfl⟩ := eq_ok_of_isOk hok
      exact handles_pullForVm hfair hnone _ _ _ _ _

theorem handles_load (hs : Settled text id s)
    {next : PendingGuestAction → ActionProgram (Except ApiError Json)}
    (hnext : ∀ action s, Settled text id s → s.executions = [] → s.rejections = [] →
      action.id = id → Supported action →
      Handles text toRfc3339 config id request (Ended text id request) (next action) s) :
    Handles text toRfc3339 config id request (Ended text id request)
      (do
        let loaded ← loadPending id
        orReturn loaded fun action => do
          if action.status ≠ "pending" then return .error (.badRequest "action is not pending")
          else next action) s := by
  intro s1 halone
  have hs1 := halone.1 trivial hs
  refine ⟨⟨fun _ => hs1, fun hnot => absurd trivial hnot⟩, fun outcome reply s2 _ hexec => ?_⟩
  cases outcome with
  | done =>
    cases hexec
    cases hloaded : (s1.redis.get s1.now (pendingKey id)).bind text.read with
    | none => exact ⟨hs1, nofun⟩
    | some action =>
      have hrecord := record_of_get hloaded
      change Handles text toRfc3339 config id request (Ended text id request)
        (if action.status ≠ "pending" then return .error (.badRequest "action is not pending")
          else next action) s1
      split_ifs with hstatus
      · exact ⟨hs1, nofun⟩
      · obtain ⟨hexecutions, hrejections⟩ := hs1.pending action hrecord (not_not.mp hstatus)
        obtain ⟨hid, hknown⟩ := hs1.known action hrecord
        exact hnext action s1 hs1 hexecutions hrejections hid hknown
  | failed e =>
    cases hexec
    exact ⟨hs1, nofun⟩
  | lost e => cases hexec
  | answers client => cases hexec
  | returns value => cases hexec

theorem handles_orReturn {α : Type} {result : Except ApiError α}
    {next : α → ActionProgram (Except ApiError Json)} (hs : Settled text id s)
    (hnext : ∀ value,
      Handles text toRfc3339 config id request (Ended text id request) (next value) s) :
    Handles text toRfc3339 config id request (Ended text id request) (orReturn result next) s := by
  cases result with
  | error e => exact ⟨hs, nofun⟩
  | ok value => exact hnext value

theorem handles_request (hs : Settled text id s) (request : ActionRequest) :
    Handles text toRfc3339 config id request (Ended text id request)
      ((approvals text toRfc3339 config id).program request) s := by
  cases request with
  | approve user =>
    refine handles_orReturn hs fun _ => handles_load hs ?_
    intro action s hs hexecutions hrejections hid hknown
    refine Holds.bind (Holds.imp ?_
      (handles_executePending hs hexecutions hrejections hknown))
    rintro value s1 ⟨⟨json, rfl⟩, hfair, hnone⟩
    refine handles_executing trivial nofun hfair hnone fun s2 approvedAt hfair hnone _ => ?_
    exact handles_savePending hfair (fun hnot => absurd trivial hnot) hid hknown
      (show "approved" ≠ "pending" by decide)
      (fun heq => absurd heq (show "approved" ≠ "rejected" by decide)) nofun
  | reject user =>
    refine handles_orReturn hs fun _ => handles_load hs ?_
    intro action s hs hexecutions hrejections hid hknown
    refine handles_act not_false fun s1 hsame => ⟨?_, fun outcome reply s2 _ hexec => ?_⟩
    · exact ⟨hs.toFair.of_same hsame, fun _ => hs.of_same hsame, nofun⟩
    · cases outcome <;> cases hexec
      exact handles_savePending (hs.toFair.of_same hsame) (fun _ => hs.of_same hsame) hid hknown
        (show "rejected" ≠ "pending" by decide) (fun _ => hsame.2.1.trans hexecutions)
          (fun _ _ => rfl)

theorem program_cases (request : ActionRequest) :
    (∃ e, (approvals text toRfc3339 config id).program request = .ret (.error e)) ∨
      ∃ next, (approvals text toRfc3339 config id).program request = .call (.load id) next := by
  cases request with
  | approve user | reject user =>
    dsimp only [approvals, approveGuestAction, rejectGuestAction]
    cases requireGuestActionApprover config user with
    | error e => exact .inl ⟨e, rfl⟩
    | ok value => exact .inr ⟨_, rfl⟩

theorem not_underway (request : ActionRequest) :
    ¬ Underway Pauses ((approvals text toRfc3339 config id).program request) := by
  rintro ⟨op, next, heq, hnot⟩
  obtain ⟨e, hprogram⟩ | ⟨next', hprogram⟩ :=
    program_cases request
  · cases hprogram.symm.trans heq
  · cases hprogram.symm.trans heq
    exact hnot trivial

end Handles

theorem orderly_serial : Serial (approvals text toRfc3339 config id) Pauses
    (Settled text id) SameActions (Ready text id) (Met text toRfc3339) (Ended text id)
    (Orderly text toRfc3339) where
  refl s := ⟨rfl, rfl, rfl⟩
  trans s1 s2 s3 h h' := ⟨h'.1.trans h.1, h'.2.1.trans h.2.1, h'.2.2.trans h.2.2⟩
  pass s duration := ⟨rfl, rfl, rfl⟩
  kept s s' h hs := hs.of_same h
  leaves request value s h := h.1
  alone c t outcome hallowed t' ht hinside := hallowed.1 t' hinside.lt_length ht hinside
  meets c t outcome request op next hallowed hthread := by
    have h := hallowed.2
    rw [hthread] at h
    exact h
  started c request shared _ _ hunderway := absurd hunderway (not_underway request)
  waiting c request shared _ harrive _ := by
    cases harrive
    refine ⟨⟨rfl, rfl, rfl⟩, ⟨fun _ => none, [], 0, [], []⟩, handles_request ?_ request⟩
    exact ⟨⟨nofun, Nat.zero_le _, nofun, nofun⟩, nofun⟩
  crash c hallowed h := by
    obtain h | ⟨t, request, op, next, hthread, -, hready⟩ := h
    · exact h
    · have hnot := hallowed t (List.getElem?_eq_some_iff.mp hthread).1
      rw [hthread] at hnot
      exact hready.2.1 hnot

theorem Enqueued.settled (h : Enqueued text id s) : Settled text id s := by
  obtain ⟨hexecutions, hrejections, action, entry, haction, hentry, hvalue⟩ := h
  have hpending : action.id = id ∧ Supported action ∧ action.status = "pending" := by
    obtain ⟨ns, vmName, unit, createdAt, requestedBy, rfl⟩ |
        ⟨ns, vmName, createdAt, requestedBy, rfl⟩ :=
      haction
    · exact ⟨rfl, .inl ⟨rfl, rfl⟩, rfl⟩
    · exact ⟨rfl, .inr rfl, rfl⟩
  obtain ⟨hid, hknown, hstatus⟩ := hpending
  have hwritten := written text hid hknown
  rw [← hvalue] at hwritten
  have hrecord : record text id s = text.read entry.value := by
    unfold record
    rw [hentry]
    rfl
  rw [← hrecord] at hwritten
  refine ⟨⟨fun a ha => (hwritten a ha).1, ?_, fun _ => hexecutions, fun a ha hrejected => ?_⟩,
    fun _ _ _ => ⟨hexecutions, hrejections⟩⟩
  · rw [hexecutions]
    exact Nat.zero_le _
  · rw [(hwritten a ha).2, hstatus] at hrejected
    exact absurd hrejected (by decide)

theorem rejections_kept {c c' : ActionConfig Text} {e : ActionEvent}
    (h : Steps (approvals text toRfc3339 config id) c e c')
    (hne : c.shared.rejections ≠ []) : c'.shared.rejections ≠ [] := by
  cases h with
  | start request harrive =>
    cases harrive
    exact hne
  | @act t outcome request op next reply shared hthread hexec =>
    have hsaved : ∀ action, (saved text action c.shared).rejections ≠ [] := by
      intro action
      unfold saved
      dsimp only
      split_ifs
      · exact append_ne_nil_of_left_ne_nil hne _
      · exact hne
    change shared.rejections ≠ []
    cases op <;> cases outcome <;> cases hexec <;> first | exact hne | exact hsaved _
  | pass duration => exact hne
  | crash => exact hne

section Orderly

variable {start c : ActionConfig Text} {entries : List (ActionEntry Text)}
  (hthreads : start.threads = []) (henqueued : Enqueued text id start.shared)
  (h : Run (approvals text toRfc3339 config id) (Orderly text toRfc3339) start entries c)
include hthreads henqueued h

theorem orderly_inv : SerialInv (approvals text toRfc3339 config id) Pauses
    (Settled text id) SameActions (Ready text id) (Met text toRfc3339) (Ended text id) c :=
  orderly_serial.run (.of_no_threads hthreads henqueued.settled) h

theorem orderly_fair : Fair text id c.shared := by
  obtain hbetween | ⟨t, request, op, next, hthread, hop, hready⟩ :=
    orderly_serial.between_or_before (orderly_inv hthreads henqueued h)
  · exact hbetween.toFair
  · exact hready.1

theorem rejected_of_hasRejected (hrejected : HasRejected c) : c.shared.rejections ≠ [] := by
  induction h with
  | start =>
    obtain ⟨t, user, json, hthread⟩ := hrejected
    unfold Machine.Config.thread at hthread
    rw [hthreads] at hthread
    cases hthread
  | @step entries c e c' h hallowed hs ih =>
    have hsteps := steps_of_step hs
    obtain ⟨t, user, json, hthread⟩ := hrejected
    obtain ⟨-, -, hthread'⟩ | ⟨⟨rfl, -⟩, hprogram, harrive⟩ |
      ⟨outcome, op, next, reply, rfl, hthread', hprogram, hexec⟩ := hsteps.thread_cases hthread
    · exact rejections_kept hsteps (ih ⟨t, user, json, hthread'⟩)
    · obtain ⟨e, hreturns⟩ | ⟨next, hloads⟩ := program_cases (.reject user)
      · cases hprogram.trans hreturns
      · cases hprogram.trans hloads
    · exact (orderly_serial.finished (orderly_inv hthreads henqueued h) hallowed hsteps hthread).2
        user json rfl rfl

theorem rejected_since {entry : ActionEntry Text} (hentry : entry ∈ entries)
    (hrejected : HasRejected entry.before) : c.shared.rejections ≠ [] := by
  induction h with
  | start => cases hentry
  | step h hallowed hs ih =>
    refine rejections_kept (steps_of_step hs) ?_
    obtain hentry | hentry := mem_append.mp hentry
    · exact ih hentry
    · obtain rfl := mem_singleton.mp hentry
      exact rejected_of_hasRejected hthreads henqueued h hrejected

theorem not_begins_of_rejected {e : ActionEvent} (hrejections : c.shared.rejections ≠ []) :
    ¬ Begins ⟨c, e⟩ := by
  rintro ⟨t, outcome, request, id', next, -, hthread⟩
  have hholds := (orderly_inv hthreads henqueued h).inside t request _ next hthread not_false
  have hready := (hholds c.shared ⟨fun _ hs => hs, fun _ => ⟨rfl, rfl, rfl⟩⟩).1.2 not_false
  exact hrejections (hready.2.2 id' rfl).2

/-- In orderly runs, an action is executed at most once, not if it ends up rejected, and not after a
rejection has returned success. -/
theorem executed_once_of_orderly :
    c.shared.executions.length ≤ 1 ∧
    (storedStatus text id c.shared = some "rejected" → c.shared.executions = []) ∧
    ∀ (i j : ℕ) earlier later, i ≤ j → entries[i]? = some earlier → entries[j]? = some later →
      HasRejected earlier.before → ¬ Begins later := by
  have hfair := orderly_fair hthreads henqueued h
  refine ⟨hfair.once, fun hstatus => ?_, ?_⟩
  · obtain ⟨action, hstored, hrejected⟩ := map_eq_some_iff.mp hstatus
    exact hfair.apart (hfair.rejected action (record_of_get hstored) hrejected)
  · clear hfair
    induction h with
    | start => exact fun i j earlier later _ hearlier => by simp at hearlier
    | @step entries c e c' h hallowed hs ih =>
      intro i j earlier later hle hearlier hlater hrejected
      obtain hj | hj := Nat.lt_or_ge j entries.length
      · have hi := Nat.lt_of_le_of_lt hle hj
        rw [List.getElem?_append_left hi] at hearlier
        rw [List.getElem?_append_left hj] at hlater
        exact ih i j earlier later hle hearlier hlater hrejected
      · obtain ⟨rfl, rfl⟩ : j = entries.length ∧ later = ⟨c, e⟩ := by
          rw [List.getElem?_append_right hj] at hlater
          have hlt := (List.getElem?_eq_some_iff.mp hlater).1
          have hzero : j - entries.length = 0 := by simpa using hlt
          rw [hzero] at hlater
          exact ⟨by omega, (some.inj hlater).symm⟩
        refine not_begins_of_rejected hthreads henqueued h ?_
        obtain hi | rfl := Nat.lt_or_eq_of_le hle
        · rw [List.getElem?_append_left hi] at hearlier
          exact rejected_since hthreads henqueued h (mem_of_getElem? hearlier) hrejected
        · rw [List.getElem?_concat_length] at hearlier
          cases hearlier
          exact rejected_of_hasRejected hthreads henqueued h hrejected

end Orderly

end Proofs

/-! ### One action, several approvers -/

def asRecord : ActionText PendingGuestAction where
  write action := action
  read action := some action
  read_write action := ⟨action, rfl, rfl, rfl, rfl, rfl⟩

def queued : PendingGuestAction :=
  pendingRestartUnit "7c9e" "default" "web" "nginx.service" "2026-01-01T00:00:00Z" none

def queuedStart : ActionConfig PendingGuestAction where
  threads := []
  shared := {
    redis := Expiring.set (fun _ => none) (pendingKey "7c9e") queued (86400 * second)
    index := ["7c9e"]
    now := 0 }

def queuedApprovals : Machine ActionOp ActionReply ActionOutcome (ActionState PendingGuestAction)
    ActionRequest (Except ApiError Json) :=
  approvals asRecord (fun _ => "2026-01-01T00:00:00Z")
    { authEnabled := false, jwtSecret := "", jwtIssuer := "" } "7c9e"

def approveSteps (t : ℕ) : List ActionEvent :=
  [.act t .done, .act t (.answers none), .act t (.returns .null), .act t .done, .act t .done,
    .act t .done]

def rejectSteps (t : ℕ) : List ActionEvent := [.act t .done, .act t .done, .act t .done]

theorem approved_then_rejected : ∃ entries c,
    Run queuedApprovals (Orderly asRecord fun _ => "2026-01-01T00:00:00Z") queuedStart
      entries c ∧
    c.shared.executions = ["7c9e"] ∧
    (storedStatus asRecord "7c9e" c.shared = some "rejected" → c.shared.executions = []) ∧
    ∀ (i j : ℕ) earlier later, i ≤ j → entries[i]? = some earlier → entries[j]? = some later →
      HasRejected earlier.before → ¬ Begins later := by
  have hentry := Expiring.set_same (fun _ => none) (pendingKey "7c9e") queued (86400 * second)
  have henqueued : Enqueued asRecord "7c9e" queuedStart.shared :=
    ⟨rfl, rfl, queued, _, .inl ⟨_, _, _, _, _, rfl⟩, hentry, rfl⟩
  exact (Run.exists_of_follow ([.start (.approve none), .start (.reject none), .act 0 .done] ++
    approveSteps 0 ++ [.act 1 .done]) (by decide +kernel)).imp fun _ => .imp fun _ h =>
      ⟨h.1, h.2, (executed_once_of_orderly rfl henqueued h.1).2⟩

/-- Two approvals and two rejections that all load the action while it is pending: one rejection
returns success, then the action is executed twice, and it ends up rejected. -/
theorem executed_after_rejection : ∃ entries c,
    Run queuedApprovals (fun _ _ => True) queuedStart entries c ∧
    c.shared.executions.length = 2 ∧
    storedStatus asRecord "7c9e" c.shared = some "rejected" ∧
    (entries[11]?).any (fun entry => HasRejected entry.before) = true ∧
    (entries[11]?).any (fun entry => Begins entry) = true :=
  Run.exists_of_follow
    ([.start (.approve none), .start (.approve none), .start (.reject none), .start (.reject none),
      .act 0 .done, .act 1 .done, .act 2 .done, .act 3 .done] ++ rejectSteps 2 ++
      approveSteps 0 ++ approveSteps 1 ++ rejectSteps 3)
    (by decide +kernel)

end Guestkit.Api
