import Guestkit.Agent.Snapshot
import Guestkit.Lib.Ledger

/-! Snapshots over whole runs: that one is prepared at a time, that a watchdog completes only its
own, and that every plugin that was quiesced is resumed.  `prepare` looks whether a snapshot is
active in one critical section and records its own in another, a watchdog compares identifiers that
have a resolution of one second, and `complete` forgets the snapshot before it thaws; so all of this
depends on what happens in between. -/

namespace Guestkit.Freeze

open Lib Machine List Option

def acting (entry : Entry) : Option (Call × Op × Outcome) :=
  match entry.event with
  | .act t outcome =>
    match entry.before.thread t with
    | some (call, .call op _) => some (call, op, outcome)
    | _ => none
  | _ => none

def Call.completes : Call → Bool
  | complete | snapshotWatchdog .. => true
  | _ => false

def Call.prepares : Call → Bool
  | prepare .. => true
  | _ => false

/-- A prepare that is past its guard and not over, or whose snapshot is recorded. -/
def ActivePrepare (c : Config) (no : ℕ) : Prop :=
  (∃ t secs op next, c.thread t = some (.prepare no secs, .call op next) ∧ op ≠ .snapshotActive) ∨
    ∃ a, c.shared.active = some a ∧ a.no = no

/-! ### The plugins that a thread has yet to see to -/

/-- How often `plugin` is among those that a snapshot of call `no` has to resume. -/
def owed (no : ℕ) (names : List String) (x : ℕ × Plugin) : ℕ :=
  if x.1 = no ∧ x.2.name ∈ names then 1 else 0

/-- How many of the plugin `x.2`, quiesced by call `x.1`, a thread has in hand before and after an
operation.  A thread has it in hand when it has quiesced it or taken its snapshot, until it has
recorded the snapshot or resumed it. -/
def moves (x : ℕ × Plugin) : (op : Op) → op.Reply → ℕ → ℕ → Prop
  | .quiesce no plugin, .ok _, h, h' => h' = h + if x = (no, plugin) then 1 else 0
  | .resume no plugin, _, h, h' => h = h' + if x = (no, plugin) then 1 else 0
  | .record a, _, h, h' => h = h' + owed a.no a.quiescedPlugins x
  | .takeActive, some a, h, h' => h' = h + owed a.no a.quiescedPlugins x
  | _, _, h, h' => h' = h

def Held (c : Config) (x : ℕ × Plugin) : Prop :=
  ∃ t call op next, c.thread t = some (call, .call op next) ∧ InHand (moves x) (.call op next) 1

/-- Before its take, a watchdog finds its way to it as long as its snapshot is active. -/
def TakesNext (id : String) {α : Type} : Task α → Prop
  | .call (.sleepUntil _) next => TakesNext id (next ())
  | .call (.isActive id') next => id' = id ∧ TakesNext id (next true)
  | .call .takeActive _ => True
  | _ => False

/-- The watchdog of the snapshot has yet to look after it, or is about to be armed. -/
inductive Watched (c : Config) (a : ActiveSnapshot) : Prop
  | armed (due : ℕ) : .snapshotWatchdog a.no a.snapshotId due ∈ c.shared.spawned → Watched c a
  | running {t due : ℕ} {program : Task Answer} :
    c.thread t = some (.snapshotWatchdog a.no a.snapshotId due, program) →
    TakesNext a.snapshotId program → Watched c a
  | arming {t secs : ℕ} {watchdogSecs : Option UInt64} {next : Unit → Task Answer} :
    c.thread t = some (.prepare a.no watchdogSecs,
      .call (.armSnapshotWatchdog a.no a.snapshotId secs) next) → Watched c a

/-- What snapshots are expected to keep to: at most one is active, none is replaced, a watchdog
takes only its own, a plugin is quiesced once by a call and resumed at most as often, and one that
has not been resumed is in hand or belongs to a snapshot that a watchdog looks after, and a snapshot
whose thaw fails is still recorded. -/
structure Consistent (entries : List Entry) (c : Config) : Prop where
  one : ∀ no no', ActivePrepare c no → ActivePrepare c no' → no = no'
  kept : ∀ entry ∈ entries, ∀ call a outcome, acting entry = some (call, .record a, outcome) →
    entry.before.shared.active = none
  own : ∀ entry ∈ entries, ∀ no id due outcome a,
    acting entry = some (.snapshotWatchdog no id due, .takeActive, outcome) →
    entry.before.shared.active = some a → a.no = no
  resumed : ∀ x, c.shared.resumed.count x ≤ c.shared.quiesced.count x ∧
    c.shared.quiesced.count x ≤ 1
  awaited : ∀ x ∈ c.shared.quiesced, x ∉ c.shared.resumed → Held c x ∨
    ∃ a, c.shared.active = some a ∧ x.1 = a.no ∧ x.2.name ∈ a.quiescedPlugins ∧ Watched c a
  retriable : ∀ entry ∈ entries, ∀ call outcome,
    acting entry = some (call, .fsfreeze true, outcome) → call.completes = true →
    outcome.failed = true → ∃ a, entry.before.shared.active = some a ∧ a.frozen = true

/-- A watchdog that waits for the identifier of the snapshot was armed for it. -/
def WaitsOnlyFor (a : ActiveSnapshot) : Call → Prop
  | .snapshotWatchdog no id _ => id = a.snapshotId → no = a.no
  | _ => True

instance (a : ActiveSnapshot) (call : Call) : Decidable (WaitsOnlyFor a call) := by
  unfold WaitsOnlyFor
  split <;> infer_instance

def AboutToTake : Call → Op → Prop
  | .snapshotWatchdog .., .takeActive => True
  | _, _ => False

instance (call : Call) (op : Op) : Decidable (AboutToTake call op) := by
  unfold AboutToTake
  split <;> infer_instance

def OrderlyAct (c : Config) (outcome : Outcome) (call : Call) : Op → Prop
  | .record a => (∀ call ∈ pending c, WaitsOnlyFor a call) ∧
    ∀ thread ∈ c.threads, AtNext (fun call op => ¬ AboutToTake call op) (some thread)
  | .fsfreeze true => call.completes = true → outcome.failed = false
  | _ => True

instance (c : Config) (outcome : Outcome) (call : Call) (op : Op) :
    Decidable (OrderlyAct c outcome call op) := by
  unfold OrderlyAct
  split <;> infer_instance

/-- A prepare does not begin before the last one is over.  Where a snapshot is recorded, the
watchdogs that wait for its identifier are its own, and none is about to take what it found.  The
thaw of `complete` does not fail, and neither does the agent. -/
def Orderly (c : Config) : Event → Prop
  | .start call => call.prepares = true →
    ∀ thread ∈ c.threads, AtNext (fun call _ => call.prepares = false) (some thread)
  | .act t outcome => AtNext (OrderlyAct c outcome) (c.thread t)
  | .pass _ => True
  | .crash => False

instance (c : Config) (e : Event) : Decidable (Orderly c e) := by
  unfold Orderly
  split <;> infer_instance

/-! ### What is in hand -/

section Carries

variable {x : ℕ × Plugin} {α : Type} {windows : Bool}

def Neutral (op : Op) : Prop := ∀ (x : ℕ × Plugin) reply h, moves x op reply h h

theorem neutral_of_freezeOp {op : Op} (h : FreezeOp op) : Neutral op := by
  intro x reply held
  cases op with
  | quiesce no plugin => cases h
  | resume no plugin => cases h
  | record a => cases h
  | takeActive => cases h
  | _ => rfl

theorem neutral_of_belongs {call : Call} {op : Op} (hprepares : call.prepares = false)
    (hcompletes : call.completes = false) (h : Belongs call op) : Neutral op := by
  intro x reply held
  cases op with
  | quiesce no plugin =>
    obtain ⟨secs, rfl⟩ := h
    cases hprepares
  | resume no plugin =>
    obtain rfl | ⟨_, _, _, rfl⟩ := h
    · cases hcompletes
    · cases hcompletes
  | record a =>
    obtain ⟨secs, rfl⟩ := h
    cases hprepares
  | takeActive =>
    obtain rfl | ⟨_, _, _, rfl⟩ := h
    · cases hcompletes
    · cases hcompletes
  | _ => rfl

theorem Plugin.name_injective : Function.Injective Plugin.name := by
  intro p q h
  cases p <;> cases q <;> first | rfl | exact absurd h (by decide)

theorem owed_append {no : ℕ} {names : List String} {plugin : Plugin} (h : plugin.name ∉ names) :
    owed no (names ++ [plugin.name]) x = owed no names x + if x = (no, plugin) then 1 else 0 := by
  obtain ⟨no', plugin'⟩ := x
  unfold owed
  dsimp only
  by_cases hno : no' = no
  · by_cases hplugin : plugin' = plugin
    · simp [hno, hplugin, h]
    · have hname : plugin'.name ≠ plugin.name := fun heq =>
        hplugin (Plugin.name_injective heq)
      simp [hno, hplugin, hname]
  · simp [hno]

theorem quiescePlugins_carries {no : ℕ} (plugins : List Plugin) (sofar : Quiesced)
    (hnodup : plugins.Nodup) (hfresh : ∀ plugin ∈ plugins, plugin.name ∉ sofar.quiesced) :
    Carries (moves x) (fun apps h => h = owed no apps.quiesced x)
      (quiescePlugins no plugins sofar) (owed no sofar.quiesced x) := by
  induction plugins generalizing sofar with
  | nil => rfl
  | cons plugin plugins ih =>
    obtain ⟨hhead, htail⟩ := nodup_cons.mp hnodup
    obtain ⟨hplugin, hplugins⟩ := forall_mem_cons.mp hfresh
    intro discovered
    refine ⟨_, rfl, ?_⟩
    cases discovered with
    | false => exact ih _ htail hplugins
    | true =>
      intro result
      cases result with
      | error e => exact ⟨_, rfl, ih _ htail hplugins⟩
      | ok detail =>
        refine ⟨_, (owed_append hplugin).symm ▸ rfl, ih _ htail fun p hp hmem => ?_⟩
        obtain hmem | hmem := mem_append.mp hmem
        · exact hplugins p hp hmem
        · rw [mem_singleton] at hmem
          exact hhead (Plugin.name_injective hmem ▸ hp)

def left (a : ActiveSnapshot) (plugins : List Plugin) (x : ℕ × Plugin) : ℕ :=
  if x.2 ∈ plugins then owed a.no a.quiescedPlugins x else 0

theorem left_cons {a : ActiveSnapshot} {plugin : Plugin} {plugins : List Plugin}
    (hplugin : plugin ∉ plugins) :
    left a (plugin :: plugins) x =
      left a plugins x + if plugin.name ∈ a.quiescedPlugins ∧ x = (a.no, plugin) then 1 else 0 := by
  obtain ⟨no, plugin'⟩ := x
  unfold left owed
  dsimp only
  by_cases heq : plugin' = plugin
  · subst heq
    simp [hplugin, and_comm]
  · simp [heq]

theorem left_builtinPlugins (a : ActiveSnapshot) (x : ℕ × Plugin) :
    left a builtinPlugins x = owed a.no a.quiescedPlugins x := by
  refine if_pos ?_
  cases x.2 <;> decide

theorem resumePlugins_carries {a : ActiveSnapshot} (plugins : List Plugin)
    (hnodup : plugins.Nodup) :
    Carries (moves x) (fun _ h => h = 0) (resumePlugins a plugins) (left a plugins x) := by
  induction plugins with
  | nil => rfl
  | cons plugin plugins ih =>
    obtain ⟨hhead, htail⟩ := nodup_cons.mp hnodup
    rw [left_cons hhead]
    unfold resumePlugins
    split
    · next hmem =>
      have hname : plugin.name ∈ a.quiescedPlugins := contains_iff_mem.mp hmem
      refine .bind (.perform fun result => ⟨left a plugins x, by simp [moves, hname], ?_⟩)
      cases result with
      | error e => exact .bind (ih htail)
      | ok detail => exact .bind (ih htail)
    · next hmem =>
      have hname : plugin.name ∉ a.quiescedPlugins := fun h => hmem (contains_iff_mem.mpr h)
      simpa [hname] using ih htail

theorem every_neutral {task : Task α} (h : task.Every FreezeOp) :
    task.Every fun op => ∀ reply h, moves x op reply h h :=
  h.imp fun _ hop => neutral_of_freezeOp hop x

theorem prepare_carries {no : ℕ} {secs : Option UInt64} :
    Carries (moves x) (fun _ h => h = 0) (prepare windows no secs) 0 := by
  refine .bind (.perform fun active => ⟨0, rfl, ?_⟩)
  cases active with
  | true => rfl
  | false =>
    have hnone : owed no ({} : Quiesced).quiesced x = 0 := if_neg (by simp)
    refine .bind (.perform fun stamp => ⟨_, hnone, .bind ?_⟩)
    refine (quiescePlugins_carries builtinPlugins {} (by decide) (by simp)).imp fun apps h heq => ?_
    subst heq
    refine .bind_of_every (every_neutral platformFreeze_every) fun ⟨mechanism, fsFrozen, vss⟩ => ?_
    refine .bind (.perform fun _ => ⟨0, (Nat.zero_add _).symm, ?_⟩)
    refine .bind (.perform fun _ => ⟨0, rfl, ?_⟩)
    refine .bind (.perform fun _ => ⟨0, rfl, ?_⟩)
    exact .bind (.perform fun _ => ⟨0, rfl, rfl⟩)

theorem unwind_carries (a : ActiveSnapshot) :
    Carries (moves x) (fun _ h => h = 0) (unwind windows a) (owed a.no a.quiescedPlugins x) := by
  rw [← left_builtinPlugins]
  refine .bind_of_every (every_neutral (thawActive_every a)) fun thawed => ?_
  refine .bind_of_every (every_neutral (deleteShadow_every _)) fun _ => .bind ?_
  refine (resumePlugins_carries builtinPlugins (by decide)).imp fun reports h heq => ?_
  subst heq
  refine .bind (.perform fun _ => ⟨0, rfl, ?_⟩)
  exact .bind (.perform fun _ => ⟨0, rfl, rfl⟩)

theorem complete_carries : Carries (moves x) (fun _ h => h = 0) (complete windows) 0 := by
  refine .bind (.perform fun active => ?_)
  cases active with
  | none => exact ⟨0, rfl, rfl⟩
  | some a => exact ⟨_, (Nat.zero_add _).symm, .bind (unwind_carries a)⟩

theorem program_carries (call : Call) : InHand (moves x) (program windows call) 0 := by
  have hother : call.prepares = false → call.completes = false →
      InHand (moves x) (program windows call) 0 := fun hprepares hcompletes =>
    .of_every ((program_belongs call).imp fun op hop =>
      neutral_of_belongs hprepares hcompletes hop x)
  cases call with
  | prepare no secs => exact .bind prepare_carries
  | complete => exact .bind complete_carries
  | snapshotWatchdog no id due =>
    refine .bind (.bind (.perform fun _ => ⟨0, rfl, .bind (.perform fun active => ⟨0, rfl, ?_⟩)⟩))
    cases active with
    | true => exact .bind (.bind (complete_carries.imp fun _ _ heq => heq))
    | false => rfl
  | _ => exact hother rfl rfl

end Carries

section Arms

variable {α β : Type} {windows : Bool}

/-- Where a snapshot is recorded, its watchdog is armed next. -/
def Arms : Task α → Prop
  | .ret _ => True
  | .call op next => (∀ a, op = .record a → ∀ reply, ∃ secs next',
      next reply = .call (.armSnapshotWatchdog a.no a.snapshotId secs) next') ∧
    ∀ reply, Arms (next reply)

def NeverRecords (op : Op) : Prop := ∀ a, op ≠ .record a

theorem neverRecords_of_freezeOp {op : Op} (h : FreezeOp op) : NeverRecords op := by
  rintro a rfl
  cases h

theorem arms_of_every {task : Task α} (h : task.Every NeverRecords) : Arms task := by
  induction task with
  | ret value => trivial
  | call op next ih =>
    exact ⟨fun a heq => absurd heq (h.1 a), fun reply => ih reply (h.2 reply)⟩

theorem Arms.bind {task : Task α} {f : α → Task β} (h : Arms task) (hf : ∀ value, Arms (f value)) :
    Arms (task >>= f) := by
  induction task with
  | ret value => exact hf value
  | call op next ih =>
    refine ⟨fun a heq reply => ?_, fun reply => ih reply (h.2 reply)⟩
    obtain ⟨secs, next', hnext⟩ := h.1 a heq reply
    exact ⟨secs, fun reply => next' reply >>= f, congrArg (· >>= f) hnext⟩

theorem prepare_arms {no : ℕ} {secs : Option UInt64} : Arms (prepare windows no secs) := by
  have hquiesce : ∀ plugins sofar, (quiescePlugins no plugins sofar).Every NeverRecords := by
    refine fun plugins sofar => (quiescePlugins_every plugins sofar).imp ?_
    rintro op ⟨plugin, rfl | rfl⟩ a heq
    · cases heq
    · cases heq
  refine .bind (arms_of_every (.perform nofun)) fun active => ?_
  cases active with
  | true => trivial
  | false =>
    refine .bind (arms_of_every (.perform nofun)) fun stamp => ?_
    refine .bind (arms_of_every (hquiesce _ _)) fun apps => ?_
    refine .bind (arms_of_every (platformFreeze_every.imp fun _ => neverRecords_of_freezeOp))
      fun ⟨mechanism, fsFrozen, vss⟩ => ⟨?_, fun _ => ?_⟩
    · rintro a ⟨⟩ _
      exact ⟨_, _, rfl⟩
    · exact ⟨nofun, fun _ => ⟨nofun, fun _ => ⟨nofun, fun _ => trivial⟩⟩⟩

theorem program_arms (call : Call) : Arms (program windows call) := by
  have hother : call.prepares = false → Arms (program windows call) := by
    refine fun hprepares => arms_of_every ((program_belongs call).imp ?_)
    rintro op hop a rfl
    obtain ⟨secs, rfl⟩ := hop
    cases hprepares
  cases call with
  | prepare no secs => exact prepare_arms.bind fun _ => trivial
  | _ => exact hother rfl

end Arms

/-! ### What a prepare and a watchdog rely on -/

def Mine (no : ℕ) (s : Shared) : Prop := ∀ a, s.active = some a → a.no = no

def relies : Call → Op → Shared → Shared → Prop
  | .prepare no _, _, s, s₁ => (s.active = none → s₁.active = none) ∧ (Mine no s → Mine no s₁) ∧
    s₁.quiesced = s.quiesced ∧ s.calls ≤ s₁.calls
  | .snapshotWatchdog no _ _, op, s, s₁ => op = .takeActive → Mine no s → Mine no s₁
  | _, _, _, _ => True

def beforePrepare (no : ℕ) (s : Shared) : Op → Prop
  | .snapshotActive => True
  | .quiesce no' plugin => Mine no s ∧ (no', plugin) ∉ s.quiesced ∧ no' < s.calls
  | .record _ => s.active = none
  | _ => Mine no s

def before : Call → Op → Shared → Prop
  | .prepare no _, op, s => beforePrepare no s op
  | .snapshotWatchdog no _ _, op, s => op = .takeActive → Mine no s
  | _, _, _ => True

/-- What a watchdog takes for its snapshot is its snapshot. -/
def met : Call → Op → Outcome → Shared → Prop
  | .snapshotWatchdog no id _, .isActive _, _, s =>
    ∀ a, s.active = some a → a.snapshotId = id → a.no = no
  | _, _, _, _ => True

structure Quiescing (no : ℕ) (plugins : List Plugin) (s : Shared) : Prop where
  active : s.active = none
  quiesced : ∀ plugin ∈ plugins, (no, plugin) ∉ s.quiesced
  calls : no < s.calls

section Holds

variable {sys : System} {no : ℕ} {secs : Option UInt64} {plugins : List Plugin} {s s₁ : Shared}
  {α : Type}
variable {op : Op} {task : Task α} {call : Call} {windows : Bool}

abbrev HoldsFor (sys : System) (call : Call) {α : Type} (ended : α → Shared → Prop) :
    Task α → Shared → Prop :=
  Holds (agent sys) relies before met call ended

theorem Quiescing.mine (h : Quiescing no plugins s) : Mine no s := by
  intro a ha
  rw [h.active] at ha
  cases ha

theorem Quiescing.relied (hrelies : relies (.prepare no secs) op s s₁)
    (h : Quiescing no plugins s) : Quiescing no plugins s₁ := by
  obtain ⟨hnone, -, hquiesced, hcalls⟩ := hrelies
  refine ⟨hnone h.active, ?_, Nat.lt_of_lt_of_le h.calls hcalls⟩
  rw [hquiesced]
  exact h.quiesced

theorem effect_of_freezeOp (h : FreezeOp op) (outcome : Outcome) (s : Shared) :
    (effect outcome s op).active = s.active ∧ (effect outcome s op).quiesced = s.quiesced ∧
      (effect outcome s op).calls = s.calls := by
  cases op <;> first | exact ⟨rfl, rfl, rfl⟩ | cases h

theorem Quiescing.effect (hop : FreezeOp op) (outcome : Outcome) (h : Quiescing no plugins s) :
    Quiescing no plugins (effect outcome s op) := by
  obtain ⟨hactive, hquiesced, hcalls⟩ := effect_of_freezeOp hop outcome s
  exact ⟨hactive.trans h.active, hquiesced ▸ h.quiesced, hcalls ▸ h.calls⟩

theorem beforePrepare_of_freezeOp (hop : FreezeOp op) (h : Mine no s) :
    beforePrepare no s op := by
  cases op <;> first | exact h | cases hop

theorem Quiescing.every (htask : task.Every FreezeOp) (h : Quiescing no plugins s) :
    HoldsFor sys (.prepare no secs) (fun _ => Quiescing no plugins) task s := by
  induction task generalizing s with
  | ret value => exact h
  | call op next ih =>
    intro s₁ hrelies
    have h1 := h.relied hrelies
    refine ⟨beforePrepare_of_freezeOp htask.1 h1.mine, fun outcome value s2 _ hexec => ?_⟩
    obtain ⟨-, rfl, rfl⟩ := exec_eq_some_iff.mp hexec
    exact ih _ (htask.2 _) (h1.effect htask.1 outcome)

theorem holds_perform {ended : op.Reply → Shared → Prop}
    (h : ∀ s₁, relies call op s s₁ → before call op s₁ ∧
      ∀ outcome value, met call op outcome s₁ → reply outcome s₁ op = value →
        ended value (effect outcome s₁ op)) :
    HoldsFor sys call ended (perform op) s := by
  intro s₁ hrelies
  obtain ⟨hbefore, hended⟩ := h s₁ hrelies
  refine ⟨hbefore, fun outcome value s2 hmet hexec => ?_⟩
  obtain ⟨-, hreply, rfl⟩ := exec_eq_some_iff.mp hexec
  exact hended outcome value hmet hreply

theorem Quiescing.quiescePlugin {plugin : Plugin} (sofar : Quiesced)
    (hplugin : plugin ∉ plugins) (h : Quiescing no (plugin :: plugins) s) :
    HoldsFor sys (.prepare no secs) (fun _ => Quiescing no plugins)
      (quiescePlugin no plugin sofar) s := by
  have htail : ∀ {s}, Quiescing no (plugin :: plugins) s → Quiescing no plugins s := fun h =>
    ⟨h.active, fun p hp => h.quiesced p (mem_cons_of_mem _ hp), h.calls⟩
  refine .bind (holds_perform fun s₁ hrelies => ?_)
  have h1 := h.relied hrelies
  refine ⟨h1.mine, fun outcome discovered _ _ => ?_⟩
  cases discovered with
  | false => exact htail h1
  | true =>
    refine .bind (holds_perform fun s2 hrelies => ?_)
    have h2 := h1.relied hrelies
    refine ⟨⟨h2.mine, h2.quiesced plugin mem_cons_self, h2.calls⟩, ?_⟩
    intro outcome result _ _
    have hquiescing : Quiescing no plugins (Freeze.effect outcome s2 (.quiesce no plugin)) := by
      refine ⟨h2.active, fun p hp hmem => ?_, h2.calls⟩
      change (no, p) ∈ if outcome.failed then s2.quiesced else (no, plugin) :: s2.quiesced at hmem
      split at hmem
      · exact (htail h2).quiesced p hp hmem
      · obtain heq | hmem := mem_cons.mp hmem
        · exact hplugin ((Prod.mk.inj heq).2 ▸ hp)
        · exact (htail h2).quiesced p hp hmem
    cases result with
    | error e => exact hquiescing
    | ok detail => exact hquiescing

theorem Quiescing.quiescePlugins (plugins : List Plugin) (sofar : Quiesced)
    (hnodup : plugins.Nodup) (h : Quiescing no plugins s) :
    HoldsFor sys (.prepare no secs) (fun _ => Quiescing no [])
      (quiescePlugins no plugins sofar) s := by
  induction plugins generalizing s sofar with
  | nil => exact h
  | cons plugin plugins ih =>
    obtain ⟨hhead, htail⟩ := nodup_cons.mp hnodup
    exact .bind ((h.quiescePlugin sofar hhead).imp fun sofar s hs => ih sofar htail hs)

theorem prepare_holds (hquiesced : ∀ plugin, (no, plugin) ∉ s.quiesced) (hcalls : no < s.calls) :
    HoldsFor sys (.prepare no secs) (fun _ _ => True) (prepare windows no secs) s := by
  refine .bind (holds_perform fun s₁ ⟨_, _, hquiesced1, hcalls1⟩ => ?_)
  refine ⟨trivial, fun outcome active _ hreply => ?_⟩
  cases active with
  | true => trivial
  | false =>
    have h1 : Quiescing no builtinPlugins s₁ :=
      ⟨isSome_eq_false_iff.mp hreply |> isNone_iff_eq_none.mp,
        fun p _ => hquiesced1 ▸ hquiesced p, Nat.lt_of_lt_of_le hcalls hcalls1⟩
    refine .bind (holds_perform fun s2 hrelies => ?_)
    have h2 := h1.relied hrelies
    refine ⟨h2.mine, fun _ stamp _ _ => .bind ?_⟩
    refine (h2.quiescePlugins builtinPlugins {} (by decide)).imp fun apps s3 h3 => .bind ?_
    refine (h3.every platformFreeze_every).imp fun ⟨mechanism, fsFrozen, vss⟩ s4 h4 => .bind ?_
    refine holds_perform fun s5 hrelies =>
      ⟨(h4.relied hrelies).active, fun outcome _ _ _ => .bind ?_⟩
    -- From here on the recorded snapshot is the one of this call, if there is one.
    refine holds_perform fun s6 ⟨_, hmine6, _, _⟩ => ?_
    have h6 : Mine no s6 := hmine6 (by rintro a ⟨⟩; rfl)
    refine ⟨h6, fun _ _ _ _ => .bind ?_⟩
    refine holds_perform fun s7 ⟨_, hmine7, _, _⟩ => ⟨hmine7 h6, fun _ _ _ _ => .bind ?_⟩
    refine holds_perform fun s8 ⟨_, hmine8, _, _⟩ => ⟨hmine8 (hmine7 h6), fun _ _ _ _ => trivial⟩

theorem holds_of_other (hbefore : ∀ op s, before call op s) :
    HoldsFor sys call (fun _ _ => True) task s := by
  induction task generalizing s with
  | ret value => trivial
  | call op next ih => exact fun s₁ _ => ⟨hbefore op s₁, fun _ value s2 _ _ => ih value⟩

theorem holds_of_not_taking {id : String} {due : ℕ} (htask : task.Every (· ≠ .takeActive)) :
    HoldsFor sys (.snapshotWatchdog no id due) (fun _ _ => True) task s := by
  induction task generalizing s with
  | ret value => trivial
  | call op next ih =>
    exact fun s₁ _ => ⟨fun heq => absurd heq htask.1,
      fun _ value s2 _ _ => ih value (htask.2 value)⟩

theorem snapshotWatchdog_holds {id : String} {due : ℕ} :
    HoldsFor sys (.snapshotWatchdog no id due) (fun _ _ => True) (snapshotWatchdog windows id due)
      s := by
  refine .bind (holds_perform fun s₁ _ => ⟨nofun, fun _ _ _ _ => ?_⟩)
  refine .bind (holds_perform fun s2 _ => ⟨nofun, fun outcome active hmet hreply => ?_⟩)
  cases active with
  | false => trivial
  | true =>
    have hmine : Mine no s2 := by
      intro a ha
      refine hmet a ha ?_
      change (s2.active.map fun a => a.snapshotId == id).getD false = true at hreply
      rw [ha] at hreply
      exact eq_of_beq hreply
    refine .bind (.bind (holds_perform fun s3 hrelies => ⟨fun _ => hrelies rfl hmine, ?_⟩))
    intro outcome active _ _
    have hunwind : ∀ a, (unwind windows a).Every (· ≠ .takeActive) := by
      refine fun a => (unwind_every a).imp ?_
      rintro op hop rfl
      obtain hop | ⟨_, _, heq⟩ | ⟨_, heq⟩ := hop
      · cases hop
      · cases heq
      · cases heq
    cases active with
    | none => trivial
    | some a => exact .bind ((holds_of_not_taking (hunwind a)).imp fun _ _ _ => trivial)

theorem program_holds
    (hprepare : ∀ no secs, call = .prepare no secs →
      (∀ plugin, (no, plugin) ∉ s.quiesced) ∧ no < s.calls) :
    HoldsFor sys call (fun _ _ => True) (program windows call) s := by
  cases call with
  | prepare no secs =>
    obtain ⟨hquiesced, hcalls⟩ := hprepare no secs rfl
    exact .bind (prepare_holds hquiesced hcalls)
  | snapshotWatchdog no id due => exact .bind snapshotWatchdog_holds
  | _ => exact holds_of_other fun _ _ => trivial

end Holds

section Runs

variable {sys : System} {c c' : Config} {e : Event}
variable {s s' : Shared} {call : Call} {op : Op} {next : op.Reply → Task Answer}

theorem active_of_step (hstep : Steps (agent sys) c e c') {a : ActiveSnapshot}
    (ha : c'.shared.active = some a) : c.shared.active = some a ∨
      ∃ t outcome call next, e = .act t outcome ∧
        c.thread t = some (call, .call (.record a) next) := by
  cases hstep with
  | start call harrive =>
    rw [(arrived harrive).rest] at ha
    exact .inl ha
  | @act t outcome call op next value shared hthread hexec =>
    obtain ⟨-, -, rfl⟩ := exec_eq_some_iff.mp hexec
    cases op with
    | record a =>
      cases ha
      exact .inr ⟨t, outcome, call, next, rfl, hthread⟩
    | takeActive => cases ha
    | _ => exact .inl ha
  | pass duration => exact .inl ha
  | crash => cases ha

theorem quiesced_of_step (hstep : Steps (agent sys) c e c') :
    c'.shared.quiesced = c.shared.quiesced ∨ ∃ t outcome call no plugin next, e = .act t outcome ∧
      c.thread t = some (call, .call (.quiesce no plugin) next) ∧
        c'.shared.quiesced = (no, plugin) :: c.shared.quiesced := by
  cases hstep with
  | start call harrive => exact .inl ((congrArg Shared.quiesced (arrived harrive).rest).trans rfl)
  | @act t outcome call op next value shared hthread hexec =>
    obtain ⟨-, -, rfl⟩ := exec_eq_some_iff.mp hexec
    cases op with
    | quiesce no plugin =>
      cases hfailed : outcome.failed with
      | true => exact .inl (if_pos hfailed)
      | false =>
        exact .inr ⟨t, outcome, call, no, plugin, next, rfl, hthread, if_neg (by simp [hfailed])⟩
    | _ => exact .inl rfl
  | pass duration => exact .inl rfl
  | crash => exact .inl rfl

theorem arrive_prepare {no : ℕ} {secs : Option UInt64} (h : arrive (.prepare no secs) s = some s') :
    no = s.calls ∧ s' = { s with calls := s.calls + 1 } := by
  obtain ⟨hcond, heq⟩ := ite_none_right_eq_some.mp h
  rw [Bool.and_eq_true] at hcond
  exact ⟨eq_of_beq hcond.2, (some.inj heq).symm⟩

theorem calls_le_of_step (hstep : Steps (agent sys) c e c') : c.shared.calls ≤ c'.shared.calls := by
  cases hstep with
  | start call harrive => exact (arrived harrive).calls
  | @act t outcome call op next value shared hthread hexec =>
    obtain ⟨-, -, rfl⟩ := exec_eq_some_iff.mp hexec
    cases op <;> exact Nat.le_refl _
  | pass duration => exact Nat.le_refl _
  | crash => exact Nat.le_refl _

def OnePrepare (c : Config) : Prop :=
  ∀ t t' call call' op op' next next', c.thread t = some (call, .call op next) →
    c.thread t' = some (call', .call op' next') → call.prepares = true → call'.prepares = true →
    t = t'

/-- Every thread has only operations that belong to it, and arms the watchdog of what it records. -/
def Belonging (c : Config) : Prop :=
  ∀ t call program, c.thread t = some (call, program) → program.Every (Belongs call) ∧ Arms program

abbrev Holding (sys : System) (c : Config) : Prop :=
  AllHold (agent sys) relies before met (fun _ _ _ => True) c

structure Tidy (c : Config) : Prop where
  one : OnePrepare c
  waits : ∀ no id due, .snapshotWatchdog no id due ∈ pending c →
    ∀ a, c.shared.active = some a → a.snapshotId = id → a.no = no
  calls : ∀ x ∈ c.shared.quiesced, x.1 < c.shared.calls
  nodup : c.shared.quiesced.Nodup

theorem onePrepare_of_step (hallowed : Orderly c e) (hstep : Steps (agent sys) c e c')
    (h : OnePrepare c) : OnePrepare c' := by
  -- Where one begins, none of the others is a prepare that is not over.
  have hnew : ∀ {t newcomer call op next}, e = .start newcomer → newcomer.prepares = true →
      c.thread t = some (call, .call op next) → call.prepares ≠ true := by
    rintro t newcomer call op next rfl hnewcomer hthread heq
    have hfalse : call.prepares = false := hallowed hnewcomer _ (mem_of_getElem? hthread)
    rw [heq] at hfalse
    cases hfalse
  have hbefore : ∀ {t call op next}, c'.thread t = some (call, .call op next) →
      (e = .start call ∧ t = c.threads.length) ∨
        ∃ op next, c.thread t = some (call, .call op next) := by
    intro t call op next hthread
    obtain ⟨-, -, hold⟩ | ⟨hstart, -⟩ | ⟨_, op, next, _, -, hold, -⟩ := hstep.thread_cases hthread
    · exact .inr ⟨_, _, hold⟩
    · exact .inl hstart
    · exact .inr ⟨op, next, hold⟩
  intro t t' call call' op op' next next' hthread hthread' hprepares hprepares'
  obtain ⟨he, ht⟩ | ⟨op1, next1, hold⟩ := hbefore hthread
  · obtain ⟨-, ht'⟩ | ⟨op2, next2, hold'⟩ := hbefore hthread'
    · rw [ht, ht']
    · exact absurd hprepares' (hnew he hprepares hold')
  · obtain ⟨he, -⟩ | ⟨op2, next2, hold'⟩ := hbefore hthread'
    · exact absurd hprepares (hnew he hprepares' hold)
    · exact h t t' call call' op1 op2 next1 next2 hold hold' hprepares hprepares'

theorem Belonging.prepares {t : ℕ} (h : Belonging c)
    (hthread : c.thread t = some (call, .call op next))
    (hop : (∃ a, op = .record a) ∨ (∃ no plugin, op = .quiesce no plugin)) :
    call.prepares = true := by
  have hbelongs := (h t _ _ hthread).1.1
  obtain ⟨a, rfl⟩ | ⟨no, plugin, rfl⟩ := hop
  · obtain ⟨secs, rfl⟩ := hbelongs
    rfl
  · obtain ⟨secs, rfl⟩ := hbelongs
    rfl

theorem relies_of_step (hallowed : Orderly c e) (hstep : Steps (agent sys) c e c')
    (hbelonging : Belonging c) (hone : OnePrepare c) {t : ℕ} (hne : ∀ outcome, e ≠ .act t outcome)
    (hthread : c.thread t = some (call, .call op next)) : relies call op c.shared c'.shared := by
  cases call with
  | prepare no secs =>
    -- Another thread does not record or quiesce, since it would be a prepare too.
    have hother : ∀ {t' outcome call' op' next'}, e = .act t' outcome →
        c.thread t' = some (call', .call op' next') →
        ¬ ((∃ a, op' = .record a) ∨ ∃ no plugin, op' = .quiesce no plugin) := by
      rintro t' outcome call' op' next' rfl hthread' hop
      have ht := hone t t' _ call' op op' next next' hthread hthread' rfl
        (hbelonging.prepares hthread' hop)
      exact hne outcome (by rw [ht])
    have hactive : ∀ a, c'.shared.active = some a → c.shared.active = some a := by
      intro a ha
      obtain h | ⟨t', outcome, call', next', he, hthread'⟩ := active_of_step hstep ha
      · exact h
      · exact absurd (.inl ⟨a, rfl⟩) (hother he hthread')
    refine ⟨fun hnone => ?_, fun hmine a ha => hmine a (hactive a ha), ?_, calls_le_of_step hstep⟩
    · exact eq_none_iff_forall_ne_some.mpr fun a ha => by simp [hactive a ha] at hnone
    · obtain h | ⟨t', outcome, call', no', plugin, next', he, hthread', -⟩ := quiesced_of_step hstep
      · exact h
      · exact absurd (.inr ⟨no', plugin, rfl⟩) (hother he hthread')
  | snapshotWatchdog no id due =>
    rintro rfl hmine a ha
    obtain h | ⟨t', outcome, call', next', rfl, hthread'⟩ := active_of_step hstep ha
    · exact hmine a h
    · have horderly : AtNext (OrderlyAct c outcome) (c.thread t') := hallowed
      rw [hthread'] at horderly
      exact absurd trivial (horderly.2 _ (mem_of_getElem? hthread))
  | _ => trivial

theorem relies_refl (call : Call) (op : Op) (s : Shared) : relies call op s s := by
  cases call with
  | prepare no secs => exact ⟨id, id, rfl, Nat.le_refl _⟩
  | snapshotWatchdog no _ due => exact fun _ => id
  | _ => trivial

theorem reliable : Reliable (agent sys) relies before met (fun _ _ _ => True) fun c e =>
    (Orderly c e ∧ Belonging c) ∧ Tidy c where
  refl := relies_refl
  trans call op s₁ s2 s3 h1 h2 := by
    cases call with
    | prepare no secs =>
      exact ⟨fun h => h2.1 (h1.1 h), fun h => h2.2.1 (h1.2.1 h), h2.2.2.1.trans h1.2.2.1,
        Nat.le_trans h1.2.2.2 h2.2.2.2⟩
    | snapshotWatchdog no _ due => exact fun hop h => h2 hop (h1 hop h)
    | _ => trivial
  meets c t outcome call op next hallowed hthread := by
    unfold met
    split
    · exact hallowed.2.waits _ _ _ (mem_pending_iff.mpr (.inr ⟨t, _, _, hthread⟩))
    · trivial
  started c call shared hallowed harrive := by
    refine program_holds fun no secs hcall => ?_
    subst hcall
    have harrive : arrive (.prepare no secs) c.shared = some shared := harrive
    obtain ⟨rfl, rfl⟩ := arrive_prepare harrive
    exact ⟨fun plugin hmem => Nat.lt_irrefl _ (hallowed.2.calls _ hmem), Nat.lt_succ_self _⟩
  others c e c' hallowed hstep _ t call op next hne _ hthread :=
    relies_of_step hallowed.1.1 hstep hallowed.1.2 hallowed.2.one hne hthread

theorem before_of_allHold (h : Holding sys c) {t : ℕ}
    (hthread : c.thread t = some (call, .call op next)) : before call op c.shared :=
  (h t call op next hthread c.shared (relies_refl call op c.shared)).1

theorem tidy_of_step (hallowed : Orderly c e) (hbelonging : Belonging c)
    (hstep : Steps (agent sys) c e c')
    (hhold : Holding sys c) (h : Tidy c) :
    Tidy c' where
  one := onePrepare_of_step hallowed hstep h.one
  waits no id due hmem a ha hid := by
    obtain hactive | ⟨t, outcome, call, next, rfl, hthread⟩ := active_of_step hstep ha
    · obtain hmem | ⟨t, outcome, armer, op, next, rfl, hthread, harm⟩ :=
        mem_pending_of_step hstep hmem trivial
      · exact h.waits no id due hmem a hactive hid
      · -- The watchdog has just been armed, by the call whose snapshot is recorded.
        obtain ⟨_, _, -, heq⟩ | ⟨no', id', secs, rfl, heq⟩ := harm
        · cases heq
        · cases heq
          obtain ⟨_, rfl⟩ := (hbelonging t _ _ hthread).1.1
          exact before_of_allHold hhold hthread a hactive
    · have horderly : AtNext (OrderlyAct c outcome) (c.thread t) := hallowed
      rw [hthread] at horderly
      obtain hmem | ⟨t', outcome', armer, op, next', heq, hthread', harm⟩ :=
        mem_pending_of_step hstep hmem trivial
      · exact (horderly.1 _ hmem hid.symm).symm
      · cases heq
        rw [hthread] at hthread'
        cases hthread'
        obtain ⟨_, _, heq, -⟩ | ⟨_, _, _, heq, -⟩ := harm
        · cases heq
        · cases heq
  calls x hx := by
    have hle := calls_le_of_step hstep
    obtain hquiesced | ⟨t, outcome, call, no, plugin, next, rfl, hthread, hquiesced⟩ :=
      quiesced_of_step hstep
    · rw [hquiesced] at hx
      exact Nat.lt_of_lt_of_le (h.calls x hx) hle
    · rw [hquiesced] at hx
      obtain rfl | hx := mem_cons.mp hx
      · obtain ⟨_, rfl⟩ := (hbelonging t _ _ hthread).1.1
        exact Nat.lt_of_lt_of_le (before_of_allHold hhold hthread).2.2 hle
      · exact Nat.lt_of_lt_of_le (h.calls x hx) hle
  nodup := by
    obtain hquiesced | ⟨t, outcome, call, no, plugin, next, rfl, hthread, hquiesced⟩ :=
      quiesced_of_step hstep
    · rw [hquiesced]
      exact h.nodup
    · rw [hquiesced]
      obtain ⟨_, rfl⟩ := (hbelonging t _ _ hthread).1.1
      exact nodup_cons.mpr ⟨(before_of_allHold hhold hthread).2.1, h.nodup⟩

theorem mem_spawned_or_eq {call call' : Call} (h : arrive call' s = some s')
    (hmem : call ∈ s.spawned) : call ∈ s'.spawned ∨ call = call' := by
  by_cases heq : call = call'
  · exact .inr heq
  · obtain ⟨-, herase⟩ | ⟨-, hsame⟩ := (arrived h).spawned
    · exact .inl (herase ▸ (mem_erase_of_ne heq).mpr hmem)
    · exact .inl (hsame ▸ hmem)

theorem Watched.kept {a : ActiveSnapshot} (hallowed : Orderly c e)
    (hstep : Steps (agent sys) c e c') (hactive : c.shared.active = some a)
    (hactive' : c'.shared.active = some a) (h : Watched c a) : Watched c' a := by
  have hcrash : e ≠ .crash := by
    rintro rfl
    exact hallowed
  cases h with
  | armed due hmem =>
    cases hstep with
    | start call harrive =>
      obtain hmem | rfl := mem_spawned_or_eq harrive hmem
      · exact .armed due hmem
      · exact .running (Config.thread_add_length c _ _) ⟨rfl, trivial⟩
    | @act t outcome call op next value shared hthread hexec =>
      obtain ⟨-, -, rfl⟩ := exec_eq_some_iff.mp hexec
      refine .armed due ?_
      cases op with
      | armWatchdog no secs => exact mem_cons_of_mem _ hmem
      | armSnapshotWatchdog no id secs => exact mem_cons_of_mem _ hmem
      | _ => exact hmem
    | pass duration => exact .armed due hmem
    | crash => exact absurd rfl hcrash
  | @running t due program hthread htakes =>
    by_cases hact : ∃ outcome, e = .act t outcome
    · obtain ⟨outcome, rfl⟩ := hact
      cases program with
      | ret value => cases htakes
      | call op next =>
        obtain ⟨value, hexec, hthread'⟩ := hstep.thread_acted hthread
        obtain ⟨-, rfl, heffect⟩ := exec_eq_some_iff.mp hexec
        refine .running hthread' ?_
        cases op with
        | sleepUntil due => exact htakes
        | isActive id =>
          have htrue : reply outcome c.shared (.isActive id) = true := by
            change (c.shared.active.map fun a => a.snapshotId == id).getD false = true
            rw [hactive, htakes.1]
            exact beq_self_eq_true _
          rw [htrue]
          exact htakes.2
        | takeActive =>
          rw [← heffect] at hactive'
          cases hactive'
        | _ => cases htakes
    · exact .running
        (hstep.thread_kept (fun outcome he => hact ⟨outcome, he⟩) hcrash hthread) htakes
  | @arming t secs watchdogSecs next hthread =>
    by_cases hact : ∃ outcome, e = .act t outcome
    · obtain ⟨outcome, rfl⟩ := hact
      obtain ⟨value, hexec, -⟩ := hstep.thread_acted hthread
      have hexec : exec sys (.armSnapshotWatchdog a.no a.snapshotId secs) outcome c.shared =
        some (value, c'.shared) := hexec
      obtain ⟨-, -, heffect⟩ := exec_eq_some_iff.mp hexec
      refine .armed (c.shared.now + secs * second) ?_
      rw [← heffect]
      exact mem_cons_self
    · exact .arming (hstep.thread_kept (fun outcome he => hact ⟨outcome, he⟩) hcrash hthread)

theorem watched_of_step (hallowed : Orderly c e) (hbelonging : Belonging c)
    (hstep : Steps (agent sys) c e c') (h : ∀ a, c.shared.active = some a → Watched c a) :
    ∀ a, c'.shared.active = some a → Watched c' a := by
  intro a ha
  obtain hactive | ⟨t, outcome, call, next, rfl, hthread⟩ := active_of_step hstep ha
  · exact (h a hactive).kept hallowed hstep hactive ha
  · obtain ⟨⟨hcall, -⟩, harms, -⟩ := hbelonging t _ _ hthread
    obtain ⟨secs, rfl⟩ := hcall
    obtain ⟨value, -, hthread'⟩ := hstep.thread_acted hthread
    obtain ⟨delay, next', hnext⟩ := harms a rfl value
    rw [hnext] at hthread'
    exact .arming hthread'

/-! ### The account of the plugins -/

def recorded (x : ℕ × Plugin) (s : Shared) : ℕ :=
  (s.active.map fun a => owed a.no a.quiescedPlugins x).getD 0

def balance (x : ℕ × Plugin) (s : Shared) (total : ℕ) : Prop :=
  s.quiesced.count x = s.resumed.count x + recorded x s + total

theorem count_cons_eq (x y : ℕ × Plugin) (l : List (ℕ × Plugin)) :
    (y :: l).count x = l.count x + if x = y then 1 else 0 := by
  simp only [count_cons, beq_iff_eq, @eq_comm _ y x]

theorem balance_of_act {x : ℕ × Plugin} {s : Shared} {outcome : Outcome} {h h' rest : ℕ}
    (hrecord : ∀ a, op = .record a → s.active = none)
    (hmoves : moves x op (reply outcome s op) h h') (hbalance : balance x s (rest + h)) :
    balance x (effect outcome s op) (rest + h') := by
  unfold balance at hbalance ⊢
  cases op with
  | quiesce no plugin =>
    change moves x (.quiesce no plugin) (outcome.result outcome.text) h h' at hmoves
    change (if outcome.failed then s.quiesced else (no, plugin) :: s.quiesced).count x =
      s.resumed.count x + recorded x s + (rest + h')
    obtain ⟨hfailed, e, he⟩ | ⟨hfailed, hok⟩ := outcome.result_cases outcome.text
    · rw [he] at hmoves
      cases hmoves
      rwa [if_pos hfailed]
    · rw [hok] at hmoves
      cases hmoves
      rw [if_neg (by simp [hfailed]), count_cons_eq, hbalance]
      omega
  | resume no plugin =>
    cases hmoves
    change s.quiesced.count x = ((no, plugin) :: s.resumed).count x + recorded x s + (rest + h')
    rw [count_cons_eq, hbalance]
    omega
  | record a =>
    cases hmoves
    have hnone : recorded x s = 0 := by
      unfold recorded
      rw [hrecord a rfl]
      rfl
    change s.quiesced.count x =
      s.resumed.count x + owed a.no a.quiescedPlugins x + (rest + h')
    omega
  | takeActive =>
    change s.quiesced.count x = s.resumed.count x + 0 + (rest + h')
    change moves x .takeActive s.active h h' at hmoves
    unfold recorded at hbalance
    cases hactive : s.active with
    | none =>
      rw [hactive] at hmoves hbalance
      cases hmoves
      exact hbalance
    | some a =>
      rw [hactive] at hmoves hbalance
      cases hmoves
      change _ = _ + owed a.no a.quiescedPlugins x + _ at hbalance
      omega
  | _ =>
    cases hmoves
    exact hbalance

theorem ledger (x : ℕ × Plugin) : Ledger (agent sys) (moves x) (balance x) fun c e =>
    Orderly c e ∧ Belonging c ∧ Holding sys c where
  program := program_carries
  start c call shared total _ harrive hbalance := by
    have heq := (arrived harrive).rest
    unfold balance recorded at hbalance ⊢
    rw [heq]
    exact hbalance
  act c t outcome call op next value shared h h' rest hallowed hthread hexec hmoves hbalance := by
    obtain ⟨-, rfl, rfl⟩ := exec_eq_some_iff.mp hexec
    refine balance_of_act ?_ hmoves hbalance
    rintro a rfl
    obtain ⟨_, rfl⟩ := (hallowed.2.1 t _ _ hthread).1.1
    exact before_of_allHold hallowed.2.2 hthread
  pass _ _ _ hbalance := hbalance
  crash _ _ hallowed := absurd hallowed.1 id

variable {marker : Option CutoverState} {entries : List Entry}

theorem belonging_of_run (h : Run (agent sys) Orderly (initial marker) entries c) : Belonging c :=
  h.of_threads (fun call => ⟨program_belongs call, program_arms call⟩)
    (fun _ _ _ value hprogram => ⟨hprogram.1.2 value, hprogram.2.2 value⟩) rfl

theorem tidy_initial : Tidy (initial marker) ∧ Holding sys (initial marker) := by
  refine ⟨⟨?_, ?_, ?_, nodup_nil⟩, ?_⟩
  · intro t t' call call' op op' next next' hthread
    cases hthread
  · intro no id due hmem
    cases hmem
  · intro x hx
    cases hx
  · intro t call op next hthread
    cases hthread

section

variable (h : Run (agent sys) Orderly (initial marker) entries c)
include h

theorem tidy_of_run :
    Tidy c ∧ Holding sys c := by
  induction h with
  | start => exact tidy_initial
  | step h hallowed hs ih =>
    have hbelonging := belonging_of_run h
    have hstep := steps_of_step hs
    exact ⟨tidy_of_step hallowed hbelonging hstep ih.2 ih.1,
      reliable.step ⟨⟨hallowed, hbelonging⟩, ih.1⟩ hstep ih.2⟩

theorem with_tidy :
    Run (agent sys) (fun c e => Orderly c e ∧ Belonging c ∧ Holding sys c) (initial marker) entries
      c :=
  h.with_invariant fun _ _ hrun => ⟨belonging_of_run hrun, (tidy_of_run hrun).2⟩

theorem watched_of_run :
    ∀ a, c.shared.active = some a → Watched c a :=
  (h.with_invariant fun _ _ => belonging_of_run).invariant (fun a ha => by cases ha)
    fun _ _ _ hallowed hstep => watched_of_step hallowed.1 hallowed.2 hstep

end

theorem balanced_of_run (x : ℕ × Plugin)
    (h : Run (agent sys) Orderly (initial marker) entries c) : Balanced (moves x) (balance x) c :=
  (ledger x).run rfl (show balance x (initial marker).shared 0 from rfl) (with_tidy h)

theorem acting_eq_some {entry : Entry} {outcome : Outcome}
    (h : acting entry = some (call, op, outcome)) : ∃ t next, entry.event = .act t outcome ∧
      entry.before.thread t = some (call, .call op next) := by
  unfold acting at h
  split at h
  · next t outcome' hevent =>
    split at h
    · next call' op' next hthread =>
      cases h
      exact ⟨t, next, hevent, hthread⟩
    · cases h
  · cases h

theorem mine_of_before {no : ℕ} {s : Shared} (h : beforePrepare no s op)
    (hop : op ≠ .snapshotActive) : Mine no s := by
  cases op with
  | snapshotActive => exact absurd rfl hop
  | quiesce no' plugin => exact h.1
  | record a =>
    intro a' ha'
    rw [show s.active = none from h] at ha'
    cases ha'
  | _ => exact h

theorem activePrepare_unique (htidy : Tidy c) (hhold : Holding sys c) {no no' : ℕ}
    (h : ActivePrepare c no) (h' : ActivePrepare c no') : no = no' := by
  -- What is recorded while a prepare is past its guard is its own.
  have hmine : ∀ {t no secs op next a}, c.thread t = some (.prepare no secs, .call op next) →
      op ≠ .snapshotActive → c.shared.active = some a → a.no = no := by
    intro t no secs op next a hthread hop ha
    exact mine_of_before (before_of_allHold hhold hthread) hop a ha
  obtain ⟨t, secs, op, next, hthread, hop⟩ | ⟨a, ha, rfl⟩ := h
  · obtain ⟨t', secs', op', next', hthread', -⟩ | ⟨a, ha, rfl⟩ := h'
    · obtain rfl := htidy.one t t' _ _ op op' next next' hthread hthread' rfl rfl
      rw [hthread] at hthread'
      cases hthread'
      rfl
    · exact (hmine hthread hop ha).symm
  · obtain ⟨t', secs', op', next', hthread', hop'⟩ | ⟨a', ha', rfl⟩ := h'
    · exact hmine hthread' hop' ha
    · rw [ha] at ha'
      cases ha'
      rfl

theorem one_mem_of_sum {l : List ℕ} (h : l.sum = 1) : 1 ∈ l := by
  induction l with
  | nil => cases h
  | cons n l ih =>
    rw [sum_cons] at h
    obtain rfl | rfl : n = 0 ∨ n = 1 := by omega
    · exact mem_cons_of_mem _ (ih (by omega))
    · exact mem_cons_self

theorem recorded_or_held {x : ℕ × Plugin} (h : Balanced (moves x) (balance x) c)
    (hquiesced : x ∈ c.shared.quiesced) (hnodup : c.shared.quiesced.Nodup)
    (hresumed : x ∉ c.shared.resumed) : recorded x c.shared = 1 ∨ Held c x := by
  obtain ⟨held, hheld, hbalance⟩ := h
  unfold balance at hbalance
  rw [count_eq_one_of_mem hnodup hquiesced, count_eq_zero.mpr hresumed] at hbalance
  obtain hzero | hone : held.sum = 0 ∨ held.sum = 1 := by omega
  · exact .inl (by omega)
  · refine .inr ?_
    obtain ⟨t, ⟨call, program⟩, hthread, hinHand⟩ := exists_inHand hheld (one_mem_of_sum hone)
    cases program with
    | ret value => exact absurd hinHand Nat.one_ne_zero
    | call op next => exact ⟨t, call, op, next, hthread, hinHand⟩

theorem consistent_of_orderly (h : Run (agent sys) Orderly (initial marker) entries c) :
    Consistent entries c := by
  obtain ⟨htidy, hhold⟩ := tidy_of_run h
  have hentries : ∀ entry ∈ entries, Orderly entry.before entry.event ∧
      Belonging entry.before ∧ Holding sys entry.before := fun _ =>
    (with_tidy h).allowed_of_mem
  constructor
  · exact fun no no' => activePrepare_unique htidy hhold
  · intro entry hentry call a outcome hacting
    obtain ⟨t, next, -, hthread⟩ := acting_eq_some hacting
    obtain ⟨-, hbelonging, hhold⟩ := hentries entry hentry
    obtain ⟨_, rfl⟩ := (hbelonging t _ _ hthread).1.1
    exact before_of_allHold hhold hthread
  · intro entry hentry no id due outcome a hacting ha
    obtain ⟨t, next, -, hthread⟩ := acting_eq_some hacting
    obtain ⟨-, -, hhold⟩ := hentries entry hentry
    exact before_of_allHold hhold hthread rfl a ha
  · intro x
    obtain ⟨held, -, hbalance⟩ := balanced_of_run x h
    unfold balance at hbalance
    exact ⟨by omega, nodup_iff_count_le_one.mp htidy.nodup x⟩
  · intro x hx hresumed
    obtain hrecorded | hheld := recorded_or_held (balanced_of_run x h) hx htidy.nodup hresumed
    · unfold recorded at hrecorded
      cases hactive : c.shared.active with
      | none =>
        rw [hactive] at hrecorded
        cases hrecorded
      | some a =>
        rw [hactive] at hrecorded
        change owed a.no a.quiescedPlugins x = 1 at hrecorded
        unfold owed at hrecorded
        split at hrecorded
        · next howed => exact .inr ⟨a, rfl, howed.1, howed.2, watched_of_run h a hactive⟩
        · cases hrecorded
    · exact .inl hheld
  · intro entry hentry call outcome hacting hcompletes hfailed
    obtain ⟨t, next, hevent, hthread⟩ := acting_eq_some hacting
    obtain ⟨horderly, -, -⟩ := hentries entry hentry
    rw [hevent] at horderly
    change AtNext (OrderlyAct entry.before outcome) (entry.before.thread t) at horderly
    rw [hthread] at horderly
    rw [show outcome.failed = false from horderly hcompletes] at hfailed
    cases hfailed

end Runs

def prepareRest (t : ℕ) : List Event :=
  [.act t {}, .act t { yes := true }] ++ List.replicate 11 (.act t {})

/-- A snapshot is prepared and completed, and after its watchdog is over another one is prepared;
the watchdog of that one completes it. -/
theorem snapshots_completed : ∃ entries c, Run (agent {}) Orderly (initial none) entries c ∧
    (c.shared.quiesced = [(1, .postgres), (0, .postgres)] ∧ c.shared.active = none ∧
      c.shared.resumed = [(1, .postgres), (0, .postgres)]) ∧ Consistent entries c :=
  (Run.exists_of_follow
    ([.start .recoverCutoverState, .act 0 {}, .start (.prepare 0 none), .act 1 {}] ++
      prepareRest 1 ++ .start .complete :: List.replicate 7 (.act 2 {}) ++
      [.pass (120 * second), .start (.snapshotWatchdog 0 "snap-" (120 * second)), .act 3 {},
        .act 3 {}, .start (.prepare 1 none), .act 4 {}] ++ prepareRest 4 ++
      [.pass (120 * second), .start (.snapshotWatchdog 1 "snap-" (240 * second))] ++
      List.replicate 9 (.act 5 {})) (by decide +kernel)).imp fun _ =>
    .imp fun _ h => ⟨h.1, h.2, consistent_of_orderly h.1⟩

/-- Two prepares look whether a snapshot is active before either has recorded one.  The second
cannot freeze what the first has frozen, and replaces its record.  When everything is over, what the
first has quiesced is not resumed, and the filesystems are frozen. -/
theorem prepare_replaced : ∃ entries c,
    Run (agent {}) (fun _ _ => True) (initial none) entries c ∧
      (c.shared.quiesced = [(1, .postgres), (0, .postgres)] ∧ c.shared.active = none ∧
        c.shared.resumed = [(1, .postgres)] ∧ c.shared.frozen = true ∧ pending c = []) ∧
      ¬ Consistent entries c := by
  have hrun : ∃ entries c, Run (agent {}) (fun _ _ => True) (initial none) entries c ∧
      (((entries[26]?.bind acting).map fun (call, op, _) => (call, op)) =
        some (.prepare 1 none,
          .record (ActiveSnapshot.mk 1 "snap-" false none ["postgresql"] false)) ∧
      (entries[26]?.map (·.before.shared.active)) =
        some (some (ActiveSnapshot.mk 0 "snap-" true none ["postgresql"] true)) ∧
      c.shared.quiesced = [(1, .postgres), (0, .postgres)] ∧ c.shared.active = none ∧
        c.shared.resumed = [(1, .postgres)] ∧ c.shared.frozen = true ∧ pending c = []) :=
    Run.exists_of_follow
      ([.start .recoverCutoverState, .act 0 {}, .start (.prepare 0 none), .act 1 {},
          .start (.prepare 1 none), .act 2 {}] ++ prepareRest 1 ++
        [.act 2 {}, .act 2 { yes := true }, .act 2 {}, .act 2 {}, .act 2 {}, .act 2 {},
          .act 2 { error := some "fsfreeze failed" }] ++ List.replicate 4 (.act 2 {}) ++
        .start .complete :: List.replicate 4 (.act 3 {}) ++
        [.pass (120 * second), .start (.snapshotWatchdog 0 "snap-" (120 * second)), .act 4 {},
          .act 4 {}, .start (.snapshotWatchdog 1 "snap-" (120 * second)), .act 5 {}, .act 5 {}])
      (by decide +kernel)
  obtain ⟨entries, c, h, hrecord, hactive, hlast⟩ := hrun
  refine ⟨entries, c, h, hlast, fun hconsistent => ?_⟩
  obtain ⟨⟨call, op, outcome⟩, hacting, heq⟩ := map_eq_some_iff.mp hrecord
  obtain ⟨entry, hentry, hacting⟩ := bind_eq_some_iff.mp hacting
  cases heq
  have hnone := hconsistent.kept entry (mem_of_getElem? hentry) _ _ _ hacting
  rw [hentry, map_some, hnone] at hactive
  cases hactive

end Guestkit.Freeze
