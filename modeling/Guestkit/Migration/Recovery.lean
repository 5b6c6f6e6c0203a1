import Guestkit.Agent.Snapshot

/-! What the marker of a cutover is for: an agent that starts again after a crash thaws the
filesystems if the marker says that they are frozen.  The marker is written after the freeze and
cleared whether or not a watchdog's thaw succeeds, so this works only in runs that are careful
enough; in those it does. -/

namespace Guestkit.Freeze

open Lib Machine Option

def saysFrozen (marker : Option CutoverState) : Bool := (marker.map (·.frozen)).getD false

def Pauses : Op → Prop
  | .sleepUntil _ => True
  | _ => False

instance (op : Op) : Decidable (Pauses op) := by
  induction op using Op.casesOn <;> unfold Pauses <;> infer_instance

/-- The operations of a cutover that freezes, from the freeze to the marker. -/
def Saving (call : Call) (op : Op) : Prop :=
  match call, op with
  | .enterCutover _ params, .setFsFrozen _ | .enterCutover _ params, .setHint _
  | .enterCutover _ params, .utcNow _ | .enterCutover _ params, .armWatchdog ..
  | .enterCutover _ params, .createStateDir | .enterCutover _ params, .writeMarker _ =>
    params.freeze = true
  | _, _ => False

instance (call : Call) (op : Op) : Decidable (Saving call op) := by
  induction call using Call.casesOn <;> induction op using Op.casesOn <;> unfold Saving <;>
    infer_instance

/-- What must not fail: the thaws of watchdogs and of the recovery, reading the marker in the
recovery, and writing it in a cutover that freezes. -/
def Succeeds (outcome : Outcome) (call : Call) (op : Op) : Prop :=
  match call, op with
  | .cutoverWatchdog .., .fsfreeze true | .recoverCutoverState, .fsfreeze true
  | .recoverCutoverState, .readMarker => outcome.failed = false
  | .enterCutover _ params, .createStateDir | .enterCutover _ params, .writeMarker _ =>
    params.freeze = true → outcome.failed = false
  | _, _ => True

instance (outcome : Outcome) (call : Call) (op : Op) : Decidable (Succeeds outcome call op) := by
  induction call using Call.casesOn <;> induction op using Op.casesOn
  case cutoverWatchdog.fsfreeze thaw => cases thaw <;> unfold Succeeds <;> infer_instance
  case recoverCutoverState.fsfreeze thaw => cases thaw <;> unfold Succeeds <;> infer_instance
  all_goals unfold Succeeds; infer_instance

/-- The calls around cutovers that may begin: a watchdog, which first sleeps, always; the others
when no other is underway; and a cutover that does not freeze only when the filesystems
are not frozen. -/
def MayBegin (c : Config) : Call → Prop
  | .cutoverWatchdog .. => True
  | .enterCutover _ params => (∀ t < c.threads.length, ¬ Machine.Inside Pauses (c.thread t)) ∧
    (c.shared.frozen = true → params.freeze = true)
  | .exitCutover | .recoverCutoverState =>
    ∀ t < c.threads.length, ¬ Machine.Inside Pauses (c.thread t)
  | .prepare .. | .complete | .snapshotWatchdog .. => False

instance (c : Config) (call : Call) : Decidable (MayBegin c call) := by
  induction call using Call.casesOn <;> unfold MayBegin <;> infer_instance

/-- The events of careful runs: one call at a time, what must not fail succeeds, and no crash
between a freeze and its marker. -/
def Careful (c : Config) : Event → Prop
  | .start call => MayBegin c call
  | .act t outcome => (∀ t' < c.threads.length, t' ≠ t → ¬ Machine.Inside Pauses (c.thread t')) ∧
    AtNext (Succeeds outcome) (c.thread t)
  | .pass _ => True
  | .crash => c.shared.frozen = true →
    ∀ t < c.threads.length, AtNext (fun call op => ¬ Saving call op) (c.thread t)

instance (c : Config) (e : Event) : Decidable (Careful c e) := by
  induction e using Machine.Event.casesOn <;> unfold Careful <;> infer_instance

structure View where
  frozen : Bool
  fsFrozen : Bool
  hint : Bool
  down : Bool
  marker : Option CutoverState

def Shared.view (s : Shared) : View := ⟨s.frozen, s.fsFrozen, s.hint, s.down, s.marker⟩

structure View.Settled (sys : System) (v : View) : Prop where
  saved : v.frozen = true → saysFrozen v.marker = true
  flagged : v.down = false → v.frozen = true → (v.fsFrozen || v.hint) = true
  linux : sys.windows = true → v.frozen = false

structure View.Ready (sys : System) (call : Call) (op : Op) (v : View) : Prop where
  saved : ¬ Saving call op → v.frozen = true → saysFrozen v.marker = true
  linux : sys.windows = true → v.frozen = false

theorem View.settled_of_thawed {sys : System} {v : View} (h : v.frozen = false) : v.Settled sys :=
  ⟨by simp [h], by simp [h], fun _ => h⟩

theorem View.Settled.ready {sys : System} {v : View} (h : v.Settled sys) (call : Call) (op : Op) :
    v.Ready sys call op :=
  ⟨fun _ => h.saved, h.linux⟩

def Settled (sys : System) (s : Shared) : Prop := s.view.Settled sys

def Agree (s s' : Shared) : Prop := s'.view = s.view

def Ready (sys : System) (call : Call) (op : Op) (s : Shared) : Prop := s.view.Ready sys call op

def Met (call : Call) (op : Op) (outcome : Outcome) (_ : Shared) : Prop := Succeeds outcome call op

/-- `task` of `call` leads from `P` to `Q`, and is ready at each of its operations. -/
def Triple (sys : System) (call : Call) {β : Type} (P : View → Prop) (task : Task β)
    (Q : β → View → Prop) : Prop :=
  ∀ s : Shared, P s.view → Holds (agent sys) (fun _ => Alone Pauses (Settled sys) Agree)
    (SeesTo Pauses (Settled sys) (Ready sys)) Met call (fun value s => Q value s.view) task s

namespace Triple

variable {sys : System} {call : Call} {β γ : Type} {P P' : View → Prop} {Q : β → View → Prop}
  {R : γ → View → Prop}
variable {task : Task β}

theorem ret {value : β} (h : ∀ v, P v → Q value v) : Triple sys call P (pure value) Q :=
  fun s hs => h s.view hs

theorem bind {f : β → Task γ} (h : Triple sys call P task Q)
    (hf : ∀ value, Triple sys call (Q value) (f value) R) : Triple sys call P (task >>= f) R :=
  fun s hs => ((h s hs).imp fun value (s : Shared) hq => hf value s hq).bind

theorem mono {Q' : β → View → Prop} (h : Triple sys call P task Q) (hpre : ∀ v, P' v → P v)
    (hpost : ∀ value v, Q value v → Q' value v) :
    Triple sys call P' task Q' :=
  fun s hs => (h s (hpre s.view hs)).imp fun value (s : Shared) => hpost value s.view

theorem perform {op : Op} {Q : op.Reply → View → Prop} (hop : ¬ Pauses op)
    (hready : ∀ v, P v → v.Ready sys call op)
    (heffect : ∀ (s : Shared) outcome, P s.view → Succeeds outcome call op →
      Q (reply outcome s op) (effect outcome s op).view) :
    Triple sys call P (perform op) Q := by
  intro s hs s1 halone
  have hview : s1.view = s.view := halone.2 hop
  rw [← hview] at hs
  refine ⟨⟨fun h => absurd h hop, fun _ => hready _ hs⟩, fun outcome value s2 hmet h => ?_⟩
  obtain ⟨-, rfl, rfl⟩ := exec_eq_some_iff.mp h
  exact heffect s1 outcome hs hmet

theorem of_eq (h : ∀ v₀, P v₀ → Triple sys call (· = v₀) task Q) :
    Triple sys call P task Q :=
  fun s hs => h s.view hs s rfl

end Triple

/-- Operations that leave what matters as it is. -/
def Quiet : Op → Prop
  | .fsfreeze _ | .setFsFrozen _ | .setHint _ | .writeMarker _ | .removeMarker |
    .sleepUntil _ => False
  | _ => True

theorem view_of_quiet {op : Op} (hop : Quiet op) (outcome : Outcome) (s : Shared) :
    (effect outcome s op).view = s.view := by
  cases op <;> first | rfl | exact hop.elim

section Specs

variable {sys : System} {call : Call} {P : View → Prop}
variable {v₀ : View}

theorem Triple.quiet {op : Op} (hop : Quiet op) (hready : ∀ v, P v → v.Ready sys call op) :
    Triple sys call P (Freeze.perform op) fun _ => P := by
  refine .perform ?_ hready fun s outcome hs _ => ?_
  · cases op <;> first | exact id | exact fun _ => hop
  · rw [view_of_quiet hop]
    exact hs

theorem controlUnits_triple {op : String}
    (hready : ∀ service v, P v → v.Ready sys call (.controlUnit op service))
    (services : List String) : Triple sys call P (controlUnits op services) fun _ => P := by
  induction services with
  | nil => exact .ret fun v hv => hv
  | cons service services ih =>
    refine .bind (.quiet trivial (hready service)) fun reply => ?_
    cases reply with
    | ok text => exact .bind ih fun stopped => .ret fun v hv => hv
    | error e => exact ih

/-- Operations that keep thawed filesystems thawed. -/
def KeepsThawed : Op → Prop
  | .fsfreeze thaw => thaw = true
  | .sleepUntil _ => False
  | _ => True

theorem View.ready_of_thawed {op : Op} {v : View} (h : v.frozen = false) : v.Ready sys call op :=
  (View.settled_of_thawed h).ready call op

theorem Triple.keepsThawed {op : Op} (hop : KeepsThawed op) :
    Triple sys call (·.frozen = false) (Freeze.perform op) fun _ v => v.frozen = false := by
  refine .perform ?_ (fun v hv => View.ready_of_thawed hv) fun s outcome hs _ => ?_
  · cases op <;> first | exact id | exact fun _ => hop
  · cases op with
    | fsfreeze thaw =>
      change (if outcome.failed then s.frozen else !thaw) = false
      split
      · exact hs
      · rw [show thaw = true from hop]
        rfl
    | sleepUntil due => exact hop.elim
    | _ => exact hs

theorem clearMarkerFrozen_triple :
    Triple sys call (·.frozen = false) clearMarkerFrozen fun _ v => v.frozen = false := by
  refine .bind (.keepsThawed trivial) fun marker => ?_
  cases marker with
  | none => exact .ret fun v hv => hv
  | some state => exact .keepsThawed trivial

theorem fsFrozen_triple (hready : ∀ op, v₀.Ready sys call op) :
    Triple sys call (· = v₀) fsFrozen
      fun answer v => v = v₀ ∧ answer = (v₀.hint || v₀.fsFrozen) := by
  refine .bind (Q := fun hint v => v = v₀ ∧ hint = v₀.hint) ?_ fun hint => ?_
  · refine .perform id (fun v hv => hv ▸ hready _) fun s outcome hs _ => ⟨hs, ?_⟩
    exact congrArg View.hint hs
  · cases hint with
    | true => exact .ret fun v ⟨hv, hhint⟩ => ⟨hv, by rw [← hhint]; rfl⟩
    | false =>
      refine .perform id (fun v hv => hv.1 ▸ hready _) fun s outcome hs _ => ⟨hs.1, ?_⟩
      rw [← hs.2]
      exact congrArg View.fsFrozen hs.1

/-- After a thaw, the filesystems are thawed, or the thaw has failed where it may and nothing has
changed. -/
def Thawed (call : Call) (v₀ : View) {α : Type} (result : Except String α) (v : View) : Prop :=
  v.frozen = false ∨ (∃ e, result = .error e) ∧ v = v₀ ∧
    ∃ outcome, Succeeds outcome call (.fsfreeze true) ∧ outcome.failed = true

theorem Thawed.last (op : Op) (hop : KeepsThawed op) {α β : Type} {value : α} (result : β) :
    Triple sys call (Thawed call v₀ (.ok value))
      (do let _ ← Freeze.perform op; pure (.ok result)) (Thawed call v₀) := by
  have hthawed : ∀ v, Thawed call v₀ (Except.ok value) v → v.frozen = false :=
    fun v hv => hv.resolve_right fun ⟨⟨e, he⟩, _⟩ => by cases he
  refine .bind ((Triple.keepsThawed hop).mono hthawed fun _ _ => id) fun _ => ?_
  exact .ret fun v hv => .inl hv

theorem guestFsfreezeThaw_triple (h : v₀.Ready sys call (.fsfreeze true)) :
    Triple sys call (· = v₀) (guestFsfreezeThaw sys.windows) (Thawed call v₀) := by
  unfold guestFsfreezeThaw
  by_cases hwindows : sys.windows = true
  · have hthawed : Triple sys call (·.frozen = false) (guestFsfreezeThaw true)
        fun _ v => v.frozen = false := by
      refine .bind (.keepsThawed trivial) fun id => ?_
      cases id with
      | none => exact .bind (.keepsThawed trivial) fun _ => .ret fun v hv => hv
      | some id =>
        refine .bind (.keepsThawed trivial) fun result => ?_
        cases result with
        | error e => exact .ret fun v hv => hv
        | ok text => exact .bind (.keepsThawed trivial) fun _ => .ret fun v hv => hv
    rw [hwindows]
    exact hthawed.mono (fun v hv => hv ▸ h.linux hwindows) fun _ v hv => .inl hv
  · rw [if_neg hwindows]
    refine .bind (Q := Thawed call v₀) (.perform id (fun v hv => hv ▸ h) ?_) fun result => ?_
    · intro s outcome hs hsucceeds
      change Thawed call v₀ (outcome.result ()) _
      obtain ⟨hfailed, e, he⟩ | ⟨hfailed, -⟩ := outcome.result_cases ()
      · refine .inr ⟨⟨e, he⟩, ?_, outcome, hsucceeds, hfailed⟩
        unfold effect
        rw [hfailed]
        exact hs
      · refine .inl ?_
        unfold effect
        rw [hfailed]
        rfl
    · cases result with
      | error e => exact .ret fun v hv => hv.imp id fun h => ⟨⟨e, rfl⟩, h.2⟩
      | ok value => exact Thawed.last (.setFsFrozen false) trivial ()

theorem thawFilesystems_triple (h : v₀.Ready sys call (.fsfreeze true)) :
    Triple sys call (· = v₀) (thawFilesystems sys.windows) (Thawed call v₀) := by
  refine .bind (guestFsfreezeThaw_triple h) fun result => ?_
  cases result with
  | error e => exact .ret fun v hv => hv.imp id fun h => ⟨⟨_, rfl⟩, h.2⟩
  | ok value => exact Thawed.last (.setHint false) trivial "filesystems thawed"

end Specs

section Calls

variable {sys : System} {no : ℕ} {params : CutoverParams}
variable {call : Call} {v₀ : View}

structure View.Freezing (sys : System) (v : View) : Prop where
  up : v.down = false
  linux : sys.windows = true → v.frozen = false

theorem View.Freezing.ready {v : View} (h : v.Freezing sys) {op : Op} (hop : Saving call op) :
    v.Ready sys call op :=
  ⟨fun hnot => absurd hop hnot, h.linux⟩

theorem guestFsfreezeFreeze_triple (hfreeze : params.freeze = true) (h : v₀.Settled sys)
    (hup : v₀.down = false) :
    Triple sys (.enterCutover no params) (· = v₀) (guestFsfreezeFreeze sys.windows)
      fun result v => (∃ e, result = .error e) ∧ v = v₀ ∨
        (∃ value, result = .ok value) ∧ v.Freezing sys := by
  have hready : ∀ op v, v = v₀ → v.Ready sys (.enterCutover no params) op :=
    fun op v hv => hv ▸ h.ready _ op
  have hset : Triple sys (.enterCutover no params) (View.Freezing sys)
      (perform (.setFsFrozen true)) fun _ => View.Freezing sys :=
    .perform id (fun v hv => hv.ready hfreeze) fun s outcome hs _ => ⟨hs.up, hs.linux⟩
  unfold guestFsfreezeFreeze
  by_cases hwindows : sys.windows = true
  · rw [if_pos hwindows]
    refine .bind (.quiet trivial (hready _)) fun result => ?_
    cases result with
    | error e => exact .ret fun v hv => .inl ⟨⟨_, rfl⟩, hv⟩
    | ok result =>
      have hfreezing : ∀ v, v = v₀ → v.Freezing sys := by
        rintro v rfl
        exact ⟨hup, h.linux⟩
      refine .bind (.quiet trivial (hready _)) fun _ => ?_
      refine .bind (hset.mono hfreezing fun _ _ => id) fun _ => ?_
      exact .ret fun v hv => .inr ⟨⟨_, rfl⟩, hv⟩
  · rw [if_neg hwindows]
    refine .bind (Q := fun result v => (∃ e, result = .error e) ∧ v = v₀ ∨
      (∃ value, result = .ok value) ∧ v.Freezing sys) (.perform id (hready _) ?_) fun result => ?_
    · intro s outcome hs _
      change (∃ e, outcome.result () = .error e) ∧ _ ∨ (∃ value, outcome.result () = .ok value) ∧ _
      obtain ⟨hfailed, he⟩ | ⟨hfailed, hok⟩ := outcome.result_cases ()
      · refine .inl ⟨he, ?_⟩
        unfold effect
        rw [hfailed]
        exact hs
      · refine .inr ⟨⟨(), hok⟩, ?_, fun h => absurd h hwindows⟩
        subst hs
        exact hup
    · cases result with
      | error e => exact .ret fun v hv => .inl ⟨⟨e, rfl⟩, (hv.resolve_right (by simp)).2⟩
      | ok value =>
        refine .bind (hset.mono (fun v hv => (hv.resolve_left (by simp)).2) fun _ _ => id) ?_
        exact fun _ => .ret fun v hv => .inr ⟨⟨_, rfl⟩, hv⟩

theorem freezeFilesystems_triple (hfreeze : params.freeze = true) (h : v₀.Settled sys)
    (hup : v₀.down = false) :
    Triple sys (.enterCutover no params) (· = v₀) (freezeFilesystems sys.windows)
      fun result v => (∃ e, result = .error e) ∧ v = v₀ ∨
        (∃ value, result = .ok value) ∧ v.Freezing sys ∧ v.hint = true := by
  refine .bind (guestFsfreezeFreeze_triple hfreeze h hup) fun result => ?_
  cases result with
  | error e => exact .ret fun v hv => .inl ⟨⟨_, rfl⟩, (hv.resolve_right (by simp)).2⟩
  | ok value =>
    have hset : Triple sys (.enterCutover no params) (View.Freezing sys) (perform (.setHint true))
        fun _ v => v.Freezing sys ∧ v.hint = true :=
      .perform id (fun v hv => hv.ready hfreeze) fun s outcome hs _ => ⟨⟨hs.up, hs.linux⟩, rfl⟩
    refine .bind (hset.mono (fun v hv => (hv.resolve_left (by simp)).2) fun _ _ => id) fun _ => ?_
    exact .ret fun v hv => .inr ⟨⟨_, rfl⟩, hv⟩

theorem persist_triple (hfreeze : params.freeze = true) (deadline : Option String)
    (stopped : List String) :
    Triple sys (.enterCutover no params) (fun v => v.Freezing sys ∧ v.hint = true)
      (persist true deadline stopped) fun _ v => v.Settled sys := by
  refine .bind (.quiet trivial fun v hv => hv.1.ready hfreeze) fun enteredAt => ?_
  refine .bind (Q := fun result v => (∃ value, result = .ok value) ∧ v.Freezing sys ∧ v.hint = true)
    (.perform id (fun v hv => hv.1.ready hfreeze) fun s outcome hs hsucceeds => ⟨⟨(), ?_⟩, hs⟩)
    fun result => ?_
  · exact (outcome.result_cases ()).elim (fun h => by simp [hsucceeds hfreeze] at h) And.right
  · cases result with
    | error e => exact .ret fun v ⟨⟨value, h⟩, _⟩ => by cases h
    | ok value =>
      refine .bind (Q := fun _ v => v.Settled sys)
        (.perform id (fun v hv => hv.2.1.ready hfreeze) fun s outcome hs hsucceeds => ?_)
        fun result => ?_
      · obtain ⟨-, hfreezing, hhint⟩ := hs
        have hfailed : outcome.failed = false := hsucceeds hfreeze
        unfold effect
        rw [hfailed]
        refine ⟨fun _ => rfl, fun _ _ => ?_, hfreezing.linux⟩
        change (s.fsFrozen || s.hint) = true
        rw [show s.hint = true from hhint, Bool.or_true]
      · cases result <;> exact .ret fun v hv => hv

theorem persist_thawed (deadline : Option String) (stopped : List String) :
    Triple sys call (·.frozen = false) (persist false deadline stopped)
      fun _ v => v.frozen = false := by
  refine .bind (.keepsThawed trivial) fun enteredAt => .bind (.keepsThawed trivial) fun result => ?_
  cases result with
  | error e => exact .ret fun v hv => hv
  | ok value =>
    refine .bind (.keepsThawed trivial) fun result => ?_
    cases result <;> exact .ret fun v hv => hv

theorem enterCutover_triple : Triple sys (.enterCutover no params)
    (fun v => v.Settled sys ∧ v.down = false ∧ (v.frozen = true → params.freeze = true))
    (enterCutover sys.windows no params) fun _ v => v.Settled sys := by
  refine .bind (controlUnits_triple (fun service v hv => hv.1.ready _ _) _) fun stopped => ?_
  refine .of_eq fun v₀ ⟨h, hup, hfreeze⟩ => ?_
  cases hasked : params.freeze with
  | true =>
    refine .bind (freezeFilesystems_triple hasked h hup) fun result => ?_
    cases result with
    | error e =>
      refine .ret fun v hv => ?_
      rw [(hv.resolve_right (by simp)).2]
      exact h
    | ok value =>
      refine Triple.mono (P := fun v => v.Freezing sys ∧ v.hint = true) ?_
        (fun v hv => (hv.resolve_left (by simp)).2) fun _ _ => id
      refine .bind (.quiet trivial fun v hv => hv.1.ready hasked) fun deadline => ?_
      refine .bind (.quiet trivial fun v hv => hv.1.ready hasked) fun _ => ?_
      exact persist_triple hasked _ _
  | false =>
    refine (persist_thawed none stopped).mono ?_ fun _ v hv => View.settled_of_thawed hv
    rintro v rfl
    cases hfrozen : v.frozen with
    | false => rfl
    | true =>
      rw [hfreeze hfrozen] at hasked
      cases hasked

theorem restart_triple (previous : Option CutoverState) :
    Triple sys call (·.frozen = false) (restart previous) fun _ v => v.frozen = false := by
  refine .bind (controlUnits_triple (fun service v hv => View.ready_of_thawed hv) _) fun _ => ?_
  exact .bind (.keepsThawed trivial) fun _ => .ret fun v hv => hv

theorem exitCutover_triple : Triple sys .exitCutover (fun v => v.Settled sys ∧ v.down = false)
    (exitCutover sys.windows) fun _ v => v.Settled sys := by
  refine .of_eq fun v₀ ⟨h, hup⟩ => ?_
  refine .bind (.quiet trivial fun v hv => hv ▸ h.ready _ _) fun previous => ?_
  refine .bind (fsFrozen_triple fun op => h.ready _ op) fun frozen => ?_
  have hrestart : Triple sys .exitCutover (·.frozen = false)
      (do return Except.ok (← restart previous) : Task (Except String CutoverState))
      fun _ v => v.Settled sys :=
    .bind (restart_triple previous) fun state => .ret fun v hv => View.settled_of_thawed hv
  cases frozen with
  | true =>
    refine .bind ((thawFilesystems_triple (h.ready _ _)).mono (fun v hv => hv.1) fun _ _ => id)
      fun result => ?_
    cases result with
    | error e =>
      refine .ret fun v hv => ?_
      obtain hv | ⟨-, rfl, -⟩ := hv
      · exact View.settled_of_thawed hv
      · exact h
    | ok value =>
      refine hrestart.mono (fun v hv => hv.resolve_right ?_) fun _ _ => id
      rintro ⟨⟨e, he⟩, -⟩
      cases he
  | false =>
    refine hrestart.mono ?_ fun _ _ => id
    rintro v ⟨rfl, hflags⟩
    cases hfrozen : v.frozen with
    | false => rfl
    | true =>
      have hflagged := h.flagged hup hfrozen
      rw [Bool.or_comm, ← hflags] at hflagged
      cases hflagged

theorem thaw_and_clear_triple (h : v₀.Ready sys call (.fsfreeze true))
    (hsucceeds : ∀ outcome, Succeeds outcome call (.fsfreeze true) → outcome.failed = false) :
    Triple sys call (· = v₀)
      (do
        let _ ← thawFilesystems sys.windows
        let _ ← clearMarkerFrozen
        return ()) fun _ v => v.frozen = false := by
  refine .bind (thawFilesystems_triple h) fun result => ?_
  refine .bind (clearMarkerFrozen_triple.mono (fun v hv => hv.resolve_right ?_) fun _ _ => id)
    fun _ => .ret fun v hv => hv
  rintro ⟨-, -, outcome, hs, hfailed⟩
  rw [hsucceeds outcome hs] at hfailed
  cases hfailed

theorem cutoverWatchdog_triple {due : ℕ} : Triple sys (.cutoverWatchdog no due)
    (View.Settled sys) (cutoverWatchdog sys.windows due) fun _ v => v.Settled sys := by
  refine .bind (Q := fun _ v => v.Settled sys) ?_ fun _ => .of_eq fun v₀ h => ?_
  · -- Whatever happens while the watchdog sleeps, it wakes up in a settled state.
    intro s hs s1 halone
    have hs1 := halone.1 trivial hs
    refine ⟨⟨fun _ => hs1, fun h => absurd trivial h⟩, fun outcome value s2 _ hexec => ?_⟩
    obtain ⟨-, -, rfl⟩ := exec_eq_some_iff.mp hexec
    exact hs1
  · refine .bind (fsFrozen_triple fun op => h.ready _ op) fun frozen => ?_
    cases frozen with
    | true =>
      exact (thaw_and_clear_triple (h.ready _ _) fun _ => id).mono (fun v hv => hv.1)
        fun _ v hv => View.settled_of_thawed hv
    | false => exact .ret fun v hv => hv.1 ▸ h

theorem recoverCutoverState_triple : Triple sys .recoverCutoverState
    (fun v => v.Ready sys .recoverCutoverState .readMarker) (recoverCutoverState sys.windows)
    fun _ v => v.frozen = false := by
  refine .of_eq fun v₀ h => ?_
  refine .bind (Q := fun marker v => v = v₀ ∧ marker = v₀.marker)
    (.perform id (fun v hv => hv ▸ h) fun s outcome hs hsucceeds => ⟨hs, ?_⟩) fun marker => ?_
  · change (if outcome.failed then none else s.marker) = v₀.marker
    rw [show outcome.failed = false from hsucceeds, ← hs]
    rfl
  · have hthawed : saysFrozen marker = false → ∀ v, v = v₀ ∧ marker = v₀.marker →
        v.frozen = false := by
      rintro hsays v ⟨rfl, rfl⟩
      cases hfrozen : v.frozen with
      | false => rfl
      | true => rw [h.saved id hfrozen] at hsays; cases hsays
    cases marker with
    | none => exact .ret (hthawed rfl)
    | some state =>
      cases hstate : state.frozen with
      | true =>
        dsimp only
        rw [hstate, if_pos rfl]
        exact (thaw_and_clear_triple ⟨h.saved, h.linux⟩ fun _ => id).mono (fun v hv => hv.1)
          fun _ _ => id
      | false =>
        dsimp only
        rw [hstate, if_neg (by simp)]
        exact .ret (hthawed hstate)

end Calls

section Runs

variable {sys : System}

def Ended (sys : System) (call : Call) (_ : Answer) (s : Shared) : Prop :=
  Settled sys s ∧ (call = .recoverCutoverState → s.frozen = false)

def Begins (sys : System) : Call → View → Prop
  | .enterCutover _ params, v =>
    v.Settled sys ∧ v.down = false ∧ (v.frozen = true → params.freeze = true)
  | .exitCutover, v => v.Settled sys ∧ v.down = false
  | .recoverCutoverState, v => v.Ready sys .recoverCutoverState .readMarker
  | .cutoverWatchdog .., v => v.Settled sys
  | .prepare .., _ | .complete, _ | .snapshotWatchdog .., _ => False

theorem program_triple (call : Call) : Triple sys call (Begins sys call)
    (program sys.windows call) fun _ v =>
      v.Settled sys ∧ (call = .recoverCutoverState → v.frozen = false) := by
  cases call with
  | enterCutover no params =>
    exact enterCutover_triple.bind fun result => .ret fun v hv => ⟨hv, nofun⟩
  | exitCutover => exact exitCutover_triple.bind fun result => .ret fun v hv => ⟨hv, nofun⟩
  | recoverCutoverState =>
    refine recoverCutoverState_triple.bind fun _ => .ret fun v hv => ?_
    exact ⟨View.settled_of_thawed hv, fun _ => hv⟩
  | cutoverWatchdog no due =>
    exact cutoverWatchdog_triple.bind fun _ => .ret fun v hv => ⟨hv, nofun⟩
  | prepare no secs => exact fun s hs => hs.elim
  | complete => exact fun s hs => hs.elim
  | snapshotWatchdog no id due => exact fun s hs => hs.elim

theorem begins_of_arrive {c : Config} {call : Call} {s : Shared} (hmay : MayBegin c call)
    (harrive : arrive call c.shared = some s) (h : Settled sys c.shared) :
    Begins sys call s.view := by
  cases call with
  | enterCutover no params =>
    obtain ⟨hcond, heq⟩ := ite_none_right_eq_some.mp harrive
    cases heq
    rw [Bool.and_eq_true, Bool.not_eq_true'] at hcond
    exact ⟨h, hcond.1, hmay.2⟩
  | exitCutover =>
    obtain ⟨hcond, heq⟩ := ite_none_left_eq_some.mp harrive
    cases heq
    exact ⟨h, Bool.eq_false_iff.mpr hcond⟩
  | recoverCutoverState =>
    obtain ⟨-, heq⟩ := ite_none_right_eq_some.mp harrive
    cases heq
    exact ⟨fun _ => h.saved, h.linux⟩
  | cutoverWatchdog no due =>
    obtain ⟨-, heq⟩ := ite_none_right_eq_some.mp harrive
    cases heq
    exact h
  | prepare no secs => exact hmay.elim
  | complete => exact hmay.elim
  | snapshotWatchdog no id due => exact hmay.elim

theorem careful_serial : Serial (agent sys) Pauses (Settled sys) Agree (Ready sys) Met (Ended sys)
    Careful where
  refl s := rfl
  trans s1 s2 s3 h h' := Eq.trans h' h
  pass s duration := rfl
  kept s s' h hs := by
    unfold Settled
    rw [show s'.view = s.view from h]
    exact hs
  leaves call value s h := h.1
  alone c t outcome hallowed t' ht hinside := hallowed.1 t' hinside.lt_length ht hinside
  meets c t outcome call op next hallowed hthread := by
    have h := hallowed.2
    rw [hthread] at h
    exact h
  started c call shared hmay harrive hunderway := by
    refine ⟨fun t hinside => ?_, fun h => program_triple call shared ?_⟩
    · cases call with
      | enterCutover no params => exact hmay.1 t hinside.lt_length hinside
      | exitCutover => exact hmay t hinside.lt_length hinside
      | recoverCutoverState => exact hmay t hinside.lt_length hinside
      | cutoverWatchdog no due =>
        obtain ⟨op, next, heq, hnot⟩ := hunderway
        cases heq
        exact hnot trivial
      | _ => exact hmay.elim
    · exact begins_of_arrive hmay harrive h
  waiting c call shared hmay harrive hnot := by
    cases call with
    | recoverCutoverState => exact absurd ⟨.readMarker, _, rfl, id⟩ hnot
    | enterCutover no params =>
      obtain ⟨-, heq⟩ := ite_none_right_eq_some.mp harrive
      cases heq
      exact ⟨rfl, { down := false }, program_triple _ _
        ⟨View.settled_of_thawed rfl, rfl, nofun⟩⟩
    | exitCutover =>
      obtain ⟨-, heq⟩ := ite_none_left_eq_some.mp harrive
      cases heq
      exact ⟨rfl, { down := false }, program_triple _ _ ⟨View.settled_of_thawed rfl, rfl⟩⟩
    | cutoverWatchdog no due =>
      obtain ⟨-, heq⟩ := ite_none_right_eq_some.mp harrive
      cases heq
      exact ⟨rfl, {}, program_triple _ _ (View.settled_of_thawed rfl)⟩
    | _ => exact hmay.elim
  crash c hallowed h := by
    have hsaved : c.shared.frozen = true → saysFrozen c.shared.marker = true := by
      obtain h | ⟨t, call, op, next, hthread, -, h⟩ := h
      · exact h.saved
      · intro hfrozen
        have hat := hallowed hfrozen t (List.getElem?_eq_some_iff.mp hthread).1
        rw [hthread] at hat
        exact h.saved hat hfrozen
    have hlinux : sys.windows = true → c.shared.frozen = false := by
      obtain h | ⟨t, call, op, next, -, -, h⟩ := h
      · exact h.linux
      · exact h.linux
    exact ⟨hsaved, nofun, hlinux⟩

section

variable {marker : Option CutoverState} {entries : List Entry} {c : Config}
  (h : Run (agent sys) Careful (initial marker) entries c)
include h

theorem careful_inv :
    SerialInv (agent sys) Pauses (Settled sys) Agree (Ready sys) Met (Ended sys) c :=
  careful_serial.run (.of_no_threads rfl (View.settled_of_thawed rfl)) h

/-- In careful runs, wherever the agent may crash the marker says so if the filesystems are frozen,
and once a recovery is over they are not. -/
theorem marked_and_recovered :
    (Careful c .crash → c.shared.frozen = true → saysFrozen c.shared.marker = true) ∧
      ∀ t outcome c', Careful c (.act t outcome) →
        (agent sys).step c (.act t outcome) = some c' →
        finished (c'.thread t) = some .recoverCutoverState → c'.shared.frozen = false := by
  have hinv := careful_inv h
  constructor
  · intro hcrash
    exact (careful_serial.crash c hcrash (careful_serial.between_or_before hinv)).saved
  · intro t outcome c' hallowed hstep hfinished
    obtain ⟨answer, hthread⟩ := finished_eq_some hfinished
    exact (careful_serial.finished hinv hallowed (steps_of_step hstep) hthread).2 rfl

end

end Runs

def frozenCutover : List Event :=
  [.start .recoverCutoverState, .act 0 {}, .start (.enterCutover 0 { freeze := true })] ++
    List.replicate 8 (.act 1 {})

theorem crash_recovered :
    (∃ entries c, Run (agent {}) Careful (initial none) entries c ∧
      (Careful c .crash ∧ c.shared.frozen = true) ∧ saysFrozen c.shared.marker = true) ∧
    ∃ entries c c', Run (agent {}) Careful (initial none) entries c ∧
      (agent {}).step c (.act 0 {}) = some c' ∧
      finished (c'.thread 0) = some .recoverCutoverState ∧ c'.shared.frozen = false := by
  constructor
  · exact (Run.exists_of_follow frozenCutover (by decide +kernel)).imp fun _ => .imp fun _ h =>
      ⟨h.1, h.2, (marked_and_recovered h.1).1 h.2.1 h.2.2⟩
  · have hrun : ∃ entries c, Run (agent {}) Careful (initial none) entries c ∧
        (Careful c (.act 0 {}) ∧ ((agent {}).step c (.act 0 {})).map (fun c' =>
          finished (c'.thread 0)) = some (some .recoverCutoverState)) :=
      Run.exists_of_follow (frozenCutover ++ [.crash, .start .recoverCutoverState] ++
        List.replicate 5 (.act 0 {})) (by decide +kernel)
    obtain ⟨entries, c, h, hallowed, hmap⟩ := hrun
    obtain ⟨c', hstep, hfinished⟩ := map_eq_some_iff.mp hmap
    exact ⟨entries, c, c', h, hstep, hfinished,
      (marked_and_recovered h).2 0 {} c' hallowed hstep hfinished⟩

/-- The agent crashes after the freeze of a cutover and before it has written the marker; its next
recovery leaves the filesystems frozen. -/
theorem crash_before_marker : ∃ entries c,
    Run (agent {}) (fun _ _ => True) (initial none) entries c ∧
      (finished (c.thread 0) = some .recoverCutoverState ∧ c.shared.frozen = true ∧
        saysFrozen c.shared.marker = false) :=
  Run.exists_of_follow
    [.start .recoverCutoverState, .act 0 {}, .start (.enterCutover 0 { freeze := true }), .act 1 {},
      .crash, .start .recoverCutoverState, .act 0 {}] (by decide +kernel)

end Guestkit.Freeze
