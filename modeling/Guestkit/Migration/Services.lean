import Guestkit.Agent.Snapshot

/-! The services around cutovers: those that entering stops, and those that leaving starts
again.  What was stopped is known only from the marker, and each cutover that gets to write it
replaces what earlier ones have put there. -/

namespace Guestkit.Freeze

open Lib Machine List

abbrev Log : Type := List (Act Op Outcome)

def controlled (op : String) (log : Log) : List String :=
  log.filterMap fun act =>
    match act.op with
    | .controlUnit op' service =>
      if op' = op ∧ act.outcome.failed = false then some service else none
    | _ => none

def givesUp (act : Act Op Outcome) : Bool :=
  match act.op with
  | .fsfreeze _ | .createMarkerShadow _ | .createStateDir | .writeMarker _ => act.outcome.failed
  | _ => false

def loses (act : Act Op Outcome) : Bool :=
  match act.op with
  | .writeMarker _ => act.outcome.failed && act.outcome.yes
  | _ => false

def recordedAfter (recorded : List String) (log : Log) : List String :=
  if log.any givesUp then (if log.any loses then [] else recorded) else controlled "stop" log

def services (marker : Option CutoverState) : List String :=
  (marker.map (·.stoppedServices)).getD []

/-- Cutovers are entered one after the other.  Before and after each, anything may happen that
leaves the services of the marker as they are. -/
inductive Enters (sys : System) : Shared → List Log → Shared → Prop
  | nil {s s' : Shared} : services s'.marker = services s.marker → Enters sys s [] s'
  | cons {no : ℕ} {params : CutoverParams} {s s₁ s₂ s₃ : Shared} {log : Log} {logs : List Log}
      {result : Except String CutoverState} : services s₁.marker = services s.marker →
      Performs (agent sys) (enterCutover sys.windows no params) s₁ log result s₂ →
      Enters sys s₂ logs s₃ → Enters sys s (log :: logs) s₃

def readsMarker (log : Log) : Bool :=
  log.all fun act => !(act.op = .readMarker && act.outcome.failed)

/-- A start is requested of every service that some cutover has stopped. -/
def StartsStopped (logs : List Log) (log : Log) : Prop :=
  ∀ entered ∈ logs, ∀ service ∈ controlled "stop" entered,
    ∃ outcome, ⟨.controlUnit "start" service, outcome⟩ ∈ log

section Specs

variable {sys : System} {s s' : Shared} {log : Log}
variable {state : CutoverState} {result : Except String CutoverState} {stopped : List String}
  {windows : Bool}

theorem performs_perform {op : Op} {β : Type} {f : op.Reply → Task β} {value : β}
    (h : Performs (agent sys) (perform op >>= f) s log value s') :
    ∃ outcome log', log = ⟨op, outcome⟩ :: log' ∧
      Performs (agent sys) (f (reply outcome s op)) (effect outcome s op) log' value s' := by
  cases h with
  | @call _ _ outcome _ _ _ _ log' _ hexec h =>
    obtain ⟨-, rfl, rfl⟩ := exec_eq_some_iff.mp hexec
    exact ⟨outcome, log', rfl, h⟩

theorem controlUnits_performs {op : String} {units : List String} {result : List String}
    (h : Performs (agent sys) (controlUnits op units) s log result s') :
    s' = s ∧ result = controlled op log ∧ log.map (·.op) = units.map (.controlUnit op) := by
  induction units generalizing s s' log result with
  | nil =>
    cases h
    exact ⟨rfl, rfl, rfl⟩
  | cons service units ih =>
    obtain ⟨outcome, log', rfl, h'⟩ := performs_perform h
    have hreply : reply outcome s (.controlUnit op service) = outcome.result outcome.text := rfl
    obtain ⟨hfailed, e, he⟩ | ⟨hfailed, hok⟩ := outcome.result_cases outcome.text
    · rw [hreply, he] at h'
      obtain ⟨rfl, rfl, hops⟩ := ih h'
      exact ⟨rfl, by simp [controlled, hfailed], by simp [hops]⟩
    · rw [hreply, hok] at h'
      obtain ⟨log1, log2, result1, s₁, rfl, h1, h2⟩ := h'.of_bind
      obtain ⟨rfl, rfl, hops⟩ := ih h1
      cases h2
      exact ⟨rfl, by simp [controlled, hfailed], by simp [hops]⟩

/-- Parts of a log in which no unit is stopped or started. -/
def NoControl (log : Log) : Prop := ∀ act ∈ log, ∀ op service, act.op ≠ .controlUnit op service

theorem controlled_append (op : String) (log log' : Log) :
    controlled op (log ++ log') = controlled op log ++ controlled op log' :=
  filterMap_append

theorem controlled_of_noControl {op : String} (h : NoControl log) : controlled op log = [] := by
  unfold controlled
  rw [filterMap_eq_nil_iff]
  intro act hact
  have hop := h act hact
  cases hact' : act.op with
  | controlUnit op' service => exact absurd hact' (hop op' service)
  | _ => rfl

theorem save_performs (h : Performs (agent sys) (save state) s log result s') :
    NoControl log ∧ services s'.marker = if log.any givesUp then
      (if log.any loses then [] else services s.marker) else state.stoppedServices := by
  obtain ⟨o1, log1, rfl, h1⟩ := performs_perform h
  cases hcreate : reply o1 s .createStateDir with
  | error e =>
    rw [hcreate] at h1
    cases h1
    refine ⟨by simp [NoControl], ?_⟩
    simp [givesUp, loses, Outcome.failed_of_error hcreate, effect]
  | ok value =>
    rw [hcreate] at h1
    have hcreated := Outcome.not_failed_of_ok hcreate
    obtain ⟨o2, log2, rfl, h2⟩ := performs_perform h1
    cases hwrite : reply o2 (effect o1 s .createStateDir) (.writeMarker state) with
    | error e =>
      rw [hwrite] at h2
      cases h2
      refine ⟨by simp [NoControl], ?_⟩
      cases hlost : o2.yes <;>
        simp [givesUp, loses, hcreated, Outcome.failed_of_error hwrite, hlost, effect, services]
    | ok value =>
      rw [hwrite] at h2
      cases h2
      refine ⟨by simp [NoControl], ?_⟩
      simp [givesUp, hcreated, Outcome.not_failed_of_ok hwrite, effect, services]

theorem persist_performs {frozen : Bool} {deadline : Option String}
    (h : Performs (agent sys) (persist frozen deadline stopped) s log result s') :
    NoControl log ∧ services s'.marker =
      if log.any givesUp then (if log.any loses then [] else services s.marker) else stopped := by
  obtain ⟨o, log', rfl, h'⟩ := performs_perform h
  obtain ⟨hcontrol, hservices⟩ := save_performs h'
  refine ⟨forall_mem_cons.mpr ⟨nofun, hcontrol⟩, ?_⟩
  exact hservices

/-- What a part of entering a cutover leaves that does not come to the marker. -/
structure Before (s : Shared) (log : Log) (gaveUp : Bool) (s' : Shared) : Prop where
  control : NoControl log
  marker : s'.marker = s.marker
  loses : log.any loses = false
  givesUp : log.any givesUp = gaveUp

theorem guestFsfreezeFreeze_performs {result : Except String Unit}
    (h : Performs (agent sys) (guestFsfreezeFreeze windows) s log result s') :
    Before s log (!result.toBool) s' := by
  cases windows with
  | true =>
    obtain ⟨o1, log1, rfl, h1⟩ := performs_perform h
    cases hcreate : reply o1 s (.createMarkerShadow "C:") with
    | error e =>
      rw [hcreate] at h1
      cases h1
      exact ⟨by simp [NoControl], rfl, rfl,
        by simp [givesUp, Outcome.failed_of_error hcreate, Except.toBool]⟩
    | ok value =>
      rw [hcreate] at h1
      obtain ⟨o2, log2, rfl, h2⟩ := performs_perform h1
      obtain ⟨o3, log3, rfl, h3⟩ := performs_perform h2
      cases h3
      exact ⟨by simp [NoControl], rfl, rfl,
        by simp [givesUp, Outcome.not_failed_of_ok hcreate, Except.toBool]⟩
  | false =>
    obtain ⟨o1, log1, rfl, h1⟩ := performs_perform h
    cases hfreeze : reply o1 s (.fsfreeze false) with
    | error e =>
      rw [hfreeze] at h1
      cases h1
      exact ⟨by simp [NoControl], rfl, rfl,
        by simp [givesUp, Outcome.failed_of_error hfreeze, Except.toBool]⟩
    | ok value =>
      rw [hfreeze] at h1
      obtain ⟨o2, log2, rfl, h2⟩ := performs_perform h1
      cases h2
      exact ⟨by simp [NoControl], rfl, rfl,
        by simp [givesUp, Outcome.not_failed_of_ok hfreeze, Except.toBool]⟩

theorem Before.append {s₁ : Shared} {log' : Log} {gaveUp gaveUp' : Bool}
    (h : Before s log gaveUp s₁)
    (h' : Before s₁ log' gaveUp' s') : Before s (log ++ log') (gaveUp || gaveUp') s' := by
  refine ⟨?_, h'.marker.trans h.marker, ?_, ?_⟩
  · exact fun act hact => (mem_append.mp hact).elim (h.control act) (h'.control act)
  · rw [any_append, h.loses, h'.loses]
    rfl
  · rw [any_append, h.givesUp, h'.givesUp]

theorem freezeFilesystems_performs {result : Except String String}
    (h : Performs (agent sys) (freezeFilesystems windows) s log result s') :
    Before s log (!result.toBool) s' := by
  obtain ⟨log1, log2, result1, s₁, rfl, h1, h2⟩ := h.of_bind
  have hfreeze := guestFsfreezeFreeze_performs h1
  cases result1 with
  | error e =>
    cases h2
    rw [append_nil]
    exact hfreeze
  | ok value =>
    obtain ⟨o, log', rfl, h'⟩ := performs_perform h2
    cases h'
    exact hfreeze.append ⟨by simp [NoControl], rfl, rfl, rfl⟩

theorem Before.then {s₁ : Shared} {log' : Log} (h : Before s log false s₁)
    (h' : NoControl log' ∧ services s'.marker = if log'.any Freeze.givesUp then
      (if log'.any Freeze.loses then [] else services s₁.marker) else stopped) :
    NoControl (log ++ log') ∧ services s'.marker = if (log ++ log').any Freeze.givesUp then
      (if (log ++ log').any Freeze.loses then [] else services s.marker) else stopped := by
  refine ⟨fun act hact => (mem_append.mp hact).elim (h.control act) (h'.1 act), ?_⟩
  rw [any_append, any_append, h.givesUp, h.loses, ← h.marker, Bool.false_or, Bool.false_or]
  exact h'.2

theorem freezeAndPersist_performs {no secs : ℕ}
    (h : Performs (agent sys) (freezeAndPersist windows no secs stopped) s log result s') :
    NoControl log ∧ services s'.marker =
      if log.any givesUp then (if log.any loses then [] else services s.marker) else stopped := by
  obtain ⟨log1, log2, result1, s₁, rfl, h1, h2⟩ := h.of_bind
  have hfreeze := freezeFilesystems_performs h1
  cases result1 with
  | error e =>
    cases h2
    rw [append_nil, hfreeze.givesUp, hfreeze.loses, hfreeze.marker]
    exact ⟨hfreeze.control, rfl⟩
  | ok value =>
    obtain ⟨o3, log3, rfl, h3⟩ := performs_perform h2
    obtain ⟨o4, log4, rfl, h4⟩ := performs_perform h3
    have harm : Before s₁ [⟨.utcNow secs, o3⟩, ⟨.armWatchdog no secs, o4⟩] false
        (effect o4 (effect o3 s₁ (.utcNow secs)) (.armWatchdog no secs)) :=
      ⟨by simp [NoControl], rfl, rfl, rfl⟩
    exact hfreeze.then (harm.then (persist_performs h4))

theorem enterCutover_performs {no : ℕ} {params : CutoverParams}
    (h : Performs (agent sys) (enterCutover windows no params) s log result s') :
    services s'.marker = recordedAfter (services s.marker) log := by
  obtain ⟨log1, log2, stopped, s₁, rfl, h1, h2⟩ := h.of_bind
  obtain ⟨rfl, rfl, hops⟩ := controlUnits_performs h1
  have hrest : NoControl log2 ∧ services s'.marker = if log2.any givesUp then
      (if log2.any loses then [] else services s₁.marker) else controlled "stop" log1 := by
    cases hasked : params.freeze with
    | true =>
      rw [hasked] at h2
      exact freezeAndPersist_performs h2
    | false =>
      rw [hasked] at h2
      exact persist_performs h2
  have hstops : ∀ act ∈ log1, ∃ service, act.op = .controlUnit "stop" service := by
    intro act hact
    have hop : act.op ∈ params.stopServices.map (.controlUnit "stop") :=
      hops ▸ mem_map_of_mem hact
    obtain ⟨service, -, heq⟩ := mem_map.mp hop
    exact ⟨service, heq.symm⟩
  have hgivesUp : log1.any givesUp = false := by
    refine any_eq_false.mpr fun act hact => ?_
    obtain ⟨service, heq⟩ := hstops act hact
    simp [givesUp, heq]
  have hloses : log1.any loses = false := by
    refine any_eq_false.mpr fun act hact => ?_
    obtain ⟨service, heq⟩ := hstops act hact
    simp [loses, heq]
  unfold recordedAfter
  rw [any_append, any_append, hgivesUp, hloses, controlled_append,
    controlled_of_noControl hrest.1, append_nil, Bool.false_or, Bool.false_or]
  exact hrest.2

theorem restart_performs {previous : Option CutoverState}
    (h : Performs (agent sys) (do return .ok (← restart previous)) s log result s') :
    ∃ starts outcome, log = starts ++ [⟨.removeMarker, outcome⟩] ∧
      starts.map (·.op) = (services previous).map (.controlUnit "start") := by
  obtain ⟨log1, log2, state, s₁, rfl, h1, h2⟩ := h.of_bind
  obtain ⟨starts, log3, restarted, s₂, rfl, h3, h4⟩ := h1.of_bind
  obtain ⟨rfl, -, hops⟩ := controlUnits_performs h3
  obtain ⟨outcome, log4, rfl, h5⟩ := performs_perform h4
  cases h5
  cases h2
  exact ⟨starts, outcome, append_nil _, hops⟩

/-- Leaving a cutover reads the marker, looks whether to thaw, thaws, and starts the services that
the marker lists. -/
theorem exitCutover_performs (h : Performs (agent sys) (exitCutover windows) s log (.ok state) s') :
    ∃ read thaws starts remove, log = ⟨.readMarker, read⟩ :: (thaws ++ (starts ++
        [⟨.removeMarker, remove⟩])) ∧ (∀ act ∈ thaws, FreezeOp act.op) ∧
      starts.map (·.op) = (services (if read.failed then none else s.marker)).map
        (.controlUnit "start") := by
  obtain ⟨read, log1, rfl, h1⟩ := performs_perform h
  obtain ⟨looks, log2, frozen, s₂, rfl, h2, h3⟩ := h1.of_bind
  have hlooks := h2.every fsFrozen_every
  cases frozen with
  | true =>
    obtain ⟨thaws, log3, result, s₃, rfl, h4, h5⟩ := h3.of_bind
    cases result with
    | error e => cases h5
    | ok value =>
      obtain ⟨starts, remove, rfl, hops⟩ := restart_performs h5
      refine ⟨read, looks ++ thaws, starts, remove, by rw [append_assoc], ?_, hops⟩
      exact fun act hact =>
        (mem_append.mp hact).elim (hlooks act) (h4.every thawFilesystems_every act)
  | false =>
    obtain ⟨starts, remove, rfl, hops⟩ := restart_performs h3
    exact ⟨read, looks, starts, remove, rfl, hlooks, hops⟩

theorem readsMarker_cons {read : Outcome} (h : ∀ act ∈ log, act.op ≠ .readMarker) :
    readsMarker (⟨.readMarker, read⟩ :: log) = !read.failed := by
  have hall : readsMarker log = true := all_eq_true.mpr fun act hact => by simp [h act hact]
  change (_ && readsMarker log) = _
  rw [hall]
  simp

theorem exit_starts (h : Performs (agent sys) (exitCutover windows) s log (.ok state) s')
    (service : String) :
    (∃ outcome, ⟨.controlUnit "start" service, outcome⟩ ∈ log) ↔
      readsMarker log = true ∧ service ∈ services s.marker := by
  obtain ⟨read, thaws, starts, remove, rfl, hthaws, hops⟩ := exitCutover_performs h
  have hother : ∀ act ∈ thaws ++ (starts ++ [⟨.removeMarker, remove⟩]), act.op ≠ .readMarker := by
    intro act hact heq
    obtain hact | hact := mem_append.mp hact
    · have hfreeze := hthaws act hact
      rw [heq] at hfreeze
      exact hfreeze
    · obtain hact | hact := mem_append.mp hact
      · have hop := hops ▸ mem_map_of_mem hact
        rw [heq] at hop
        simp at hop
      · rw [mem_singleton.mp hact] at heq
        cases heq
  have hstarts : (∃ outcome, (⟨.controlUnit "start" service, outcome⟩ : Act Op Outcome) ∈
      (⟨.readMarker, read⟩ :: (thaws ++ (starts ++ [⟨.removeMarker, remove⟩])) : Log)) ↔
      Op.controlUnit "start" service ∈ starts.map (·.op) := by
    constructor
    · rintro ⟨outcome, hmem⟩
      obtain heq | hmem := mem_cons.mp hmem
      · cases heq
      obtain hmem | hmem := mem_append.mp hmem
      · exact (hthaws _ hmem).elim
      obtain hmem | hmem := mem_append.mp hmem
      · exact mem_map_of_mem hmem
      · cases mem_singleton.mp hmem
    · intro hmem
      obtain ⟨⟨op, outcome⟩, hmem, rfl⟩ := mem_map.mp hmem
      exact ⟨outcome, mem_cons_of_mem _
        (mem_append_right _ (mem_append_left _ hmem))⟩
  rw [readsMarker_cons hother, hstarts, hops]
  cases read.failed with
  | true => simp [services]
  | false => simp

end Specs

theorem enters_recorded {sys : System} {s s' : Shared} {logs : List Log}
    (h : Enters sys s logs s') :
    services s'.marker = logs.foldl recordedAfter (services s.marker) := by
  induction h with
  | nil heq => exact heq
  | cons heq hperforms h ih => rw [ih, enterCutover_performs hperforms, heq, foldl_cons]

/-- Leaving requests a start of every service that was stopped exactly when the marker can be read
and the last cutover that got to write it had itself stopped them all. -/
theorem exit_starts_iff {sys : System} {s s₁ s₂ : Shared} {logs : List Log} {log : Log}
    {state : CutoverState} (henters : Enters sys s logs s₁)
    (hexit : Performs (agent sys) (exitCutover sys.windows) s₁ log (.ok state) s₂) :
    StartsStopped logs log ↔ ∀ entered ∈ logs, ∀ service ∈ controlled "stop" entered,
      readsMarker log = true ∧ service ∈ logs.foldl recordedAfter (services s.marker) := by
  unfold StartsStopped
  rw [← enters_recorded henters]
  simp only [exit_starts hexit]

def maintained (stoppedServices : List String) : Shared where
  down := false
  marker := some { active := true, enteredAt := some "", frozen := false, watchdogDeadline := none,
                   stoppedServices }

/-- The second of two cutovers stops all services, and leaving it starts them. -/
theorem service_restarted : ∃ logs log state s₂,
    Enters {} (maintained []) logs (maintained ["nginx", "redis"]) ∧
      Performs (agent {}) (exitCutover false) (maintained ["nginx", "redis"]) log (.ok state) s₂ ∧
        logs.flatMap (controlled "stop") = ["nginx", "nginx", "redis"] ∧
          StartsStopped logs log := by
  have hfirst : Performs (agent {}) (enterCutover false 0 { stopServices := ["nginx"] })
      (maintained []) _ _ (maintained ["nginx"]) :=
    .call {} rfl (.call {} rfl (.call {} rfl (.call {} rfl (by exact .ret _ _))))
  have hsecond : Performs (agent {}) (enterCutover false 1 { stopServices := ["nginx", "redis"] })
      (maintained ["nginx"]) _ _ (maintained ["nginx", "redis"]) :=
    .call {} rfl (.call {} rfl (.call {} rfl (.call {} rfl (.call {} rfl (by exact .ret _ _)))))
  have hexit : Performs (agent {}) (exitCutover false) (maintained ["nginx", "redis"]) _ _ _ :=
    .call {} rfl (.call {} rfl (.call {} rfl (.call {} rfl (.call {} rfl (.call {} rfl
      (by exact .ret _ _))))))
  have henters := Enters.cons rfl hfirst (.cons rfl hsecond (.nil rfl))
  exact ⟨_, _, _, _, henters, hexit, by decide, (exit_starts_iff henters hexit).mpr (by decide)⟩

/-- Two cutovers are entered one after the other, and each stops a service; leaving requests a start
of the second only. -/
theorem first_service_forgotten : ∃ logs log state s₂,
    Enters {} (maintained []) logs (maintained ["redis"]) ∧
      Performs (agent {}) (exitCutover false) (maintained ["redis"]) log (.ok state) s₂ ∧
        ¬ StartsStopped logs log := by
  have hfirst : Performs (agent {}) (enterCutover false 0 { stopServices := ["nginx"] })
      (maintained []) _ _ (maintained ["nginx"]) :=
    .call {} rfl (.call {} rfl (.call {} rfl (.call {} rfl (by exact .ret _ _))))
  have hsecond : Performs (agent {}) (enterCutover false 1 { stopServices := ["redis"] })
      (maintained ["nginx"]) _ _ (maintained ["redis"]) :=
    .call {} rfl (.call {} rfl (.call {} rfl (.call {} rfl (by exact .ret _ _))))
  have hexit : Performs (agent {}) (exitCutover false) (maintained ["redis"]) _ _ _ :=
    .call {} rfl (.call {} rfl (.call {} rfl (.call {} rfl (.call {} rfl (by exact .ret _ _)))))
  refine ⟨_, _, _, _, .cons rfl hfirst (.cons rfl hsecond (.nil rfl)), hexit, fun hstarts => ?_⟩
  have hstart := hstarts _ mem_cons_self "nginx" (by decide)
  exact absurd ((exit_starts hexit "nginx").mp hstart).2 (by decide)

end Guestkit.Freeze
