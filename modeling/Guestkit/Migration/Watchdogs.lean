import Guestkit.Agent.Snapshot

/-! Which freezes the watchdogs of cutovers thaw.  A watchdog is never cancelled, and when it wakes
up it only looks whether the filesystems are frozen, not for which call.  So it thaws a freeze
before its time unless that freeze leaves enough time to every watchdog that is still pending. -/

namespace Guestkit.Freeze

open Lib Machine Option

/-- On Windows, a shadow copy takes the place of the freeze. -/
def Op.freezes : Op → Bool
  | fsfreeze thaw => !thaw
  | createMarkerShadow _ => true
  | _ => false

def Op.thaws : Op → Bool
  | fsfreeze thaw => thaw
  | deleteMarkerShadow _ => true
  | _ => false

def freezeDelay : Call → Option ℕ
  | .enterCutover _ params => some (watchdogDelay params.watchdogSecs * second)
  | .prepare _ secs => some (watchdogDelay secs * second)
  | _ => none

/-- The call that does an operation of some kind with success. -/
def doing (kind : Op → Bool) (entry : Entry) : Option Call :=
  match entry.event with
  | .act t outcome =>
    match entry.before.thread t with
    | some (call, .call op _) => if kind op && !outcome.failed then some call else none
    | _ => none
  | _ => none

def freezing (entry : Entry) : Option (Call × ℕ) :=
  (doing Op.freezes entry).bind fun call =>
    (freezeDelay call).map fun delay => (call, entry.before.shared.now + delay)

def thawing (entry : Entry) : Option Call := doing Op.thaws entry

def Armed (call : Call) (no : ℕ) : Prop := ∃ params, call = .enterCutover no params

/-- No watchdog of a cutover thaws a freeze that it was not armed for before that freeze is due to
be thawed.  The freeze that is thawed is the last one that was established. -/
def ThawsOwn (entries : List Entry) : Prop :=
  ∀ (i j : ℕ) freeze thaw call time no due, i < j → entries[i]? = some freeze →
    entries[j]? = some thaw → freezing freeze = some (call, time) →
    (∀ k entry, i < k → k < j → entries[k]? = some entry → freezing entry = none) →
    thawing thaw = some (.cutoverWatchdog no due) → ¬ Armed call no →
    time ≤ thaw.before.shared.now

/-- The operations of a cutover between its freeze and the arming of its watchdog. -/
def Arming (call : Call) (op : Op) : Prop :=
  match call, op with
  | .enterCutover .., .setShadowId _ | .enterCutover .., .setFsFrozen _
  | .enterCutover .., .setHint _ | .enterCutover .., .armWatchdog .. => True
  | .enterCutover .., .utcNow secs => secs ≠ 0
  | _, _ => False

instance (call : Call) (op : Op) : Decidable (Arming call op) := by
  induction call using Call.casesOn <;> induction op using Op.casesOn <;> unfold Arming <;>
    infer_instance

def NotDueBefore (time : ℕ) : Call → Prop
  | .cutoverWatchdog _ due => time ≤ due
  | _ => True

instance (time : ℕ) (call : Call) : Decidable (NotDueBefore time call) := by
  induction call using Call.casesOn <;> unfold NotDueBefore <;> infer_instance

/-- Where a freeze is established, no watchdog of an earlier cutover is due before its own, and no
other cutover has yet to arm the watchdog for its freeze. -/
def Spaced (c : Config) (e : Event) : Prop :=
  match freezing ⟨c, e⟩ with
  | none => True
  | some (_, time) => (∀ call ∈ pending c, NotDueBefore time call) ∧
    ∀ thread ∈ c.threads, AtNext (fun call op => ¬ Arming call op) (some thread)

instance (c : Config) (e : Event) : Decidable (Spaced c e) := by
  unfold Spaced
  split <;> infer_instance

def Froze : (op : Op) → op.Reply → Prop
  | .fsfreeze false, result => ∃ value, result = .ok value
  | .createMarkerShadow _, result => ∃ value, result = .ok value
  | _, _ => False

/-- No watchdog of a cutover is armed before a freeze is established. -/
def Armless {α : Type} : Task α → Prop
  | .ret _ => True
  | .call op next => (∀ no secs, op ≠ .armWatchdog no secs) ∧
    ∀ reply, Froze op reply ∨ Armless (next reply)

/-- Wherever the program stands, it is arming a watchdog or has yet to freeze before that. -/
def Ordered (call : Call) {α : Type} : Task α → Prop
  | .ret _ => True
  | .call op next => (Arming call op ∨ Armless (.call op next)) ∧
    ∀ reply, Ordered call (next reply)

def NeverArms (op : Op) : Prop := ∀ no secs, op ≠ .armWatchdog no secs

section Programs

variable {call : Call} {α β : Type}
variable {task : Task α} {stopped : List String}

theorem armless_of_every (h : task.Every NeverArms) : Armless task := by
  induction task with
  | ret value => trivial
  | call op next ih => exact ⟨h.1, fun reply => .inr (ih reply (h.2 reply))⟩

theorem ordered_of_every (h : task.Every NeverArms) : Ordered call task := by
  induction task with
  | ret value => trivial
  | call op next ih => exact ⟨.inr (armless_of_every h), fun reply => ih reply (h.2 reply)⟩

theorem Armless.bind_of_every {f : α → Task β} (h : task.Every NeverArms)
    (hf : ∀ value, Armless (f value)) : Armless (task >>= f) := by
  induction task with
  | ret value => exact hf value
  | call op next ih => exact ⟨h.1, fun reply => .inr (ih reply (h.2 reply))⟩

theorem Ordered.bind_of_every {f : α → Task β} (h : task.Every NeverArms)
    (harmless : ∀ value, Armless (f value)) (hf : ∀ value, Ordered call (f value)) :
    Ordered call (task >>= f) := by
  induction task with
  | ret value => exact hf value
  | call op next ih =>
    exact ⟨.inr (Armless.bind_of_every h harmless), fun reply => ih reply (h.2 reply)⟩

theorem Armless.map (f : α → β) (h : Armless task) :
    Armless (task >>= fun value => pure (f value)) := by
  induction task with
  | ret value => trivial
  | call op next ih => exact ⟨h.1, fun reply => (h.2 reply).imp id (ih reply)⟩

theorem Ordered.map (f : α → β) (h : Ordered call task) :
    Ordered call (task >>= fun value => pure (f value)) := by
  induction task with
  | ret value => trivial
  | call op next ih => exact ⟨h.1.imp id (Armless.map f), fun reply => ih reply (h.2 reply)⟩

theorem neverArms_of_belongs (h : task.Every (Belongs .exitCutover)) :
    task.Every NeverArms := by
  refine h.imp fun op hop no secs heq => ?_
  subst heq
  obtain ⟨params, heq⟩ := hop
  cases heq

theorem delay_ne_zero (secs : Option UInt64) : watchdogDelay secs ≠ 0 := by
  unfold watchdogDelay
  omega

theorem persist_neverArms {frozen : Bool} {deadline : Option String} :
    (persist frozen deadline stopped).Every NeverArms :=
  neverArms_of_belongs persist_belongs

variable {windows : Bool} {no : ℕ} {params : CutoverParams}

theorem freezeAndPersist_armless {secs : ℕ} :
    Armless (freezeAndPersist windows no secs stopped) := by
  cases windows with
  | true =>
    refine ⟨nofun, fun result => ?_⟩
    cases result with
    | error e => exact .inr trivial
    | ok result => exact .inl ⟨result, rfl⟩
  | false =>
    refine ⟨nofun, fun result => ?_⟩
    cases result with
    | error e => exact .inr trivial
    | ok value => exact .inl ⟨value, rfl⟩

theorem freezeAndPersist_ordered {secs : ℕ} (hsecs : secs ≠ 0) :
    Ordered (.enterCutover no params) (freezeAndPersist windows no secs stopped) := by
  -- After the freeze come the flags, the deadline and the watchdog, then the marker.
  have harm : Ordered (.enterCutover no params) (do
      perform (.setFsFrozen true)
      perform (.setHint true)
      let deadline ← perform (.utcNow secs)
      perform (.armWatchdog no secs)
      persist true (some deadline) stopped) :=
    ⟨.inl trivial, fun _ => ⟨.inl trivial, fun _ => ⟨.inl hsecs, fun _ => ⟨.inl trivial, fun _ =>
      ordered_of_every persist_neverArms⟩⟩⟩⟩
  have harmless : Armless (freezeAndPersist windows no secs stopped) := freezeAndPersist_armless
  cases windows with
  | true =>
    refine ⟨.inr harmless, fun result => ?_⟩
    cases result with
    | error e => trivial
    | ok result => exact ⟨.inl trivial, fun _ => harm⟩
  | false =>
    refine ⟨.inr harmless, fun result => ?_⟩
    cases result with
    | error e => trivial
    | ok value => exact harm

theorem enterCutover_armless : Armless (enterCutover windows no params) := by
  refine .bind_of_every (neverArms_of_belongs (controlUnits_belongs _)) fun stopped => ?_
  cases params.freeze with
  | true => exact freezeAndPersist_armless
  | false => exact armless_of_every persist_neverArms

theorem enterCutover_ordered :
    Ordered (.enterCutover no params) (enterCutover windows no params) := by
  refine .bind_of_every (neverArms_of_belongs (controlUnits_belongs _)) (fun stopped => ?_)
    fun stopped => ?_
  · cases params.freeze with
    | true => exact freezeAndPersist_armless
    | false => exact armless_of_every persist_neverArms
  · cases params.freeze with
    | true => exact freezeAndPersist_ordered (delay_ne_zero _)
    | false => exact ordered_of_every persist_neverArms

theorem program_ordered (call : Call) : Ordered call (program windows call) := by
  have hother : (∀ no params, call ≠ .enterCutover no params) →
      Ordered call (program windows call) := by
    intro hcall
    refine ordered_of_every ((program_belongs call).imp fun op hop no secs heq => ?_)
    subst heq
    obtain ⟨params, heq⟩ := hop
    exact hcall no params heq
  cases call with
  | enterCutover no params => exact enterCutover_ordered.map _
  | _ => exact hother nofun

end Programs

section Runs

variable {sys : System} {c c' : Config} {e : Event}
variable {allowed : Config → Event → Prop}

def Slept (c : Config) : Prop :=
  ∀ t no due op next, c.thread t = some (.cutoverWatchdog no due, .call op next) →
    op = .sleepUntil due ∨ due ≤ c.shared.now

theorem now_le_of_step (hstep : Steps (agent sys) c e c') : c.shared.now ≤ c'.shared.now := by
  cases hstep with
  | start call harrive => exact Nat.le_of_eq (congrArg Shared.now (arrived harrive).rest).symm
  | @act t outcome call op next value shared hthread hexec =>
    obtain ⟨-, -, rfl⟩ := exec_eq_some_iff.mp hexec
    change _ ≤ (effect outcome c.shared op).now
    cases op <;> exact Nat.le_refl _
  | pass duration => exact Nat.le_add_right _ _
  | crash => exact Nat.le_refl _

theorem slept_of_step (hstep : Steps (agent sys) c e c') (h : Slept c) : Slept c' := by
  intro t no due op next hthread
  obtain ⟨-, -, hthread'⟩ | ⟨-, hprogram, -⟩ |
      ⟨outcome, op', next', value, -, hthread', -, hexec⟩ :=
    hstep.thread_cases hthread
  · exact (h t no due op next hthread').imp id fun hdue =>
      Nat.le_trans hdue (now_le_of_step hstep)
  · exact .inl (Program.call.inj hprogram).1
  · refine .inr (Nat.le_trans ?_ (now_le_of_step hstep))
    obtain rfl | hdue := h t no due op' next' hthread'
    · have hwaits := (exec_eq_some_iff.mp hexec).1
      exact Nat.le_of_not_lt (of_decide_eq_false hwaits)
    · exact hdue

def Shaped (c : Config) : Prop :=
  ∀ t call program, c.thread t = some (call, program) →
    program.Every (Belongs call) ∧ Ordered call program

theorem ok_iff_not_failed {α : Type} (outcome : Outcome) (value : α) :
    (∃ value', outcome.result value = .ok value') ↔ outcome.failed = false := by
  obtain ⟨hfailed, e, he⟩ | ⟨hfailed, hok⟩ := outcome.result_cases value
  · simp [hfailed, he]
  · simp [hfailed, hok]

theorem froze_iff {outcome : Outcome} {s : Shared} {op : Op} :
    Froze op (reply outcome s op) ↔ op.freezes = true ∧ outcome.failed = false := by
  cases op with
  | fsfreeze thaw =>
    cases thaw with
    | false => exact (ok_iff_not_failed outcome ()).trans (by simp [Op.freezes])
    | true => simp [Froze, Op.freezes]
  | createMarkerShadow volume =>
    exact (ok_iff_not_failed outcome outcome.vss).trans (by simp [Op.freezes])
  | _ => simp [Froze, Op.freezes]

theorem doing_eq_some {kind : Op → Bool} {call : Call} (h : doing kind ⟨c, e⟩ = some call) :
    ∃ t outcome op next, e = .act t outcome ∧ c.thread t = some (call, .call op next) ∧
      kind op = true ∧ outcome.failed = false := by
  unfold doing at h
  cases e with
  | act t outcome =>
    dsimp only at h
    split at h
    · next call' op next hthread =>
      obtain ⟨hcond, heq⟩ := ite_none_right_eq_some.mp h
      cases heq
      rw [Bool.and_eq_true, Bool.not_eq_true'] at hcond
      exact ⟨t, outcome, op, next, rfl, hthread, hcond⟩
    · cases h
  | _ => cases h

theorem doing_act {kind : Op → Bool} {t : ℕ} {outcome : Outcome} {call : Call} {op : Op}
    {next : op.Reply → Task Answer} (hthread : c.thread t = some (call, .call op next))
    (hkind : kind op = true) (hfailed : outcome.failed = false) :
    doing kind ⟨c, .act t outcome⟩ = some call := by
  unfold doing
  dsimp only
  rw [hthread]
  dsimp only
  rw [hkind, hfailed]
  rfl

/-- Since a freeze was established: the watchdogs of other cutovers are due later than its own, and
no other cutover can arm one without a freeze. -/
structure SinceFreeze (mark : Call × ℕ) (c : Config) : Prop where
  later : ∀ no due, .cutoverWatchdog no due ∈ pending c → ¬ Armed mark.1 no → mark.2 ≤ due
  armless : ∀ t no params program, c.thread t = some (.enterCutover no params, program) →
    ¬ Armed mark.1 no → Armless program

theorem SinceFreeze.of_freezing {mark : Call × ℕ} (hstep : Steps (agent sys) c e c')
    (hspaced : Spaced c e) (hshaped : Shaped c) (hmark : freezing ⟨c, e⟩ = some mark) :
    SinceFreeze mark c' := by
  unfold Spaced at hspaced
  rw [hmark] at hspaced
  obtain ⟨call, hdoing, hdelay⟩ := bind_eq_some_iff.mp hmark
  obtain ⟨delay, -, rfl⟩ := map_eq_some_iff.mp hdelay
  obtain ⟨t, outcome, op, next, rfl, hthread, hfreezes, -⟩ := doing_eq_some hdoing
  constructor
  · intro no due hmem hother
    obtain hmem | ⟨t', outcome', armer, op', next', heq, hthread', harm⟩ :=
      mem_pending_of_step hstep hmem trivial
    · exact hspaced.1 _ hmem
    · cases heq
      rw [hthread] at hthread'
      cases hthread'
      obtain ⟨no', secs, rfl, -⟩ | ⟨no', id, secs, rfl, -⟩ := harm
      · cases hfreezes
      · cases hfreezes
  · intro t' no params program hthread' hother
    obtain ⟨-, -, hthread'⟩ | ⟨⟨heq, -⟩, -⟩ | ⟨outcome', op', next', value, heq, hthread', -, -⟩ :=
      hstep.thread_cases hthread'
    · cases program with
      | ret value => trivial
      | call op' next' =>
        have hat := hspaced.2 _ (List.mem_of_getElem? hthread')
        exact (hshaped t' _ _ hthread').2.1.resolve_left hat
    · cases heq
    · cases heq
      rw [hthread] at hthread'
      cases hthread'
      exact absurd ⟨params, rfl⟩ hother

theorem SinceFreeze.kept {mark : Call × ℕ} (hstep : Steps (agent sys) c e c') (hshaped : Shaped c)
    (hnone : freezing ⟨c, e⟩ = none) (h : SinceFreeze mark c) : SinceFreeze mark c' := by
  constructor
  · intro no due hmem hother
    obtain hmem | ⟨t, outcome, armer, op, next, rfl, hthread, harm⟩ :=
      mem_pending_of_step hstep hmem trivial
    · exact h.later no due hmem hother
    · obtain ⟨no', secs, rfl, heq⟩ | ⟨no', id, secs, rfl, heq⟩ := harm
      · cases heq
        obtain ⟨params, rfl⟩ := (hshaped t _ _ hthread).1.1
        exact absurd rfl ((h.armless t no params _ hthread hother).1 no secs)
      · cases heq
  · intro t no params program hthread hother
    obtain ⟨-, -, hthread'⟩ | ⟨-, rfl, -⟩ | ⟨outcome, op, next, value, rfl, hthread', rfl, hexec⟩ :=
      hstep.thread_cases hthread
    · exact h.armless t no params program hthread' hother
    · exact enterCutover_armless.map _
    · refine ((h.armless t no params _ hthread' hother).2 value).resolve_left fun hfroze => ?_
      obtain ⟨-, rfl, -⟩ := exec_eq_some_iff.mp hexec
      obtain ⟨hfreezes, hfailed⟩ := froze_iff.mp hfroze
      unfold freezing at hnone
      rw [doing_act hthread' hfreezes hfailed] at hnone
      cases hnone

variable {marker : Option CutoverState} {entries : List Entry}

theorem shaped_of_run (h : Run (agent sys) allowed (initial marker) entries c) :
    Shaped c := by
  refine h.of_threads (fun call => ⟨program_belongs call, program_ordered call⟩) ?_ rfl
  exact fun call op next value hshaped => ⟨hshaped.1.2 value, hshaped.2.2 value⟩

theorem slept_of_run (h : Run (agent sys) allowed (initial marker) entries c) :
    Slept c :=
  h.invariant (fun t no due op next hthread => by cases hthread) fun _ _ _ _ => slept_of_step

/-- In runs with enough time between freezes, the watchdogs of cutovers thaw only what they were
armed for. -/
theorem thawsOwn_of_spaced
    (h : Run (agent sys) Spaced (initial marker) entries c) : ThawsOwn entries := by
  induction h with
  | start =>
    intro i j freeze thaw call time no due hlt hfreeze
    cases hfreeze
  | @step entries c e c' h hallowed hs ih =>
    intro i j freeze thaw call time no due hlt hfreeze hthaw hmark hlast hthawing hother
    have hj : j < entries.length + 1 := by
      simpa using (List.getElem?_eq_some_iff.mp hthaw).1
    have hi : i < entries.length := by omega
    rw [List.getElem?_append_left hi] at hfreeze
    obtain hj | rfl : j < entries.length ∨ j = entries.length := by omega
    · rw [List.getElem?_append_left hj] at hthaw
      refine ih i j freeze thaw call time no due hlt hfreeze hthaw hmark ?_ hthawing hother
      intro k entry hik hkj hentry
      refine hlast k entry hik hkj ?_
      rwa [List.getElem?_append_left (by omega)]
    · rw [List.getElem?_concat_length] at hthaw
      cases hthaw
      have hsince : SinceFreeze (call, time) c := by
        refine Run.since (fun c e c' mark hallowed hstep =>
          .of_freezing hstep hallowed.1 hallowed.2)
          (fun c e c' mark hallowed hstep => .kept hstep hallowed.2)
          (h.with_invariant fun _ _ => shaped_of_run) hfreeze hmark fun k entry hik hentry => ?_
        have hk := (List.getElem?_eq_some_iff.mp hentry).1
        exact hlast k entry hik hk (by rwa [List.getElem?_append_left hk])
      obtain ⟨t, outcome, op, next, rfl, hthread, hthaws, -⟩ := doing_eq_some hthawing
      have hdue := hsince.later no due (mem_pending_iff.mpr (.inr ⟨t, op, next, hthread⟩)) hother
      obtain rfl | hslept := slept_of_run h t no due op next hthread
      · cases hthaws
      · exact Nat.le_trans hdue hslept

end Runs

/-- The events of a cutover that freezes, on a guest without services to stop, from the given thread
on, and of leaving it in the next thread. -/
def cutoverAndExit (t no : ℕ) : List Event :=
  .start (.enterCutover no { freeze := true }) :: List.replicate 8 (.act t {}) ++
    .start .exitCutover :: List.replicate 6 (.act (t + 1) {})

/-- Two cutovers one after the other; the second is frozen after the watchdog of the first is over,
and its own watchdog thaws it. -/
theorem second_cutover_thawed : ∃ entries c, Run (agent {}) Spaced (initial none) entries c ∧
    (entries.getLast?.bind thawing) = some (.cutoverWatchdog 1 (240 * second)) ∧
      ThawsOwn entries :=
  (Run.exists_of_follow
    ([.start .recoverCutoverState, .act 0 {}] ++ cutoverAndExit 1 0 ++
      [.pass (120 * second), .start (.cutoverWatchdog 0 (120 * second)), .act 3 {}, .act 3 {},
        .act 3 {}, .start (.enterCutover 1 { freeze := true })] ++ List.replicate 8 (.act 4 {}) ++
      [.pass (120 * second), .start (.cutoverWatchdog 1 (240 * second)), .act 5 {}, .act 5 {},
        .act 5 {}]) (by decide +kernel)).imp fun _ =>
    .imp fun _ h => ⟨h.1, h.2, thawsOwn_of_spaced h.1⟩

/-- A cutover is left after it was frozen, and another one freezes after a hundred seconds; the
watchdog of the first thaws it after twenty more. -/
theorem second_cutover_thawed_early : ∃ entries c,
    Run (agent {}) (fun _ _ => True) (initial none) entries c ∧ ¬ ThawsOwn entries := by
  have hrun : ∃ entries c, Run (agent {}) (fun _ _ => True) (initial none) entries c ∧
      ((entries[20]?.bind freezing) = some (.enterCutover 1 { freeze := true }, 220 * second) ∧
        (∀ k < 32, 20 < k → (entries[k]?.bind freezing) = none) ∧
        (entries[32]?.bind thawing) = some (.cutoverWatchdog 0 (120 * second)) ∧
        (entries[32]?.map (·.before.shared.now)) = some (120 * second)) :=
    Run.exists_of_follow
      ([.start .recoverCutoverState, .act 0 {}] ++ cutoverAndExit 1 0 ++
        [.pass (100 * second), .start (.enterCutover 1 { freeze := true })] ++
        List.replicate 8 (.act 3 {}) ++
        [.pass (20 * second), .start (.cutoverWatchdog 0 (120 * second)), .act 4 {}, .act 4 {},
          .act 4 {}]) (by decide +kernel)
  obtain ⟨entries, c, h, hfreezing, hlast, hthawing, hnow⟩ := hrun
  refine ⟨entries, c, h, fun howns => ?_⟩
  obtain ⟨freeze, hfreeze, hmark⟩ := bind_eq_some_iff.mp hfreezing
  obtain ⟨thaw, hthaw, hwatchdog⟩ := bind_eq_some_iff.mp hthawing
  rw [hthaw] at hnow
  have hle := howns 20 32 freeze thaw _ _ 0 _ (by decide) hfreeze hthaw hmark
    (fun k entry hlt hk hentry => by simpa [hentry] using hlast k hk hlt) hwatchdog
    (fun ⟨params, heq⟩ => by cases heq)
  rw [show thaw.before.shared.now = 120 * second from some.inj hnow] at hle
  exact absurd hle (by decide)

end Guestkit.Freeze
