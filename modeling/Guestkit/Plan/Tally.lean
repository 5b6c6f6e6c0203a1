import Guestkit.Lib.Hoare
import Guestkit.Plan.Execution

/-! How the counts of an `ApplyResult` of the live executor agree with its outcomes.  The counts are
kept by the loop, and an automatic rollback relabels the outcomes afterwards. -/

namespace Guestkit.Plan

open Lib Lib.Fs LivePlanExecutor List

def tally (statuses : List OpStatus) (outcomes : List OperationOutcome) : Nat :=
  outcomes.countP fun o => o.status ∈ statuses

namespace LivePlanExecutor

variable {ε : Type}
variable {p : Progress}
variable {outcomes : List OperationOutcome}

structure Tallied (p : Progress) : Prop where
  applied : p.applied = tally [.applied, .rolledBack] p.outcomes
  failed : p.failed = tally [.failed] p.outcomes
  skipped : p.skipped = tally [.skipped, .notReached, .dryRun] p.outcomes

theorem Stepped.tallied {failFast : Bool} {op : Operation} {p p' : Progress}
    (hstep : Stepped failFast op p p') (h : Tallied p) : Tallied p' := by
  obtain ⟨happlied, hfailed, hskipped⟩ := h
  unfold tally at happlied hfailed hskipped
  cases hstep <;> constructor <;> simp [tally, countP_append, *]

theorem applyAll_tallied (self : LivePlanExecutor) (host : Host ε) (dir : Path)
    (ops : List Operation) (s : Machine ε) (h : Tallied p) :
    Tallied (self.applyAll host dir ops p s).1 := by
  induction ops generalizing p s with
  | nil => exact h
  | cons op ops ih =>
    rw [applyAll]
    exact ih _ ((self.applyStep_stepped host dir op p s).tallied h)

theorem tally_markRolledBack {statuses : List OpStatus}
    (h : OpStatus.applied ∈ statuses ↔ OpStatus.rolledBack ∈ statuses)
    (outcomes : List OperationOutcome) :
    tally statuses (outcomes.map markRolledBack) = tally statuses outcomes := by
  unfold tally
  rw [countP_map]
  congr 1
  funext o
  unfold markRolledBack
  by_cases ho : o.status = .applied <;> simp [ho, h]

theorem previewAll_status (self : LivePlanExecutor) (host : Host ε) (ops : List Operation)
    (s : Machine ε) : ∀ o ∈ (self.previewAll host ops s).1, o.status = .dryRun := by
  induction ops generalizing s with
  | nil => simp [previewAll]
  | cons op ops ih =>
    intro o ho
    rw [previewAll] at ho
    rcases mem_cons.mp ho with rfl | ho
    · rfl
    · exact ih _ o ho

def StopsAtFailure (outcomes : List OperationOutcome) : Prop :=
  outcomes.Pairwise fun d o => d.status = .failed → o.status = .notReached

theorem Unstopped.stopsAtFailure (h : Unstopped true p) :
    StopsAtFailure p.outcomes := by
  refine h.before.imp fun {d o} hpassed hfailed => ?_
  by_contra hreached
  have := hpassed hreached
  simp [PassedOver, hfailed] at this

theorem StopsAtFailure.markRolledBack (h : StopsAtFailure outcomes) :
    StopsAtFailure (outcomes.map markRolledBack) := by
  unfold StopsAtFailure at h ⊢
  rw [pairwise_map]
  refine h.imp fun {d o} hstop => ?_
  unfold LivePlanExecutor.markRolledBack
  intro hfailed
  have hd : d.status = .failed := by
    by_cases happlied : d.status = .applied
    · simp [happlied] at hfailed
    · rwa [if_neg happlied] at hfailed
  simp [hstop hd]

def RollsBack (self : LivePlanExecutor) (host : Host ε) (order : HashOrder String Nat)
    (plan : FixPlan) (s : Machine ε) : Prop :=
  self.dryRun = false ∧ self.autoRollback = true ∧
    ∃ s₁, onFiles (createDirAll (self.rollbackDir plan)) s = .ok () s₁ ∧
      ∃ p s₂, self.applyAll host (self.rollbackDir plan) (topologicalSort order plan) {} s₁ =
          (p, s₂) ∧
        0 < p.failed ∧ ∃ report s₃, self.rollback host (planIdFor plan) s₂ = .ok report s₃

theorem rollbackFailed_of_ok {self : LivePlanExecutor} {host : Host ε} {plan : FixPlan}
    {s s' : Machine ε} {report : String} (hfailed : 0 < p.failed) (hauto : self.autoRollback = true)
    (h : self.rollback host (planIdFor plan) s = .ok report s') :
    self.rollbackFailed host plan p s = .ok true s' := by
  rw [rollbackFailed, if_pos ⟨hfailed, hauto⟩]
  exact tryCatch_of_ok (bind_of_ok h)

/-- A result that tells what its outcomes tell.  An operation that was rolled back counts as
applied. -/
structure Consistent (failFast : Bool) (r : ApplyResult) : Prop where
  applied : r.operationsApplied = tally [.applied, .rolledBack] r.outcomes
  failed : r.operationsFailed = tally [.failed] r.outcomes
  skipped : r.operationsSkipped = tally [.skipped, .notReached, .dryRun] r.outcomes
  success : r.success = true ↔ ∀ o ∈ r.outcomes, o.status ≠ .failed
  stops : failFast = true → StopsAtFailure r.outcomes

theorem dryRunResult_consistent (failFast : Bool) (h : ∀ o ∈ outcomes, o.status = .dryRun) :
    Consistent failFast (dryRunResult outcomes outcomes.length) where
  applied := by
    refine (countP_eq_zero.mpr fun o ho => ?_).symm
    simp [h o ho]
  failed := by
    refine (countP_eq_zero.mpr fun o ho => ?_).symm
    simp [h o ho]
  skipped := by
    refine (countP_eq_length.mpr fun o ho => ?_).symm
    simp [h o ho]
  success := by
    refine ⟨fun _ o ho => ?_, fun _ => rfl⟩
    simp [h o ho]
  stops _ := by
    refine pairwise_of_forall_mem_list fun d hd o _ hfailed => ?_
    simp [h d hd] at hfailed

theorem liveResult_consistent (host : Host ε) (dir : Path) {failFast : Bool} (rolledBack : Bool)
    (htallied : Tallied p) (hstop : Unstopped failFast p) :
    Consistent failFast (liveResult host dir p rolledBack) := by
  have hsuccess : p.failed = 0 ↔ ∀ o ∈ p.outcomes, o.status ≠ .failed := by
    rw [htallied.failed, tally, countP_eq_zero]
    simp
  have hrelabelled : ∀ o : OperationOutcome,
      (markRolledBack o).status = .failed ↔ o.status = .failed := by
    intro o
    unfold markRolledBack
    by_cases ho : o.status = .applied <;> simp [ho]
  cases rolledBack with
  | false =>
    exact ⟨htallied.applied, htallied.failed, htallied.skipped,
      by simpa [liveResult] using hsuccess, fun hfast => (hfast ▸ hstop).stopsAtFailure⟩
  | true =>
    refine ⟨?_, ?_, ?_, ?_, fun hfast => (hfast ▸ hstop).stopsAtFailure.markRolledBack⟩
    · exact htallied.applied.trans (tally_markRolledBack (by simp) _).symm
    · exact htallied.failed.trans (tally_markRolledBack (by simp) _).symm
    · exact htallied.skipped.trans (tally_markRolledBack (by simp) _).symm
    · simpa [liveResult, hrelabelled] using hsuccess

/-- Every result is consistent with its outcomes, and after a successful rollback none of them is
left as applied. -/
theorem apply_consistent {self : LivePlanExecutor} {host : Host ε} {order : HashOrder String Nat}
    {plan : FixPlan} {s s' : Machine ε} {r : ApplyResult}
    (h : self.apply host order plan s = .ok r s') :
    Consistent self.failFast r ∧
      (self.RollsBack host order plan s → ∀ o ∈ r.outcomes, o.status ≠ .applied) := by
  unfold apply at h
  by_cases hdry : self.dryRun = true
  · rw [if_pos hdry] at h
    obtain ⟨outcomes, s₁, hpreview, h₁⟩ := bind_eq_ok h
    rw [modifyGet_eq] at hpreview
    cases hpreview
    cases h₁
    have hlength : (self.previewAll host (topologicalSort order plan) s).1.length =
        (topologicalSort order plan).length := by
      simpa using congrArg List.length (self.previewAll_opIds host (topologicalSort order plan) s)
    constructor
    · rw [← hlength]
      exact dryRunResult_consistent _ (self.previewAll_status host _ s)
    · intro hback
      rw [hback.1] at hdry
      contradiction
  · rw [if_neg hdry] at h
    obtain ⟨_, s₁, hdir, h₁⟩ := bind_eq_ok h
    obtain ⟨p, s₂, hloop, h₂⟩ := bind_eq_ok h₁
    rw [modifyGet_eq] at hloop
    cases hloop
    constructor
    · obtain ⟨rolledBack, rfl⟩ := finish_result h₂
      exact liveResult_consistent host _ rolledBack
        (self.applyAll_tallied host _ _ s₁ ⟨rfl, rfl, rfl⟩)
        (self.applyAll_unstopped host _ _ s₁ (unstopped_start self.failFast))
    · rintro ⟨-, hauto, s₁', hdir', p, s₂, hrun, hfailed, report, s₃, hback⟩ o ho
      obtain rfl : s₁' = s₁ := by
        rw [tryCatch_of_ok hdir'] at hdir
        cases hdir
        rfl
      rw [hrun] at h₂
      unfold finish at h₂
      rw [bind_of_ok (rollbackFailed_of_ok hfailed hauto hback)] at h₂
      obtain ⟨-, s₄, -, h₃⟩ := bind_eq_ok h₂
      cases h₃
      obtain ⟨o', -, rfl⟩ := mem_map.mp ho
      unfold markRolledBack
      by_cases happlied : o'.status = .applied <;> simp [happlied]

end LivePlanExecutor

def restoringExecutor : LivePlanExecutor := { new false with autoRollback := true }

theorem dependentPlan_applied_counted_after_rollback :
    Returns (fun r _ => r.operationsApplied = 1 ∧ tally [.applied] r.outcomes = 0)
      (restoringExecutor.apply (exitHost 7) .newestFirst dependentPlan ⟨(), .empty⟩) := by
  decide +kernel

theorem dependentPlan_consistent :
    ∃ r s', restoringExecutor.apply (exitHost 7) .newestFirst dependentPlan ⟨(), .empty⟩ =
        .ok r s' ∧
      Consistent restoringExecutor.failFast r ∧
      ∀ o ∈ r.outcomes, o.status ≠ .applied := by
  have hback : restoringExecutor.RollsBack (exitHost 7) .newestFirst dependentPlan
      ⟨(), .empty⟩ :=
    ⟨rfl, rfl, _, rfl, _, _, rfl, by decide +kernel, _, _, rfl⟩
  have hreturns : Returns (fun r _ => r.success = false)
      (restoringExecutor.apply (exitHost 7) .newestFirst dependentPlan ⟨(), .empty⟩) := by
    decide +kernel
  obtain ⟨r, s', h, -⟩ := hreturns.exists
  have hconsistent := apply_consistent h
  exact ⟨r, s', h, hconsistent.1, hconsistent.2 hback⟩

end Guestkit.Plan
