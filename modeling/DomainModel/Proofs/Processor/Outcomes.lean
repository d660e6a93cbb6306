import DomainModel.Proofs.Processor.Run

namespace DomainModel

namespace Processor

def trace (p : Processor) : List Step → List (Step × Outcome)
  | [] => []
  | step :: steps => (step, p.outcome step) :: (p.step step).trace steps

theorem trace_cons (p : Processor) (step : Step) (steps : List Step) :
    p.trace (step :: steps) = (step, p.outcome step) :: (p.step step).trace steps := rfl

theorem snapshot_apply (p : Processor) (change : DocumentChange) (snapshot : Snapshot)
    (applied : (p.apply change).1 = .ok snapshot) : (p.apply change).2.snapshot = some snapshot := by
  unfold apply at applied ⊢
  cases read : change.document with
  | ok document =>
    rw [read] at applied
    cases applied
    rfl
  | error rejection =>
    rw [read] at applied
    cases applied

theorem exists_snapshot_of_isSome (p : Processor) (change : DocumentChange)
    (read : change.document.toOption.isSome) : ∃ snapshot, (p.apply change).1 = .ok snapshot := by
  rw [apply_fst]
  cases known : change.document with
  | ok document => exact ⟨_, rfl⟩
  | error rejection =>
    rw [known] at read
    cases read

theorem step_of_isFailure (p : Processor) (step : Step) (failed : (p.outcome step).isFailure) :
    p.step step = p := by
  rcases outcome_cases p step with ⟨_, _, _, known, _⟩ | ⟨_, _, _, same⟩ | ⟨_, rfl⟩ | rfl
  . rw [known] at failed
    cases failed
  . exact same
  . cases failed
  . cases failed

theorem outcome_of_fails (p : Processor) (step : Step) (failure : Failure)
    (fails : step.Fails failure) : p.outcome step = .applied (.error failure) := by
  cases fails with
  | notification text rejection unread =>
    dsimp only [outcome]
    rw [applyText_fst, unread]
  | document _ change rejection own rejected =>
    rw [(p.outcome_of_change? step change own).1]
    rw [apply_fst, rejected]

theorem outcome_eq_error_iff (p : Processor) (step : Step) (failure : Failure) :
    p.outcome step = .applied (.error failure) ↔ step.Fails failure := by
  constructor
  . intro failed
    rcases outcome_cases p step with
      ⟨_, _, _, known, _⟩ | ⟨reason, fails, known, _⟩ | ⟨event, rfl⟩ | rfl
    . rw [known] at failed
      cases failed
    . rw [known] at failed
      cases failed
      exact fails
    . cases failed
    . cases failed
  . exact outcome_of_fails p step failure

theorem run_trace_kept (p : Processor) (steps : List Step) :
    p.run (((p.trace steps).filter (!·.2.isFailure)).map (·.1)) = p.run steps ∧
    p.trace (((p.trace steps).filter (!·.2.isFailure)).map (·.1)) =
      (p.trace steps).filter (!·.2.isFailure) := by
  induction steps generalizing p with
  | nil => exact ⟨rfl, rfl⟩
  | cons step steps ih =>
    rw [trace_cons, run_cons]
    by_cases failed : (p.outcome step).isFailure
    . rw [List.filter_cons_of_neg (by simp [failed])]
      rw [p.step_of_isFailure step failed]
      exact ih p
    . rw [List.filter_cons_of_pos (by simp [failed])]
      rw [List.map_cons, run_cons, trace_cons]
      rcases ih (p.step step) with ⟨run, trace⟩
      rw [run, trace]
      exact ⟨rfl, rfl⟩

theorem run_without_failures :
    (∀ (p : Processor) (steps : List Step),
      let kept := (p.trace steps).filter (!·.2.isFailure)
      p.run (kept.map (·.1)) = p.run steps ∧ p.trace (kept.map (·.1)) = kept) ∧
    ∀ (p : Processor) (step : Step) (failure : Failure),
      p.outcome step = .applied (.error failure) ↔ step.Fails failure := by
  constructor
  . exact run_trace_kept
  . exact outcome_eq_error_iff

end Processor

end DomainModel
