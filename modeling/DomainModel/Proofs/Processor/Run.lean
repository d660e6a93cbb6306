import DomainModel.Processor
import DomainModel.Proofs.Session.History

/-!
Runs of a processor. A notification either is accepted, with the document that it brings, or fails
and changes nothing, so every run takes the session through a history of projections, drag events
and resets.
-/

namespace DomainModel

namespace Processor

inductive Step where
  | applyText (text : String)
  | apply (change : DocumentChange)
  | drag (event : DragEvent)
  | reset

def step (p : Processor) : Step → Processor
  | .applyText text => (p.applyText text).2
  | .apply change => (p.apply change).2
  | .drag event => (p.drag event).2
  | .reset => p.resetSession

def run (p : Processor) (steps : List Step) : Processor := steps.foldl step p

def accept (p : Processor) (change : DocumentChange) (document : Document) : Processor :=
  { p with
    session := (derive p.settings p.session change document).2
    snapshot := some (derive p.settings p.session change document).1 }

namespace Step

def change? : Step → Option DocumentChange
  | .applyText text => (DocumentChange.ofText text).toOption
  | .apply change => some change
  | _ => none

def accepted? (step : Step) : Option (DocumentChange × Document) :=
  step.change?.bind fun change => change.document.toOption.map (change, ·)

def onSession? : Step → Option Session.Step
  | .drag event => some (.drag event)
  | .reset => some .reset
  | step => step.accepted?.map fun (_, document) => .project document document.scope.entities

end Step

def userChange : DocumentChange where
  content := "\x7b\"$type\":\"Domainmodel\",\"elements\":[\x7b\"$type\":\"Entity\",\"name\":\"User\"\x7d]\x7d"

theorem isSome_document_userChange : userChange.document.toOption.isSome := by
  decide +kernel

def history (steps : List Step) : Session.History := (steps.filterMap Step.onSession?).reverse

inductive Outcome where
  | applied (result : Except Failure Snapshot)
  | dragged (recorded : Bool)
  | reset

namespace Outcome

def isAccepted : Outcome → Bool
  | .applied (.ok _) => true
  | _ => false

def isFailure : Outcome → Bool
  | .applied (.error _) => true
  | _ => false

end Outcome

def outcome (p : Processor) : Step → Outcome
  | .applyText text => .applied (p.applyText text).1
  | .apply change => .applied (p.apply change).1
  | .drag event => .dragged (p.drag event).1
  | .reset => .reset

inductive Step.Fails : Step → Failure → Prop where
  | notification (text : String) (rejection : Rejection)
      (unread : DocumentChange.ofText text = .error rejection) :
      Fails (.applyText text) (.notification rejection)
  | document (step : Step) (change : DocumentChange) (rejection : Rejection)
      (own : step.change? = some change) (rejected : change.document = .error rejection) :
      Fails step (.document rejection change.content)

theorem apply_snd (p : Processor) (change : DocumentChange) :
    (p.apply change).2 =
      match change.document.toOption with
      | some document => p.accept change document
      | none => p := by
  unfold apply
  cases change.document with
  | ok document => rfl
  | error rejection => rfl

theorem applyText_snd (p : Processor) (text : String) :
    (p.applyText text).2 =
      match (DocumentChange.ofText text).toOption with
      | some change => (p.apply change).2
      | none => p := by
  unfold applyText
  cases DocumentChange.ofText text with
  | ok change => rfl
  | error rejection => rfl

theorem apply_fst (p : Processor) (change : DocumentChange) :
    (p.apply change).1 =
      match change.document with
      | .ok document => .ok (derive p.settings p.session change document).1
      | .error rejection => .error (.document rejection change.content) := by
  unfold apply
  cases change.document with
  | ok document => rfl
  | error rejection => rfl

theorem applyText_fst (p : Processor) (text : String) :
    (p.applyText text).1 =
      match DocumentChange.ofText text with
      | .ok change => (p.apply change).1
      | .error rejection => .error (.notification rejection) := by
  unfold applyText
  cases DocumentChange.ofText text with
  | ok change => rfl
  | error rejection => rfl

theorem outcome_of_change? (p : Processor) (step : Step) (change : DocumentChange)
    (own : step.change? = some change) :
    p.outcome step = .applied (p.apply change).1 ∧ p.step step = (p.apply change).2 := by
  cases step with
  | applyText text =>
    dsimp only [outcome, Processor.step, Step.change?] at own ⊢
    rw [applyText_fst, applyText_snd]
    cases read : DocumentChange.ofText text with
    | error rejection =>
      rw [read] at own
      cases own
    | ok other =>
      rw [read] at own
      cases own
      exact ⟨rfl, rfl⟩
  | apply other =>
    cases own
    exact ⟨rfl, rfl⟩
  | drag event => cases own
  | reset => cases own

theorem step_of_accepted? (p : Processor) (step : Step) (change : DocumentChange)
    (document : Document) (own : step.accepted? = some (change, document)) :
    p.step step = p.accept change document := by
  unfold Step.accepted? at own
  rw [Option.bind_eq_some_iff] at own
  rcases own with ⟨other, known, read⟩
  rw [Option.map_eq_some_iff] at read
  rcases read with ⟨_, read, same⟩
  cases same
  rw [(p.outcome_of_change? step change known).2]
  rw [apply_snd, read]

theorem outcome_cases (p : Processor) (step : Step) :
    (∃ change document,
      step.accepted? = some (change, document) ∧
      p.outcome step = .applied (.ok (derive p.settings p.session change document).1) ∧
      p.step step = p.accept change document) ∨
    (∃ failure,
      step.Fails failure ∧ p.outcome step = .applied (.error failure) ∧ p.step step = p) ∨
    (∃ event, step = .drag event) ∨
    step = .reset := by
  cases own : step.change? with
  | some change =>
    rcases p.outcome_of_change? step change own with ⟨known, next⟩
    rw [known, next]
    rw [apply_fst, apply_snd]
    cases read : change.document with
    | error rejection =>
      right; left
      exact ⟨_, .document step change rejection own read, rfl, rfl⟩
    | ok document =>
      left
      refine ⟨change, document, ?_, rfl, rfl⟩
      simp [Step.accepted?, own, read, Except.toOption]
  | none =>
    cases step with
    | applyText text =>
      dsimp only [outcome, Processor.step, Step.change?] at own ⊢
      rw [applyText_fst, applyText_snd]
      cases read : DocumentChange.ofText text with
      | error rejection =>
        right; left
        exact ⟨_, .notification text rejection read, rfl, rfl⟩
      | ok change =>
        rw [read] at own
        cases own
    | apply change => cases own
    | drag event => simp
    | reset => simp

theorem onSession?_of_accepted? (step : Step) (change : DocumentChange) (document : Document)
    (own : step.accepted? = some (change, document)) :
    step.onSession? = some (.project document document.scope.entities) := by
  cases step with
  | applyText text => simp [Step.onSession?, own]
  | apply other => simp [Step.onSession?, own]
  | drag event => cases own
  | reset => cases own

theorem onSession?_of_fails (step : Step) (failure : Failure) (fails : step.Fails failure) :
    step.onSession? = none := by
  cases fails with
  | notification text rejection unread =>
    simp [Step.onSession?, Step.accepted?, Step.change?, unread, Except.toOption]
  | document _ change rejection own rejected =>
    have refused : step.accepted? = none := by
      simp [Step.accepted?, own, rejected, Except.toOption]
    cases step with
    | applyText text => simp [Step.onSession?, refused]
    | apply other => simp [Step.onSession?, refused]
    | drag event => cases own
    | reset => cases own

theorem step_cases (p : Processor) (step : Step) :
    (∃ change document,
      step.accepted? = some (change, document) ∧
      step.onSession? = some (.project document document.scope.entities) ∧
      p.step step = p.accept change document) ∨
    (step.onSession? = none ∧ p.step step = p) ∨
    (∃ event, step = .drag event) ∨
    step = .reset := by
  rcases outcome_cases p step with
    ⟨change, document, own, _, next⟩ | ⟨failure, fails, _, next⟩ | ⟨event, rfl⟩ | rfl
  . left
    exact ⟨change, document, own, onSession?_of_accepted? step change document own, next⟩
  . right; left
    exact ⟨onSession?_of_fails step failure fails, next⟩
  . right; right; left
    exact ⟨event, rfl⟩
  . right; right; right
    rfl

theorem run_cons (p : Processor) (step : Step) (steps : List Step) :
    p.run (step :: steps) = (p.step step).run steps := rfl

theorem run_append (p : Processor) (steps more : List Step) :
    p.run (steps ++ more) = (p.run steps).run more := by
  unfold run
  rw [List.foldl_append]

theorem drag_fst (p : Processor) (event : DragEvent) :
    (p.drag event).1 = (p.session.drag event).1 := rfl

theorem session_drag (p : Processor) (event : DragEvent) :
    (p.drag event).2.session = (p.session.drag event).2 := rfl

theorem session_accept (p : Processor) (change : DocumentChange) (document : Document) :
    (p.accept change document).session =
      (p.session.project document document.scope.entities).2 := rfl

theorem settings_step (p : Processor) (step : Step) : (p.step step).settings = p.settings := by
  rcases step_cases p step with ⟨_, _, _, _, next⟩ | ⟨_, next⟩ | ⟨event, rfl⟩ | rfl
  . rw [next]
    rfl
  . rw [next]
  . rfl
  . rfl

theorem settings_run (p : Processor) (steps : List Step) :
    (p.run steps).settings = p.settings := by
  induction steps generalizing p with
  | nil => rfl
  | cons step steps ih =>
    rw [run_cons, ih]
    apply settings_step

theorem session_step (p : Processor) (step : Step) :
    (p.step step).session =
      match step.onSession? with
      | some own => p.session.step own
      | none => p.session := by
  rcases step_cases p step with ⟨change, document, _, own, next⟩ | ⟨own, next⟩ | ⟨event, rfl⟩ | rfl
  . rw [own, next]
    apply session_accept
  . rw [own, next]
  . rfl
  . rfl

theorem session_run (p : Processor) (steps : List Step) :
    (p.run steps).session = p.session.run (steps.filterMap Step.onSession?) := by
  induction steps generalizing p with
  | nil => rfl
  | cons step steps ih =>
    rw [run_cons, ih, session_step]
    rw [List.filterMap_cons]
    cases step.onSession? with
    | none => rfl
    | some own => rfl

end Processor

end DomainModel
