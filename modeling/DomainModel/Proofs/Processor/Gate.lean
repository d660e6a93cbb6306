import DomainModel.Proofs.Processor.Outcomes
import DomainModel.Proofs.Validation.Errors

namespace DomainModel

theorem isGated_iff (ds : List Diagnostic) : isGated ds = true ↔ HasError ds := by
  unfold isGated HasError
  rw [List.any_eq_true]
  simp

theorem DocumentChange.hasError_diagnostics_iff (change : DocumentChange) :
    HasError (change.diagnostics.map ServiceDiagnostic.toDiagnostic) ↔ change.hasErrors = true := by
  have severity (d : ServiceDiagnostic) :
      d.toDiagnostic.severity = .error ↔ (d.severity == some 1) = true := by
    dsimp only [ServiceDiagnostic.toDiagnostic, Severity.ofNumber?]
    rw [beq_iff_eq]
    split
    . next one => simp [one]
    . next other => simp [other]
  unfold HasError DocumentChange.hasErrors
  rw [List.any_eq_true]
  simp only [List.mem_map, exists_exists_and_eq_and, severity]

namespace Snapshot

theorem isGated_view (snapshot : Snapshot) (kind : ViewKind) :
    (snapshot.view kind).isGated = snapshot.hasErrors := by
  unfold view
  cases snapshot.hasErrors with
  | true => rfl
  | false =>
    cases kind with
    | tree => rfl
    | graph => rfl

theorem view_eq_diagnostics_iff (snapshot : Snapshot) (kind : ViewKind) :
    snapshot.view kind = .diagnostics (.ofDiagnostics snapshot.diagnostics) ↔
      snapshot.hasErrors = true := by
  constructor
  . intro shown
    rw [← snapshot.isGated_view kind, shown]
    rfl
  . intro closed
    unfold view
    rw [if_pos closed]

end Snapshot

namespace Processor

theorem hasErrors_derive_iff (settings : Settings) (session : Session) (change : DocumentChange)
    (document : Document) :
    (derive settings session change document).1.hasErrors = true ↔
      change.hasErrors = true ∨ document.HasRepeats := by
  dsimp only [derive, Snapshot.hasErrors]
  rw [isGated_iff, hasError_append]
  rw [change.hasError_diagnostics_iff, Scope.hasError_validate_iff]
  rfl

-- The verdict speaks of no settings, so no switch among them can change it.
theorem hasErrors_derive_eq (settings other : Settings) (session another : Session)
    (change : DocumentChange) (document : Document) :
    (derive settings session change document).1.hasErrors =
      (derive other another change document).1.hasErrors := by
  rw [Bool.eq_iff_iff, hasErrors_derive_iff, hasErrors_derive_iff]

theorem hasErrors_apply_iff (p : Processor) (change : DocumentChange) (snapshot : Snapshot)
    (applied : (p.apply change).1 = .ok snapshot) :
    change.document = .ok snapshot.document ∧
    (snapshot.hasErrors = true ↔ change.hasErrors = true ∨ snapshot.document.HasRepeats) ∧
    (∀ kind : ViewKind,
      (snapshot.view kind).isGated = snapshot.hasErrors ∧
      (snapshot.view kind = .diagnostics (.ofDiagnostics snapshot.diagnostics) ↔
        snapshot.hasErrors = true)) ∧
    (∀ q : Processor, (q.apply change).1.map Snapshot.hasErrors = .ok snapshot.hasErrors) ∧
    ∀ (settings : ValidationSettings) (visits : List Visit),
      let v : Validator := visits.foldl Validator.visit { settings }
      v.hasErrors = true ↔ HasError v.diagnostics := by
  rw [apply_fst] at applied
  cases read : change.document with
  | error rejection =>
    rw [read] at applied
    cases applied
  | ok document =>
    rw [read] at applied
    cases applied
    refine ⟨rfl, hasErrors_derive_iff _ _ _ _, ?_, ?_, ?_⟩
    . intro kind
      exact ⟨Snapshot.isGated_view _ kind, Snapshot.view_eq_diagnostics_iff _ kind⟩
    . intro q
      rw [apply_fst, read]
      exact congrArg Except.ok (hasErrors_derive_eq _ _ _ _ change document)
    . intro settings visits
      exact Validator.flags_foldl_visit _ (Validator.flags_ofSettings settings) visits

-- A record may be written as the array of its fields.
def twinsChange : DocumentChange where
  content :=
    "[\"Domainmodel\",null,[[\"PackageDeclaration\",\"p\",[[\"Entity\",\"A\"],[\"Entity\",\"A\"]]]]]"

theorem hasErrors_apply_iff_twins :
    ∃ snapshot,
      ((ofSettings {}).apply twinsChange).1 = .ok snapshot ∧
      twinsChange.document = .ok snapshot.document ∧
      (snapshot.hasErrors = true ↔
        twinsChange.hasErrors = true ∨ snapshot.document.HasRepeats) ∧
      (∀ kind : ViewKind,
        (snapshot.view kind).isGated = snapshot.hasErrors ∧
        (snapshot.view kind = .diagnostics (.ofDiagnostics snapshot.diagnostics) ↔
          snapshot.hasErrors = true)) ∧
      (∀ q : Processor,
        (q.apply twinsChange).1.map Snapshot.hasErrors = .ok snapshot.hasErrors) ∧
      ∀ (settings : ValidationSettings) (visits : List Visit),
        let v : Validator := visits.foldl Validator.visit { settings }
        v.hasErrors = true ↔ HasError v.diagnostics := by
  have read : twinsChange.document.toOption.isSome := by
    decide +kernel
  rcases exists_snapshot_of_isSome (ofSettings {}) twinsChange read with ⟨snapshot, applied⟩
  exact ⟨snapshot, applied, hasErrors_apply_iff (ofSettings {}) twinsChange snapshot applied⟩

end Processor

end DomainModel
