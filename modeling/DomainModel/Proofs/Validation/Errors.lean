import DomainModel.Proofs.Validation.Scopes

namespace DomainModel

def HasError (ds : List Diagnostic) : Prop := ∃ d ∈ ds, d.severity = .error

theorem hasError_append (ds more : List Diagnostic) :
    HasError (ds ++ more) ↔ HasError ds ∨ HasError more := by
  unfold HasError
  simp only [List.mem_append, or_and_right, exists_or]

theorem hasError_flatMap (items : List α) (f : α → List Diagnostic) :
    HasError (items.flatMap f) ↔ ∃ item ∈ items, HasError (f item) := by
  unfold HasError
  simp only [List.mem_flatMap]
  constructor
  . rintro ⟨d, ⟨item, mem, found⟩, error⟩
    exact ⟨item, mem, d, found, error⟩
  . rintro ⟨item, mem, d, found, error⟩
    exact ⟨d, ⟨item, mem, found⟩, error⟩

namespace Scope

def Repeats (scope : Scope) (key? : Element → Option String) : Prop :=
  ∃ (i j : Nat) (key : String),
    i < j ∧
    scope.elements[i]?.bind key? = some key ∧
    scope.elements[j]?.bind key? = some key

theorem nodup_filterMap_of_not_repeats (scope : Scope) (key? : Element → Option String)
    (once : ¬ scope.Repeats key?) : (scope.elements.filterMap key?).Nodup := by
  rw [List.Nodup, List.pairwise_filterMap, List.pairwise_iff_getElem]
  intro i j hi hj lt key own other known same
  subst same
  apply once
  refine ⟨i, j, key, lt, ?_, ?_⟩
  . rw [List.getElem?_eq_getElem hi]
    exact own
  . rw [List.getElem?_eq_getElem hj]
    exact known

theorem hasError_repeatErrors_iff (scope : Scope) (node? : Element → Option α)
    (key? : α → Option String) (error : Located α → String → Nat → Diagnostic)
    (severity_error : ∀ item key n, (error item key n).severity = .error) :
    HasError (scope.repeatErrors node? key? error) ↔
      scope.Repeats fun element => (node? element).bind key? := by
  constructor
  . rintro ⟨d, mem, _⟩
    rw [mem_repeatErrors] at mem
    rcases mem with ⟨j, node, key, known, own, ⟨i, lt, earlier⟩, _⟩
    refine ⟨i, j, key, lt, earlier, ?_⟩
    rw [← Option.bind_assoc, known]
    exact own
  . rintro ⟨i, j, key, lt, earlier, later⟩
    rw [← Option.bind_assoc, Option.bind_eq_some_iff] at later
    rcases later with ⟨node, known, own⟩
    have mem := (scope.mem_repeatErrors node? key? error _).mpr
      ⟨j, node, key, known, own, ⟨i, lt, earlier⟩, rfl⟩
    exact ⟨_, mem, severity_error _ _ _⟩

theorem hasError_entityErrors_iff (scope : Scope) :
    HasError scope.entityErrors ↔ scope.Repeats Element.entityName? := by
  unfold entityErrors
  rw [hasError_repeatErrors_iff, funext Element.entityName?_eq_bind]
  intro item key n
  rfl

theorem hasError_greetingErrors_iff (scope : Scope) :
    HasError scope.greetingErrors ↔ scope.Repeats Element.greetingKey? := by
  unfold greetingErrors
  rw [hasError_repeatErrors_iff, funext Element.greetingKey?_eq_bind]
  intro item key n
  rfl

theorem not_hasError_personWarnings (settings : ValidationSettings) (scope : Scope) :
    ¬ HasError (scope.personWarnings settings) := by
  rintro ⟨d, mem, error⟩
  unfold personWarnings at mem
  simp only [List.mem_filterMap, Prod.exists, Option.bind_eq_some_iff] at mem
  rcases mem with ⟨_, _, _, person, _, found⟩
  split at found
  . cases found
    cases error
  . cases found

theorem hasError_validate_iff (scope : Scope) (settings : ValidationSettings) :
    HasError (scope.validate settings) ↔
      ∃ inner,
        scope.Encloses inner ∧
        (inner.Repeats Element.entityName? ∨ inner.Repeats Element.greetingKey?) := by
  rw [validate_eq_flatMap, hasError_flatMap]
  simp only [hasError_append, hasError_entityErrors_iff, hasError_greetingErrors_iff,
    not_hasError_personWarnings, or_false, mem_depthFirst_iff]

end Scope

def Document.HasRepeats (document : Document) : Prop :=
  ∃ scope,
    document.scope.Encloses scope ∧
    (scope.Repeats Element.entityName? ∨ scope.Repeats Element.greetingKey?)

namespace Collector

def Flags (c : Collector) : Prop := c.hasErrors = true ↔ HasError c.diagnostics

theorem Flags.emit {c : Collector} (h : c.Flags) (d : Diagnostic) : (c.emit d).Flags := by
  unfold Flags Collector.emit at *
  dsimp only
  rw [Bool.or_eq_true, h, hasError_append]
  cases severity : d.severity with
  | error => simp [HasError, severity, Severity.isError]
  | warning => simp [HasError, severity, Severity.isError]

theorem Flags.emitAll {c : Collector} (h : c.Flags) (ds : List Diagnostic) :
    (c.emitAll ds).Flags := by
  unfold Collector.emitAll
  induction ds generalizing c with
  | nil => exact h
  | cons d ds ih => exact ih (h.emit d)

end Collector

namespace Validator

theorem flags_visit (v : Validator) (h : v.found.Flags) (visit : Visit) :
    (v.visit visit).found.Flags := by
  rw [visit_eq]
  exact h.emitAll _

theorem flags_foldl_visit (v : Validator) (h : v.found.Flags) (visits : List Visit) :
    (visits.foldl visit v).found.Flags := by
  induction visits generalizing v with
  | nil => exact h
  | cons visit visits ih => exact ih _ (v.flags_visit h visit)

theorem flags_ofSettings (settings : ValidationSettings) :
    ({ settings } : Validator).found.Flags := by
  simp [Collector.Flags, HasError]

end Validator

end DomainModel
