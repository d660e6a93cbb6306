import DomainModel.Proofs.Json.Placed
import DomainModel.Proofs.Text.Place
import DomainModel.Report

namespace DomainModel

theorem Document.exists_place_of_malformed (text : String) (error : Json.Error)
    (malformed : ofText text = .error (.malformed error)) :
    ∃ offset, error.place = Place.ofOffset text.toList offset := by
  unfold ofText at malformed
  split at malformed
  . next refused =>
    cases malformed
    exact Json.exists_place_of_decode _ record.failsPlaced_ofNode text error refused
  . split at malformed
    . cases malformed
    . cases malformed

namespace Failure

theorem exists_labels_of_malformed (text : String) (error : Json.Error)
    (malformed : Document.ofText text = .error (.malformed error)) :
    ∃ offset,
      (document (.malformed error) text).labels = [{ offset, length := 0 }] ∧
      Place.OnLine text.toList error.place.line offset := by
  rcases Document.exists_place_of_malformed text error malformed with ⟨noticed, place⟩
  have bounds := Place.line_ofOffset_bounds text.toList noticed
  rw [← place] at bounds
  rcases Place.exists_offset?_onLine text.toList error.place bounds.1 bounds.2 with
    ⟨offset, found, onLine⟩
  refine ⟨offset, ?_, onLine⟩
  dsimp only [labels]
  rw [found]

theorem labels_eq_nil (failure : Failure)
    (other : ∀ error text, failure ≠ document (.malformed error) text) : failure.labels = [] := by
  cases failure with
  | file error => rfl
  | notification rejection => rfl
  | document rejection text =>
    cases rejection with
    | malformed error => exact absurd rfl (other error text)
    | unexpectedRoot found => rfl

theorem pointsAt_malformed :
    (∀ (p : Processor) (change : DocumentChange) (error : Json.Error),
      Document.ofText change.content = .error (.malformed error) →
      ∃ failure offset,
        (p.apply change).1 = .error failure ∧
        failure.source? = some change.content ∧
        failure.labels = [{ offset, length := 0 }] ∧
        offset ≤ change.content.utf8ByteSize ∧
        Place.OnLine change.content.toList error.place.line offset) ∧
    ∀ failure : Failure,
      (∀ error text, failure ≠ document (.malformed error) text) → failure.labels = [] := by
  refine ⟨?_, labels_eq_nil⟩
  intro p change error malformed
  rcases exists_labels_of_malformed change.content error malformed with ⟨offset, labels, onLine⟩
  refine ⟨document (.malformed error) change.content, offset, ?_, rfl, labels, ?_, onLine⟩
  . unfold Processor.apply DocumentChange.document
    rw [malformed]
  . rw [← byteLength_toList]
    exact onLine.le_byteLength

-- The empty name is noticed in memory, long after the line it is on.
def namelessChange : DocumentChange where
  content := "[\"Domainmodel\", null,\n [[\"Entity\", \"\"]\n]]"

def namelessError : Json.Error := ⟨.emptyName, ⟨3, 1⟩⟩

theorem ofText_nameless :
    Document.ofText namelessChange.content = .error (.malformed namelessError) := by
  have refused : (Document.ofText namelessChange.content).map (fun _ => ()) =
      .error (.malformed namelessError) := by
    decide +kernel
  generalize Document.ofText namelessChange.content = read at refused ⊢
  cases read with
  | error rejection =>
    cases refused
    rfl
  | ok document => cases refused

theorem pointsAt_malformed_nameless :
    Document.ofText namelessChange.content = .error (.malformed namelessError) ∧
    (∃ failure offset,
      ((Processor.ofSettings {}).apply namelessChange).1 = .error failure ∧
      failure.source? = some namelessChange.content ∧
      failure.labels = [{ offset, length := 0 }] ∧
      offset ≤ namelessChange.content.utf8ByteSize ∧
      Place.OnLine namelessChange.content.toList 3 offset) ∧
    (file .notFound).labels = [] := by
  refine ⟨ofText_nameless, ?_, ?_⟩
  . exact pointsAt_malformed.1 (.ofSettings {}) namelessChange namelessError ofText_nameless
  . apply pointsAt_malformed.2
    intro error text same
    cases same

end Failure

end DomainModel
