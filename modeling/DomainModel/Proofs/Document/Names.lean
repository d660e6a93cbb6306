import DomainModel.Proofs.Document.Lookup
import DomainModel.Proofs.Document.Shape

/-!
Names in a document that was read from a text. A name is judged where it is read, in whatever form
its record is written, so no declaration is left without one, however deep it stands.
-/

namespace DomainModel

open Json (Fault Field Value bind_eq_ok_iff exists_left_of_forall₂ mapM_eq_ok_iff)

def Element.IsNamed : Element → Prop
  | .dataType d => d.name ≠ ""
  | .entity e => e.name ≠ "" ∧ ∀ f ∈ e.features, f.name ≠ ""
  | .package name _ => name ≠ ""
  | .person p => p.name ≠ ""
  | .greeting _ => True

def Document.IsNamed (document : Document) : Prop :=
  ∀ scope, document.scope.Encloses scope → ∀ element ∈ scope.elements, element.IsNamed

theorem ne_empty_of_nameOfValue {v : Value} {name : String} (read : nameOfValue v = .ok name) :
    name ≠ "" := by
  unfold nameOfValue at read
  rw [bind_eq_ok_iff] at read
  rcases read with ⟨text, _, checked⟩
  unfold nonEmpty at checked
  split at checked
  . cases checked
  . next given =>
    cases checked
    rw [String.isEmpty_iff] at given
    exact given

theorem exists_of_mem_list {α : Type} {read : Value → Except Fault α} {v : Value} {as : List α}
    (decoded : v.list read = .ok as) : ∀ a ∈ as, ∃ w, read w = .ok a := by
  cases v with
  | array vs =>
    rw [Value.list, mapM_eq_ok_iff] at decoded
    exact exists_left_of_forall₂ decoded
  | null => cases decoded
  | bool b => cases decoded
  | number n => cases decoded
  | string s => cases decoded
  | object members => cases decoded

theorem Feature.ne_empty_of_ofValue {v : Value} {f : Feature} (read : record.ofValue v = .ok f) :
    f.name ≠ "" := by
  rcases record.exists_selects_of_ofValue (by decide) read with ⟨_, _, ⟨name, _⟩, rfl⟩
  rcases name.exists_of_required rfl with ⟨_, _, read⟩
  exact ne_empty_of_nameOfValue read

namespace Element

theorem exists_selected_of_ofValue {v : Value} {e : Element} (read : ofValue v = .ok e) :
    ∃ kind lookup, Selected kind lookup e := by
  cases v with
  | object members =>
    rw [ofValue_object_eq_ok_iff] at read
    rcases read with ⟨_, kind, _, _, _, selected⟩
    exact ⟨kind, _, selected⟩
  | array items =>
    rw [ofValue_array_eq_ok_iff] at read
    rcases read with ⟨_, _, kind, _, _, _, selected⟩
    exact ⟨kind, _, selected⟩
  | null => cases read
  | bool b => cases read
  | number n => cases read
  | string s => cases read

theorem ne_empty_of_finds {lookup : String → Option Part} {name : String}
    (found : Field.Finds { name := "name", read := Part.name } lookup name) : name ≠ "" := by
  rcases found.exists_of_required rfl with ⟨_, _, read⟩
  exact ne_empty_of_nameOfValue read

theorem isNamed_of_ofValue {v : Value} {e : Element} (read : ofValue v = .ok e) : e.IsNamed := by
  rcases exists_selected_of_ofValue read with ⟨kind, _, values, selected, rfl⟩
  cases kind with
  | dataType => exact ne_empty_of_finds selected.1
  | entity =>
    rcases values with ⟨name, features, superType, _⟩
    refine ⟨ne_empty_of_finds selected.1, ?_⟩
    intro f mem
    cases selected.2.1.exists_or_absent with
    | inl found =>
      rcases found with ⟨_, _, found⟩
      rcases exists_of_mem_list found f mem with ⟨_, read⟩
      exact Feature.ne_empty_of_ofValue read
    | inr absent =>
      cases absent
      cases mem
  | package => exact ne_empty_of_finds selected.1
  | person => exact ne_empty_of_finds selected.1
  | greeting => trivial

theorem exists_value_of_mem_package {v : Value} {name : String} {elements : List Element}
    (read : ofValue v = .ok (.package name elements)) :
    ∀ e ∈ elements, ∃ w, ofValue w = .ok e := by
  rcases exists_selected_of_ofValue read with ⟨kind, _, values, selected, built⟩
  cases kind with
  | package =>
    rcases values with ⟨_, inner, _⟩
    cases built
    intro e mem
    cases selected.2.1.exists_or_absent with
    | inl found =>
      rcases found with ⟨_, there, found⟩
      rw [Option.map_eq_some_iff] at there
      rcases there with ⟨w, _, rfl⟩
      dsimp only at found
      rw [elements_partOfValue] at found
      exact exists_of_mem_list found e mem
    | inr absent =>
      cases absent
      cases mem
  | dataType => cases built
  | entity => cases built
  | person => cases built
  | greeting => cases built

end Element

theorem Scope.Encloses.exists_value {outer scope : Scope} (h : outer.Encloses scope)
    (read : ∀ e ∈ outer.elements, ∃ v, Element.ofValue v = .ok e) :
    ∀ e ∈ scope.elements, ∃ v, Element.ofValue v = .ok e := by
  induction h with
  | self => exact read
  | package declared _ ih =>
    apply ih
    rcases read _ (List.mem_of_getElem? declared) with ⟨v, read⟩
    exact Element.exists_value_of_mem_package read

namespace Document

theorem exists_value_of_mem {text : String} {d : Document} (read : ofText text = .ok d) :
    ∀ e ∈ d.elements, ∃ v, Element.ofValue v = .ok e := by
  rw [ofText_eq_ok_iff] at read
  rcases read with ⟨x, _, means⟩
  rcases hasParts_of_recordMeans means with ⟨_, _, meant⟩
  rcases exists_of_meansOr meant.elements with ⟨_, _, _, _, all⟩
  intro e mem
  rcases exists_left_of_forall₂ all e mem with ⟨_, v, _, _, decoded⟩
  exact ⟨v, decoded⟩

theorem isNamed_of_ofText {text : String} {d : Document} (read : ofText text = .ok d) :
    d.IsNamed := by
  intro scope enclosed e mem
  rcases enclosed.exists_value (exists_value_of_mem read) e mem with ⟨v, decoded⟩
  exact Element.isNamed_of_ofValue decoded

theorem exists_raw_of_ofText {text : String} {d : Document} (read : ofText text = .ok d) :
    ∃ raw : Raw,
      Json.decode record.ofNode text = .ok raw ∧
      raw.kind = NodeKind.domainmodel.name ∧
      raw.elements = d.elements := by
  unfold ofText at read
  split at read
  . cases read
  . next raw decoded =>
    split at read
    . next root =>
      cases read
      exact ⟨raw, decoded, root, rfl⟩
    . cases read

theorem isNamed_of_lookup {d : Document} (named : d.IsNamed) {path : NodePath} {e : Element}
    (found : d.lookup path = some (.element e)) : e.IsNamed := by
  rw [lookup_eq_element_iff] at found
  rcases found with ⟨scope, index, enclosed, _, known⟩
  exact named scope enclosed e (List.mem_of_getElem? known)

end Document

end DomainModel
