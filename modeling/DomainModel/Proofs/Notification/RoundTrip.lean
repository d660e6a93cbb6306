import DomainModel.Proofs.Json.Printed
import DomainModel.Proofs.Notification.Reading

/-!
Notifications as texts. Whatever a notification holds, its text is JSON and is read back as the same
notification, and so is the text of one that was itself read from a text. Reading takes more texts
than are written: members that are missing, in another order or without names, and codes that are
integers, whose text is what is kept and written.
-/

namespace DomainModel

open Json (Term Value)

theorem Json.Term.meansOr_of_lookup {α : Type} {means : Term → α → Prop} {absent : Option α}
    {members : List (String × Value)} {name : String} {value : Value} {a : α}
    (found : members.lookup name = some value) (h : means value.term a) :
    Term.MeansOr means absent
      ((members.map fun member => (member.1, member.2.term)).lookup name) a := by
  rw [lookup_map, found]
  exact h

theorem Json.Value.optionally_ofText? (text : Option String) :
    Term.Optionally Term.IsText (Value.ofText? text).term text := by
  cases text with
  | none => rfl
  | some s => rfl

namespace SourcePosition

theorem means_term (p : SourcePosition) : Means (ServiceDiagnostic.positionValue p).term p := by
  unfold Means ServiceDiagnostic.positionValue
  rw [Value.term_object, Term.recordMeans_named_iff]
  refine ⟨by simp, ?_, ?_⟩
  . exact Term.meansOr_of_lookup rfl rfl
  . exact Term.meansOr_of_lookup rfl rfl

theorem isExact_value (p : SourcePosition) : (ServiceDiagnostic.positionValue p).IsExact := by
  have exact (n : UInt32) : (Value.ofNat n.toNat).IsExact := by
    apply Json.Number.isExact_ofNat
    exact Nat.lt_trans n.toNat_lt (by decide)
  exact ⟨exact p.line, exact p.character, trivial⟩

theorem depth_value_le (p : SourcePosition) :
    (ServiceDiagnostic.positionValue p).term.depth ≤ 1 := by
  apply Value.depth_object_le
  simp [Value.ofNat, Value.term, Term.depth]

end SourcePosition

namespace SourceRange

theorem means_term (r : SourceRange) : Means (ServiceDiagnostic.rangeValue r).term r := by
  unfold Means ServiceDiagnostic.rangeValue
  rw [Value.term_object, Term.recordMeans_named_iff]
  refine ⟨by simp, ?_, ?_⟩
  . exact Term.meansOr_of_lookup rfl r.start.means_term
  . exact Term.meansOr_of_lookup rfl r.stop.means_term

theorem isExact_value (r : SourceRange) : (ServiceDiagnostic.rangeValue r).IsExact :=
  ⟨r.start.isExact_value, r.stop.isExact_value, trivial⟩

theorem depth_value_le (r : SourceRange) : (ServiceDiagnostic.rangeValue r).term.depth ≤ 2 := by
  apply Value.depth_object_le
  simp [SourcePosition.depth_value_le]

end SourceRange

namespace ServiceDiagnostic

def severityValue (severity : Option UInt8) : Value :=
  match severity with
  | some n => .ofNat n.toNat
  | none => .null

theorem optionally_severityValue (severity : Option UInt8) :
    Term.Optionally Term.IsUInt8 (severityValue severity).term severity := by
  cases severity with
  | none => rfl
  | some n => rfl

theorem optionally_code (code : Option String) :
    Term.Optionally IsCode (Value.ofText? code).term code := by
  cases code with
  | none => rfl
  | some s => exact .text s

theorem means_term (d : ServiceDiagnostic) : Means d.toValue.term d := by
  unfold Means toValue
  rw [Value.term_object, Term.recordMeans_named_iff]
  refine ⟨by simp, ?_, ?_, ?_, ?_, ?_⟩
  . exact Term.meansOr_of_lookup rfl (optionally_severityValue d.severity)
  . exact Term.meansOr_of_lookup rfl d.range.means_term
  . exact Term.meansOr_of_lookup rfl rfl
  . exact Term.meansOr_of_lookup rfl (Value.optionally_ofText? d.source)
  . exact Term.meansOr_of_lookup rfl (optionally_code d.code)

theorem isExact_toValue (d : ServiceDiagnostic) : d.toValue.IsExact := by
  have severity : (severityValue d.severity).IsExact := by
    cases d.severity with
    | none => trivial
    | some n =>
      apply Json.Number.isExact_ofNat
      exact Nat.lt_trans n.toNat_lt (by decide)
  have text (text : Option String) : (Value.ofText? text).IsExact := by
    cases text with
    | none => trivial
    | some s => trivial
  exact ⟨severity, d.range.isExact_value, trivial, text d.source, text d.code, trivial⟩

theorem depth_toValue_le (d : ServiceDiagnostic) : d.toValue.term.depth ≤ 3 := by
  have severity : (severityValue d.severity).term.depth ≤ 2 := by
    cases d.severity with
    | none => exact Nat.zero_le 2
    | some n => exact Nat.zero_le 2
  have text (text : Option String) : (Value.ofText? text).term.depth ≤ 2 := by
    cases text with
    | none => exact Nat.zero_le 2
    | some s => exact Nat.zero_le 2
  apply Value.depth_object_le
  simp only [List.forall_mem_cons]
  exact ⟨severity, d.range.depth_value_le, Nat.zero_le 2, text d.source, text d.code, by simp⟩

end ServiceDiagnostic

namespace DocumentChange

theorem means_term (change : DocumentChange) : Means change.toValue.term change := by
  unfold Means toValue
  rw [Value.term_object, Term.recordMeans_named_iff]
  refine ⟨by simp, ?_, ?_⟩
  . exact Term.meansOr_of_lookup rfl rfl
  . apply Term.meansOr_of_lookup rfl
    rw [Value.term_array]
    refine ⟨_, rfl, ?_⟩
    rw [List.map_map, List.forall₂_map_left_iff, List.forall₂_same]
    intro d _
    exact d.means_term

theorem isExact_toValue (change : DocumentChange) : change.toValue.IsExact := by
  refine ⟨trivial, ?_, trivial⟩
  apply (Value.itemsAreExact_iff _).mpr
  rw [List.forall_mem_map]
  intro d _
  exact d.isExact_toValue

theorem depth_toValue_le (change : DocumentChange) : change.toValue.term.depth ≤ 5 := by
  have diagnostics : (Value.array (change.diagnostics.map ServiceDiagnostic.toValue)).term.depth ≤
      4 := by
    apply Value.depth_array_le
    rw [List.forall_mem_map]
    intro d _
    exact d.depth_toValue_le
  apply Value.depth_object_le
  rw [List.forall_mem_cons, List.forall_mem_singleton]
  exact ⟨Nat.zero_le 4, diagnostics⟩

theorem ofText_toText (change : DocumentChange) : ofText change.toText = .ok change := by
  rw [ofText_eq_ok_iff]
  exact ⟨_, change.toValue.spelledBy_compact change.isExact_toValue, change.means_term⟩

theorem parse_toText (change : DocumentChange) :
    Json.parse change.toText = .ok change.toValue := by
  apply Value.parse_compact
  . exact change.isExact_toValue
  . exact Nat.le_trans change.depth_toValue_le (by decide)

theorem roundTrip :
    (∀ change : DocumentChange,
      ofText change.toText = .ok change ∧ Json.parse change.toText = .ok change.toValue) ∧
    ∀ text change, ofText text = .ok change →
      (∃ x : Term, x.SpelledBy text.toList ∧ Means x change) ∧
      ofText change.toText = .ok change ∧
      ∀ d ∈ change.diagnostics, d.toValue.get? "code" = some (.ofText? d.code) := by
  constructor
  . intro change
    exact ⟨change.ofText_toText, change.parse_toText⟩
  . intro text change read
    rw [ofText_eq_ok_iff] at read
    refine ⟨read, change.ofText_toText, ?_⟩
    intro d _
    rfl

def numberedText : String :=
  "[\"\", [\x7b\"code\": 47, \"range\": [[0, 1], [2, 3]], \"message\": \"\\u00e9\"\x7d]]"

def numberedChange : DocumentChange where
  content := ""
  diagnostics := [{ range := ⟨⟨0, 1⟩, ⟨2, 3⟩⟩, message := "é", code := some "47" }]

theorem ofText_numberedText : ofText numberedText = .ok numberedChange := by
  decide +kernel

theorem roundTrip_numberedText :
    ofText numberedText = .ok numberedChange ∧
    ofText numberedChange.toText = .ok numberedChange := by
  have again := (roundTrip.2 numberedText numberedChange ofText_numberedText).2.1
  exact ⟨ofText_numberedText, again⟩

end DocumentChange

end DomainModel
