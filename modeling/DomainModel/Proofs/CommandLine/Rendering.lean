import DomainModel.CommandLine.Run
import DomainModel.Proofs.Json.Printed
import DomainModel.Proofs.Processor.Gate

namespace DomainModel

theorem Json.Value.getLast?_pretty_object (members : List (String × Value)) :
    (object members).pretty.toList.getLast? = some '}' := by
  rw [pretty, String.toList_ofList]
  cases members with
  | nil => rfl
  | cons member members =>
    rcases member with ⟨key, value⟩
    -- The closing brace is written first, and everything else in front of it.
    rw [write, ← List.nil_append ['}']]
    simp only [Spread.lineBreak_append, writeMembers_append, write_append, Spread.colon_append,
      writeString_append, ← List.cons_append]
    apply List.getLast?_concat

theorem Listing.getLast?_text (listing : Listing) (last : Char)
    (ends : listing.text.toList.getLast? = some last) : last = '\n' := by
  unfold text at ends
  rw [String.toList_join, List.flatMap_map, List.getLast?_flatMap] at ends
  rcases List.exists_of_findSome?_eq_some ends with ⟨line, _, ends⟩
  rw [String.toList_append] at ends
  simpa using ends.symm

theorem Listing.text_ne_pretty_object (listing : Listing) (members : List (String × Json.Value)) :
    listing.text ≠ (Json.Value.object members).pretty := by
  intro same
  have ends := Json.Value.getLast?_pretty_object members
  rw [← same] at ends
  exact absurd (listing.getLast?_text '}' ends) (by decide)

theorem Snapshot.view_of_opened (snapshot : Snapshot) (kind : ViewKind)
    (opened : snapshot.hasErrors = false) :
    snapshot.view kind =
      match kind with
      | .tree => .tree snapshot.outline
      | .graph => .graph snapshot.graph := by
  unfold view
  rw [opened]
  rfl

def Document.shown (document : Document) (layout : Layout) : ViewKind → Json.Value
  | .tree => document.scope.outline.toValue
  | .graph =>
    ((Session.ofLayout layout).project document document.scope.entities).1.toValue

theorem Document.exists_shown_eq_object (document : Document) (layout : Layout) (kind : ViewKind) :
    ∃ members, document.shown layout kind = .object members := by
  cases kind with
  | tree => exact ⟨_, rfl⟩
  | graph => exact ⟨_, rfl⟩

namespace CommandLine

structure Renders (settings : Settings) (asked : Option ViewKind) (change : DocumentChange)
    (document : Document) (rendering : Rendering) : Prop where
  diagnostics :
    rendering.diagnostics =
      change.diagnostics.map ServiceDiagnostic.toDiagnostic ++
        document.scope.validate settings.validation
  gated : rendering.view.isGated = true ↔ ∃ d ∈ rendering.diagnostics, d.severity = .error
  listed :
    rendering.view.text = (Listing.ofDiagnostics rendering.diagnostics).text ↔
      rendering.view.isGated = true
  shown :
    rendering.view.isGated = false →
      rendering.view.text =
        (document.shown settings.layout (asked.getD settings.view.default)).pretty

def rendered (settings : Settings) (asked : Option ViewKind) (change : DocumentChange)
    (document : Document) : Rendering :=
  let snapshot := (Processor.derive settings (.ofLayout settings.layout) change document).1
  { view := snapshot.view (asked.getD settings.view.default), diagnostics := snapshot.diagnostics }

section

variable (settings : Settings) (asked : Option ViewKind) (change : DocumentChange)
  (document : Document)

theorem isGated_rendered :
    (rendered settings asked change document).view.isGated =
      isGated (rendered settings asked change document).diagnostics := by
  apply Snapshot.isGated_view

theorem text_rendered_of_gated
    (closed : (rendered settings asked change document).view.isGated = true) :
    (rendered settings asked change document).view.text =
      (Listing.ofDiagnostics (rendered settings asked change document).diagnostics).text := by
  rw [isGated_rendered] at closed
  exact congrArg View.text ((Snapshot.view_eq_diagnostics_iff _ _).mpr closed)

theorem text_rendered_of_not_gated
    (opened : (rendered settings asked change document).view.isGated = false) :
    (rendered settings asked change document).view.text =
      (document.shown settings.layout (asked.getD settings.view.default)).pretty := by
  rw [isGated_rendered] at opened
  dsimp only [rendered]
  rw [Snapshot.view_of_opened _ _ opened]
  cases asked.getD settings.view.default with
  | tree => rfl
  | graph => rfl

theorem renders_rendered :
    Renders settings asked change document (rendered settings asked change document) where
  diagnostics := rfl
  gated := by
    rw [isGated_rendered]
    apply isGated_iff
  listed := by
    constructor
    . intro listing
      by_contra opened
      rw [Bool.not_eq_true] at opened
      rw [text_rendered_of_not_gated _ _ _ _ opened] at listing
      rcases document.exists_shown_eq_object settings.layout (asked.getD settings.view.default)
        with ⟨members, shown⟩
      rw [shown] at listing
      exact Listing.text_ne_pretty_object _ members listing.symm
    . apply text_rendered_of_gated
  shown := by
    apply text_rendered_of_not_gated

end

end CommandLine

end DomainModel
