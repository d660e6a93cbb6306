import DomainModel.Proofs.Processor.Outcomes

/-!
What a snapshot says apart from the positions of its nodes. The last notification that was accepted
decides it alone: neither what was shown before nor the session has a part in it, and nothing that
comes later changes it but another notification that is accepted.
-/

namespace DomainModel

namespace Snapshot

structure SameContent (s t : Snapshot) : Prop where
  document_eq : s.document = t.document
  diagnostics_eq : s.diagnostics = t.diagnostics
  outline_eq : s.outline = t.outline
  labels_eq : s.graph.labels = t.graph.labels
  edges_eq : s.graph.edges = t.graph.edges

namespace SameContent

variable {s t u : Snapshot}

theorem refl (s : Snapshot) : SameContent s s where
  document_eq := rfl
  diagnostics_eq := rfl
  outline_eq := rfl
  labels_eq := rfl
  edges_eq := rfl

theorem trans (h : SameContent s t) (h' : SameContent t u) : SameContent s u where
  document_eq := h.document_eq.trans h'.document_eq
  diagnostics_eq := h.diagnostics_eq.trans h'.diagnostics_eq
  outline_eq := h.outline_eq.trans h'.outline_eq
  labels_eq := h.labels_eq.trans h'.labels_eq
  edges_eq := h.edges_eq.trans h'.edges_eq

theorem moveNode (s : Snapshot) (id : String) (position : Point) :
    SameContent { s with graph := s.graph.moveNode id position } s where
  document_eq := rfl
  diagnostics_eq := rfl
  outline_eq := rfl
  labels_eq := s.graph.labels_moveNode id position
  edges_eq := s.graph.edges_moveNode id position

end SameContent

end Snapshot

namespace Processor

open Snapshot (SameContent)

theorem sameContent_derive (settings : Settings) (session other : Session)
    (change : DocumentChange) (document : Document) :
    SameContent (derive settings session change document).1
      (derive settings other change document).1 where
  document_eq := rfl
  diagnostics_eq := rfl
  outline_eq := rfl
  labels_eq := by
    dsimp only [derive, Session.project]
    rw [Graph.labels_project, Graph.labels_project]
  edges_eq := by
    dsimp only [derive, Session.project]
    rw [Graph.edges_project_eq_filter, Graph.edges_project_eq_filter]

theorem sameContent_of_apply (p q : Processor) (same : p.settings = q.settings)
    (change : DocumentChange) (s t : Snapshot) (left : (p.apply change).1 = .ok s)
    (right : (q.apply change).1 = .ok t) : SameContent s t := by
  rw [apply_fst] at left right
  cases read : change.document with
  | error rejection =>
    rw [read] at left
    cases left
  | ok document =>
    rw [read] at left right
    cases left
    cases right
    rw [same]
    apply sameContent_derive

def Keeps (s : Snapshot) (p : Processor) : Prop := ∃ t ∈ p.snapshot, SameContent t s

theorem Keeps.drag {s : Snapshot} {p : Processor} (h : Keeps s p) (event : DragEvent) :
    Keeps s (p.drag event).2 := by
  rcases h with ⟨t, mem, same⟩
  rw [Option.mem_def] at mem
  unfold Keeps Processor.drag
  rw [mem]
  cases event.position with
  | none => exact ⟨t, rfl, same⟩
  | some position => exact ⟨_, rfl, (SameContent.moveNode t event.id position).trans same⟩

theorem Keeps.step {s : Snapshot} {p : Processor} (h : Keeps s p) (step : Step)
    (quiet : ¬ (p.outcome step).isAccepted) : Keeps s (p.step step) := by
  rcases outcome_cases p step with ⟨_, _, _, known, _⟩ | ⟨_, _, _, next⟩ | ⟨event, rfl⟩ | rfl
  . rw [known] at quiet
    exact absurd rfl quiet
  . rw [next]
    exact h
  . exact h.drag event
  . exact h

theorem Keeps.run {s : Snapshot} {p : Processor} (h : Keeps s p) (steps : List Step)
    (quiet : ∀ entry ∈ p.trace steps, ¬ entry.2.isAccepted) : Keeps s (p.run steps) := by
  induction steps generalizing p with
  | nil => exact h
  | cons step steps ih =>
    rw [trace_cons, List.forall_mem_cons] at quiet
    exact ih (h.step step quiet.1) quiet.2

theorem last_accepted_decides_content (settings : Settings) (past other future : List Step)
    (change : DocumentChange) (s t : Snapshot)
    (left : (((ofSettings settings).run past).apply change).1 = .ok s)
    (right : (((ofSettings settings).run other).apply change).1 = .ok t)
    (quiet : ∀ entry ∈ (((ofSettings settings).run past).step (.apply change)).trace future,
      ¬ entry.2.isAccepted) :
    SameContent s t ∧
    ∃ last ∈ ((((ofSettings settings).run past).step (.apply change)).run future).snapshot,
      SameContent last s := by
  constructor
  . apply sameContent_of_apply _ _ _ change s t left right
    rw [settings_run, settings_run]
  . have shown : Keeps s (((ofSettings settings).run past).step (.apply change)) :=
      ⟨s, snapshot_apply _ change s left, .refl s⟩
    exact shown.run future quiet

def dropAside : List Step := [.apply userChange, .drag (.dropped "User" (some ⟨10, 10⟩))]

def unsettled : List Step := [.drag (.moving "User" ⟨5, 5⟩), .applyText "", .reset]

theorem last_accepted_decides_content_user :
    ∃ s t,
      (((ofSettings {}).run dropAside).apply userChange).1 = .ok s ∧
      (((ofSettings {}).run []).apply userChange).1 = .ok t ∧
      (∀ entry ∈ (((ofSettings {}).run dropAside).step (.apply userChange)).trace unsettled,
        ¬ entry.2.isAccepted) ∧
      SameContent s t ∧
      ∃ last ∈
          ((((ofSettings {}).run dropAside).step (.apply userChange)).run unsettled).snapshot,
        SameContent last s := by
  have quiet : ∀ entry ∈
      (((ofSettings {}).run dropAside).step (.apply userChange)).trace unsettled,
      ¬ entry.2.isAccepted := by
    decide +kernel
  rcases exists_snapshot_of_isSome _ _ isSome_document_userChange with ⟨s, left⟩
  rcases exists_snapshot_of_isSome _ _ isSome_document_userChange with ⟨t, right⟩
  exact ⟨s, t, left, right, quiet,
    last_accepted_decides_content {} dropAside [] unsettled userChange s t left right quiet⟩

end Processor

end DomainModel
