import DomainModel.Proofs.Outline.Names
import DomainModel.Proofs.Processor.Content
import DomainModel.Proofs.Validation.Scopes

namespace DomainModel

def Visit.IsNamed : Visit → Prop
  | .entities items => ∀ item ∈ items, (Element.entity item.node).IsNamed
  | .greetings _ => True
  | .persons items => ∀ item ∈ items, item.node.name ≠ ""

structure Snapshot.IsNamed (s : Snapshot) : Prop where
  document : s.document.IsNamed
  found : ∀ path e, s.document.lookup path = some (.element e) → e.IsNamed
  visits : ∀ visit ∈ s.document.scope.visits, visit.IsNamed
  outline : s.outline.Every Outline.ShowsName
  nodes : ∀ node ∈ s.graph.nodes, node.id ≠ "" ∧ node.label ≠ ""
  edges : ∀ edge ∈ s.graph.edges, edge.source ≠ "" ∧ edge.target ≠ ""

theorem Document.isNamed_of_mem_visits {d : Document} (named : d.IsNamed) :
    ∀ visit ∈ d.scope.visits, visit.IsNamed := by
  unfold Scope.visits
  intro visit mem
  rw [List.mem_flatMap] at mem
  rcases mem with ⟨scope, mem, own⟩
  rw [Scope.mem_depthFirst_iff] at mem
  simp only [Scope.ownVisits, List.mem_cons, List.not_mem_nil, or_false] at own
  rcases own with rfl | rfl | rfl
  . intro item isEntity
    rw [Scope.mem_entities] at isEntity
    rcases isEntity with ⟨index, known, _⟩
    exact named scope mem _ (List.mem_of_getElem? known)
  . trivial
  . intro item isPerson
    rw [Scope.mem_persons] at isPerson
    rcases isPerson with ⟨index, known, _⟩
    exact named scope mem _ (List.mem_of_getElem? known)

namespace Graph

variable {d : Document}

theorem ne_empty_of_mem_labels (named : d.IsNamed) (cache : PositionCache) :
    ∀ label ∈ (project d d.scope.entities cache).1.labels, label.1 ≠ "" ∧ label.2 ≠ "" := by
  rw [labels_project, List.forall_mem_map]
  intro entity mem
  rw [Scope.mem_entities] at mem
  rcases mem with ⟨index, known, _⟩
  have given := named d.scope (.self _) _ (List.mem_of_getElem? known)
  exact ⟨given.1, given.1⟩

theorem ne_empty_of_mem_edges (named : d.IsNamed) (cache : PositionCache) :
    ∀ edge ∈ (project d d.scope.entities cache).1.edges, edge.source ≠ "" ∧ edge.target ≠ "" := by
  rw [edges_project_eq_filter]
  intro edge mem
  rw [List.mem_filter, List.mem_filterMap] at mem
  rcases mem with ⟨⟨entity, mem, made⟩, _⟩
  rw [Scope.mem_entities] at mem
  rcases mem with ⟨index, known, _⟩
  have given := named d.scope (.self _) _ (List.mem_of_getElem? known)
  unfold edge? at made
  rw [Option.map_eq_some_iff] at made
  rcases made with ⟨super, extended, rfl⟩
  rw [superEntity_eq_some_iff] at extended
  rcases extended with ⟨path, _, there⟩
  exact ⟨given.1, (Document.isNamed_of_lookup named there).1⟩

end Graph

namespace Snapshot

theorem IsNamed.of_sameContent {s t : Snapshot} (h : s.IsNamed) (same : SameContent t s) :
    t.IsNamed where
  document := by
    rw [same.document_eq]
    exact h.document
  found := by
    rw [same.document_eq]
    exact h.found
  visits := by
    rw [same.document_eq]
    exact h.visits
  outline := by
    rw [same.outline_eq]
    exact h.outline
  nodes := by
    have labels : ∀ label ∈ t.graph.labels, label.1 ≠ "" ∧ label.2 ≠ "" := by
      rw [same.labels_eq]
      unfold Graph.labels
      rw [List.forall_mem_map]
      exact h.nodes
    unfold Graph.labels at labels
    rw [List.forall_mem_map] at labels
    exact labels
  edges := by
    rw [same.edges_eq]
    exact h.edges

end Snapshot

namespace Processor

theorem isNamed_derive (settings : Settings) (session : Session) (change : DocumentChange)
    {d : Document} (named : d.IsNamed) : (derive settings session change d).1.IsNamed where
  document := named
  found := fun _ _ there => Document.isNamed_of_lookup named there
  visits := Document.isNamed_of_mem_visits named
  outline := Document.every_outline named
  nodes := by
    have labels := Graph.ne_empty_of_mem_labels named session.cache
    unfold Graph.labels at labels
    rw [List.forall_mem_map] at labels
    exact labels
  edges := Graph.ne_empty_of_mem_edges named session.cache

def ShowsNames (p : Processor) : Prop := ∃ s ∈ p.snapshot, s.IsNamed

theorem showsNames_accept (p : Processor) (change : DocumentChange) {d : Document}
    (named : d.IsNamed) : (p.accept change d).ShowsNames :=
  ⟨_, rfl, isNamed_derive _ _ change named⟩

theorem ShowsNames.step {p : Processor} (h : p.ShowsNames) (step : Step) :
    (p.step step).ShowsNames := by
  rcases outcome_cases p step with ⟨change, d, own, _, next⟩ | ⟨_, _, _, next⟩ | ⟨event, rfl⟩ | rfl
  . rw [next]
    apply showsNames_accept
    unfold Step.accepted? at own
    rw [Option.bind_eq_some_iff] at own
    rcases own with ⟨_, _, own⟩
    rw [Option.map_eq_some_iff] at own
    rcases own with ⟨_, read, ⟨⟩⟩
    rw [Json.toOption_eq_some_iff] at read
    exact Document.isNamed_of_ofText read
  . rw [next]
    exact h
  . rcases h with ⟨s, shown, named⟩
    have kept : Keeps s (p.drag event).2 := Keeps.drag ⟨s, shown, .refl s⟩ event
    rcases kept with ⟨t, shown, same⟩
    exact ⟨t, shown, named.of_sameContent same⟩
  . exact h

theorem ShowsNames.run {p : Processor} (h : p.ShowsNames) (steps : List Step) :
    (p.run steps).ShowsNames := by
  induction steps generalizing p with
  | nil => exact h
  | cons step steps ih => exact ih (h.step step)

theorem isNamed_of_accepted (text : String) (d : Document) (read : Document.ofText text = .ok d) :
    (∃ raw : Document.Raw,
      Json.decode Document.record.ofNode text = .ok raw ∧
      raw.kind = NodeKind.domainmodel.name ∧
      raw.elements = d.elements) ∧
    d.IsNamed ∧
    ∀ (p : Processor) (change : DocumentChange), change.content = text →
      (∃ s, (p.apply change).1 = .ok s ∧ s.document = d ∧ s.IsNamed) ∧
      ∀ steps, ((p.apply change).2.run steps).ShowsNames := by
  have named := Document.isNamed_of_ofText read
  refine ⟨Document.exists_raw_of_ofText read, named, ?_⟩
  intro p change content
  have accepted : change.document = .ok d := by
    unfold DocumentChange.document
    rw [content]
    exact read
  constructor
  . rw [apply_fst, accepted]
    exact ⟨_, rfl, rfl, isNamed_derive _ _ change named⟩
  . intro steps
    apply ShowsNames.run
    rw [apply_snd, accepted]
    exact showsNames_accept p change named

-- A feature of an entity in a package, read from arrays, and a type that leads nowhere.
def nestedText : String :=
  "[\"Domainmodel\",null,[[\"PackageDeclaration\",\"p\",[[\"Entity\",\"E\",[[\"x\",[null,\"\"]]]]]]]]"

theorem isNamed_of_accepted_nested :
    ∃ d,
      Document.ofText nestedText = .ok d ∧
      (∃ raw : Document.Raw,
        Json.decode Document.record.ofNode nestedText = .ok raw ∧
        raw.kind = NodeKind.domainmodel.name ∧
        raw.elements = d.elements) ∧
      d.IsNamed ∧
      ∀ (p : Processor) (change : DocumentChange), change.content = nestedText →
        (∃ s, (p.apply change).1 = .ok s ∧ s.document = d ∧ s.IsNamed) ∧
        ∀ steps, ((p.apply change).2.run steps).ShowsNames := by
  have readable : (Document.ofText nestedText).toOption.isSome := by
    decide +kernel
  rw [Option.isSome_iff_exists] at readable
  rcases readable with ⟨d, read⟩
  rw [Json.toOption_eq_some_iff] at read
  exact ⟨d, read, isNamed_of_accepted nestedText d read⟩

end Processor

end DomainModel
