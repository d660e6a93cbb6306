import DomainModel.Proofs.Document.Scope

namespace DomainModel

section Revise

variable (onEntity : Entity → Entity) (onGreeting : Greeting → Greeting)

mutual

def Element.revise : Element → Element
  | .dataType d => .dataType d
  | .entity e => .entity (onEntity e)
  | .package name elements => .package name (reviseAll elements)
  | .person p => .person p
  | .greeting g => .greeting (onGreeting g)
termination_by structural element => element

def reviseAll : List Element → List Element
  | [] => []
  | element :: elements => element.revise :: reviseAll elements
termination_by structural elements => elements

end

theorem reviseAll_eq_map (elements : List Element) :
    reviseAll onEntity onGreeting elements = elements.map (·.revise onEntity onGreeting) := by
  induction elements with
  | nil => rfl
  | cons element elements ih => rw [reviseAll, ih, List.map_cons]

def Document.revise (document : Document) : Document :=
  { document with elements := document.elements.map (·.revise onEntity onGreeting) }

namespace Scope

def revise (scope : Scope) : Scope where
  document := scope.document.revise onEntity onGreeting
  path := scope.path
  elements := scope.elements.map (·.revise onEntity onGreeting)

mutual

theorem ofElement_revise (document : Document) (path : NodePath) (element : Element) :
    ofElement (document.revise onEntity onGreeting) path (element.revise onEntity onGreeting) =
      (ofElement document path element).map (revise onEntity onGreeting) := by
  cases element with
  | package name elements =>
    rw [Element.revise, ofElement, ofElement, List.map_cons, reviseAll_eq_map]
    rw [ofElements_map_revise]
    rfl
  | dataType _ | entity _ | person _ | greeting _ => rfl

theorem ofElements_map_revise (document : Document) (path : NodePath) (index : Nat)
    (elements : List Element) :
    ofElements (document.revise onEntity onGreeting) path index
        (elements.map (·.revise onEntity onGreeting)) =
      (ofElements document path index elements).map (revise onEntity onGreeting) := by
  cases elements with
  | nil => rfl
  | cons element elements =>
    rw [List.map_cons, ofElements, ofElements, List.map_append]
    rw [ofElement_revise, ofElements_map_revise]

end

theorem depthFirst_revise (scope : Scope) :
    (scope.revise onEntity onGreeting).depthFirst =
      scope.depthFirst.map (revise onEntity onGreeting) := by
  unfold depthFirst
  rw [List.map_cons, ← ofElements_map_revise]
  rfl

theorem encloses_revise_iff (scope inner : Scope) :
    (scope.revise onEntity onGreeting).Encloses inner ↔
      ∃ before, scope.Encloses before ∧ before.revise onEntity onGreeting = inner := by
  rw [← mem_depthFirst_iff, depthFirst_revise, List.mem_map]
  simp only [mem_depthFirst_iff]

end Scope

end Revise

end DomainModel
