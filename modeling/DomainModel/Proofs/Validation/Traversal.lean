import DomainModel.Proofs.Document.Buckets
import DomainModel.Proofs.Document.Containment
import DomainModel.Proofs.Document.Paths
import DomainModel.Validation
import Mathlib.Data.List.Perm.Basic

namespace DomainModel

namespace Scope

mutual

inductive Traverses : Scope → List Visit → Prop where
  | scope {scope : Scope} {inside : List Visit} (packages : TraversesEach scope scope.packages inside) :
      Traverses scope (scope.ownVisits ++ inside)

inductive TraversesEach : Scope → List (Located Package) → List Visit → Prop where
  | nil {scope : Scope} : TraversesEach scope [] []
  | cons {scope : Scope} {package : Located Package} {packages : List (Located Package)}
      {first later : List Visit} (body : Traverses (scope.body package) first)
      (rest : TraversesEach scope packages later) :
      TraversesEach scope (package :: packages) (first ++ later)

end

theorem visits_eq (scope : Scope) :
    scope.visits =
      scope.ownVisits ++ scope.packages.flatMap fun package => (scope.body package).visits := by
  unfold visits
  rw [depthFirst_eq, List.flatMap_cons, List.flatMap_assoc]

mutual

theorem Traverses.eq_visits {scope : Scope} {calls : List Visit} (h : scope.Traverses calls) :
    calls = scope.visits := by
  match h with
  | .scope packages =>
    have inside := packages.eq_flatMap
    rw [visits_eq, inside]
termination_by structural h

theorem TraversesEach.eq_flatMap {scope : Scope} {packages : List (Located Package)}
    {calls : List Visit} (h : scope.TraversesEach packages calls) :
    calls = packages.flatMap fun package => (scope.body package).visits := by
  match h with
  | .nil => rfl
  | .cons body rest =>
    have first := body.eq_visits
    have later := rest.eq_flatMap
    rw [List.flatMap_cons, ← first, ← later]
termination_by structural h

end

theorem traversesEach_visits {scope : Scope} {packages : List (Located Package)}
    (bodies : ∀ package ∈ packages, (scope.body package).Traverses (scope.body package).visits) :
    scope.TraversesEach packages (packages.flatMap fun package => (scope.body package).visits) := by
  induction packages with
  | nil => exact .nil
  | cons package packages ih =>
    rw [List.forall_mem_cons] at bodies
    exact .cons bodies.1 (ih bodies.2)

theorem traverses_visits (scope : Scope) : scope.Traverses scope.visits := by
  induction scope using nesting with
  | scope scope ih =>
    rw [visits_eq]
    apply Traverses.scope
    exact traversesEach_visits ih

theorem traverses_iff (scope : Scope) (calls : List Visit) :
    scope.Traverses calls ↔ calls = scope.visits := by
  constructor
  . exact Traverses.eq_visits
  . rintro rfl
    exact scope.traverses_visits

end Scope

def Declaration.isElement : Declaration → Bool
  | .element _ => true
  | .feature _ => false

theorem Element.filter_featureDeclarations (path : NodePath) (features : List Feature) :
    (featureDeclarations path features).filter (·.node.isElement) = [] := by
  rw [List.filter_eq_nil_iff]
  unfold featureDeclarations
  rw [List.forall_mem_map]
  intro item _
  exact Bool.false_ne_true

namespace Scope

mutual

theorem perm_located_ofElement (document : Document) (path : NodePath) (element : Element) :
    ((⟨path, element⟩ :: (ofElement document path element).flatMap located).map
        (Located.map Declaration.element)).Perm
      ((element.declarations path).filter (·.node.isElement)) := by
  cases element with
  | package name elements =>
    rw [ofElement, Element.declarations, List.map_cons, List.filter_cons_of_pos rfl]
    exact (perm_located_ofElements document path 0 elements).cons _
  | entity e =>
    rw [Element.declarations, List.filter_cons_of_pos rfl, Element.filter_featureDeclarations]
    exact .refl _
  | dataType _ | person _ | greeting _ => exact .refl _
termination_by structural element

theorem perm_located_ofElements (document : Document) (path : NodePath) (index : Nat)
    (elements : List Element) :
    (((elements.zipIdx index).map (fun (element, index) =>
        (⟨path.child "elements" index, element⟩ : Located Element)) ++
      (ofElements document path index elements).flatMap located).map
        (Located.map Declaration.element)).Perm
      ((Element.declarationsFrom path index elements).filter (·.node.isElement)) := by
  cases elements with
  | nil => exact .refl _
  | cons element elements =>
    have first := perm_located_ofElement document (path.child "elements" index) element
    have later := perm_located_ofElements document path (index + 1) elements
    rw [ofElements, Element.declarationsFrom, List.zipIdx_cons, List.map_cons, List.flatMap_append,
      List.filter_append]
    -- What is inside the first element comes between it and the elements after it.
    apply List.Perm.trans _ (first.append later)
    rw [← List.map_append]
    apply List.Perm.map
    exact (List.perm_append_comm_assoc _ _ _).cons _
termination_by structural elements

end

theorem perm_located_depthFirst (document : Document) :
    ((document.scope.depthFirst.flatMap located).map (Located.map Declaration.element)).Perm
      (document.declarations.filter (·.node.isElement)) := by
  unfold depthFirst
  rw [List.flatMap_cons]
  exact perm_located_ofElements document .root 0 document.elements

end Scope

def Visit.items : Visit → List (Located Element)
  | .entities items => items.map (·.map .entity)
  | .greetings items => items.map (·.map .greeting)
  | .persons items => items.map (·.map .person)

def Visit.kinds : List NodeKind := [.entity, .greeting, .person]

namespace Scope

theorem perm_items_ownVisits (scope : Scope) :
    (scope.ownVisits.flatMap Visit.items).Perm
      (scope.located.filter (·.node.kind ∈ Visit.kinds)) := by
  have buckets : scope.ownVisits.flatMap Visit.items =
      Visit.kinds.flatMap fun kind => scope.located.filter (·.node.kind = kind) := by
    rw [← funext scope.ofKind_eq_filter]
    rfl
  rw [buckets]
  apply perm_flatMap_filter_mem fun item : Located Element => item.node.kind
  decide

theorem perm_items_visits (scope : Scope) :
    (scope.visits.flatMap Visit.items).Perm
      ((scope.depthFirst.flatMap located).filter (·.node.kind ∈ Visit.kinds)) := by
  unfold visits
  rw [List.flatMap_assoc, List.filter_flatMap]
  apply List.Perm.flatMap_left
  intro inner _
  exact inner.perm_items_ownVisits

end Scope

namespace Document

theorem perm_items_visits (document : Document) :
    ((document.scope.visits.flatMap Visit.items).map (Located.map Declaration.element)).Perm
      (document.declarations.filter (·.node.kind ∈ Visit.kinds)) := by
  have kept : document.declarations.filter (·.node.kind ∈ Visit.kinds) =
      (document.declarations.filter (·.node.isElement)).filter (·.node.kind ∈ Visit.kinds) := by
    rw [List.filter_filter]
    apply List.filter_congr
    intro item _
    cases item.node with
    | element element => exact (Bool.and_true _).symm
    | feature feature => rfl
  rw [kept]
  apply List.Perm.trans (document.scope.perm_items_visits.map _)
  apply List.Perm.trans _ ((Scope.perm_located_depthFirst document).filter _)
  rw [List.filter_map]
  exact .refl _

structure InSourceOrder (document : Document) (scopes : List Scope) : Prop where
  all : ∀ scope, scope ∈ scopes ↔ document.scope.Encloses scope
  ordered : scopes.Pairwise fun scope other => scope.path.indexes < other.path.indexes
  inward : scopes.Pairwise fun scope other => ¬ other.Encloses scope

theorem inSourceOrder_depthFirst (document : Document) :
    document.InSourceOrder document.scope.depthFirst where
  all := document.scope.mem_depthFirst_iff
  ordered := document.scope.pairwise_indexes_depthFirst
  inward := by
    apply document.scope.pairwise_indexes_depthFirst.imp
    intro scope other before enclosed
    exact (enclosed.isPrefix.filterMap (·.index)).le before

structure Traversed (document : Document) (calls : List Visit) : Prop where
  scopes : ∃ scopes, document.InSourceOrder scopes ∧ calls = scopes.flatMap Scope.ownVisits
  once :
    ((calls.flatMap Visit.items).map (Located.map Declaration.element)).Perm
      (document.declarations.filter (·.node.kind ∈ Visit.kinds))
  distinct : ((calls.flatMap Visit.items).map (·.path)).Nodup

theorem traversed_visits (document : Document) : document.Traversed document.scope.visits where
  scopes := ⟨_, document.inSourceOrder_depthFirst, rfl⟩
  once := document.perm_items_visits
  distinct := by
    have paths := document.perm_items_visits.map (·.path)
    rw [List.map_map] at paths
    apply paths.nodup_iff.mpr
    exact document.nodup_path_declarations.sublist (List.filter_sublist.map _)

theorem traverses_once (document : Document) :
    (∀ calls, document.scope.Traverses calls ↔ calls = document.scope.visits) ∧
    document.Traversed document.scope.visits := by
  constructor
  . exact document.scope.traverses_iff
  . exact document.traversed_visits

end Document

end DomainModel
