import DomainModel.Proofs.Document.Buckets
import DomainModel.Proofs.Outline.Inheritance
import DomainModel.Proofs.Outline.Paths

/-!
Packages in outlines. The body of a package shows in two ways: as the children of the node for the
package, in source order, and in categories if the body is outlined as if it were the root. The
categories have the same nodes, grouped by kind, except for those of persons and greetings.
-/

namespace DomainModel

namespace Outline

def members (outline : Outline) (name : String) : List Outline :=
  match outline.child? name with
  | some category => category.children
  | none => []

def grouped (kinds : List OutlineKind) (outlines : List Outline) : List Outline :=
  kinds.flatMap fun kind => outlines.filter (·.kind = kind)

/--
The outline of a body has, in categories, what the node for its package has as children: these are
grouped by kind, and those for persons and greetings, which are leaves, are left out.
-/
structure Regroups (body package : Outline) : Prop where
  categories :
    ["DataTypes", "Entities", "Packages"].flatMap body.members =
      grouped [.dataType, .entity, .package] package.children
  whole :
    body.children.flatMap (·.children) =
      grouped [.dataType, .entity, .package] package.children
  kept :
    (grouped [.dataType, .entity, .package] package.children).Perm
      (package.children.filter fun child => child.kind ≠ .person ∧ child.kind ≠ .greeting)
  leaves : ∀ child ∈ package.children,
    child.kind = .person ∨ child.kind = .greeting → child.children = []

end Outline

def NodeKind.shown : NodeKind → OutlineKind
  | .domainmodel => .domainmodel
  | .dataType => .dataType
  | .entity => .entity
  | .feature => .feature
  | .package => .package
  | .person => .person
  | .greeting => .greeting

theorem NodeKind.shown_inj {kind other : NodeKind} : kind.shown = other.shown ↔ kind = other := by
  cases kind with
  | _ => cases other <;> decide

namespace Document

theorem kind_outlineElement_eq (document : Document) (element : Element) :
    (document.outlineElement element).kind = element.kind.shown := by
  cases element with
  | _ => rfl

theorem filter_kind_outlineElements (document : Document) (elements : List Element)
    (kind : NodeKind) :
    (elements.map document.outlineElement).filter (·.kind = kind.shown) =
      (elements.filter (·.kind = kind)).map document.outlineElement := by
  rw [List.filter_map]
  congr 1
  apply List.filter_congr
  intro element _
  simp [kind_outlineElement_eq, NodeKind.shown_inj]

end Document

namespace Scope

theorem map_node_ofKind (scope : Scope) (kind : NodeKind) :
    (scope.ofKind kind).map (·.node) = scope.elements.filter (·.kind = kind) := by
  rw [ofKind_eq_filter, ← scope.map_node_located, List.filter_map]
  rfl

theorem sections_eq (scope : Scope) :
    scope.sections = [
      ("DataTypes", scope.elements.filter (·.kind = .dataType)),
      ("Entities", scope.elements.filter (·.kind = .entity)),
      ("Packages", scope.elements.filter (·.kind = .package))] := by
  simp only [← map_node_ofKind, ofKind, List.map_map]
  rfl

theorem find?_sections (scope : Scope) (part : String × List Element)
    (mem : part ∈ scope.sections) :
    (scope.sections.find? fun other => !other.2.isEmpty ∧ other.1 == part.1) =
      if part.2.isEmpty then none else some part := by
  unfold sections at mem ⊢
  simp only [List.mem_cons, List.not_mem_nil, or_false] at mem
  rcases mem with rfl | rfl | rfl
  . cases scope.dataTypes with
    | nil => simp
    | cons _ _ => simp
  . cases scope.entities with
    | nil => simp
    | cons _ _ => simp
  . cases scope.packages with
    | nil => simp
    | cons _ _ => simp

theorem members_outline (scope : Scope) :
    ∀ part ∈ scope.sections,
      scope.outline.members part.1 = part.2.map scope.document.outlineElement := by
  intro part mem
  unfold Outline.members
  rw [child?_outline, find?_sections scope part mem]
  cases known : part.2 with
  | nil => rfl
  | cons element elements => simp [outlineCategory, known]

theorem flatMap_members (scope : Scope) :
    ["DataTypes", "Entities", "Packages"].flatMap scope.outline.members =
      Outline.grouped [.dataType, .entity, .package]
        (scope.elements.map scope.document.outlineElement) := by
  have members := scope.members_outline
  rw [sections_eq] at members
  simp only [List.forall_mem_cons] at members
  rcases members with ⟨dataTypes, entities, packages, _⟩
  have dataType := scope.document.filter_kind_outlineElements scope.elements .dataType
  have entity := scope.document.filter_kind_outlineElements scope.elements .entity
  have package := scope.document.filter_kind_outlineElements scope.elements .package
  unfold Outline.grouped
  simp only [List.flatMap_cons, List.flatMap_nil]
  rw [dataTypes, entities, packages, ← dataType, ← entity, ← package]
  rfl

theorem flatMap_children_category (name : String) (children : List Outline) :
    (category name children).flatMap (·.children) = children := by
  cases children with
  | nil => rfl
  | cons child children => simp [category]

theorem flatMap_children_outline (scope : Scope) :
    scope.outline.children.flatMap (·.children) =
      ["DataTypes", "Entities", "Packages"].flatMap scope.outline.members := by
  have names : ["DataTypes", "Entities", "Packages"] = scope.sections.map (·.1) := rfl
  rw [names, List.flatMap_map, List.flatMap_congr scope.members_outline]
  rw [outline_eq, Outline.children_branch]
  unfold categories
  rw [← flatMap_category, List.flatMap_assoc]
  simp only [flatMap_children_category]

theorem exists_shows_of_mem_packages {scope : Scope} {package : Located Package}
    (mem : package ∈ scope.packages) :
    ∃ place, scope.Shows place (.element (.package package.node.name package.node.elements)) := by
  have listed : (Element.package package.node.name package.node.elements) ∈
      scope.packages.map fun item => .package item.node.name item.node.elements :=
    List.mem_map_of_mem mem
  have part : ("Packages", scope.packages.map fun item =>
      Element.package item.node.name item.node.elements) ∈ scope.categories := by
    unfold categories
    rw [List.mem_filter]
    refine ⟨by simp [sections], ?_⟩
    cases known : scope.packages with
    | nil => simp [known] at mem
    | cons _ _ => rfl
  rcases List.mem_iff_getElem?.mp part with ⟨category, at_category⟩
  rcases List.mem_iff_getElem?.mp listed with ⟨index, at_index⟩
  exact ⟨_, .listed at_category at_index⟩

theorem exists_shows_of_reached {outer scope : Scope}
    (reached : Relation.ReflTransGen Opens outer scope) :
    ∀ package ∈ scope.packages, ∃ place,
      outer.Shows place (.element (.package package.node.name package.node.elements)) := by
  induction reached with
  | refl =>
    intro package mem
    exact exists_shows_of_mem_packages mem
  | tail _ opens ih =>
    intro package mem
    rcases opens with ⟨above, isPackage, rfl⟩
    rcases ih above isPackage with ⟨place, shown⟩
    rw [mem_packages] at mem
    rcases mem with ⟨index, declared, _⟩
    exact ⟨_, .inside shown declared⟩

theorem document_of_reached {outer scope : Scope}
    (reached : Relation.ReflTransGen Opens outer scope) : scope.document = outer.document := by
  induction reached with
  | refl => rfl
  | tail _ opens ih =>
    rcases opens with ⟨_, _, rfl⟩
    exact ih

theorem regroups_outline (scope : Scope) (name : String) :
    scope.outline.Regroups (scope.document.outlineElement (.package name scope.elements)) := by
  rw [Document.outlineElement_package]
  constructor
  . exact scope.flatMap_members
  . rw [flatMap_children_outline]
    exact scope.flatMap_members
  . have others : ∀ child ∈ scope.elements.map scope.document.outlineElement,
        decide (child.kind ∈ [OutlineKind.dataType, .entity, .package]) =
          decide (child.kind ≠ .person ∧ child.kind ≠ .greeting) := by
      rw [List.forall_mem_map]
      intro element _
      rw [Document.kind_outlineElement_eq]
      cases element with
      | _ => rfl
    rw [Outline.children_branch, ← List.filter_congr others]
    apply perm_flatMap_filter_mem Outline.kind
    decide
  . rw [Outline.children_branch, List.forall_mem_map]
    intro element _ kind
    rw [Document.kind_outlineElement_eq] at kind
    cases element with
    | person _ | greeting _ => rfl
    | dataType _ | entity _ | package _ _ => simp [Element.kind, NodeKind.shown] at kind

theorem regroups_body (document : Document) (outer : Scope) (package : Located Package)
    (reached : Relation.ReflTransGen Opens document.scope outer)
    (declared : package ∈ outer.packages) :
    (outer.body package).outline.Regroups
      (document.outlineElement (.package package.node.name package.node.elements)) ∧
    ∃ place, document.scope.outline.at? place =
      some (document.outlineElement (.package package.node.name package.node.elements)) := by
  constructor
  . have same : outer.document = document := document_of_reached reached
    rw [← same]
    exact (outer.body package).regroups_outline package.node.name
  . rcases exists_shows_of_reached reached package declared with ⟨place, shown⟩
    exact ⟨place, at?_of_shows shown⟩

-- All kinds out of order, in a package inside of another.
def jumble : Located Package where
  path := (NodePath.root.child "elements" 0).child "elements" 1
  node := ⟨"q", [.entity ⟨"B", [], none⟩, .greeting ⟨{}⟩, .package "r" [], .dataType ⟨"T"⟩,
    .person ⟨"Ann"⟩, .entity ⟨"A", [], none⟩]⟩

def wrapped : Located Package where
  path := NodePath.root.child "elements" 0
  node := ⟨"p", [.person ⟨"Bob"⟩, .package jumble.node.name jumble.node.elements]⟩

def wrapping : Document where
  elements := [.package wrapped.node.name wrapped.node.elements]

theorem regroups_body_jumble :
    Relation.ReflTransGen Opens wrapping.scope (wrapping.scope.body wrapped) ∧
    jumble ∈ (wrapping.scope.body wrapped).packages ∧
    ((wrapping.scope.body wrapped).body jumble).outline.Regroups
      (wrapping.outlineElement (.package jumble.node.name jumble.node.elements)) ∧
    ∃ place, wrapping.scope.outline.at? place =
      some (wrapping.outlineElement (.package jumble.node.name jumble.node.elements)) := by
  have reached : Relation.ReflTransGen Opens wrapping.scope (wrapping.scope.body wrapped) :=
    .single ⟨wrapped, List.mem_cons_self, rfl⟩
  have declared : jumble ∈ (wrapping.scope.body wrapped).packages := List.mem_cons_self
  exact ⟨reached, declared, regroups_body wrapping _ jumble reached declared⟩

end Scope

end DomainModel
