import DomainModel.Proofs.Document.Names
import DomainModel.Proofs.Layout.Inheritance
import DomainModel.Proofs.Outline.Nodes

namespace DomainModel

namespace Outline

inductive Every (P : Outline → Prop) : Outline → Prop where
  | node {name : String} {kind : OutlineKind} {tags : List Tag} {children : List Outline}
      (here : P (.node name kind tags children)) (inside : ∀ child ∈ children, Every P child) :
      Every P (.node name kind tags children)

def ShowsName (outline : Outline) : Prop :=
  outline.kind ≠ .unresolvedType → outline.name ≠ ""

theorem every_branch {name : String} (kind : OutlineKind) (children : List Outline)
    (named : name ≠ "") (inside : ∀ child ∈ children, child.Every ShowsName) :
    (branch name kind children).Every ShowsName := by
  apply Every.node
  . intro _
    exact named
  . exact inside

theorem every_leaf {name : String} (kind : OutlineKind) (named : name ≠ "") :
    (leaf name kind).Every ShowsName := by
  apply every_branch kind [] named
  simp

theorem every_withTag (tag : Tag) (outline : Outline) (h : outline.Every ShowsName) :
    (outline.withTag tag).Every ShowsName := by
  cases h with
  | node here inside => exact .node here inside

end Outline

namespace Document

open Outline (ShowsName every_branch every_leaf every_withTag)

variable {d : Document}

theorem every_outlineDataType (t : DataType) (given : t.name ≠ "") :
    (outlineDataType t).Every ShowsName := by
  apply every_leaf
  exact given

theorem every_outlineFeature (named : d.IsNamed) (f : Feature) (given : f.name ≠ "") :
    (d.outlineFeature f).Every ShowsName := by
  unfold outlineFeature
  have whole (type : Outline) (h : type.Every ShowsName) :
      (if f.many then (Outline.branch (f.name ++ "[]") .feature [type]).withTag .many
        else .branch f.name .feature [type]).Every ShowsName := by
    have inside : ∀ child ∈ [type], child.Every ShowsName := by simpa using h
    split
    . apply every_withTag
      apply every_branch
      . simp
      . exact inside
    . apply every_branch
      . exact given
      . exact inside
  apply whole
  split
  . next t resolved =>
    rw [resolveType_eq_some_iff, target?_eq_some_iff] at resolved
    rcases resolved with ⟨path, _, there⟩
    apply every_outlineDataType
    exact isNamed_of_lookup named there
  . next e resolved =>
    rw [resolveType_eq_some_iff, target?_eq_some_iff] at resolved
    rcases resolved with ⟨path, _, there⟩
    apply every_leaf
    exact (isNamed_of_lookup named there).1
  . apply Outline.Every.node
    . intro other
      exact absurd rfl other
    . simp

theorem every_outlineEntity (named : d.IsNamed) (e : Entity) (given : (Element.entity e).IsNamed) :
    (d.outlineEntity e).Every ShowsName := by
  have features (e : Entity) (given : (Element.entity e).IsNamed) :
      ∀ child ∈ e.features.map d.outlineFeature, child.Every ShowsName := by
    rw [List.forall_mem_map]
    intro f mem
    apply every_outlineFeature named
    exact given.2 f mem
  unfold outlineEntity
  apply every_branch
  . exact given.1
  . rw [List.forall_mem_append]
    refine ⟨features e given, ?_⟩
    split
    . next super extended =>
      rcases (Graph.superEntity_eq_some_iff d e super).mp extended with ⟨path, _, there⟩
      have given := isNamed_of_lookup named there
      rw [List.forall_mem_singleton]
      apply every_withTag
      apply every_branch
      . exact given.1
      . exact features super given
    . simp

-- The induction is on the nesting of packages, whose bodies are scopes of the document as well.
theorem every_outlineElement (named : d.IsNamed) (scope : Scope)
    (enclosed : d.scope.Encloses scope) (e : Element) (mem : e ∈ scope.elements) :
    (d.outlineElement e).Every ShowsName := by
  have given := named scope enclosed e mem
  cases e with
  | dataType t =>
    rw [outlineElement]
    exact every_outlineDataType t given
  | entity e =>
    rw [outlineElement]
    exact every_outlineEntity named e given
  | person p =>
    rw [outlineElement]
    apply every_leaf
    exact given
  | greeting g =>
    rw [outlineElement]
    apply every_leaf
    simp
  | package name elements =>
    rw [outlineElement, outlineElements_eq_map]
    apply every_branch
    . exact given
    . rw [List.forall_mem_map]
      intro inner inside
      rw [List.mem_iff_getElem?] at mem
      rcases mem with ⟨index, declared⟩
      exact every_outlineElement named _ (enclosed.body declared) inner inside
termination_by sizeOf scope.elements
decreasing_by exact Scope.sizeOf_lt_of_package declared

end Document

namespace Scope

open Outline (ShowsName every_branch)

theorem every_category {name : String} (given : name ≠ "") (children : List Outline)
    (inside : ∀ child ∈ children, child.Every ShowsName) :
    ∀ child ∈ category name children, child.Every ShowsName := by
  unfold category
  split
  . simp
  . rw [List.forall_mem_singleton]
    apply every_branch
    . exact given
    . exact inside

end Scope

theorem Document.every_outline {d : Document} (named : d.IsNamed) :
    d.scope.outline.Every Outline.ShowsName := by
  have declared {index : Nat} {e : Element} (at_index : d.scope.elements[index]? = some e) :=
    every_outlineElement named d.scope (.self _) e (List.mem_of_getElem? at_index)
  unfold Scope.outline
  apply Outline.every_branch
  . decide
  . rw [List.forall_mem_append, List.forall_mem_append]
    refine ⟨⟨?_, ?_⟩, ?_⟩
    . apply Scope.every_category
      . decide
      . rw [List.forall_mem_map]
        intro item mem
        rw [Scope.mem_dataTypes] at mem
        rcases mem with ⟨_, at_index, _⟩
        have whole := declared at_index
        rw [outlineElement] at whole
        exact whole
    . apply Scope.every_category
      . decide
      . rw [List.forall_mem_map]
        intro item mem
        rw [Scope.mem_entities] at mem
        rcases mem with ⟨_, at_index, _⟩
        have whole := declared at_index
        rw [outlineElement] at whole
        exact whole
    . apply Scope.every_category
      . decide
      . rw [List.forall_mem_map]
        intro item mem
        rw [Scope.mem_packages] at mem
        rcases mem with ⟨_, at_index, _⟩
        have whole := declared at_index
        rw [outlineElement] at whole
        exact whole

end DomainModel
