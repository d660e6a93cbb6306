import DomainModel.Outline

namespace DomainModel

namespace Outline

@[simp]
theorem name_withTag (tag : Tag) (outline : Outline) :
    (outline.withTag tag).name = outline.name := by
  cases outline
  rfl

@[simp]
theorem kind_withTag (tag : Tag) (outline : Outline) :
    (outline.withTag tag).kind = outline.kind := by
  cases outline
  rfl

@[simp]
theorem children_withTag (tag : Tag) (outline : Outline) :
    (outline.withTag tag).children = outline.children := by
  cases outline
  rfl

@[simp]
theorem hasTag_withTag (tag other : Tag) (outline : Outline) :
    (outline.withTag tag).hasTag other = (outline.hasTag other || other == tag) := by
  rcases outline with ⟨name, kind, tags, children⟩
  unfold hasTag withTag Outline.tags
  dsimp only
  split
  . next known =>
    cases same : other == tag with
    | false => rw [Bool.or_false]
    | true =>
      rw [beq_iff_eq] at same
      rw [same, known, Bool.or_true]
  . rw [Bool.eq_iff_iff]
    simp

@[simp]
theorem name_branch (name : String) (kind : OutlineKind) (children : List Outline) :
    (branch name kind children).name = name := rfl

@[simp]
theorem kind_branch (name : String) (kind : OutlineKind) (children : List Outline) :
    (branch name kind children).kind = kind := rfl

@[simp]
theorem children_branch (name : String) (kind : OutlineKind) (children : List Outline) :
    (branch name kind children).children = children := rfl

@[simp]
theorem hasTag_branch (tag : Tag) (name : String) (kind : OutlineKind) (children : List Outline) :
    (branch name kind children).hasTag tag = false := rfl

@[simp]
theorem name_leaf (name : String) (kind : OutlineKind) : (leaf name kind).name = name := rfl

@[simp]
theorem kind_leaf (name : String) (kind : OutlineKind) : (leaf name kind).kind = kind := rfl

@[simp]
theorem children_leaf (name : String) (kind : OutlineKind) : (leaf name kind).children = [] := rfl

@[simp]
theorem hasTag_leaf (tag : Tag) (name : String) (kind : OutlineKind) :
    (leaf name kind).hasTag tag = false := rfl

end Outline

namespace Document

def outlineType (document : Document) (reference : Reference) : Outline :=
  match document.resolveType reference with
  | some (.dataType dataType) => .leaf dataType.name .dataType
  | some (.entity entity) => .leaf entity.name .entity
  | none => .leaf (reference.text.getD unknown) .unresolvedType

@[simp]
theorem children_outlineType (d : Document) (reference : Reference) :
    (d.outlineType reference).children = [] := by
  unfold outlineType
  split
  . rfl
  . rfl
  . rfl

@[simp]
theorem hasTag_outlineType (d : Document) (reference : Reference) (tag : Tag) :
    (d.outlineType reference).hasTag tag = false := by
  unfold outlineType
  split
  . rfl
  . rfl
  . rfl

theorem kind_outlineType (d : Document) (reference : Reference) :
    (d.outlineType reference).kind =
      match d.resolveType reference with
      | some (.dataType _) => .dataType
      | some (.entity _) => .entity
      | none => .unresolvedType := by
  unfold outlineType
  split
  . rfl
  . rfl
  . rfl

theorem outlineFeature_eq (d : Document) (f : Feature) :
    d.outlineFeature f =
      if f.many then
        (Outline.branch (f.name ++ "[]") .feature [d.outlineType f.type]).withTag .many
      else .branch f.name .feature [d.outlineType f.type] := rfl

@[simp]
theorem kind_outlineFeature (d : Document) (f : Feature) :
    (d.outlineFeature f).kind = .feature := by
  rw [outlineFeature_eq]
  split
  . rfl
  . rfl

@[simp]
theorem children_outlineFeature (d : Document) (f : Feature) :
    (d.outlineFeature f).children = [d.outlineType f.type] := by
  rw [outlineFeature_eq]
  split
  . rfl
  . rfl

@[simp]
theorem hasTag_outlineFeature (d : Document) (f : Feature) (tag : Tag) :
    (d.outlineFeature f).hasTag tag = (f.many && tag == .many) := by
  rw [outlineFeature_eq]
  split
  . next many => simp [many]
  . next one => simp [one]

def outlineSuper (document : Document) (super : Entity) : Outline :=
  (Outline.branch super.name .entity (super.features.map document.outlineFeature)).withTag
    .supertype

@[simp]
theorem name_outlineSuper (d : Document) (super : Entity) :
    (d.outlineSuper super).name = super.name := rfl

@[simp]
theorem kind_outlineSuper (d : Document) (super : Entity) :
    (d.outlineSuper super).kind = .entity := rfl

@[simp]
theorem children_outlineSuper (d : Document) (super : Entity) :
    (d.outlineSuper super).children = super.features.map d.outlineFeature := rfl

@[simp]
theorem hasTag_outlineSuper (d : Document) (super : Entity) (tag : Tag) :
    (d.outlineSuper super).hasTag tag = (tag == .supertype) := by
  simp [outlineSuper]

@[simp]
theorem name_outlineEntity (d : Document) (e : Entity) : (d.outlineEntity e).name = e.name := rfl

@[simp]
theorem kind_outlineEntity (d : Document) (e : Entity) : (d.outlineEntity e).kind = .entity := rfl

@[simp]
theorem hasTag_outlineEntity (d : Document) (e : Entity) (tag : Tag) :
    (d.outlineEntity e).hasTag tag = false := rfl

theorem children_outlineEntity (d : Document) (e : Entity) :
    (d.outlineEntity e).children =
      e.features.map d.outlineFeature ++ (d.superEntity e).toList.map d.outlineSuper := by
  unfold outlineEntity
  cases d.superEntity e with
  | none => rfl
  | some super => rfl

theorem outlineElements_eq_map (d : Document) (es : List Element) :
    d.outlineElements es = es.map d.outlineElement := by
  induction es with
  | nil => rfl
  | cons e es ih => rw [outlineElements, ih, List.map_cons]

@[simp]
theorem outlineElement_entity (d : Document) (e : Entity) :
    d.outlineElement (.entity e) = d.outlineEntity e := rfl

@[simp]
theorem outlineElement_package (d : Document) (name : String) (elements : List Element) :
    d.outlineElement (.package name elements) =
      .branch name .package (elements.map d.outlineElement) := by
  rw [outlineElement, outlineElements_eq_map]

theorem kind_outlineElement (d : Document) (element : Element) :
    (d.outlineElement element).kind =
      match element with
      | .dataType _ => .dataType
      | .entity _ => .entity
      | .package _ _ => .package
      | .person _ => .person
      | .greeting _ => .greeting := by
  cases element with
  | _ => rfl

@[simp]
theorem hasTag_outlineElement (d : Document) (element : Element) (tag : Tag) :
    (d.outlineElement element).hasTag tag = false := by
  cases element with
  | _ => rfl

end Document

namespace Scope

def sections (scope : Scope) : List (String × List Element) := [
  ("DataTypes", scope.dataTypes.map fun item => .dataType item.node),
  ("Entities", scope.entities.map fun item => .entity item.node),
  ("Packages", scope.packages.map fun item => .package item.node.name item.node.elements)]

def categories (scope : Scope) : List (String × List Element) :=
  scope.sections.filter fun part => !part.2.isEmpty

def outlineCategory (scope : Scope) (part : String × List Element) : Outline :=
  .branch part.1 .category (part.2.map scope.document.outlineElement)

theorem flatMap_category (scope : Scope) (parts : List (String × List Element)) :
    (parts.flatMap fun part => category part.1 (part.2.map scope.document.outlineElement)) =
      (parts.filter fun part => !part.2.isEmpty).map scope.outlineCategory := by
  induction parts with
  | nil => rfl
  | cons part parts ih =>
    rw [List.flatMap_cons, ih]
    rcases part with ⟨name, elements⟩
    cases elements with
    | nil => rfl
    | cons element elements => rfl

theorem outline_eq (scope : Scope) :
    scope.outline =
      .branch "Domainmodel" .domainmodel (scope.categories.map scope.outlineCategory) := by
  unfold categories
  rw [← flatMap_category]
  unfold sections
  simp only [List.flatMap_cons, List.flatMap_nil, List.append_nil, List.map_map]
  rw [← List.append_assoc]
  rfl

end Scope

end DomainModel
