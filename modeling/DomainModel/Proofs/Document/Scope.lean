import DomainModel.Document.Scope

namespace DomainModel

namespace Scope

theorem mem_bucket (scope : Scope) (kind? : Element → Option α) (item : Located α) :
    item ∈ scope.bucket kind? ↔
      ∃ index element,
        scope.elements[index]? = some element ∧
        kind? element = some item.node ∧
        item.path = scope.path.child "elements" index := by
  simp only [bucket, located, Located.filterMap, List.mem_filterMap, List.mem_map]
  constructor
  . rintro ⟨_, ⟨⟨element, index⟩, mem, rfl⟩, found⟩
    rw [List.mk_mem_zipIdx_iff_getElem?] at mem
    dsimp only at found
    rw [Option.map_eq_some_iff] at found
    rcases found with ⟨node, known, rfl⟩
    exact ⟨index, element, mem, known, rfl⟩
  . rintro ⟨index, element, mem, known, path⟩
    refine ⟨_, ⟨⟨element, index⟩, List.mk_mem_zipIdx_iff_getElem?.mpr mem, rfl⟩, ?_⟩
    dsimp only
    rw [known, ← path]
    rfl

theorem mem_bucket_of_iff (scope : Scope) (kind? : Element → Option α) (make : α → Element)
    (kind?_iff : ∀ element node, kind? element = some node ↔ element = make node)
    (item : Located α) :
    item ∈ scope.bucket kind? ↔
      ∃ index,
        scope.elements[index]? = some (make item.node) ∧
        item.path = scope.path.child "elements" index := by
  rw [mem_bucket]
  simp only [kind?_iff]
  constructor
  . rintro ⟨index, _, mem, rfl, path⟩
    exact ⟨index, mem, path⟩
  . rintro ⟨index, mem, path⟩
    exact ⟨index, _, mem, rfl, path⟩

theorem mem_entities (scope : Scope) (item : Located Entity) :
    item ∈ scope.entities ↔
      ∃ index,
        scope.elements[index]? = some (.entity item.node) ∧
        item.path = scope.path.child "elements" index := by
  apply mem_bucket_of_iff scope Element.entity? .entity
  intro element entity
  cases element with
  | entity other => simp [Element.entity?]
  | _ => simp [Element.entity?]

theorem mem_packages (scope : Scope) (item : Located Package) :
    item ∈ scope.packages ↔
      ∃ index,
        scope.elements[index]? = some (.package item.node.name item.node.elements) ∧
        item.path = scope.path.child "elements" index := by
  apply mem_bucket_of_iff scope Element.package? fun package =>
    .package package.name package.elements
  intro element package
  cases element with
  | package name elements =>
    rcases package with ⟨_, _⟩
    simp [Element.package?]
  | _ => simp [Element.package?]

theorem mem_dataTypes (scope : Scope) (item : Located DataType) :
    item ∈ scope.dataTypes ↔
      ∃ index,
        scope.elements[index]? = some (.dataType item.node) ∧
        item.path = scope.path.child "elements" index := by
  apply mem_bucket_of_iff scope Element.dataType? .dataType
  intro element dataType
  cases element with
  | dataType other => simp [Element.dataType?]
  | _ => simp [Element.dataType?]

theorem mem_persons (scope : Scope) (item : Located Person) :
    item ∈ scope.persons ↔
      ∃ index,
        scope.elements[index]? = some (.person item.node) ∧
        item.path = scope.path.child "elements" index := by
  apply mem_bucket_of_iff scope Element.person? .person
  intro element person
  cases element with
  | person other => simp [Element.person?]
  | _ => simp [Element.person?]

theorem ofElements_eq_flatMap (document : Document) (path : NodePath) (index : Nat)
    (elements : List Element) :
    ofElements document path index elements =
      (((elements.zipIdx index).map fun (element, index) =>
          (⟨path.child "elements" index, element⟩ : Located Element)).filterMap
        (·.filterMap Element.package?)).flatMap fun package =>
          depthFirst ⟨document, package.path, package.node.elements⟩ := by
  induction elements generalizing index with
  | nil => rfl
  | cons element elements ih =>
    rw [ofElements, ih]
    rw [List.zipIdx_cons, List.map_cons, List.filterMap_cons]
    cases element with
    | package name inner =>
      dsimp only [Located.filterMap, Element.package?, Option.map_some]
      rw [List.flatMap_cons]
      rfl
    | dataType _ | entity _ | person _ | greeting _ =>
      dsimp only [Located.filterMap, Element.package?, Option.map_none]
      rw [ofElement]
      . rfl
      . simp

theorem sizeOf_lt_of_package {elements inside : List Element} {index : Nat} {name : String}
    (declared : elements[index]? = some (.package name inside)) :
    sizeOf inside < sizeOf elements := by
  have smaller := List.sizeOf_lt_of_mem (List.mem_of_getElem? declared)
  simp only [Element.package.sizeOf_spec] at smaller
  omega

-- Induction on how deep packages nest: a scope comes after the bodies of its packages.
theorem nesting {motive : Scope → Prop}
    (scope : ∀ scope : Scope,
      (∀ package ∈ scope.packages, motive (scope.body package)) → motive scope)
    (outer : Scope) : motive outer := by
  apply scope
  intro package isPackage
  rw [mem_packages] at isPackage
  rcases isPackage with ⟨index, declared, _⟩
  exact nesting scope (outer.body package)
termination_by sizeOf outer.elements
decreasing_by exact sizeOf_lt_of_package declared

theorem depthFirst_eq (scope : Scope) :
    scope.depthFirst =
      scope :: scope.packages.flatMap fun package => (scope.body package).depthFirst := by
  unfold depthFirst
  rw [ofElements_eq_flatMap]
  rfl

inductive Encloses : Scope → Scope → Prop where
  | self (scope : Scope) : Encloses scope scope
  | package {scope inner : Scope} {index : Nat} {name : String} {elements : List Element}
      (declared : scope.elements[index]? = some (.package name elements))
      (within : Encloses ⟨scope.document, scope.path.child "elements" index, elements⟩ inner) :
      Encloses scope inner

theorem Encloses.trans {outer scope inner : Scope} (h : outer.Encloses scope)
    (h' : scope.Encloses inner) : outer.Encloses inner := by
  induction h with
  | self => exact h'
  | package declared _ ih => exact .package declared (ih h')

theorem Encloses.body {outer scope : Scope} (h : outer.Encloses scope) {index : Nat} {name : String}
    {elements : List Element} (declared : scope.elements[index]? = some (.package name elements)) :
    outer.Encloses ⟨scope.document, scope.path.child "elements" index, elements⟩ := by
  apply h.trans
  exact .package declared (.self _)

theorem mem_depthFirst_of_encloses (scope inner : Scope) (h : scope.Encloses inner) :
    inner ∈ scope.depthFirst := by
  induction h with
  | self scope =>
    rw [depthFirst_eq]
    apply List.mem_cons_self
  | @package scope inner index name elements declared within ih =>
    rw [depthFirst_eq, List.mem_cons, List.mem_flatMap]
    right
    refine ⟨⟨scope.path.child "elements" index, ⟨name, elements⟩⟩, ?_, ih⟩
    rw [mem_packages]
    exact ⟨index, declared, rfl⟩

theorem encloses_of_mem_depthFirst (scope inner : Scope) (mem : inner ∈ scope.depthFirst) :
    scope.Encloses inner := by
  induction scope using nesting with
  | scope scope ih =>
    rw [depthFirst_eq, List.mem_cons, List.mem_flatMap] at mem
    rcases mem with rfl | ⟨package, isPackage, mem⟩
    . apply Encloses.self
    . have within := ih package isPackage mem
      rw [mem_packages] at isPackage
      rcases isPackage with ⟨index, declared, path⟩
      unfold body at within
      rw [path] at within
      exact .package declared within

theorem mem_depthFirst_iff (scope inner : Scope) :
    inner ∈ scope.depthFirst ↔ scope.Encloses inner := by
  constructor
  . exact encloses_of_mem_depthFirst scope inner
  . exact mem_depthFirst_of_encloses scope inner

end Scope

end DomainModel
