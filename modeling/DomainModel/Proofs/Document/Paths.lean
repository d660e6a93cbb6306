import DomainModel.Proofs.Document.Scope
import DomainModel.Proofs.NodePath.Printed
import Mathlib.Data.List.Lex
import Mathlib.Data.List.Nodup

namespace DomainModel

theorem NodePath.child_inj {path other : NodePath} {property : String} {i j : Nat} :
    path.child property i = other.child property j ↔ path = other ∧ i = j := by
  rcases path with ⟨segments⟩
  rcases other with ⟨others⟩
  unfold child
  simp only [mk.injEq]
  constructor
  . intro same
    rw [List.append_singleton_inj] at same
    rcases same with ⟨rfl, same⟩
    cases same
    exact ⟨rfl, rfl⟩
  . rintro ⟨rfl, rfl⟩
    rfl

theorem NodePath.eq_of_prefix {path other : NodePath} {segments : List Segment}
    (h : path.segments <+: segments) (h' : other.segments <+: segments)
    (even : path.segments.length = other.segments.length) : path = other := by
  have inside := List.prefix_of_prefix_length_le h h' (Nat.le_of_eq even)
  exact congrArg NodePath.mk (inside.eq_of_length even)

def NodePath.indexes (path : NodePath) : List Nat := path.segments.filterMap (·.index)

namespace NodePath

theorem exists_indexes_of_prefix {path other : NodePath} {property : String} {index : Nat}
    (h : (path.child property index).segments <+: other.segments) :
    ∃ further, other.indexes = path.indexes ++ index :: further := by
  rcases h with ⟨rest, way⟩
  refine ⟨rest.filterMap (·.index), ?_⟩
  unfold indexes
  rw [← way]
  simp [child]

theorem indexes_lt_of_prefix {path other : NodePath} {property : String} {index : Nat}
    (h : (path.child property index).segments <+: other.segments) :
    path.indexes < other.indexes := by
  rcases exists_indexes_of_prefix h with ⟨further, way⟩
  rw [way]
  simpa using List.Lex.append_left (· < ·) (List.Lex.nil (a := index) (l := further)) path.indexes

theorem indexes_lt_of_prefixes {path inner other : NodePath} {property : String} {i j : Nat}
    (lt : i < j) (h : (path.child property i).segments <+: inner.segments)
    (h' : (path.child property j).segments <+: other.segments) :
    inner.indexes < other.indexes := by
  rcases exists_indexes_of_prefix h with ⟨further, way⟩
  rcases exists_indexes_of_prefix h' with ⟨further', way'⟩
  rw [way, way']
  exact List.Lex.append_left (· < ·) (.rel lt) path.indexes

end NodePath

/-- Every list of elements is as short as memory with addresses of 64 bits has it. -/
def Document.Fits (document : Document) : Prop :=
  ∀ scope, document.scope.Encloses scope → scope.elements.length ≤ UInt64.size

theorem Document.fits_iff (document : Document) :
    document.Fits ↔
      ∀ scope ∈ document.scope.depthFirst, scope.elements.length ≤ UInt64.size := by
  unfold Fits
  simp only [Scope.mem_depthFirst_iff]

instance (document : Document) : Decidable document.Fits :=
  decidable_of_iff' _ document.fits_iff

namespace Scope

theorem Encloses.legible {outer inner : Scope} (h : outer.Encloses inner)
    (fits : ∀ scope, outer.Encloses scope → scope.elements.length ≤ UInt64.size)
    (known : ∀ segment ∈ outer.path.segments, segment.Legible) :
    ∀ segment ∈ inner.path.segments, segment.Legible := by
  induction h with
  | self => exact known
  | @package outer inner index name elements declared within ih =>
    apply ih
    . intro scope enclosed
      apply fits
      exact .package declared enclosed
    . have bound := fits outer (.self outer)
      have inside := (List.getElem?_eq_some_iff.mp declared).1
      apply NodePath.legible_child known (.inl rfl)
      omega

theorem ofText_toString_child {document : Document} (fits : document.Fits) {scope : Scope}
    (enclosed : document.scope.Encloses scope) {index : Nat}
    (inside : index < scope.elements.length) :
    NodePath.ofText (toString (scope.path.child "elements" index)) =
      .ok (scope.path.child "elements" index) := by
  apply NodePath.ofText_toString
  apply NodePath.legible_child _ (.inl rfl)
  . have bound := fits scope enclosed
    omega
  . apply enclosed.legible fits
    intro segment mem
    cases mem

theorem Encloses.isPrefix {outer inner : Scope} (h : outer.Encloses inner) :
    outer.path.segments <+: inner.path.segments := by
  induction h with
  | self => exact List.prefix_rfl
  | package _ _ ih => exact (List.prefix_append _ _).trans ih

theorem pairwise_index_lt (elements : List Element) :
    elements.zipIdx.Pairwise fun item other => item.2 < other.2 := by
  rw [← List.pairwise_map, List.zipIdx_map_snd]
  exact List.pairwise_lt_range'

theorem pairwise_index_ne (elements : List Element) :
    elements.zipIdx.Pairwise fun item other => item.2 ≠ other.2 := by
  apply (pairwise_index_lt elements).imp
  intro item other before
  exact Nat.ne_of_lt before

theorem pairwise_packages (scope : Scope) :
    scope.packages.Pairwise fun package other =>
      ∃ i j, i < j ∧ package.path = scope.path.child "elements" i ∧
        other.path = scope.path.child "elements" j := by
  unfold packages bucket located
  rw [List.pairwise_filterMap, List.pairwise_map]
  apply (pairwise_index_lt scope.elements).imp
  intro item other before package isPackage next isNext
  dsimp only [Located.filterMap] at isPackage isNext
  rw [Option.map_eq_some_iff] at isPackage isNext
  rcases isPackage with ⟨_, _, rfl⟩
  rcases isNext with ⟨_, _, rfl⟩
  exact ⟨item.2, other.2, before, rfl, rfl⟩

theorem prefix_of_mem_body {scope inner : Scope} {package : Located Package}
    (mem : inner ∈ (scope.body package).depthFirst) :
    package.path.segments <+: inner.path.segments := by
  rw [mem_depthFirst_iff] at mem
  exact mem.isPrefix

theorem pairwise_indexes_depthFirst (scope : Scope) :
    scope.depthFirst.Pairwise fun inner other => inner.path.indexes < other.path.indexes := by
  induction scope using nesting with
  | scope scope ih =>
    rw [depthFirst_eq, List.pairwise_cons, List.pairwise_flatMap]
    refine ⟨?_, ih, ?_⟩
    . intro inner mem
      rw [List.mem_flatMap] at mem
      rcases mem with ⟨package, isPackage, mem⟩
      rw [mem_packages] at isPackage
      rcases isPackage with ⟨index, _, path⟩
      have before := prefix_of_mem_body mem
      rw [path] at before
      exact NodePath.indexes_lt_of_prefix before
    . apply scope.pairwise_packages.imp
      rintro package other ⟨i, j, lt, path, path'⟩ inner mem inner' mem'
      have before := prefix_of_mem_body mem
      have before' := prefix_of_mem_body mem'
      rw [path] at before
      rw [path'] at before'
      exact NodePath.indexes_lt_of_prefixes lt before before'

theorem nodup_path_depthFirst (scope : Scope) : (scope.depthFirst.map (·.path)).Nodup := by
  rw [List.Nodup, List.pairwise_map]
  apply scope.pairwise_indexes_depthFirst.imp
  intro inner other before same
  rw [same] at before
  exact List.lt_irrefl _ before

end Scope

end DomainModel
