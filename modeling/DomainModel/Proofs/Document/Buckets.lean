import DomainModel.Proofs.Document.Lookup
import Mathlib.Data.List.Basic
import Mathlib.Logic.Relation

namespace DomainModel

theorem perm_flatMap_filter {α κ : Type} [DecidableEq κ] (kind : α → κ) (kinds : List κ)
    (distinct : kinds.Nodup) (items : List α) (known : ∀ item ∈ items, kind item ∈ kinds) :
    (kinds.flatMap fun k => items.filter (kind · = k)).Perm items := by
  induction kinds generalizing items with
  | nil =>
    rw [List.eq_nil_iff_forall_not_mem.mpr fun item mem => List.not_mem_nil (known item mem)]
    exact .refl _
  | cons k kinds ih =>
    rw [List.nodup_cons] at distinct
    -- The other kinds find among the items that are left what they find among all of them.
    have others : (kinds.flatMap fun l => items.filter (kind · = l)) =
        kinds.flatMap fun l => (items.filter (kind · ≠ k)).filter (kind · = l) := by
      apply List.flatMap_congr
      intro l mem
      rw [List.filter_filter]
      apply List.filter_congr
      intro item _
      have other : l ≠ k := fun same => distinct.1 (same ▸ mem)
      by_cases found : kind item = l
      . simp [found, other]
      . simp [found]
    have left : ∀ item ∈ items.filter (kind · ≠ k), kind item ∈ kinds := by
      intro item mem
      rw [List.mem_filter, decide_eq_true_iff] at mem
      exact (List.mem_cons.mp (known item mem.1)).resolve_left mem.2
    rw [List.flatMap_cons, others]
    apply ((ih distinct.2 _ left).append_left _).trans
    have parts := List.filter_append_perm (fun item => decide (kind item = k)) items
    simpa only [ne_eq, decide_not] using parts

theorem perm_flatMap_filter_mem {α κ : Type} [DecidableEq κ] (kind : α → κ) (kinds : List κ)
    (distinct : kinds.Nodup) (items : List α) :
    (kinds.flatMap fun k => items.filter (kind · = k)).Perm (items.filter (kind · ∈ kinds)) := by
  have known : (kinds.flatMap fun k => items.filter (kind · = k)) =
      kinds.flatMap fun k => (items.filter (kind · ∈ kinds)).filter (kind · = k) := by
    apply List.flatMap_congr
    intro k mem
    rw [List.filter_filter]
    apply List.filter_congr
    intro item _
    by_cases same : kind item = k
    . simp [same, mem]
    . simp [same]
  rw [known]
  apply perm_flatMap_filter kind kinds distinct
  intro item mem
  simpa using (List.mem_filter.mp mem).2

namespace Scope

def ofKind (scope : Scope) : NodeKind → List (Located Element)
  | .package => scope.packages.map (·.map fun p => .package p.name p.elements)
  | .entity => scope.entities.map (·.map .entity)
  | .dataType => scope.dataTypes.map (·.map .dataType)
  | .person => scope.persons.map (·.map .person)
  | .greeting => scope.greetings.map (·.map .greeting)
  | .domainmodel | .feature => []

def sorted (scope : Scope) : List (Located Element) := NodeKind.all.flatMap scope.ofKind

theorem map_node_located (scope : Scope) : scope.located.map (·.node) = scope.elements := by
  unfold located
  rw [List.map_map]
  exact List.zipIdx_map_fst 0 scope.elements

theorem mem_located (scope : Scope) (item : Located Element) :
    item ∈ scope.located ↔
      ∃ index,
        scope.elements[index]? = some item.node ∧ item.path = scope.path.child "elements" index := by
  unfold located
  rw [List.mem_map]
  constructor
  . rintro ⟨⟨element, index⟩, mem, rfl⟩
    exact ⟨index, List.mk_mem_zipIdx_iff_getElem?.mp mem, rfl⟩
  . rintro ⟨index, known, path⟩
    refine ⟨⟨item.node, index⟩, List.mk_mem_zipIdx_iff_getElem?.mpr known, ?_⟩
    dsimp only
    rw [← path]

theorem map_bucket (scope : Scope) (kind? : Element → Option α) (make : α → Element)
    (kind : NodeKind)
    (made : ∀ element, (kind? element).map make = Option.guard (·.kind = kind) element) :
    (scope.bucket kind?).map (·.map make) = scope.located.filter (·.node.kind = kind) := by
  unfold bucket
  rw [List.map_filterMap, ← List.filterMap_eq_filter]
  apply List.filterMap_congr
  intro item _
  have known := made item.node
  unfold Located.filterMap Option.guard at *
  rw [Option.map_map]
  by_cases same : item.node.kind = kind
  . simp only [same, decide_true, if_true, Option.map_eq_some_iff] at known ⊢
    rcases known with ⟨a, found, back⟩
    exact ⟨a, found, congrArg (Located.mk item.path) back⟩
  . simp only [same, decide_false, Bool.false_eq_true, if_false, Option.map_eq_none_iff] at known ⊢
    exact known

theorem ofKind_eq_filter (scope : Scope) (kind : NodeKind) :
    scope.ofKind kind = scope.located.filter (·.node.kind = kind) := by
  cases kind with
  | package | entity | dataType | person | greeting =>
    apply map_bucket
    intro element
    cases element with
    | dataType _ | entity _ | package _ _ | person _ | greeting _ => rfl
  | domainmodel | feature =>
    apply Eq.symm
    rw [ofKind, List.filter_eq_nil_iff]
    intro item _
    cases item.node with
    | dataType _ | entity _ | package _ _ | person _ | greeting _ => simp [Element.kind]

theorem sorted_perm_located (scope : Scope) : scope.sorted.Perm scope.located := by
  unfold sorted
  rw [funext scope.ofKind_eq_filter]
  apply perm_flatMap_filter (fun item : Located Element => item.node.kind)
  . decide
  . intro item _
    cases item.node.kind with
    | domainmodel | dataType | entity | feature | package | person | greeting => decide

theorem size_eq_length (scope : Scope) : scope.size = scope.elements.length := by
  rw [← scope.map_node_located, List.length_map, ← scope.sorted_perm_located.length_eq]
  simp [size, sorted, NodeKind.all, ofKind]
  omega

def Opens (scope inner : Scope) : Prop := ∃ package ∈ scope.packages, inner = scope.body package

theorem Encloses.of_opens {outer scope inner : Scope} (h : outer.Encloses scope)
    (opens : scope.Opens inner) : outer.Encloses inner := by
  rcases opens with ⟨package, mem, rfl⟩
  rw [mem_packages] at mem
  rcases mem with ⟨index, declared, path⟩
  unfold Scope.body
  rw [path]
  exact h.body declared

theorem encloses_of_reached {outer scope : Scope} (reached : Relation.ReflTransGen Opens outer scope) :
    outer.Encloses scope := by
  induction reached with
  | refl => exact .self outer
  | tail _ opens ih => exact ih.of_opens opens

end Scope

namespace Document

theorem lookup_of_mem_sorted (document : Document) (scope : Scope)
    (enclosed : document.scope.Encloses scope) (item : Located Element) (mem : item ∈ scope.sorted) :
    document.lookup item.path = some (.element item.node) := by
  rw [scope.sorted_perm_located.mem_iff, Scope.mem_located] at mem
  rcases mem with ⟨index, known, path⟩
  rw [path, lookup_child_of_encloses document scope enclosed, known]
  rfl

theorem lookup_path_of_opens (document : Document) {scope inner : Scope}
    (enclosed : document.scope.Encloses scope) (opens : scope.Opens inner) :
    ∃ name, document.lookup inner.path = some (.element (.package name inner.elements)) := by
  rcases opens with ⟨package, mem, rfl⟩
  rw [Scope.mem_packages] at mem
  rcases mem with ⟨index, declared, path⟩
  refine ⟨package.node.name, ?_⟩
  dsimp only [Scope.body]
  rw [path, lookup_child_of_encloses document scope enclosed, declared]
  rfl

/--
The buckets of a scope hold the elements of its body, each once and in source order, under paths of
the document.
-/
structure Partitioned (document : Document) (scope : Scope) : Prop where
  ofKind : ∀ kind, scope.ofKind kind = scope.located.filter (·.node.kind = kind)
  once : scope.sorted.Perm scope.located
  body : scope.located.map (·.node) = scope.elements
  size : scope.size = scope.elements.length
  found : ∀ item ∈ scope.sorted, document.lookup item.path = some (.element item.node)
  place : scope = document.scope ∨
    ∃ name, document.lookup scope.path = some (.element (.package name scope.elements))

theorem partitioned_of_reached (document : Document) (scope : Scope)
    (reached : Relation.ReflTransGen Scope.Opens document.scope scope) :
    document.Partitioned scope where
  ofKind := scope.ofKind_eq_filter
  once := scope.sorted_perm_located
  body := scope.map_node_located
  size := scope.size_eq_length
  found := document.lookup_of_mem_sorted scope (Scope.encloses_of_reached reached)
  place := by
    cases reached with
    | refl => exact .inl rfl
    | tail before opens =>
      right
      exact document.lookup_path_of_opens (Scope.encloses_of_reached before) opens

-- Two greetings alike, with a data type between them, two packages deep.
def innermost : List Element := [.greeting ⟨{}⟩, .dataType ⟨"T"⟩, .greeting ⟨{}⟩]

def twoDeep : Document where
  elements := [.dataType ⟨"T"⟩, .package "p" [.person ⟨"Ann"⟩, .package "q" innermost]]

def twoDeepBody : Scope where
  document := twoDeep
  path := (NodePath.root.child "elements" 1).child "elements" 1
  elements := innermost

theorem partitioned_of_reached_twoDeep :
    Relation.ReflTransGen Scope.Opens twoDeep.scope twoDeepBody ∧
    twoDeep.Partitioned twoDeepBody := by
  have reached : Relation.ReflTransGen Scope.Opens twoDeep.scope twoDeepBody := by
    apply Relation.ReflTransGen.tail (.single ⟨_, List.mem_cons_self, rfl⟩)
    exact ⟨_, List.mem_cons_self, rfl⟩
  exact ⟨reached, partitioned_of_reached twoDeep twoDeepBody reached⟩

end Document

end DomainModel
