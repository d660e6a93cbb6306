import DomainModel.Proofs.Document.Lookup
import DomainModel.Proofs.Layout.Graph

/-!
Which entities of the root are joined by an edge. Edges are kept by the name of their target, so one
that leads into a package stays in the graph if an entity of the root has the same name. Everywhere
else the edges are those between declarations of the root.
-/

namespace DomainModel

theorem filterMap_sublist_of_le {f g : α → Option β} (le : ∀ a b, f a = some b → g a = some b)
    (l : List α) : (l.filterMap f).Sublist (l.filterMap g) := by
  induction l with
  | nil => simp
  | cons a l ih =>
    rw [List.filterMap_cons, List.filterMap_cons]
    cases left : f a with
    | none =>
      cases g a with
      | none => exact ih
      | some b => exact ih.cons b
    | some b =>
      rw [le a b left]
      exact ih.cons_cons b

theorem filterMap_eq_filterMap_iff {f g : α → Option β} (le : ∀ a b, f a = some b → g a = some b)
    (l : List α) : l.filterMap g = l.filterMap f ↔ ∀ a ∈ l, g a = f a := by
  induction l with
  | nil => simp
  | cons a l ih =>
    rw [List.filterMap_cons, List.filterMap_cons, List.forall_mem_cons]
    cases left : f a with
    | none =>
      cases right : g a with
      | none => simpa using ih
      | some b =>
        -- The list of `g` has one entry more and loses none.
        have length := (filterMap_sublist_of_le le l).length_le
        constructor
        . intro same
          have lengths := congrArg List.length same
          simp only [List.length_cons] at lengths
          omega
        . rintro ⟨same, _⟩
          cases same
    | some b =>
      rw [le a b left]
      simpa using ih

namespace Graph

def rootSuper? (document : Document) (entity : Entity) : Option (Located Entity) :=
  document.scope.entities.find? fun root =>
    document.superEntity entity = some root.node ∧
      entity.superType.bind Reference.target = some root.path

def rootEdge? (document : Document) (entity : Located Entity) : Option GraphEdge :=
  (rootSuper? document entity.node).map fun root => .between entity.node.name root.node.name

def packagedSuper? (document : Document) (entity : Entity) : Option Entity :=
  (entity.superType.bind Reference.target).bind fun path =>
    if 1 < path.segments.length then document.superEntity entity else none

theorem superEntity_eq_some_iff (document : Document) (entity super : Entity) :
    document.superEntity entity = some super ↔
      ∃ path,
        entity.superType.bind Reference.target = some path ∧
        document.lookup path = some (.element (.entity super)) := by
  unfold Document.superEntity
  cases entity.superType with
  | none => simp
  | some reference =>
    rw [Option.bind_some, ← Document.target?_eq_some_iff, ← Document.resolveEntity_eq_some_iff]
    rfl

theorem rootSuper?_eq_some (document : Document) (entity : Entity) (root : Located Entity)
    (found : rootSuper? document entity = some root) :
    root ∈ document.scope.entities ∧ document.superEntity entity = some root.node := by
  unfold rootSuper? at found
  have mem := List.mem_of_find?_eq_some found
  have leads := List.find?_some found
  rw [decide_eq_true_eq] at leads
  exact ⟨mem, leads.1⟩

theorem rootSuper?_eq_none_of_lt (document : Document) (entity : Entity) (path : NodePath)
    (target : entity.superType.bind Reference.target = some path)
    (packaged : 1 < path.segments.length) : rootSuper? document entity = none := by
  unfold rootSuper?
  rw [List.find?_eq_none]
  intro root mem
  rw [decide_eq_true_eq]
  rintro ⟨_, same⟩
  rw [target, Option.some.injEq] at same
  have length := document.length_segments_of_mem_entities root mem
  rw [← same] at length
  omega

theorem packagedSuper?_eq_some (document : Document) (entity super : Entity)
    (packaged : packagedSuper? document entity = some super) :
    document.superEntity entity = some super ∧ rootSuper? document entity = none := by
  unfold packagedSuper? at packaged
  rw [Option.bind_eq_some_iff] at packaged
  rcases packaged with ⟨path, target, packaged⟩
  split at packaged
  . next long => exact ⟨packaged, rootSuper?_eq_none_of_lt document entity path target long⟩
  . cases packaged

-- The path of a supertype has one step, or else it goes through a package.
theorem rootSuper?_or_packagedSuper? (document : Document) (entity super : Entity)
    (extend : document.superEntity entity = some super) :
    (∃ root, rootSuper? document entity = some root ∧ root.node = super) ∨
      packagedSuper? document entity = some super := by
  rcases (superEntity_eq_some_iff document entity super).mp extend with ⟨path, target, found⟩
  by_cases packaged : 1 < path.segments.length
  . right
    unfold packagedSuper?
    rw [target, Option.bind_some, if_pos packaged]
    exact extend
  . left
    have mem := document.mem_entities_of_lookup path super (by omega) found
    have isSome : (rootSuper? document entity).isSome := by
      unfold rootSuper?
      rw [List.find?_isSome]
      refine ⟨_, mem, ?_⟩
      rw [decide_eq_true_eq]
      exact ⟨extend, target⟩
    rcases Option.isSome_iff_exists.mp isSome with ⟨root, known⟩
    have same := (rootSuper?_eq_some document entity root known).2
    rw [extend, Option.some.injEq] at same
    exact ⟨root, known, same.symm⟩

def keptEdge? (document : Document) (entity : Located Entity) : Option GraphEdge :=
  (edge? document entity).filter fun edge =>
    edge.target ∈ document.scope.entities.map (·.node.name)

theorem edges_project (document : Document) (cache : PositionCache) :
    (project document document.scope.entities cache).1.edges =
      document.scope.entities.filterMap (keptEdge? document) := by
  rw [edges_project_eq_filter, List.filter_filterMap]
  rfl

theorem keptEdge?_eq_some_iff (document : Document) (entity : Located Entity) (edge : GraphEdge) :
    keptEdge? document entity = some edge ↔
      ∃ super,
        document.superEntity entity.node = some super ∧
        super.name ∈ document.scope.entities.map (·.node.name) ∧
        edge = .between entity.node.name super.name := by
  unfold keptEdge? edge?
  rw [Option.filter_eq_some_iff, Option.map_eq_some_iff, decide_eq_true_eq]
  constructor
  . rintro ⟨⟨super, extend, rfl⟩, kept⟩
    exact ⟨super, extend, kept, rfl⟩
  . rintro ⟨super, extend, kept, rfl⟩
    exact ⟨⟨super, extend, rfl⟩, kept⟩

-- An edge between root declarations is always kept.
theorem keptEdge?_of_rootEdge? (document : Document) (entity : Located Entity) (edge : GraphEdge)
    (declared : rootEdge? document entity = some edge) : keptEdge? document entity = some edge := by
  unfold rootEdge? at declared
  rw [Option.map_eq_some_iff] at declared
  rcases declared with ⟨root, known, rfl⟩
  rcases rootSuper?_eq_some document entity.node root known with ⟨mem, extend⟩
  rw [keptEdge?_eq_some_iff]
  exact ⟨root.node, extend, List.mem_map_of_mem mem, rfl⟩

theorem keptEdge?_eq_rootEdge?_iff (document : Document) (entity : Located Entity) :
    keptEdge? document entity = rootEdge? document entity ↔
      ∀ super, packagedSuper? document entity.node = some super →
        super.name ∉ document.scope.entities.map (·.node.name) := by
  constructor
  . intro same super packaged mem
    rcases packagedSuper?_eq_some document entity.node super packaged with ⟨extend, noRoot⟩
    have kept := (keptEdge?_eq_some_iff document entity _).mpr ⟨super, extend, mem, rfl⟩
    rw [same] at kept
    unfold rootEdge? at kept
    rw [noRoot] at kept
    cases kept
  . intro apart
    cases declared : rootEdge? document entity with
    | some edge => exact keptEdge?_of_rootEdge? document entity edge declared
    | none =>
      rw [Option.eq_none_iff_forall_not_mem]
      intro edge kept
      rcases (keptEdge?_eq_some_iff document entity edge).mp kept with ⟨super, extend, mem, _⟩
      cases rootSuper?_or_packagedSuper? document entity.node super extend with
      | inl root =>
        rcases root with ⟨root, known, _⟩
        unfold rootEdge? at declared
        rw [known] at declared
        cases declared
      | inr packaged => exact apart super packaged mem

theorem edges_project_eq_rootEdges_iff (document : Document) (cache : PositionCache) :
    (document.scope.entities.filterMap (rootEdge? document)).Sublist
      (project document document.scope.entities cache).1.edges ∧
    ((project document document.scope.entities cache).1.edges =
        document.scope.entities.filterMap (rootEdge? document) ↔
      ∀ entity ∈ document.scope.entities, ∀ super,
        packagedSuper? document entity.node = some super →
          ∀ root ∈ document.scope.entities, root.node.name ≠ super.name) := by
  have le := keptEdge?_of_rootEdge? document
  rw [edges_project]
  constructor
  . apply filterMap_sublist_of_le le
  . rw [filterMap_eq_filterMap_iff le]
    simp only [keptEdge?_eq_rootEdge?_iff, List.mem_map, not_exists, not_and]

def homonyms : Document where
  elements := [
    .package "base" [.entity ⟨"Auditable", [], none⟩],
    .entity ⟨"Auditable", [], none⟩,
    .entity ⟨"Post", [],
      some (.linked "base.Auditable" ((NodePath.root.child "elements" 0).child "elements" 0))⟩]

theorem edges_project_homonyms :
    (homonyms.scope.entities.map (·.node.name)).Nodup ∧
    homonyms.scope.entities.filterMap (rootEdge? homonyms) = [] ∧
    (project homonyms homonyms.scope.entities {}).1.edges = [.between "Post" "Auditable"] := by
  rw [edges_project]
  decide

end Graph

end DomainModel
