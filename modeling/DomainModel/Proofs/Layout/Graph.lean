import DomainModel.Layout.Graph
import DomainModel.Proofs.Layout.PositionCache

namespace DomainModel

namespace Graph

theorem layout_placeNodes (cache : PositionCache) (index : Nat) (entities : List (Located Entity)) :
    (placeNodes cache index entities).2.layout = cache.layout := by
  induction entities generalizing cache index with
  | nil => rfl
  | cons entity entities ih =>
    dsimp only [placeNodes]
    rw [ih]
    apply PositionCache.layout_place

theorem get?_placeNodes (cache : PositionCache) (index : Nat) (entities : List (Located Entity))
    (name : String) :
    (placeNodes cache index entities).2.get? name =
      (cache.get? name <|>
        (entities.findIdx? (·.node.name = name)).map fun i =>
          cache.layout.defaultPosition (index + i)) := by
  induction entities generalizing cache index with
  | nil => simp [placeNodes]
  | cons entity entities ih =>
    dsimp only [placeNodes]
    rw [ih]
    rw [PositionCache.get?_place]
    rw [PositionCache.layout_place]
    rw [List.findIdx?_cons]
    by_cases same : entity.node.name = name
    . cases cache.get? name with
      | none => simp [same]
      | some position => simp
    . have shift : (fun i => cache.layout.defaultPosition (index + 1 + i)) =
          (fun i => cache.layout.defaultPosition (index + i)) ∘ (· + 1) := by
        funext i
        simp [Nat.add_assoc, Nat.add_comm 1 i]
      simp [same, shift]

theorem get?_of_mem_placeNodes (cache : PositionCache) (index : Nat)
    (entities : List (Located Entity)) (node : GraphNode)
    (mem : node ∈ (placeNodes cache index entities).1) :
    (placeNodes cache index entities).2.get? node.id = some node.position := by
  induction entities generalizing cache index with
  | nil => cases mem
  | cons entity entities ih =>
    dsimp only [placeNodes] at mem ⊢
    rw [List.mem_cons] at mem
    cases mem with
    | inl head =>
      subst head
      -- The name is known once it is placed, so the entities after it leave it alone.
      rw [get?_placeNodes]
      rw [PositionCache.get?_place_self]
      rfl
    | inr tail => exact ih _ _ tail

theorem map_label_placeNodes (cache : PositionCache) (index : Nat)
    (entities : List (Located Entity)) :
    ((placeNodes cache index entities).1.map fun node => (node.id, node.label)) =
      entities.map fun entity => (entity.node.name, entity.node.name) := by
  induction entities generalizing cache index with
  | nil => rfl
  | cons entity entities ih =>
    dsimp only [placeNodes]
    rw [List.map_cons, List.map_cons]
    rw [ih]

theorem map_id_placeNodes (cache : PositionCache) (index : Nat) (entities : List (Located Entity)) :
    (placeNodes cache index entities).1.map (·.id) = entities.map (·.node.name) := by
  have labels := congrArg (List.map Prod.fst) (map_label_placeNodes cache index entities)
  rw [List.map_map, List.map_map] at labels
  exact labels

theorem of_mem_moveNode (graph : Graph) (id : String) (position : Point) (node : GraphNode)
    (mem : node ∈ (graph.moveNode id position).nodes) :
    ∃ old ∈ graph.nodes,
      old.id = node.id ∧ node.position = if node.id = id then position else old.position := by
  unfold moveNode at mem
  rw [List.mem_map] at mem
  rcases mem with ⟨old, mem, same⟩
  refine ⟨old, mem, ?_⟩
  rw [← same]
  by_cases own : old.id = id
  . simp [own]
  . simp [own]

def labels (graph : Graph) : List (String × String) :=
  graph.nodes.map fun node => (node.id, node.label)

theorem labels_moveNode (graph : Graph) (id : String) (position : Point) :
    (graph.moveNode id position).labels = graph.labels := by
  unfold labels moveNode
  rw [List.map_map]
  congr
  funext node
  dsimp only [Function.comp_apply]
  split
  . rfl
  . rfl

theorem edges_moveNode (graph : Graph) (id : String) (position : Point) :
    (graph.moveNode id position).edges = graph.edges := rfl

theorem labels_project (document : Document) (entities : List (Located Entity))
    (cache : PositionCache) :
    (project document entities cache).1.labels =
      entities.map fun entity => (entity.node.name, entity.node.name) := by
  apply map_label_placeNodes

theorem edges_project_eq_filter (document : Document) (entities : List (Located Entity))
    (cache : PositionCache) :
    (project document entities cache).1.edges =
      (entities.filterMap (edge? document)).filter fun edge =>
        edge.target ∈ entities.map (·.node.name) := by
  dsimp only [project]
  congr
  funext edge
  rw [← map_id_placeNodes cache 0]
  rw [Bool.eq_iff_iff]
  simp

end Graph

end DomainModel
