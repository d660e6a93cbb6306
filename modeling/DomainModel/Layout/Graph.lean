import DomainModel.Document.Lookup
import DomainModel.Document.Scope
import DomainModel.Layout.PositionCache

namespace DomainModel

open Json (Value)

structure GraphNode where
  id : String
  label : String
  position : Point
  deriving DecidableEq

structure GraphEdge where
  id : String
  source : String
  target : String
  deriving DecidableEq, Repr

def GraphEdge.between (source target : String) : GraphEdge :=
  { id := source ++ "-" ++ target, source, target }

structure Graph where
  nodes : List GraphNode := []
  edges : List GraphEdge := []
  deriving DecidableEq

namespace Graph

def node? (graph : Graph) (id : String) : Option GraphNode := graph.nodes.find? (·.id == id)

def moveNode (graph : Graph) (id : String) (position : Point) : Graph :=
  { graph with
    nodes := graph.nodes.map fun node => if node.id = id then { node with position } else node }

def placeNodes (cache : PositionCache) (index : Nat) :
    List (Located Entity) → List GraphNode × PositionCache
  | [] => ([], cache)
  | entity :: entities =>
    let name := entity.node.name
    let (position, cache) := cache.place name index
    let (nodes, cache) := placeNodes cache (index + 1) entities
    ({ id := name, label := name, position } :: nodes, cache)

def edge? (document : Document) (entity : Located Entity) : Option GraphEdge :=
  (document.superEntity entity.node).map fun super => .between entity.node.name super.name

def project (document : Document) (entities : List (Located Entity)) (cache : PositionCache) :
    Graph × PositionCache :=
  let (nodes, cache) := placeNodes cache 0 entities
  let edges := (entities.filterMap (edge? document)).filter fun edge =>
    nodes.any (·.id == edge.target)
  ({ nodes, edges }, cache)

def nodeValue (node : GraphNode) : Value :=
  .object [
    ("id", .string node.id), ("label", .string node.label), ("position", node.position.toValue)]

def edgeValue (edge : GraphEdge) : Value :=
  .object [
    ("id", .string edge.id), ("source", .string edge.source), ("target", .string edge.target)]

def toValue (graph : Graph) : Value :=
  .object [
    ("nodes", .array (graph.nodes.map nodeValue)), ("edges", .array (graph.edges.map edgeValue))]

end Graph

end DomainModel
