import DomainModel.Proofs.Document.Lookup
import DomainModel.Proofs.Document.Paths

/-!
Containment. The declarations of a document are its elements, at whatever depth, and the features of
its entities. Counted off with their paths, no two of them have the same path, and following a path
leads to the declaration that was counted under it, and nowhere if there is none. So a reference is
resolved just when such a declaration is of the kind that is asked for.
-/

namespace DomainModel

namespace Element

def featureDeclarations (path : NodePath) (features : List Feature) :
    List (Located Declaration) :=
  features.zipIdx.map fun (feature, index) => ⟨path.child "features" index, .feature feature⟩

mutual

def declarations (path : NodePath) : Element → List (Located Declaration)
  | .dataType d => [⟨path, .element (.dataType d)⟩]
  | .entity e => ⟨path, .element (.entity e)⟩ :: featureDeclarations path e.features
  | .package name elements =>
    ⟨path, .element (.package name elements)⟩ :: declarationsFrom path 0 elements
  | .person p => [⟨path, .element (.person p)⟩]
  | .greeting g => [⟨path, .element (.greeting g)⟩]
termination_by structural element => element

def declarationsFrom (path : NodePath) (index : Nat) : List Element → List (Located Declaration)
  | [] => []
  | element :: elements =>
    element.declarations (path.child "elements" index) ++
      declarationsFrom path (index + 1) elements
termination_by structural elements => elements

end

end Element

def Document.declarations (document : Document) : List (Located Declaration) :=
  Element.declarationsFrom .root 0 document.elements

namespace Declaration

def Reaches (path : NodePath) (node : Declaration) (item : Located Declaration) : Prop :=
  ∃ rest, item.path.segments = path.segments ++ rest ∧ rest.foldlM step node = some item.node

theorem reaches_iff (path : NodePath) (node : Declaration) (item : Located Declaration) :
    node.Reaches path item ↔
      item = ⟨path, node⟩ ∨
      ∃ segment inner,
        node.Contains segment inner ∧ inner.Reaches ⟨path.segments ++ [segment]⟩ item := by
  rcases item with ⟨⟨segments⟩, other⟩
  rcases path with ⟨before⟩
  unfold Reaches
  constructor
  . rintro ⟨rest, way, found⟩
    cases rest with
    | nil =>
      left
      dsimp only at way
      cases found
      rw [way, List.append_nil]
    | cons segment rest =>
      right
      rw [List.foldlM_cons, Option.bind_eq_bind, Option.bind_eq_some_iff] at found
      rcases found with ⟨inner, step, found⟩
      rw [step_eq_some_iff] at step
      refine ⟨segment, inner, step, rest, ?_, found⟩
      rw [way]
      simp
  . rintro (same | ⟨segment, inner, contains, rest, way, found⟩)
    . cases same
      exact ⟨[], by simp, rfl⟩
    . refine ⟨segment :: rest, ?_, ?_⟩
      . rw [way]
        simp
      . rw [List.foldlM_cons, (step_eq_some_iff _ _ _).mpr contains]
        exact found

theorem Reaches.isPrefix {path : NodePath} {node : Declaration} {item : Located Declaration}
    (h : node.Reaches path item) : path.segments <+: item.path.segments := by
  rcases h with ⟨rest, way, _⟩
  exact ⟨rest, way.symm⟩

theorem index_isSome_of_steps {node other : Declaration} {segments : List Segment}
    (found : segments.foldlM step node = some other) : ∀ s ∈ segments, s.index.isSome := by
  induction segments generalizing node with
  | nil => simp
  | cons segment rest ih =>
    rw [List.foldlM_cons, Option.bind_eq_bind, Option.bind_eq_some_iff] at found
    rcases found with ⟨inner, step, found⟩
    rw [step_eq_some_iff] at step
    rw [List.forall_mem_cons]
    refine ⟨?_, ih found⟩
    cases step with
    | element _ | feature _ => rfl

theorem reaches_feature_iff (path : NodePath) (feature : Feature) (item : Located Declaration) :
    (Declaration.feature feature).Reaches path item ↔ item = ⟨path, .feature feature⟩ := by
  rw [reaches_iff, or_iff_left]
  rintro ⟨_, _, ⟨⟩, _⟩

end Declaration

namespace Element

open Declaration (reaches_iff reaches_feature_iff)

theorem mem_featureDeclarations_iff (path : NodePath) (features : List Feature)
    (item : Located Declaration) :
    item ∈ featureDeclarations path features ↔
      ∃ index feature,
        features[index]? = some feature ∧
        (Declaration.feature feature).Reaches (path.child "features" index) item := by
  unfold featureDeclarations
  simp only [reaches_feature_iff, List.mem_map]
  constructor
  . rintro ⟨⟨feature, index⟩, mem, rfl⟩
    exact ⟨index, feature, List.mk_mem_zipIdx_iff_getElem?.mp mem, rfl⟩
  . rintro ⟨index, feature, at_index, rfl⟩
    exact ⟨⟨feature, index⟩, List.mk_mem_zipIdx_iff_getElem?.mpr at_index, rfl⟩

mutual

theorem mem_declarations_iff (path : NodePath) (element : Element) (item : Located Declaration) :
    item ∈ element.declarations path ↔ (Declaration.element element).Reaches path item := by
  rw [reaches_iff]
  -- What is not the element itself is one step away in a list of its own, or inside of such.
  cases element with
  | package name elements =>
    rw [declarations, List.mem_cons, mem_declarationsFrom_iff path 0 elements]
    apply or_congr_right
    simp only [Nat.zero_add]
    constructor
    . rintro ⟨index, element, at_index, reached⟩
      exact ⟨_, _, .element at_index, reached⟩
    . rintro ⟨_, _, contains, reached⟩
      cases contains with
      | element at_index => exact ⟨_, _, at_index, reached⟩
  | entity e =>
    rw [declarations, List.mem_cons, mem_featureDeclarations_iff]
    apply or_congr_right
    constructor
    . rintro ⟨index, feature, at_index, reached⟩
      exact ⟨_, _, .feature at_index, reached⟩
    . rintro ⟨_, _, contains, reached⟩
      cases contains with
      | feature at_index => exact ⟨_, _, at_index, reached⟩
  | dataType _ | person _ | greeting _ =>
    rw [declarations, List.mem_singleton, or_iff_left]
    rintro ⟨_, _, ⟨⟩, _⟩
termination_by structural element

theorem mem_declarationsFrom_iff (path : NodePath) (index : Nat) (elements : List Element)
    (item : Located Declaration) :
    item ∈ declarationsFrom path index elements ↔
      ∃ offset element,
        elements[offset]? = some element ∧
        (Declaration.element element).Reaches (path.child "elements" (index + offset)) item := by
  cases elements with
  | nil => simp [declarationsFrom]
  | cons element elements =>
    rw [declarationsFrom, List.mem_append, mem_declarations_iff _ element,
      mem_declarationsFrom_iff path (index + 1) elements]
    constructor
    . rintro (reached | ⟨offset, inner, at_offset, reached⟩)
      . exact ⟨0, element, rfl, reached⟩
      . rw [Nat.add_right_comm] at reached
        exact ⟨offset + 1, inner, at_offset, reached⟩
    . rintro ⟨offset, inner, at_offset, reached⟩
      cases offset with
      | zero =>
        cases at_offset
        exact .inl reached
      | succ offset =>
        rw [← Nat.add_assoc, Nat.add_right_comm] at reached
        exact .inr ⟨offset, inner, at_offset, reached⟩
termination_by structural elements

end

theorem index_eq_of_prefix {path : NodePath} {property : String} {i j : Nat}
    {segments : List Segment} (h : (path.child property i).segments <+: segments)
    (h' : (path.child property j).segments <+: segments) : i = j := by
  have same : path.child property i = path.child property j := by
    apply NodePath.eq_of_prefix h h'
    simp [NodePath.child]
  exact (NodePath.child_inj.mp same).2

theorem path_notMem_of_deeper {path : NodePath} {items : List (Located Declaration)}
    (deeper : ∀ item ∈ items, ∃ property index,
      (path.child property index).segments <+: item.path.segments) :
    path ∉ items.map (·.path) := by
  rw [List.mem_map]
  rintro ⟨item, mem, same⟩
  rcases deeper item mem with ⟨property, index, before⟩
  have longer := before.length_le
  rw [same] at longer
  simp only [NodePath.child, List.length_append, List.length_singleton] at longer
  omega

theorem nodup_path_features (path : NodePath) (features : List Feature) :
    ((featureDeclarations path features).map (·.path)).Nodup := by
  have indexes : (featureDeclarations path features).map (·.path) =
      (features.zipIdx.map Prod.snd).map (path.child "features") := by
    unfold featureDeclarations
    rw [List.map_map, List.map_map]
    rfl
  rw [indexes, List.zipIdx_map_snd]
  apply List.Nodup.map _ List.nodup_range'
  intro i j same
  exact (NodePath.child_inj.mp same).2

mutual

theorem nodup_path_inside (path : NodePath) (element : Element) :
    ((element.declarations path).map (·.path)).Nodup := by
  cases element with
  | package name elements =>
    rw [declarations, List.map_cons, List.nodup_cons]
    refine ⟨?_, nodup_path_from path 0 elements⟩
    apply path_notMem_of_deeper
    intro item mem
    rw [mem_declarationsFrom_iff] at mem
    rcases mem with ⟨_, _, _, reached⟩
    exact ⟨_, _, reached.isPrefix⟩
  | entity e =>
    rw [declarations, List.map_cons, List.nodup_cons]
    refine ⟨?_, nodup_path_features path e.features⟩
    apply path_notMem_of_deeper
    intro item mem
    rw [mem_featureDeclarations_iff] at mem
    rcases mem with ⟨_, _, _, reached⟩
    exact ⟨_, _, reached.isPrefix⟩
  | dataType _ | person _ | greeting _ =>
    rw [declarations]
    apply List.nodup_singleton
termination_by structural element

theorem nodup_path_from (path : NodePath) (index : Nat) (elements : List Element) :
    ((declarationsFrom path index elements).map (·.path)).Nodup := by
  cases elements with
  | nil => simp [declarationsFrom]
  | cons element elements =>
    rw [declarationsFrom, List.map_append, List.nodup_append]
    refine ⟨nodup_path_inside _ element, nodup_path_from path (index + 1) elements, ?_⟩
    simp only [List.forall_mem_map]
    intro item mem later mem' same
    rw [mem_declarations_iff] at mem
    rw [mem_declarationsFrom_iff] at mem'
    rcases mem' with ⟨offset, _, _, reached⟩
    -- Two elements of one list part at their indexes, and with them all that is inside.
    have before := mem.isPrefix
    rw [same] at before
    have even := index_eq_of_prefix before reached.isPrefix
    omega
termination_by structural elements

end

end Element

namespace Document

theorem lookup_eq_some_iff (document : Document) (path : NodePath) (node : Declaration) :
    document.lookup path = some node ↔
      ∃ index element,
        document.elements[index]? = some element ∧
        (Declaration.element element).Reaches (NodePath.root.child "elements" index)
          ⟨path, node⟩ := by
  rcases path with ⟨segments⟩
  cases segments with
  | nil =>
    constructor
    . intro found
      cases found
    . rintro ⟨index, _, _, _, way, _⟩
      cases way
  | cons first rest =>
    rcases first with ⟨property, index⟩
    unfold lookup
    constructor
    . intro found
      rw [Option.bind_eq_bind, Option.bind_eq_some_iff] at found
      rcases found with ⟨index, rfl, found⟩
      split at found
      . next contained =>
        rw [Option.bind_eq_bind, Option.bind_eq_some_iff] at found
        rcases found with ⟨element, known, found⟩
        dsimp only at contained
        rw [contained]
        exact ⟨index, element, known, rest, rfl, found⟩
      . cases found
    . rintro ⟨index, element, known, rest, way, found⟩
      cases way
      simp [known, found]

theorem lookup_eq_some_iff_mem (document : Document) (path : NodePath) (node : Declaration) :
    document.lookup path = some node ↔ ⟨path, node⟩ ∈ document.declarations := by
  rw [lookup_eq_some_iff, declarations, Element.mem_declarationsFrom_iff]
  simp only [Nat.zero_add]

theorem nodup_path_declarations (document : Document) :
    (document.declarations.map (·.path)).Nodup := by
  apply Element.nodup_path_from

theorem index_isSome_of_lookup {document : Document} {path : NodePath} {node : Declaration}
    (found : document.lookup path = some node) : ∀ s ∈ path.segments, s.index.isSome := by
  rw [lookup_eq_some_iff] at found
  rcases found with ⟨index, element, _, rest, way, found⟩
  dsimp only at way
  rw [way, List.forall_mem_append]
  refine ⟨?_, Declaration.index_isSome_of_steps found⟩
  simp [NodePath.child, NodePath.root]

def Leads (document : Document) (reference : Reference) (node : Declaration) : Prop :=
  ∃ path, reference.target = some path ∧ ⟨path, node⟩ ∈ document.declarations

theorem target?_eq_some_iff_leads (document : Document) (reference : Reference)
    (node : Declaration) :
    document.target? reference = some node ↔ document.Leads reference node := by
  unfold Leads
  simp only [target?_eq_some_iff, lookup_eq_some_iff_mem]

structure FollowsContainment (document : Document) : Prop where
  found : ∀ path node, document.lookup path = some node ↔ ⟨path, node⟩ ∈ document.declarations
  distinct : (document.declarations.map (·.path)).Nodup
  root : document.lookup .root = none
  indexed : ∀ path, (∃ s ∈ path.segments, s.index = none) → document.lookup path = none
  entity : ∀ reference entity,
    document.resolveEntity reference = some entity ↔
      document.Leads reference (.element (.entity entity))
  type : ∀ reference type,
    document.resolveType reference = some type ↔ document.Leads reference type.declaration
  person : ∀ reference person,
    document.resolvePerson reference = some person ↔
      document.Leads reference (.element (.person person))
  other : ∀ reference node,
    document.Leads reference node → node.kind = .feature ∨ node.kind = .package →
      document.resolveEntity reference = none ∧
      document.resolveType reference = none ∧
      document.resolvePerson reference = none

theorem followsContainment (document : Document) : document.FollowsContainment where
  found := document.lookup_eq_some_iff_mem
  distinct := document.nodup_path_declarations
  root := rfl
  indexed := by
    rintro path ⟨s, mem, bare⟩
    rw [Option.eq_none_iff_forall_ne_some]
    intro node found
    have counted := index_isSome_of_lookup found s mem
    rw [bare] at counted
    cases counted
  entity := by
    intro reference entity
    rw [resolveEntity_eq_some_iff, target?_eq_some_iff_leads]
  type := by
    intro reference type
    rw [resolveType_eq_some_iff, target?_eq_some_iff_leads]
  person := by
    intro reference person
    rw [resolvePerson_eq_some_iff, target?_eq_some_iff_leads]
  other := by
    intro reference node leads kind
    rw [← target?_eq_some_iff_leads] at leads
    unfold resolveEntity resolveType resolvePerson
    cases node with
    | feature _ => simp [leads]
    | element element =>
      cases element with
      | package _ _ => simp [leads]
      | dataType _ | entity _ | person _ | greeting _ =>
        simp [Declaration.kind, Element.kind] at kind

end Document

end DomainModel
