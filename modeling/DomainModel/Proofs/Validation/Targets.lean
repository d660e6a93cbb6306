import DomainModel.Proofs.Document.Lookup
import DomainModel.Proofs.Document.Paths
import DomainModel.Proofs.Validation.Errors

namespace DomainModel

/--
What a diagnostic says of the element that a scope has at an index. It is told by following paths in
the document, where the elements of one scope differ in the last step.
-/
inductive Document.Blames (document : Document) (scope : Scope) (index : Nat) (d : Diagnostic) :
    Prop where
  | entity (entity earlier : Entity) (before : Nat)
      (code : d.code = some (.own .repeatedEntity))
      (message : d.message = "Entity has non-unique name '" ++ entity.name ++ "' (" ++
        ordinal ((scope.elements.take index).countP (·.entityName? = some entity.name) + 1) ++
        " occurrence).")
      (here : document.lookup (scope.path.child "elements" index) =
        some (.element (.entity entity)))
      (lt : before < index)
      (there : document.lookup (scope.path.child "elements" before) =
        some (.element (.entity earlier)))
      (same : earlier.name = entity.name)
  | greeting (greeting earlier : Greeting) (key : String) (before : Nat)
      (code : d.code = some (.own .repeatedGreeting))
      (message : d.message = "You can greet each person only once. This is the " ++
        ordinal ((scope.elements.take index).countP (·.greetingKey? = some key) + 1) ++
        " greeting to '" ++ key ++ "'.")
      (here : document.lookup (scope.path.child "elements" index) =
        some (.element (.greeting greeting)))
      (own : greeting.person.key = some key)
      (lt : before < index)
      (there : document.lookup (scope.path.child "elements" before) =
        some (.element (.greeting earlier)))
      (same : earlier.person.key = some key)
  | person (person : Person)
      (code : d.code = some (.own .lowercasePerson))
      (here : document.lookup (scope.path.child "elements" index) =
        some (.element (.person person)))
      (lowercase : ¬ person.name.toList.head?.any Text.isCapital)

namespace Scope

def PointsTo (scope : Scope) (kind : NodeKind) (d : Diagnostic) : Prop :=
  ∃ index,
    d.target = some (.node (scope.path.child "elements" index)) ∧
    scope.elements[index]?.map Element.kind = some kind

theorem pointsTo_of_known {scope : Scope} {index : Nat} {element : Element} {d : Diagnostic}
    (known : scope.elements[index]? = some element)
    (target : d.target = some (.node (scope.path.child "elements" index))) :
    scope.PointsTo element.kind d := by
  refine ⟨index, target, ?_⟩
  rw [known]
  rfl

theorem pointsTo_of_mem_entityErrors {scope : Scope} {d : Diagnostic}
    (mem : d ∈ scope.entityErrors) : scope.PointsTo .entity d := by
  rw [mem_entityErrors] at mem
  rcases mem with ⟨index, entity, known, _, rfl⟩
  exact pointsTo_of_known known rfl

theorem pointsTo_of_mem_greetingErrors {scope : Scope} {d : Diagnostic}
    (mem : d ∈ scope.greetingErrors) : scope.PointsTo .greeting d := by
  rw [mem_greetingErrors] at mem
  rcases mem with ⟨index, greeting, key, known, _, _, rfl⟩
  exact pointsTo_of_known known rfl

theorem pointsTo_of_mem_personWarnings {settings : ValidationSettings} {scope : Scope}
    {d : Diagnostic} (mem : d ∈ scope.personWarnings settings) : scope.PointsTo .person d := by
  rw [mem_personWarnings] at mem
  rcases mem with ⟨index, person, known, _, _, rfl⟩
  exact pointsTo_of_known known rfl

theorem PointsTo.path_eq {scope other : Scope} {kind kind' : NodeKind} {d d' : Diagnostic}
    (h : scope.PointsTo kind d) (h' : other.PointsTo kind' d') (same : d.target = d'.target) :
    scope.path = other.path := by
  rcases h with ⟨index, target, _⟩
  rcases h' with ⟨index', target', _⟩
  rw [target, target', Option.some.injEq, Target.node.injEq, NodePath.child_inj] at same
  exact same.1

theorem PointsTo.kind_eq {scope : Scope} {kind kind' : NodeKind} {d d' : Diagnostic}
    (h : scope.PointsTo kind d) (h' : scope.PointsTo kind' d') (same : d.target = d'.target) :
    kind = kind' := by
  rcases h with ⟨index, target, known⟩
  rcases h' with ⟨index', target', known'⟩
  rw [target, target', Option.some.injEq, Target.node.injEq, NodePath.child_inj] at same
  rw [← same.2, known, Option.some.injEq] at known'
  exact known'

theorem disjoint_target {scope : Scope} {kind kind' : NodeKind} {ds ds' : List Diagnostic}
    (h : ∀ d ∈ ds, scope.PointsTo kind d) (h' : ∀ d ∈ ds', scope.PointsTo kind' d)
    (distinct : kind ≠ kind') :
    List.Disjoint (ds.map Diagnostic.target) (ds'.map Diagnostic.target) := by
  intro target mem mem'
  rw [List.mem_map] at mem mem'
  rcases mem with ⟨d, mem, rfl⟩
  rcases mem' with ⟨d', mem', same⟩
  apply distinct
  exact (h d mem).kind_eq (h' d' mem') same.symm

theorem nodup_target_filterMap (scope : Scope) (report? : Element × Nat → Option Diagnostic)
    (place : ∀ item d, report? item = some d →
      d.target = some (.node (scope.path.child "elements" item.2))) :
    ((scope.elements.zipIdx.filterMap report?).map Diagnostic.target).Nodup := by
  rw [List.Nodup, List.pairwise_map, List.pairwise_filterMap]
  apply (pairwise_index_ne scope.elements).imp
  intro item other distinct d found d' found' same
  rw [place item d found, place other d' found'] at same
  rw [Option.some.injEq, Target.node.injEq, NodePath.child_inj] at same
  exact distinct same.2

theorem nodup_target_repeatErrors (scope : Scope) (node? : Element → Option α)
    (key? : α → Option String) (error : Located α → String → Nat → Diagnostic)
    (target_error : ∀ item key n, (error item key n).target = some (.node item.path)) :
    ((scope.repeatErrors node? key? error).map Diagnostic.target).Nodup := by
  apply nodup_target_filterMap
  intro item d found
  rw [Option.bind_eq_some_iff] at found
  rcases found with ⟨node, _, found⟩
  rw [Option.bind_eq_some_iff] at found
  rcases found with ⟨key, _, found⟩
  dsimp only at found
  split at found
  . cases found
  . cases found
    apply target_error

theorem nodup_target_personWarnings (settings : ValidationSettings) (scope : Scope) :
    ((scope.personWarnings settings).map Diagnostic.target).Nodup := by
  apply nodup_target_filterMap
  intro item d found
  rw [Option.bind_eq_some_iff] at found
  rcases found with ⟨person, _, found⟩
  split at found
  . cases found
    rfl
  . cases found

theorem nodup_target_append (settings : ValidationSettings) (scope : Scope) :
    ((scope.entityErrors ++ scope.greetingErrors ++ scope.personWarnings settings).map
      Diagnostic.target).Nodup := by
  have onEntities : ∀ d ∈ scope.entityErrors, scope.PointsTo .entity d := by
    intro d mem
    exact pointsTo_of_mem_entityErrors mem
  have onGreetings : ∀ d ∈ scope.greetingErrors, scope.PointsTo .greeting d := by
    intro d mem
    exact pointsTo_of_mem_greetingErrors mem
  have onPersons : ∀ d ∈ scope.personWarnings settings, scope.PointsTo .person d := by
    intro d mem
    exact pointsTo_of_mem_personWarnings mem
  rw [List.map_append, List.map_append, List.nodup_append', List.nodup_append']
  refine ⟨⟨?_, ?_, ?_⟩, ?_, ?_⟩
  . apply nodup_target_repeatErrors
    intro item key n
    rfl
  . apply nodup_target_repeatErrors
    intro item key n
    rfl
  . apply disjoint_target onEntities onGreetings
    decide
  . apply nodup_target_personWarnings
  . rw [List.disjoint_append_left]
    constructor
    . apply disjoint_target onEntities onPersons
      decide
    . apply disjoint_target onGreetings onPersons
      decide

theorem exists_pointsTo {settings : ValidationSettings} {scope : Scope} {d : Diagnostic}
    (mem : d ∈ scope.entityErrors ++ scope.greetingErrors ++ scope.personWarnings settings) :
    ∃ kind, scope.PointsTo kind d := by
  rw [List.mem_append, List.mem_append] at mem
  rcases mem with (mem | mem) | mem
  . exact ⟨_, pointsTo_of_mem_entityErrors mem⟩
  . exact ⟨_, pointsTo_of_mem_greetingErrors mem⟩
  . exact ⟨_, pointsTo_of_mem_personWarnings mem⟩

theorem nodup_target_validate (scope : Scope) (settings : ValidationSettings) :
    ((scope.validate settings).map Diagnostic.target).Nodup := by
  rw [validate_eq_flatMap, List.map_flatMap, List.nodup_flatMap]
  constructor
  . intro inner _
    exact inner.nodup_target_append settings
  . have distinct := scope.nodup_path_depthFirst
    rw [List.Nodup, List.pairwise_map] at distinct
    apply distinct.imp
    intro inner other distinct target mem mem'
    rw [List.mem_map] at mem mem'
    rcases mem with ⟨d, mem, rfl⟩
    rcases mem' with ⟨d', mem', same⟩
    rcases exists_pointsTo mem with ⟨kind, here⟩
    rcases exists_pointsTo mem' with ⟨kind', there⟩
    apply distinct
    exact here.path_eq there same.symm

end Scope

namespace Document

theorem lookup_child_of_known_element {document : Document} {scope : Scope}
    (enclosed : document.scope.Encloses scope) {index : Nat} {element : Element}
    (known : scope.elements[index]? = some element) :
    document.lookup (scope.path.child "elements" index) = some (.element element) := by
  rw [lookup_child_of_encloses document scope enclosed, known]
  rfl

theorem blames_of_reports {document : Document} {settings : ValidationSettings} {scope : Scope}
    (enclosed : document.scope.Encloses scope) {d : Diagnostic}
    (reports : scope.Reports settings d) :
    ∃ index < scope.elements.length,
      d.target = some (.node (scope.path.child "elements" index)) ∧
      document.Blames scope index d := by
  cases reports with
  | entity index before entity known lt earlier =>
    rw [Option.bind_eq_some_iff] at earlier
    rcases earlier with ⟨element, knownBefore, named⟩
    rw [Element.entityName?_eq_bind, Option.bind_eq_some_iff] at named
    rcases named with ⟨sibling, isEntity, same⟩
    rw [Element.entity?_eq_some_iff] at isEntity
    rw [isEntity] at knownBefore
    have inside := (List.getElem?_eq_some_iff.mp known).1
    have here := lookup_child_of_known_element enclosed known
    have there := lookup_child_of_known_element enclosed knownBefore
    refine ⟨index, inside, rfl, ?_⟩
    exact .entity entity sibling before rfl rfl here lt there (Option.some.inj same)
  | greeting index before greeting key known own lt earlier =>
    rw [Option.bind_eq_some_iff] at earlier
    rcases earlier with ⟨element, knownBefore, named⟩
    rw [Element.greetingKey?_eq_bind, Option.bind_eq_some_iff] at named
    rcases named with ⟨sibling, isGreeting, same⟩
    rw [Element.greeting?_eq_some_iff] at isGreeting
    rw [isGreeting] at knownBefore
    have inside := (List.getElem?_eq_some_iff.mp known).1
    have here := lookup_child_of_known_element enclosed known
    have there := lookup_child_of_known_element enclosed knownBefore
    refine ⟨index, inside, rfl, ?_⟩
    exact .greeting greeting sibling key before rfl rfl here own lt there same
  | person index person known asked lowercase =>
    have inside := (List.getElem?_eq_some_iff.mp known).1
    have here := lookup_child_of_known_element enclosed known
    exact ⟨index, inside, rfl, .person person rfl here lowercase⟩

theorem blames_of_validate (document : Document) (settings : ValidationSettings) :
    (∀ d ∈ document.scope.validate settings,
      ∃ scope index,
        document.scope.Encloses scope ∧
        d.target = some (.node (scope.path.child "elements" index)) ∧
        (document.Fits →
          NodePath.ofText (toString (scope.path.child "elements" index)) =
            .ok (scope.path.child "elements" index)) ∧
        document.Blames scope index d) ∧
    ((document.scope.validate settings).map Diagnostic.target).Nodup := by
  constructor
  . intro d mem
    rw [Scope.mem_validate_iff] at mem
    rcases mem with ⟨scope, enclosed, reports⟩
    rcases blames_of_reports enclosed reports with ⟨index, inside, target, blames⟩
    refine ⟨scope, index, enclosed, target, ?_, blames⟩
    intro fits
    exact Scope.ofText_toString_child fits enclosed inside
  . exact document.scope.nodup_target_validate settings

def namesakes : Document :=
  ⟨none, [.package "p" [.entity ⟨"A", [], none⟩, .person ⟨"Al"⟩, .entity ⟨"A", [], none⟩]]⟩

theorem blames_of_validate_namesakes :
    let path : NodePath := ⟨[⟨"elements", some 0⟩, ⟨"elements", some 2⟩]⟩
    let d := Validation.repeatedEntity ⟨path, ⟨"A", [], none⟩⟩ 2
    d ∈ namesakes.scope.validate {} ∧
    namesakes.Fits ∧
    NodePath.ofText (toString path) = .ok path ∧
    ∃ scope, path = scope.path.child "elements" 2 ∧ namesakes.Blames scope 2 d := by
  intro path d
  have reported : d ∈ namesakes.scope.validate {} := by
    decide +kernel
  have fits : namesakes.Fits := by
    decide +kernel
  rcases (blames_of_validate namesakes {}).1 d reported with
    ⟨scope, index, _, target, readable, blames⟩
  have here : path = scope.path.child "elements" index := Target.node.inj (Option.some.inj target)
  have last : 2 = index := by
    have parent : path = NodePath.child ⟨[⟨"elements", some 0⟩]⟩ "elements" 2 := rfl
    rw [parent, NodePath.child_inj] at here
    exact here.2
  subst last
  refine ⟨reported, fits, ?_, scope, here, blames⟩
  rw [here]
  exact readable fits

end Document

end DomainModel
