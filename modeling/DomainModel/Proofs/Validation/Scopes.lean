import DomainModel.Proofs.Document.Scope
import DomainModel.Proofs.Validation.Repeats

/-!
What the validation of a document reports. The scopes of the document follow each other depth first,
and in each of them the entities that repeat a name come before the greetings that repeat a key and
these before the persons without a capital, all in source order and counted within their scope.
-/

namespace DomainModel

namespace Collector

theorem diagnostics_emitAll (c : Collector) (ds : List Diagnostic) :
    (c.emitAll ds).diagnostics = c.diagnostics ++ ds := by
  unfold emitAll
  induction ds generalizing c with
  | nil => simp
  | cons d ds ih =>
    rw [List.foldl_cons, ih]
    simp [emit]

end Collector

namespace Visit

def found (settings : ValidationSettings) : Visit → List Diagnostic
  | .entities items => Validation.ofEntities items
  | .greetings items => Validation.ofGreetings items
  | .persons items => Validation.ofPersons settings items

end Visit

namespace Validator

theorem visit_eq (v : Validator) (visit : Visit) :
    v.visit visit = { v with found := v.found.emitAll (visit.found v.settings) } := by
  cases visit with
  | entities entities => rfl
  | greetings greetings => rfl
  | persons persons => rfl

theorem diagnostics_foldl_visit (v : Validator) (visits : List Visit) :
    (visits.foldl visit v).diagnostics = v.diagnostics ++ visits.flatMap (·.found v.settings) := by
  induction visits generalizing v with
  | nil => simp
  | cons visit visits ih =>
    rw [List.foldl_cons, ih, visit_eq]
    unfold diagnostics
    rw [Collector.diagnostics_emitAll]
    rw [List.flatMap_cons, List.append_assoc]

end Validator

namespace Scope

def repeatErrors (scope : Scope) (node? : Element → Option α) (key? : α → Option String)
    (error : Located α → String → Nat → Diagnostic) : List Diagnostic :=
  scope.elements.zipIdx.filterMap fun (element, index) =>
    (node? element).bind fun node =>
      (key? node).bind fun key =>
        let earlier := (scope.elements.take index).countP fun element =>
          (node? element).bind key? = some key
        if earlier = 0 then none
        else some (error ⟨scope.path.child "elements" index, node⟩ key (earlier + 1))

def entityErrors (scope : Scope) : List Diagnostic :=
  scope.repeatErrors Element.entity? (some ·.name) fun entity _ occurrence =>
    Validation.repeatedEntity entity occurrence

def greetingErrors (scope : Scope) : List Diagnostic :=
  scope.repeatErrors Element.greeting? (·.person.key) Validation.repeatedGreeting

def personWarnings (settings : ValidationSettings) (scope : Scope) : List Diagnostic :=
  scope.elements.zipIdx.filterMap fun (element, index) =>
    element.person?.bind fun person =>
      if settings.capitalizedPersons ∧ ¬ person.name.toList.head?.any Text.isCapital then
        some (Validation.lowercasePerson ⟨scope.path.child "elements" index, person⟩)
      else none

theorem bucket_eq_filterMap (scope : Scope) (kind? : Element → Option α) :
    scope.bucket kind? =
      scope.elements.zipIdx.filterMap fun (element, index) =>
        (kind? element).map fun node => ⟨scope.path.child "elements" index, node⟩ := by
  unfold bucket located
  rw [List.filterMap_map]
  rfl

-- Entities are counted as they are, greetings together with the keys that they have.
theorem map_repeats_bucket (scope : Scope) (node? : Element → Option α) (key? : α → Option String)
    (error : Located α → String → Nat → Diagnostic) (item? : Located α → Option β)
    (key : β → String) (report : β × Nat → Diagnostic)
    (key_item? : ∀ item, (item? item).map key = key? item.node)
    (report_item? : ∀ item b n, item? item = some b → report (b, n) = error item (key b) n) :
    (repeats key ((scope.bucket node?).filterMap item?)).map report =
      scope.repeatErrors node? key? error := by
  rw [bucket_eq_filterMap, List.filterMap_filterMap]
  rw [repeats_filterMap_zipIdx key _ fun element => (node? element).bind key?]
  . rw [List.map_filterMap]
    unfold repeatErrors
    congr
    funext ⟨element, index⟩
    dsimp only
    cases node? element with
    | none => rfl
    | some node =>
      simp only [Option.map_some, Option.bind_some]
      rw [← key_item? ⟨scope.path.child "elements" index, node⟩]
      cases counted : item? ⟨scope.path.child "elements" index, node⟩ with
      | none => rfl
      | some b =>
        simp only [Option.map_some, Option.bind_some]
        split
        . rfl
        . rw [Option.map_some, report_item? _ b _ counted]
  . intro element index
    dsimp only
    cases node? element with
    | none => rfl
    | some node => apply key_item?

theorem ofEntities_entities (scope : Scope) :
    Validation.ofEntities scope.entities = scope.entityErrors := by
  unfold Validation.ofEntities entityErrors
  rw [← scope.map_repeats_bucket _ _ _ some (·.node.name)]
  . rw [List.filterMap_some]
    rfl
  . intro item
    rfl
  . intro item b n same
    cases same
    rfl

theorem ofGreetings_greetings (scope : Scope) :
    Validation.ofGreetings scope.greetings = scope.greetingErrors := by
  unfold Validation.ofGreetings Validation.keyed greetingErrors
  rw [← scope.map_repeats_bucket _ _ _ (fun item => item.node.person.key.map (item, ·)) (·.2)]
  . rfl
  . intro item
    cases item.node.person.key with
    | none => rfl
    | some key => rfl
  . intro item b n same
    rw [Option.map_eq_some_iff] at same
    rcases same with ⟨key, _, rfl⟩
    rfl

theorem startsCapital_eq (name : String) :
    Text.startsCapital name = name.toList.head?.any Text.isCapital := by
  unfold Text.startsCapital
  cases name.toList with
  | nil => rfl
  | cons c rest => rfl

theorem ofPersons_persons (settings : ValidationSettings) (scope : Scope) :
    Validation.ofPersons settings scope.persons = scope.personWarnings settings := by
  unfold Validation.ofPersons persons personWarnings
  rw [bucket_eq_filterMap]
  cases settings.capitalizedPersons with
  | false => simp
  | true =>
    rw [if_pos rfl]
    rw [List.filter_filterMap, List.map_filterMap]
    congr
    funext ⟨element, index⟩
    dsimp only
    cases element.person? with
    | none => rfl
    | some person =>
      simp only [startsCapital_eq, Option.map_some, Option.bind_some]
      by_cases capital : person.name.toList.head?.any Text.isCapital
      . simp [Option.filter, capital]
      . simp [Option.filter, capital]

theorem flatMap_found_ownVisits (settings : ValidationSettings) (scope : Scope) :
    scope.ownVisits.flatMap (·.found settings) =
      scope.entityErrors ++ scope.greetingErrors ++ scope.personWarnings settings := by
  simp only [ownVisits, Visit.found, List.flatMap_cons, List.flatMap_nil]
  rw [ofEntities_entities, ofGreetings_greetings, ofPersons_persons]
  simp

theorem validate_eq_flatMap (scope : Scope) (settings : ValidationSettings) :
    scope.validate settings =
      scope.depthFirst.flatMap fun scope =>
        scope.entityErrors ++ scope.greetingErrors ++ scope.personWarnings settings := by
  unfold validate
  rw [Validator.diagnostics_foldl_visit]
  unfold visits
  rw [List.flatMap_assoc]
  simp only [flatMap_found_ownVisits]
  rfl

end Scope

def Element.entityName? : Element → Option String
  | .entity e => some e.name
  | _ => none

def Element.greetingKey? : Element → Option String
  | .greeting g => g.person.key
  | _ => none

theorem Element.entityName?_eq_bind (element : Element) :
    element.entityName? = element.entity?.bind (some ·.name) := by
  cases element with
  | _ => rfl

theorem Element.greetingKey?_eq_bind (element : Element) :
    element.greetingKey? = element.greeting?.bind (·.person.key) := by
  cases element with
  | _ => rfl

theorem Element.entity?_eq_some_iff (element : Element) (entity : Entity) :
    element.entity? = some entity ↔ element = .entity entity := by
  cases element with
  | entity other => simp [entity?]
  | _ => simp [entity?]

theorem Element.greeting?_eq_some_iff (element : Element) (greeting : Greeting) :
    element.greeting? = some greeting ↔ element = .greeting greeting := by
  cases element with
  | greeting other => simp [greeting?]
  | _ => simp [greeting?]

theorem Element.person?_eq_some_iff (element : Element) (person : Person) :
    element.person? = some person ↔ element = .person person := by
  cases element with
  | person other => simp [person?]
  | _ => simp [person?]

namespace Scope

theorem mem_repeatErrors (scope : Scope) (node? : Element → Option α) (key? : α → Option String)
    (error : Located α → String → Nat → Diagnostic) (d : Diagnostic) :
    d ∈ scope.repeatErrors node? key? error ↔
      ∃ j node key,
        scope.elements[j]?.bind node? = some node ∧
        key? node = some key ∧
        (∃ i < j, scope.elements[i]?.bind (fun element => (node? element).bind key?) = some key) ∧
        d = error ⟨scope.path.child "elements" j, node⟩ key
          ((scope.elements.take j).countP (fun element => (node? element).bind key? = some key) +
            1) := by
  have counted := countP_take_ne_zero_iff (fun element => (node? element).bind key?) scope.elements
  unfold repeatErrors
  simp only [← counted, List.mem_filterMap, Prod.exists, List.mk_mem_zipIdx_iff_getElem?]
  constructor
  . rintro ⟨element, j, at_j, found⟩
    rw [Option.bind_eq_some_iff] at found
    rcases found with ⟨node, known, found⟩
    rw [Option.bind_eq_some_iff] at found
    rcases found with ⟨key, own, found⟩
    split at found
    . cases found
    . next repeated =>
      cases found
      refine ⟨j, node, key, ?_, own, repeated, rfl⟩
      rw [at_j]
      exact known
  . rintro ⟨j, node, key, known, own, repeated, rfl⟩
    rw [Option.bind_eq_some_iff] at known
    rcases known with ⟨element, at_j, known⟩
    refine ⟨element, j, at_j, ?_⟩
    rw [known, Option.bind_some, own, Option.bind_some]
    rw [if_neg repeated]

theorem mem_entityErrors (scope : Scope) (d : Diagnostic) :
    d ∈ scope.entityErrors ↔
      ∃ (index : Nat) (entity : Entity),
        scope.elements[index]? = some (.entity entity) ∧
        (∃ before < index, scope.elements[before]?.bind Element.entityName? = some entity.name) ∧
        d = Validation.repeatedEntity ⟨scope.path.child "elements" index, entity⟩
          ((scope.elements.take index).countP (·.entityName? = some entity.name) + 1) := by
  unfold entityErrors
  rw [mem_repeatErrors]
  simp only [← Element.entityName?_eq_bind, Option.bind_eq_some_iff, Element.entity?_eq_some_iff]
  constructor
  . intro found
    rcases found with ⟨index, entity, _, ⟨_, known, rfl⟩, ⟨⟩, earlier, rfl⟩
    exact ⟨index, entity, known, earlier, rfl⟩
  . intro found
    rcases found with ⟨index, entity, known, earlier, rfl⟩
    exact ⟨index, entity, _, ⟨_, known, rfl⟩, rfl, earlier, rfl⟩

theorem mem_greetingErrors (scope : Scope) (d : Diagnostic) :
    d ∈ scope.greetingErrors ↔
      ∃ (index : Nat) (greeting : Greeting) (key : String),
        scope.elements[index]? = some (.greeting greeting) ∧
        greeting.person.key = some key ∧
        (∃ before < index, scope.elements[before]?.bind Element.greetingKey? = some key) ∧
        d = Validation.repeatedGreeting ⟨scope.path.child "elements" index, greeting⟩ key
          ((scope.elements.take index).countP (·.greetingKey? = some key) + 1) := by
  unfold greetingErrors
  rw [mem_repeatErrors]
  simp only [← Element.greetingKey?_eq_bind, Option.bind_eq_some_iff,
    Element.greeting?_eq_some_iff]
  constructor
  . intro found
    rcases found with ⟨index, greeting, key, ⟨_, known, rfl⟩, own, earlier, rfl⟩
    exact ⟨index, greeting, key, known, own, earlier, rfl⟩
  . intro found
    rcases found with ⟨index, greeting, key, known, own, earlier, rfl⟩
    exact ⟨index, greeting, key, ⟨_, known, rfl⟩, own, earlier, rfl⟩

theorem mem_personWarnings (settings : ValidationSettings) (scope : Scope) (d : Diagnostic) :
    d ∈ scope.personWarnings settings ↔
      ∃ (index : Nat) (person : Person),
        scope.elements[index]? = some (.person person) ∧
        settings.capitalizedPersons ∧
        ¬ person.name.toList.head?.any Text.isCapital ∧
        d = Validation.lowercasePerson ⟨scope.path.child "elements" index, person⟩ := by
  unfold personWarnings
  simp only [List.mem_filterMap, Prod.exists, List.mk_mem_zipIdx_iff_getElem?]
  constructor
  . rintro ⟨element, index, known, found⟩
    rw [Option.bind_eq_some_iff] at found
    rcases found with ⟨person, isPerson, found⟩
    rw [Element.person?_eq_some_iff] at isPerson
    subst isPerson
    split at found
    . next asked =>
      cases found
      exact ⟨index, person, known, asked.1, asked.2, rfl⟩
    . cases found
  . rintro ⟨index, person, known, asked, lowercase, rfl⟩
    refine ⟨_, index, known, ?_⟩
    rw [Element.person?, Option.bind_some, if_pos ⟨asked, lowercase⟩]

inductive Reports (settings : ValidationSettings) (scope : Scope) : Diagnostic → Prop where
  | entity (index before : Nat) (entity : Entity)
      (here : scope.elements[index]? = some (.entity entity))
      (lt : before < index)
      (there : scope.elements[before]?.bind Element.entityName? = some entity.name) :
      Reports settings scope {
        severity := .error
        message := "Entity has non-unique name '" ++ entity.name ++ "' (" ++
          ordinal ((scope.elements.take index).countP (·.entityName? = some entity.name) + 1) ++
          " occurrence)."
        code := some (.own .repeatedEntity)
        target := some (.node (scope.path.child "elements" index))
        source := some "masala"
        help := some "rename the entity or remove the duplicate declaration" }
  | greeting (index before : Nat) (greeting : Greeting) (key : String)
      (here : scope.elements[index]? = some (.greeting greeting))
      (own : greeting.person.key = some key)
      (lt : before < index)
      (there : scope.elements[before]?.bind Element.greetingKey? = some key) :
      Reports settings scope {
        severity := .error
        message := "You can greet each person only once. This is the " ++
          ordinal ((scope.elements.take index).countP (·.greetingKey? = some key) + 1) ++
          " greeting to '" ++ key ++ "'."
        code := some (.own .repeatedGreeting)
        target := some (.node (scope.path.child "elements" index))
        source := some "masala"
        help := none }
  | person (index : Nat) (person : Person)
      (here : scope.elements[index]? = some (.person person))
      (asked : settings.capitalizedPersons)
      (lowercase : ¬ person.name.toList.head?.any Text.isCapital) :
      Reports settings scope {
        severity := .warning
        message := "Person name should start with a capital."
        code := some (.own .lowercasePerson)
        target := some (.node (scope.path.child "elements" index))
        source := some "masala"
        help := none }

theorem mem_append_iff_reports (settings : ValidationSettings) (scope : Scope) (d : Diagnostic) :
    d ∈ scope.entityErrors ++ scope.greetingErrors ++ scope.personWarnings settings ↔
      scope.Reports settings d := by
  rw [List.mem_append, List.mem_append, mem_entityErrors, mem_greetingErrors, mem_personWarnings]
  constructor
  . rintro ((⟨index, entity, here, ⟨before, lt, there⟩, rfl⟩ |
      ⟨index, greeting, key, here, own, ⟨before, lt, there⟩, rfl⟩) |
      ⟨index, person, here, asked, lowercase, rfl⟩)
    . exact .entity index before entity here lt there
    . exact .greeting index before greeting key here own lt there
    . exact .person index person here asked lowercase
  . intro reports
    cases reports with
    | entity index before entity here lt there =>
      exact .inl (.inl ⟨index, entity, here, ⟨before, lt, there⟩, rfl⟩)
    | greeting index before greeting key here own lt there =>
      exact .inl (.inr ⟨index, greeting, key, here, own, ⟨before, lt, there⟩, rfl⟩)
    | person index person here asked lowercase =>
      exact .inr ⟨index, person, here, asked, lowercase, rfl⟩

theorem mem_validate_iff (scope : Scope) (settings : ValidationSettings) (d : Diagnostic) :
    d ∈ scope.validate settings ↔
      ∃ inner, scope.Encloses inner ∧ inner.Reports settings d := by
  rw [validate_eq_flatMap, List.mem_flatMap]
  simp only [mem_depthFirst_iff, mem_append_iff_reports]

end Scope

end DomainModel
