import DomainModel.Processor
import DomainModel.Proofs.Json.Printed

namespace DomainModel

open Json (Term Value)

namespace OutlineKind

def all : List OutlineKind :=
  [.domainmodel, .category, .dataType, .entity, .feature, .package, .person, .greeting,
    .unresolvedType]

def ofName? (name : String) : Option OutlineKind := all.find? (·.name == name)

theorem ofName?_name (kind : OutlineKind) : ofName? kind.name = some kind := by
  cases kind with
  | domainmodel | category | dataType | entity | feature => decide
  | package | person | greeting | unresolvedType => decide

end OutlineKind

namespace Tag

def ofName? (name : String) : Option Tag := [many, supertype].find? (·.name == name)

theorem ofName?_name (tag : Tag) : ofName? tag.name = some tag := by
  cases tag with
  | many | supertype => decide

def ofValue? : Value → Option Tag
  | .string name => ofName? name
  | _ => none

end Tag

namespace Outline

mutual

/-- The outline that a value shows: it has the four members of an outline and no others. -/
def ofValue? : Value → Option Outline
  | .object [(a, .string name), (b, .string kind), (c, .array tags), (d, .array children)] => do
    if [a, b, c, d] = ["name", "kind", "tags", "children"] then
      return .node name (← OutlineKind.ofName? kind) (← tags.mapM Tag.ofValue?)
        (← ofValues? children)
    else none
  | _ => none
termination_by structural value => value

def ofValues? : List Value → Option (List Outline)
  | [] => some []
  | value :: values => return (← ofValue? value) :: (← ofValues? values)
termination_by structural values => values

end

theorem mapM_ofValue?_tags (tags : List Tag) :
    (tags.map (Value.string ·.name)).mapM Tag.ofValue? = some tags := by
  induction tags with
  | nil => rfl
  | cons tag tags ih =>
    rw [List.map_cons, List.mapM_cons, ih, Tag.ofValue?, Tag.ofName?_name]
    rfl

mutual

theorem ofValue?_toValue (outline : Outline) : ofValue? outline.toValue = some outline := by
  cases outline with
  | node name kind tags children =>
    rw [toValue, ofValue?, if_pos rfl, OutlineKind.ofName?_name, mapM_ofValue?_tags,
      ofValues?_toValues children]
    rfl
termination_by structural outline

theorem ofValues?_toValues (outlines : List Outline) :
    ofValues? (toValues outlines) = some outlines := by
  cases outlines with
  | nil => rfl
  | cons outline outlines =>
    rw [toValues, ofValues?, ofValue?_toValue outline, ofValues?_toValues outlines]
    rfl
termination_by structural outlines

end

mutual

def height : Outline → Nat
  | .node _ _ _ children => heights children + 1
termination_by structural outline => outline

def heights : List Outline → Nat
  | [] => 0
  | outline :: outlines => max outline.height (heights outlines)
termination_by structural outlines => outlines

end

mutual

-- An outline opens an object, and in it an array for the outlines inside.
theorem depth_toValue (outline : Outline) : outline.toValue.term.depth = 2 * outline.height := by
  cases outline with
  | node name kind tags children =>
    have tagDepth : Term.itemsDepth (Value.itemTerms (tags.map (Value.string ·.name))) = 0 := by
      rw [Value.itemTerms_eq_map, ← Nat.le_zero, Term.itemsDepth_le_iff]
      simp [Value.term, Term.depth]
    rw [toValue, height, Value.term, Term.depth]
    simp only [Value.memberTerms, Value.term, Term.membersDepth, Term.depth, tagDepth,
      depth_toValues children]
    omega
termination_by structural outline

theorem depth_toValues (outlines : List Outline) :
    Term.itemsDepth (Value.itemTerms (toValues outlines)) = 2 * heights outlines := by
  cases outlines with
  | nil => rfl
  | cons outline outlines =>
    rw [toValues, Value.itemTerms, Term.itemsDepth, heights, depth_toValue outline,
      depth_toValues outlines]
    omega
termination_by structural outlines

end

mutual

theorem isExact_toValue (outline : Outline) : outline.toValue.IsExact := by
  cases outline with
  | node name kind tags children =>
    have tagsExact : Value.ItemsAreExact (tags.map (Value.string ·.name)) := by
      rw [Value.itemsAreExact_iff, List.forall_mem_map]
      intro tag _
      trivial
    rw [toValue]
    exact ⟨trivial, trivial, tagsExact, isExact_toValues children, trivial⟩
termination_by structural outline

theorem isExact_toValues (outlines : List Outline) : Value.ItemsAreExact (toValues outlines) := by
  cases outlines with
  | nil => trivial
  | cons outline outlines => exact ⟨isExact_toValue outline, isExact_toValues outlines⟩
termination_by structural outlines

end

-- A reader needs to open two levels for each level of the outline.
theorem shows_text (outline : Outline) :
    Json.Shows (View.tree outline).text outline.toValue ∧
    Json.Shows ((View.tree outline).text ++ "\n") outline.toValue ∧
    outline.toValue.term.depth = 2 * outline.height ∧
    ofValue? outline.toValue = some outline := by
  have shown := outline.toValue.shows_pretty outline.isExact_toValue
  refine ⟨?_, ?_, outline.depth_toValue, outline.ofValue?_toValue⟩
  . have alone := shown "" (.refl _)
    rw [String.append_empty] at alone
    exact alone
  . apply shown "\n"
    exact ⟨['\n'], by simp [Json.Cursor.isBlank], rfl⟩

end Outline

end DomainModel
