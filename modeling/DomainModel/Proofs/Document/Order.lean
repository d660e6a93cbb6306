import DomainModel.Proofs.Document.Scope

namespace DomainModel

/-- The elements of a list, and those of the packages in it, in another order. -/
inductive Rearranged : List Element → List Element → Prop where
  | nil : Rearranged [] []
  | cons (element : Element) {elements others : List Element} (rest : Rearranged elements others) :
      Rearranged (element :: elements) (element :: others)
  | package (name : String) {inner inner' elements others : List Element}
      (body : Rearranged inner inner') (rest : Rearranged elements others) :
      Rearranged (.package name inner :: elements) (.package name inner' :: others)
  | swap (element next : Element) (elements : List Element) :
      Rearranged (next :: element :: elements) (element :: next :: elements)
  | trans {elements others more : List Element} (first : Rearranged elements others)
      (second : Rearranged others more) : Rearranged elements more

namespace Rearranged

theorem of_perm {elements others : List Element} (h : elements.Perm others) :
    Rearranged elements others := by
  induction h with
  | nil => exact .nil
  | cons element _ ih => exact .cons element ih
  | swap element next elements => exact .swap element next elements
  | trans _ _ ih₁ ih₂ => exact .trans ih₁ ih₂

-- What does not look into packages sees no more than a permutation.
theorem perm_filterMap (f : Element → Option α)
    (closed : ∀ name inner inner', f (.package name inner) = f (.package name inner'))
    {elements others : List Element} (h : Rearranged elements others) :
    (elements.filterMap f).Perm (others.filterMap f) := by
  induction h with
  | nil => exact .refl _
  | cons element _ ih =>
    rw [List.filterMap_cons, List.filterMap_cons]
    split
    . exact ih
    . exact ih.cons _
  | @package name inner inner' _ _ _ _ _ ih =>
    rw [List.filterMap_cons, List.filterMap_cons, closed name inner inner']
    split
    . exact ih
    . exact ih.cons _
  | swap element next elements =>
    apply List.Perm.filterMap
    exact .swap element next elements
  | trans _ _ ih₁ ih₂ => exact ih₁.trans ih₂

end Rearranged

mutual

def Element.bodies : Element → List (List Element)
  | .package _ elements => elements :: elementsBodies elements
  | _ => []
termination_by structural element => element

def elementsBodies : List Element → List (List Element)
  | [] => []
  | element :: elements => element.bodies ++ elementsBodies elements
termination_by structural elements => elements

end

mutual

theorem Scope.map_elements_ofElement (document : Document) (path : NodePath) (element : Element) :
    (ofElement document path element).map (·.elements) = element.bodies := by
  cases element with
  | package name elements =>
    rw [ofElement, Element.bodies, List.map_cons]
    rw [map_elements_ofElements]
  | dataType _ | entity _ | person _ | greeting _ => rfl

theorem Scope.map_elements_ofElements (document : Document) (path : NodePath) (index : Nat)
    (elements : List Element) :
    (ofElements document path index elements).map (·.elements) = elementsBodies elements := by
  cases elements with
  | nil => rfl
  | cons element elements =>
    rw [ofElements, elementsBodies, List.map_append]
    rw [map_elements_ofElement, map_elements_ofElements]

end

theorem Scope.map_elements_depthFirst (scope : Scope) :
    scope.depthFirst.map (·.elements) = scope.elements :: elementsBodies scope.elements := by
  unfold depthFirst
  rw [List.map_cons, map_elements_ofElements]

namespace Rearranged

theorem perm_flatMap_bodies (f : List Element → List α)
    (perm : ∀ elements others, Rearranged elements others → (f elements).Perm (f others))
    {elements others : List Element} (h : Rearranged elements others) :
    ((elementsBodies elements).flatMap f).Perm ((elementsBodies others).flatMap f) := by
  induction h with
  | nil => exact .refl _
  | cons element _ ih =>
    rw [elementsBodies, elementsBodies, List.flatMap_append, List.flatMap_append]
    exact ih.append_left _
  | package name body _ ih ih' =>
    rw [elementsBodies, elementsBodies, List.flatMap_append, List.flatMap_append]
    rw [Element.bodies, Element.bodies, List.flatMap_cons, List.flatMap_cons]
    exact ((perm _ _ body).append ih).append ih'
  | swap element next elements =>
    simp only [elementsBodies, List.flatMap_append]
    apply List.perm_append_comm_assoc
  | trans _ _ ih₁ ih₂ => exact ih₁.trans ih₂

theorem perm_flatMap_depthFirst (f : List Element → List α)
    (perm : ∀ elements others, Rearranged elements others → (f elements).Perm (f others))
    {scope other : Scope} (h : Rearranged scope.elements other.elements) :
    (scope.depthFirst.flatMap fun scope => f scope.elements).Perm
      (other.depthFirst.flatMap fun scope => f scope.elements) := by
  have bodies (scope : Scope) :
      (scope.depthFirst.flatMap fun scope => f scope.elements) =
        f scope.elements ++ (elementsBodies scope.elements).flatMap f := by
    rw [← List.flatMap_map, Scope.map_elements_depthFirst, List.flatMap_cons]
  rw [bodies, bodies]
  exact (perm _ _ h).append (perm_flatMap_bodies f perm h)

end Rearranged

end DomainModel
