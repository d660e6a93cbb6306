import DomainModel.Layout.PositionCache

namespace DomainModel

namespace PositionCache

theorem get?_insert (cache : PositionCache) (name other : String) (position : Point) :
    (cache.insert name position).get? other =
      if name = other then some position else cache.get? other := by
  unfold get? insert
  rw [Std.ExtTreeMap.getElem?_insert]
  simp only [Std.LawfulEqCmp.compare_eq_iff_eq]

theorem get?_clear (cache : PositionCache) (name : String) : cache.clear.get? name = none := by
  simp [get?, clear]

theorem get?_place (cache : PositionCache) (name other : String) (index : Nat) :
    (cache.place name index).2.get? other =
      (cache.get? other <|>
        if name = other then some (cache.layout.defaultPosition index) else none) := by
  unfold place
  split
  . next position known =>
    by_cases same : name = other
    . subst same
      simp [known]
    . simp [same]
  . next unknown =>
    rw [get?_insert]
    by_cases same : name = other
    . subst same
      simp [unknown]
    . simp [same]

theorem get?_place_self (cache : PositionCache) (name : String) (index : Nat) :
    (cache.place name index).2.get? name = some (cache.place name index).1 := by
  unfold place
  split
  . next known => exact known
  . rw [get?_insert]
    simp

theorem layout_place (cache : PositionCache) (name : String) (index : Nat) :
    (cache.place name index).2.layout = cache.layout := by
  unfold place
  split
  . rfl
  . rfl

theorem record_fst (cache : PositionCache) (name : String) (position : Point) :
    (cache.record name position).1 = position.isFinite := by
  unfold record
  split
  . next finite => simp [finite]
  . next infinite => simp [infinite]

theorem get?_record (cache : PositionCache) (name other : String) (position : Point) :
    (cache.record name position).2.get? other =
      if name = other ∧ position.isFinite then some position else cache.get? other := by
  unfold record
  split
  . next finite =>
    rw [get?_insert]
    simp [finite]
  . next infinite => simp [infinite]

theorem layout_record (cache : PositionCache) (name : String) (position : Point) :
    (cache.record name position).2.layout = cache.layout := by
  unfold record
  split
  . rfl
  . rfl

end PositionCache

end DomainModel
