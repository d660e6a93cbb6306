import DomainModel.Proofs.Layout.Rows
import DomainModel.Proofs.Session.History
import DomainModel.SettingsFile

/-!
Finite positions. What a drop records is finite, so a position that is not finite is the default
position of a name, and no drop of that name was committed since. A session keeps all its positions
finite, whatever it is told, just if the default positions of all rows that it fills are, and for
every number of rows they are just if the layout is not too wide.
-/

namespace DomainModel

def PositionCache.AllFinite (cache : PositionCache) : Prop :=
  ∀ id position, cache.get? id = some position → position.isFinite = true

namespace Session

def Step.rows : Step → Nat
  | .project _ entities => entities.length
  | _ => 0

namespace History

theorem isFinite_of_committed? (id : String) (past : History) (position : Point)
    (committed : committed? id past = some position) : position.isFinite = true := by
  unfold committed? at committed
  split at committed
  . split at committed
    . rw [Option.filter_eq_some_iff] at committed
      exact committed.2
    . cases committed
  . cases committed

theorem isFinite_of_lastCommitted? (id : String) (past : History) (position : Point)
    (committed : lastCommitted? id past = some position) : position.isFinite = true := by
  unfold lastCommitted? at committed
  rcases List.exists_of_findSome?_eq_some committed with ⟨before, _, committed⟩
  exact isFinite_of_committed? id before position committed

theorem exists_row_of_firstPlaced? (layout : Layout) (id : String) (past : History)
    (position : Point) (placed : firstPlaced? layout id past = some position) :
    ∃ step ∈ past, ∃ index < step.rows, position = layout.defaultPosition index := by
  unfold firstPlaced? at placed
  rcases List.exists_of_findSome?_eq_some placed with ⟨step, mem, placed⟩
  rw [List.mem_reverse] at mem
  refine ⟨step, (List.takeWhile_sublist _).subset mem, ?_⟩
  cases step with
  | project document entities =>
    dsimp only [Step.placed?] at placed
    rw [Option.map_eq_some_iff] at placed
    rcases placed with ⟨index, found, rfl⟩
    rw [List.findIdx?_eq_some_iff_getElem] at found
    rcases found with ⟨inside, _⟩
    exact ⟨index, inside, rfl⟩
  | drag event => cases placed
  | reset => cases placed

end History

namespace Follows

variable {layout : Layout} {past : History} {session : Session}

theorem allFinite_iff (h : Follows layout past session) :
    session.cache.AllFinite ↔
      ∀ id, History.lastCommitted? id past = none →
        ∀ position ∈ History.firstPlaced? layout id past, position.isFinite = true := by
  unfold PositionCache.AllFinite
  simp only [h.get?_eq, History.position?]
  constructor
  . intro finite id free position placed
    apply finite id
    rw [free]
    exact placed
  . intro finite id position known
    cases committed : History.lastCommitted? id past with
    | some last =>
      rw [committed] at known
      cases known
      exact History.isFinite_of_lastCommitted? id past position committed
    | none =>
      rw [committed] at known
      exact finite id committed position known

theorem allFinite_of_rows (h : Follows layout past session)
    (finite : ∀ step ∈ past, ∀ index < step.rows, (layout.defaultPosition index).isFinite = true) :
    session.cache.AllFinite := by
  rw [h.allFinite_iff]
  intro id _ position placed
  rcases History.exists_row_of_firstPlaced? layout id past position placed with
    ⟨step, mem, index, inside, rfl⟩
  exact finite step mem index inside

end Follows

theorem get?_run_project (layout : Layout) (document : Document) (entities : List (Located Entity))
    (id : String) :
    ((ofLayout layout).run [.project document entities]).cache.get? id =
      (entities.findIdx? (·.node.name = id)).map layout.defaultPosition := by
  apply ((ofLayout layout).get?_project document entities id).trans
  simp [ofLayout, PositionCache.get?]

-- The last entity is the only one of its name.
def rowsUpTo (index : Nat) : List (Located Entity) :=
  List.replicate index ⟨.root, "A", [], none⟩ ++ [⟨.root, "B", [], none⟩]

theorem get?_run_rowsUpTo (layout : Layout) (document : Document) (index : Nat) :
    ((ofLayout layout).run [.project document (rowsUpTo index)]).cache.get? "B" =
      some (layout.defaultPosition index) := by
  rw [get?_run_project, rowsUpTo, List.findIdx?_append, List.findIdx?_replicate]
  simp

theorem isFinite_of_allFinite_rowsUpTo (layout : Layout) (index : Nat)
    (finite : ((ofLayout layout).run
      [.project { elements := [] } (rowsUpTo index)]).cache.AllFinite) :
    (layout.defaultPosition index).isFinite = true := by
  apply finite "B"
  apply get?_run_rowsUpTo

theorem allFinite_run_iff (layout : Layout) :
    (∀ steps,
      ((ofLayout layout).run steps).cache.AllFinite ↔
        ∀ id, History.lastCommitted? id steps.reverse = none →
          ∀ position ∈ History.firstPlaced? layout id steps.reverse, position.isFinite = true) ∧
    (∀ bound,
      (∀ steps : List Step, (∀ step ∈ steps, step.rows ≤ bound) →
        ((ofLayout layout).run steps).cache.AllFinite) ↔
      ∀ index < bound, (layout.defaultPosition index).isFinite = true) ∧
    ((∀ steps, ((ofLayout layout).run steps).cache.AllFinite) ↔
      layout.originX.isFinite = true ∧ layout.rowSpacing.abs < 18446744073709551616) := by
  have follows (steps : List Step) :
      Follows layout steps.reverse ((ofLayout layout).run steps) := by
    simpa using (Follows.ofLayout layout).run steps
  refine ⟨fun steps => (follows steps).allFinite_iff, fun bound => ?_, ?_⟩
  . constructor
    . intro finite index inside
      apply isFinite_of_allFinite_rowsUpTo
      apply finite
      rw [List.forall_mem_singleton, Step.rows, rowsUpTo, List.length_append,
        List.length_replicate]
      exact inside
    . intro finite steps narrow
      apply (follows steps).allFinite_of_rows
      intro step mem index inside
      rw [List.mem_reverse] at mem
      exact finite index (Nat.lt_of_lt_of_le inside (narrow step mem))
  . rw [← Layout.isFinite_defaultPosition_iff]
    constructor
    . intro finite index
      apply isFinite_of_allFinite_rowsUpTo
      apply finite
    . intro finite steps
      apply (follows steps).allFinite_of_rows
      intro step _ index _
      exact finite index

-- Settings of finite numbers: two rows apart the distance exceeds single precision.
def wideFile : String := "[layout]\nrow_spacing = 3e38\n"

def threeEntities : Document where
  elements := [.entity ⟨"A", [], none⟩, .entity ⟨"B", [], none⟩, .entity ⟨"C", [], none⟩]

theorem not_allFinite_wideFile :
    ∃ settings,
      Settings.ofToml? wideFile = some settings ∧
      settings.layout.originX.isFinite = true ∧
      settings.layout.rowSpacing.isFinite = true ∧
      ¬ ((ofLayout settings.layout).run
        [.project threeEntities threeEntities.scope.entities]).cache.AllFinite := by
  have read : (Settings.ofToml? wideFile).any fun settings =>
      settings.layout.originX.isFinite && settings.layout.rowSpacing.isFinite &&
        !(settings.layout.defaultPosition 2).isFinite := by
    decide +kernel
  rw [Option.any_eq_true] at read
  rcases read with ⟨settings, read, known⟩
  simp only [Bool.and_eq_true, Bool.not_eq_true'] at known
  refine ⟨settings, read, known.1.1, known.1.2, ?_⟩
  intro finite
  have last : ((ofLayout settings.layout).run
      [.project threeEntities threeEntities.scope.entities]).cache.get? "C" =
        some (settings.layout.defaultPosition 2) := by
    rw [get?_run_project]
    rfl
  rw [finite "C" _ last] at known
  cases known.2

end Session

end DomainModel
