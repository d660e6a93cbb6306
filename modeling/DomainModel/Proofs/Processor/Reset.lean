import DomainModel.Proofs.Processor.Outcomes

namespace DomainModel

theorem Session.reset_eq_ofLayout (session : Session) :
    session.reset = .ofLayout session.cache.layout := rfl

theorem Session.layout_run_ofLayout (layout : Layout) (steps : List Step) :
    ((ofLayout layout).run steps).cache.layout = layout := by
  exact ((Follows.ofLayout layout).run steps).layout_eq

namespace Processor

structure Alike (p q : Processor) : Prop where
  settings_eq : p.settings = q.settings
  session_eq : p.session = q.session

namespace Alike

variable {p q : Processor}

theorem apply_fst_eq (h : Alike p q) (change : DocumentChange) :
    (p.apply change).1 = (q.apply change).1 := by
  rw [apply_fst, apply_fst]
  rw [h.settings_eq, h.session_eq]

theorem outcome_eq (h : Alike p q) (step : Step) : p.outcome step = q.outcome step := by
  cases step with
  | applyText text =>
    dsimp only [outcome]
    rw [applyText_fst, applyText_fst]
    simp only [h.apply_fst_eq]
  | apply change =>
    dsimp only [outcome]
    rw [h.apply_fst_eq]
  | drag event =>
    dsimp only [outcome]
    rw [drag_fst, drag_fst]
    rw [h.session_eq]
  | reset => rfl

theorem step (h : Alike p q) (step : Step) : Alike (p.step step) (q.step step) where
  settings_eq := by
    rw [settings_step, settings_step]
    exact h.settings_eq
  session_eq := by
    rw [session_step, session_step]
    rw [h.session_eq]

theorem accept_eq (h : Alike p q) (change : DocumentChange) (document : Document) :
    p.accept change document = q.accept change document := by
  unfold accept
  rw [h.settings_eq, h.session_eq]

theorem step_eq_of_isAccepted (h : Alike p q) (step : Step)
    (accepted : (q.outcome step).isAccepted) : p.step step = q.step step := by
  rcases outcome_cases q step with
    ⟨change, document, own, _, _⟩ | ⟨_, _, known, _⟩ | ⟨_, rfl⟩ | rfl
  . rw [p.step_of_accepted? step change document own, q.step_of_accepted? step change document own]
    apply h.accept_eq
  . rw [known] at accepted
    cases accepted
  . cases accepted
  . cases accepted

theorem trace_eq (h : Alike p q) (steps : List Step) : p.trace steps = q.trace steps := by
  induction steps generalizing p q with
  | nil => rfl
  | cons step steps ih =>
    rw [trace_cons, trace_cons]
    rw [h.outcome_eq, ih (h.step step)]

theorem run (h : Alike p q) (steps : List Step) : Alike (p.run steps) (q.run steps) := by
  induction steps generalizing p q with
  | nil => exact h
  | cons step steps ih => exact ih (h.step step)

theorem run_eq_of_isAccepted (h : Alike p q) (steps : List Step)
    (accepted : ∃ entry ∈ q.trace steps, entry.2.isAccepted) : p.run steps = q.run steps := by
  induction steps generalizing p q with
  | nil =>
    rcases accepted with ⟨_, mem, _⟩
    cases mem
  | cons step steps ih =>
    rw [run_cons, run_cons]
    rcases accepted with ⟨entry, mem, accepted⟩
    rw [trace_cons, List.mem_cons] at mem
    cases mem with
    | inl now =>
      subst now
      rw [h.step_eq_of_isAccepted step accepted]
    | inr later => exact ih (h.step step) ⟨entry, later, accepted⟩

end Alike

theorem session_run_reset (settings : Settings) (past : List Step) :
    ((ofSettings settings).run (past ++ [.reset])).session = .ofLayout settings.layout := by
  rw [run_append]
  change ((ofSettings settings).run past).session.reset = _
  rw [session_run, Session.reset_eq_ofLayout]
  change Session.ofLayout ((Session.ofLayout settings.layout).run _).cache.layout = _
  rw [Session.layout_run_ofLayout]

theorem alike_run_reset (settings : Settings) (past : List Step) :
    Alike ((ofSettings settings).run (past ++ [.reset])) (ofSettings settings) where
  settings_eq := settings_run _ _
  session_eq := session_run_reset settings past

theorem run_after_reset (settings : Settings) (past future : List Step) :
    let reset := (ofSettings settings).run (past ++ [.reset])
    let fresh := ofSettings settings
    reset.trace future = fresh.trace future ∧
    (reset.run future).session = (fresh.run future).session ∧
    ((∃ entry ∈ fresh.trace future, entry.2.isAccepted) →
      (reset.run future).snapshot = (fresh.run future).snapshot) := by
  have alike := alike_run_reset settings past
  refine ⟨alike.trace_eq future, (alike.run future).session_eq, ?_⟩
  intro accepted
  rw [alike.run_eq_of_isAccepted future accepted]

def leftMoving : List Step := [.apply userChange, .drag (.moving "User" ⟨10, 10⟩)]

-- The drop ends the drag that the reset has made forget.
def reopened : List Step := [.drag (.dropped "User" none), .apply userChange]

theorem run_after_reset_reopened :
    let reset := (ofSettings {}).run (leftMoving ++ [.reset])
    let fresh := ofSettings {}
    (∃ entry ∈ fresh.trace reopened, entry.2.isAccepted) ∧
    reset.trace reopened = fresh.trace reopened ∧
    (reset.run reopened).session = (fresh.run reopened).session ∧
    (reset.run reopened).snapshot = (fresh.run reopened).snapshot := by
  have accepted : ∃ entry ∈ (ofSettings {}).trace reopened, entry.2.isAccepted := by
    decide +kernel
  rcases run_after_reset {} leftMoving reopened with ⟨trace, session, snapshot⟩
  exact ⟨accepted, trace, session, snapshot accepted⟩

end Processor

end DomainModel
