import DomainModel.Proofs.CommandLine.Files
import DomainModel.Proofs.CommandLine.Rendering

/-!
What a run leaves behind. It reads first, then renders, and only then writes or prints, so that a
run that fails on its way leaves every file as it was and prints nothing.
-/

namespace DomainModel

open Json (bind_eq_ok_iff pure_eq_ok_iff)

theorem Processor.applyText_eq_ok_iff (p : Processor) (text : String) (snapshot : Snapshot) :
    (p.applyText text).1 = .ok snapshot ↔
      ∃ change document,
        DocumentChange.ofText text = .ok change ∧ change.document = .ok document ∧
        (derive p.settings p.session change document).1 = snapshot := by
  rw [applyText_fst]
  cases DocumentChange.ofText text with
  | error rejection => simp
  | ok change =>
    dsimp only
    rw [apply_fst]
    cases read : change.document with
    | error rejection => simp [read]
    | ok document => simp [read]

namespace CommandLine

theorem mapError_eq_ok_iff {ε ε' α : Type} (f : ε → ε') (x : Except ε α) (a : α) :
    x.mapError f = .ok a ↔ x = .ok a := by
  cases x with
  | error e => simp [Except.mapError]
  | ok b => simp [Except.mapError]

namespace Storage

variable {σ : Type} (storage : Storage σ) (state : σ) (user : Option String)
  (arguments : Arguments)

structure Loads (settings : Settings) (text : String) (change : DocumentChange)
    (document : Document) : Prop where
  loaded : storage.loadSettings state arguments.config user = .ok settings
  read : storage.readText state arguments.input = .ok text
  known : DocumentChange.ofText text = .ok change
  parsed : change.document = .ok document

theorem render_eq_ok_iff (rendering : Rendering) :
    storage.render state user arguments = .ok rendering ↔
      ∃ settings text change document,
        storage.Loads state user arguments settings text change document ∧
        rendered settings arguments.view change document = rendering := by
  unfold render
  simp only [bind_eq_ok_iff, pure_eq_ok_iff, mapError_eq_ok_iff, Processor.applyText_eq_ok_iff]
  constructor
  . rintro ⟨settings, loaded, text, read, _, ⟨change, document, known, parsed, rfl⟩, rfl⟩
    exact ⟨settings, text, change, document, ⟨loaded, read, known, parsed⟩, rfl⟩
  . rintro ⟨settings, text, change, document, loads, rfl⟩
    exact ⟨settings, loads.loaded, text, loads.read, _,
      ⟨change, document, loads.known, loads.parsed, rfl⟩, rfl⟩

inductive Ends : Result × σ → Prop where
  | refused (failure : Failure) (unread : storage.render state user arguments = .error failure) :
      Ends ({ outcome := .error failure }, state)
  | printed (rendering : Rendering)
      (made : storage.render state user arguments = .ok rendering)
      (nowhere : arguments.output = none) :
      Ends ({ outcome := .ok rendering, printed := rendering.view.text ++ "\n" }, state)
  | unwritten (rendering : Rendering) (path : String) (error : FileError)
      (made : storage.render state user arguments = .ok rendering)
      (output : arguments.output = some path)
      (failed : storage.write state path rendering.view.text = .error error) :
      Ends ({ outcome := .error (.file error) }, state)
  | written (rendering : Rendering) (path : String) (after : σ)
      (made : storage.render state user arguments = .ok rendering)
      (output : arguments.output = some path)
      (done : storage.write state path rendering.view.text = .ok after) :
      Ends ({ outcome := .ok rendering }, after)

theorem ends_run : storage.Ends state user arguments (storage.run state user arguments) := by
  unfold run
  split
  . next failure unread => exact .refused failure unread
  . next rendering made =>
    split
    . next nowhere => exact .printed rendering made nowhere
    . next path output =>
      split
      . next error failed => exact .unwritten rendering path error made output failed
      . next after done => exact .written rendering path after made output done

/--
What becomes of a text once it is rendered: it is printed with a line break, or it is all that the
output file holds. No other file is touched in either case.
-/
inductive Files.Delivers {σ ι : Type} [DecidableEq ι] {storage : Storage σ}
    (files : storage.Files ι) (state : σ) (text : String) : Option String → String → σ → Prop where
  | printed : Delivers files state text none (text ++ "\n") state
  | written (path : String) (file : ι) (after : σ) (named : files.named state path = some file)
      (content : files.content after =
        Function.update (files.content state) file (some text.toUTF8)) :
      Delivers files state text (some path) "" after

variable {storage state user arguments}

theorem Loads.renders {settings : Settings} {text : String} {change : DocumentChange}
    {document : Document}
    (loads : storage.Loads state user arguments settings text change document) :
    ∃ rendering,
      storage.render state user arguments = .ok rendering ∧
      Renders settings arguments.view change document rendering := by
  refine ⟨rendered settings arguments.view change document, ?_, renders_rendered ..⟩
  rw [render_eq_ok_iff]
  exact ⟨settings, text, change, document, loads, rfl⟩

namespace Ends

variable {ending : Result × σ}

theorem unchanged (ends : storage.Ends state user arguments ending) (failure : Failure)
    (failed : ending.1.outcome = .error failure) : ending.2 = state ∧ ending.1.printed = "" := by
  cases ends with
  | refused _ _ => exact ⟨rfl, rfl⟩
  | printed _ _ _ => cases failed
  | unwritten _ _ _ _ _ _ => exact ⟨rfl, rfl⟩
  | written _ _ _ _ _ _ => cases failed

theorem render_eq_ok (ends : storage.Ends state user arguments ending) (rendering : Rendering)
    (finished : ending.1.outcome = .ok rendering) :
    storage.render state user arguments = .ok rendering := by
  cases ends with
  | refused _ _ => cases finished
  | printed _ made _ =>
    cases finished
    exact made
  | unwritten _ _ _ _ _ _ => cases finished
  | written _ _ _ made _ _ =>
    cases finished
    exact made

theorem delivers {ι : Type} [DecidableEq ι] (files : storage.Files ι)
    (ends : storage.Ends state user arguments ending) (rendering : Rendering)
    (finished : ending.1.outcome = .ok rendering) :
    files.Delivers state rendering.view.text arguments.output ending.1.printed ending.2 := by
  cases ends with
  | refused _ _ => cases finished
  | printed _ _ nowhere =>
    cases finished
    rw [nowhere]
    exact .printed
  | unwritten _ _ _ _ _ _ => cases finished
  | written _ path after _ output done =>
    cases finished
    rw [output]
    rcases files.write state path rendering.view.text after done with ⟨file, named, content⟩
    exact .written path file after named content

theorem finished_or_unwritten (ends : storage.Ends state user arguments ending)
    (rendering : Rendering) (made : storage.render state user arguments = .ok rendering) :
    ending.1.outcome = .ok rendering ∨
    ∃ path error,
      arguments.output = some path ∧
      storage.write state path rendering.view.text = .error error ∧
      ending.1.outcome = .error (.file error) := by
  cases ends with
  | refused _ unread =>
    rw [unread] at made
    cases made
  | printed _ known _ =>
    rw [known] at made
    cases made
    exact .inl rfl
  | unwritten _ path error known output failed =>
    rw [known] at made
    cases made
    exact .inr ⟨path, error, output, failed, rfl⟩
  | written _ _ _ known _ _ =>
    rw [known] at made
    cases made
    exact .inl rfl

end Ends

variable (storage state user arguments)

-- One person in a document without a source, and a file of settings that sets nothing.
def annText : String := "[\"[\\\"Domainmodel\\\",null,[[\\\"Person\\\",\\\"ann\\\"]]]\"]"

def annFiles : FileTree where
  files := [(["in"], annText.toUTF8), (["c"], "".toUTF8)]

-- The output is the input under another path.
def overInput : Arguments where
  input := "in"
  output := some "/in"
  config := some "c"

theorem exists_loads_annFiles :
    ∃ change document,
      FileTree.storage.Loads annFiles none overInput {} annText change document := by
  have decoded : ((DocumentChange.ofText annText).toOption.bind (·.document.toOption)).isSome := by
    decide +kernel
  rw [Option.isSome_iff_exists] at decoded
  rcases decoded with ⟨document, decoded⟩
  rw [Option.bind_eq_some_iff] at decoded
  rcases decoded with ⟨change, known, parsed⟩
  rw [Json.toOption_eq_some_iff] at known parsed
  refine ⟨change, document, ?_, ?_, known, parsed⟩
  . have path : FileTree.Path.ofText "c" = .ok ⟨false, ["c"], false⟩ := by
      rw [FileTree.Path.ofText_eq_ok_iff]
      decide +kernel
    have here : FileTree.storage.present annFiles "c" = true :=
      FileTree.present_of_file path rfl rfl rfl
    have config : FileTree.storage.readText annFiles "c" = .ok "" := by
      apply readText_of_read
      exact FileTree.read_of_file path rfl rfl rfl
    have empty : Settings.ofToml? "" = some {} := by
      decide +kernel
    simp only [overInput, loadSettings, SettingsSource.find, here, if_true, readSettings, config]
    dsimp only [bind, Except.bind]
    rw [empty]
    rfl
  . have path : FileTree.Path.ofText "in" = .ok ⟨false, ["in"], false⟩ := by
      rw [FileTree.Path.ofText_eq_ok_iff]
      decide +kernel
    apply readText_of_read
    exact FileTree.read_of_file path rfl rfl rfl

end Storage

end CommandLine

end DomainModel
