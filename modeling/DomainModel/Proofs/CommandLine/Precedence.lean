import DomainModel.CommandLine.Run
import DomainModel.Proofs.CommandLine.Files

/-!
Which file the settings come from. The first of the settings files that is there decides alone: what
cannot be read or parsed there is an error, and what is in the files after it has no part in the
result. There are default settings only if no file is asked for and none is there.
-/

namespace DomainModel.CommandLine

def settingsFiles (config user : Option String) : List String :=
  config.toList ++ projectSettings :: user.toList

namespace Storage

variable {σ : Type} (storage : Storage σ) (state : σ) (config user : Option String)

def firstSettings : Option String := (settingsFiles config user).find? (storage.present state)

structure Decides (path : String) : Prop where
  first : storage.firstSettings state config user = some path
  asked : ∀ other ∈ config, other = path

/--
What becomes of the settings. A file that sets nothing leaves the defaults as they are, but it is
read all the same.
-/
inductive LoadsSettings : Except FileError Settings → Prop where
  | missing (path : String) (asked : config = some path)
      (absent : storage.present state path = false) :
      LoadsSettings (.error (.missingSettings path))
  | unread (path : String) (error : FileError) (decides : storage.Decides state config user path)
      (failed : storage.readText state path = .error error) : LoadsSettings (.error error)
  | unparsed (path text : String) (decides : storage.Decides state config user path)
      (read : storage.readText state path = .ok text) (failed : Settings.ofToml? text = none) :
      LoadsSettings (.error .invalidSettings)
  | loaded (path text : String) (settings : Settings)
      (decides : storage.Decides state config user path)
      (read : storage.readText state path = .ok text)
      (parsed : Settings.ofToml? text = some settings) : LoadsSettings (.ok settings)
  | defaults (unasked : config = none)
      (absent : ∀ path ∈ settingsFiles config user, storage.present state path = false) :
      LoadsSettings (.ok {})

theorem firstSettings_asked_iff (path : String) :
    storage.firstSettings state (some path) user = some path ↔
      storage.present state path = true := by
  constructor
  . exact List.find?_some
  . exact List.find?_cons_of_pos

theorem firstSettings_eq_none_iff :
    storage.firstSettings state config user = none ↔
      ∀ path ∈ settingsFiles config user, storage.present state path = false := by
  unfold firstSettings
  rw [List.find?_eq_none]
  simp only [Bool.not_eq_true]

theorem find_asked (path : String) :
    SettingsSource.find (storage.present state) (some path) user =
      if storage.present state path then .file path else .missing path := rfl

theorem find_unasked :
    SettingsSource.find (storage.present state) none user =
      match storage.firstSettings state none user with
      | some path => .file path
      | none => .defaults := by
  unfold SettingsSource.find firstSettings settingsFiles
  cases here : storage.present state projectSettings with
  | true => simp [here]
  | false =>
    cases user with
    | none => simp [here]
    | some path =>
      cases there : storage.present state path with
      | true => simp [here, there]
      | false => simp [here, there]

variable {state config user}

theorem Decides.find_eq_file {path : String} (h : storage.Decides state config user path) :
    SettingsSource.find (storage.present state) config user = .file path := by
  cases config with
  | none =>
    rw [find_unasked, h.first]
  | some asked =>
    cases h.asked asked rfl
    rw [find_asked, if_pos ((storage.firstSettings_asked_iff state user path).mp h.first)]

theorem loadSettings_of_decides {path : String} (h : storage.Decides state config user path) :
    storage.loadSettings state config user = storage.readSettings state path := by
  unfold loadSettings
  rw [h.find_eq_file]

theorem LoadsSettings.eq {result : Except FileError Settings}
    (h : storage.LoadsSettings state config user result) :
    storage.loadSettings state config user = result := by
  cases h with
  | missing path asked absent =>
    subst asked
    unfold loadSettings
    rw [find_asked, absent]
    rfl
  | unread path error decides failed =>
    rw [loadSettings_of_decides storage decides, readSettings, failed]
    rfl
  | unparsed path text decides read failed =>
    rw [loadSettings_of_decides storage decides, readSettings, read]
    dsimp only [bind, Except.bind]
    rw [failed]
  | loaded path text settings decides read parsed =>
    rw [loadSettings_of_decides storage decides, readSettings, read]
    dsimp only [bind, Except.bind]
    rw [parsed]
    rfl
  | defaults unasked absent =>
    subst unasked
    rw [← firstSettings_eq_none_iff] at absent
    unfold loadSettings
    rw [find_unasked, absent]

theorem Decides.loadsSettings {path : String} (h : storage.Decides state config user path) :
    storage.LoadsSettings state config user (storage.loadSettings state config user) := by
  rw [loadSettings_of_decides storage h, readSettings]
  cases read : storage.readText state path with
  | error error => exact .unread path error h read
  | ok text =>
    dsimp only [bind, Except.bind]
    cases parsed : Settings.ofToml? text with
    | none => exact .unparsed path text h read parsed
    | some settings => exact .loaded path text settings h read parsed

variable (state config user)

theorem loadsSettings_loadSettings :
    storage.LoadsSettings state config user (storage.loadSettings state config user) := by
  cases config with
  | some path =>
    cases there : storage.present state path with
    | true =>
      have decides : storage.Decides state (some path) user path := by
        refine ⟨(storage.firstSettings_asked_iff state user path).mpr there, ?_⟩
        rintro other ⟨⟩
        rfl
      exact decides.loadsSettings
    | false =>
      have missing : storage.LoadsSettings state (some path) user _ := .missing path rfl there
      rw [missing.eq]
      exact missing
  | none =>
    cases first : storage.firstSettings state none user with
    | some path =>
      have decides : storage.Decides state none user path := ⟨first, nofun⟩
      exact decides.loadsSettings
    | none =>
      rw [firstSettings_eq_none_iff] at first
      have defaults := LoadsSettings.defaults rfl first
      rw [defaults.eq]
      exact defaults

theorem loadsSettings_iff (result : Except FileError Settings) :
    storage.LoadsSettings state config user result ↔
      storage.loadSettings state config user = result := by
  constructor
  . exact LoadsSettings.eq storage
  . rintro rfl
    exact storage.loadsSettings_loadSettings state config user

structure AgreesOnSettings {τ : Type} (other : Storage τ) (state' : τ) : Prop where
  first : storage.firstSettings state config user = other.firstSettings state' config user
  content : ∀ path ∈ storage.firstSettings state config user,
    storage.read state path = other.read state' path

variable {storage state config user} {τ : Type} {other : Storage τ} {state' : τ}

namespace AgreesOnSettings

theorem readText_eq (h : storage.AgreesOnSettings state config user other state') {path : String}
    (decides : storage.Decides state config user path) :
    other.readText state' path = storage.readText state path := by
  unfold readText
  rw [h.content path decides.first]

theorem decides (h : storage.AgreesOnSettings state config user other state') {path : String}
    (decides : storage.Decides state config user path) : other.Decides state' config user path where
  first := by
    rw [← h.first]
    exact decides.first
  asked := decides.asked

theorem loadsSettings (h : storage.AgreesOnSettings state config user other state')
    {result : Except FileError Settings} (loads : storage.LoadsSettings state config user result) :
    other.LoadsSettings state' config user result := by
  cases loads with
  | missing path asked absent =>
    apply LoadsSettings.missing path asked
    subst asked
    rw [← Bool.not_eq_true] at absent ⊢
    rw [← firstSettings_asked_iff] at absent ⊢
    rw [← h.first]
    exact absent
  | unread path error decides failed =>
    exact .unread path error (h.decides decides) ((h.readText_eq decides).trans failed)
  | unparsed path text decides read failed =>
    exact .unparsed path text (h.decides decides) ((h.readText_eq decides).trans read) failed
  | loaded path text settings decides read parsed =>
    exact .loaded path text settings (h.decides decides) ((h.readText_eq decides).trans read) parsed
  | defaults unasked absent =>
    apply LoadsSettings.defaults unasked
    rw [← firstSettings_eq_none_iff] at absent ⊢
    rw [← h.first]
    exact absent

end AgreesOnSettings

variable (storage state config user)

theorem loadSettings_decided :
    (∀ (τ : Type) (other : Storage τ) (state' : τ),
      storage.AgreesOnSettings state config user other state' →
        other.loadSettings state' config user = storage.loadSettings state config user) ∧
    ∀ result,
      storage.LoadsSettings state config user result ↔
        storage.loadSettings state config user = result := by
  constructor
  . intro τ other state' agrees
    rw [← loadsSettings_iff]
    exact agrees.loadsSettings (storage.loadsSettings_loadSettings state config user)
  . exact storage.loadsSettings_iff state config user

-- The file that is asked for opens a table and never closes it; a file of the project is there in
-- one of the trees only.
def brokenText : String := "["

def brokenFirst : FileTree where
  files := [(["c"], brokenText.toUTF8), (["masala", "config.toml"], "".toUTF8)]

def brokenAlone : FileTree where
  files := [(["c"], brokenText.toUTF8)]

theorem loadSettings_decided_broken :
    FileTree.storage.AgreesOnSettings brokenFirst (some "c") none FileTree.storage brokenAlone ∧
    FileTree.storage.loadSettings brokenFirst (some "c") none = .error .invalidSettings ∧
    FileTree.storage.loadSettings brokenAlone (some "c") none = .error .invalidSettings := by
  have path : FileTree.Path.ofText "c" = .ok ⟨false, ["c"], false⟩ := by
    rw [FileTree.Path.ofText_eq_ok_iff]
    decide +kernel
  have first : FileTree.storage.firstSettings brokenFirst (some "c") none = some "c" := by
    rw [firstSettings_asked_iff]
    exact FileTree.present_of_file path rfl rfl rfl
  have first' : FileTree.storage.firstSettings brokenAlone (some "c") none = some "c" := by
    rw [firstSettings_asked_iff]
    exact FileTree.present_of_file path rfl rfl rfl
  have read : FileTree.read brokenFirst "c" = .ok brokenText.toUTF8 :=
    FileTree.read_of_file path rfl rfl rfl
  have read' : FileTree.read brokenAlone "c" = .ok brokenText.toUTF8 :=
    FileTree.read_of_file path rfl rfl rfl
  have text : FileTree.storage.readText brokenFirst "c" = .ok brokenText :=
    readText_of_read _ _ _ _ read
  have failed : Settings.ofToml? brokenText = none := by
    decide +kernel
  have agrees : FileTree.storage.AgreesOnSettings brokenFirst (some "c") none FileTree.storage
      brokenAlone := by
    refine ⟨first.trans first'.symm, ?_⟩
    rw [first]
    rintro path ⟨⟩
    exact read.trans read'.symm
  rcases loadSettings_decided FileTree.storage brokenFirst (some "c") none with ⟨same, ends⟩
  have broken := (ends _).mp (.unparsed "c" brokenText ⟨first, by simp⟩ text failed)
  refine ⟨agrees, broken, ?_⟩
  rw [same _ _ _ agrees, broken]

end Storage

end DomainModel.CommandLine
