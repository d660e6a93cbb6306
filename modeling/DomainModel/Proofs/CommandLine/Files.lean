import DomainModel.CommandLine.FileTree
import DomainModel.Proofs.Json.Basic
import DomainModel.Proofs.Json.Lookups
import Mathlib.Data.String.Basic
import Mathlib.Logic.Function.Basic

/-!
The files behind a storage. Two paths may name the same file, so a write is told from a read by the
file that each of them reaches and not by its path.
-/

namespace DomainModel.CommandLine

open Json (bind_eq_ok_iff pure_eq_ok_iff lookup_cons_eq_ite lookup_filter)

/-- What paths name and what files hold, as far as reading and writing a storage shows it. -/
structure Storage.Files {σ : Type} (storage : Storage σ) (ι : Type) [DecidableEq ι] where
  named : σ → String → Option ι
  content : σ → ι → Option ByteArray
  read : ∀ state path bytes, storage.read state path = .ok bytes →
    ∃ file, named state path = some file ∧ content state file = some bytes
  write : ∀ state path text after, storage.write state path text = .ok after →
    ∃ file, named state path = some file ∧
      content after = Function.update (content state) file (some text.toUTF8)

namespace Storage.Files

variable {σ ι : Type} [DecidableEq ι] {storage : Storage σ}

def Holds (files : storage.Files ι) (state : σ) (path text : String) : Prop :=
  ∃ file, files.named state path = some file ∧ files.content state file = some text.toUTF8

theorem toUTF8_of_fromUTF8? (bytes : ByteArray) (text : String)
    (read : String.fromUTF8? bytes = some text) : text.toUTF8 = bytes := by
  unfold String.fromUTF8? at read
  split at read
  . cases read
    rfl
  . cases read

theorem fromUTF8?_toUTF8 (text : String) : String.fromUTF8? text.toUTF8 = some text := by
  exact dif_pos text.isValidUTF8

theorem holds_of_readText (files : storage.Files ι) (state : σ) (path text : String)
    (read : storage.readText state path = .ok text) : files.Holds state path text := by
  unfold readText at read
  rw [bind_eq_ok_iff] at read
  rcases read with ⟨bytes, read, known⟩
  split at known
  . next other decoded =>
    rw [pure_eq_ok_iff] at known
    rw [← known, Holds, toUTF8_of_fromUTF8? bytes other decoded]
    exact files.read state path bytes read
  . cases known

end Storage.Files

theorem Storage.readText_of_read {σ : Type} (storage : Storage σ) (state : σ) (path text : String)
    (read : storage.read state path = .ok text.toUTF8) :
    storage.readText state path = .ok text := by
  rw [readText, read]
  dsimp only [bind, Except.bind]
  rw [Files.fromUTF8?_toUTF8]
  rfl

-- The text before has been split off, and the part has been read without meeting a slash.
theorem splitOnAux_slash (before part rest : List Char) (parts : List String) :
    String.splitOnAux (String.ofList (before ++ part ++ rest)) "/" ⟨String.utf8Len before⟩
        ⟨String.utf8Len (before ++ part)⟩ 0 parts =
      parts.reverse ++
        (List.splitOnPPrepend (· == '/') rest part.reverse).map String.ofList := by
  induction rest generalizing before part parts with
  | nil =>
    have taken := String.extract_of_valid before part []
    have ends := String.atEnd_of_valid (before ++ part) []
    rw [← String.utf8Len_append] at taken
    rw [String.splitOnAux, if_pos (ends.mpr rfl), List.splitOnPPrepend_nil, List.reverse_reverse]
    dsimp only
    rw [taken, List.reverse_cons]
    rfl
  | cons c rest ih =>
    have taken := String.extract_of_valid before part (c :: rest)
    have ends := String.atEnd_of_valid (before ++ part) (c :: rest)
    have first := String.get_of_valid (before ++ part) (c :: rest)
    have next := String.next_of_valid (before ++ part) c rest
    have slash : String.Pos.Raw.get "/" 0 = '/' := by
      decide +kernel
    rw [← String.utf8Len_append] at taken
    rw [String.splitOnAux, if_neg (mt ends.mp (List.cons_ne_nil _ _)), first, List.headD_cons,
      slash, List.splitOnPPrepend_cons_eq_if]
    split
    . next same =>
      have one : String.Pos.Raw.next "/" 0 = ⟨1⟩ := by
        decide +kernel
      have last : String.Pos.Raw.atEnd "/" ⟨1⟩ = true := by
        decide +kernel
      have back : String.Pos.Raw.unoffsetBy ⟨String.utf8Len (before ++ part) + '/'.utf8Size⟩ ⟨1⟩ =
          ⟨String.utf8Len (before ++ part)⟩ := rfl
      have later := ih (before ++ part ++ ['/']) [] (String.ofList part :: parts)
      rw [beq_iff_eq] at same
      subst same
      dsimp only
      rw [one, if_pos last, next, back, taken]
      rw [List.append_nil, List.append_assoc _ ['/'], String.utf8Len_append _ ['/']] at later
      refine later.trans ?_
      rw [List.reverse_cons, List.append_assoc, List.reverse_reverse]
      rfl
    . next other =>
      have later := ih before (part ++ [c]) parts
      have still : String.Pos.Raw.unoffsetBy ⟨String.utf8Len (before ++ part)⟩ 0 =
          ⟨String.utf8Len (before ++ part)⟩ := rfl
      have size : String.utf8Len [c] = c.utf8Size := Nat.zero_add _
      rw [← List.append_assoc, List.append_assoc _ [c], String.utf8Len_append _ [c], size,
        List.reverse_append] at later
      rw [still, next]
      exact later

theorem splitOn_slash (text : String) :
    text.splitOn "/" = (text.toList.splitOn '/').map String.ofList := by
  have parts := splitOnAux_slash [] [] text.toList []
  rw [List.nil_append, List.nil_append, String.ofList_toList] at parts
  exact parts

namespace FileTree

theorem Path.ofText_eq_ok_iff (text : String) (path : Path) :
    Path.ofText text = .ok path ↔
      text ≠ "" ∧ '\x00' ∉ text.toList ∧ text.utf8ByteSize < 4096 ∧
      text.startsWith "/" = path.fromTop ∧
      ((text.toList.splitOn '/').map String.ofList).filter (!·.isEmpty) = path.names ∧
      text.endsWith "/" = path.slashed := by
  rcases path with ⟨fromTop, names, slashed⟩
  unfold ofText
  simp only [splitOn_slash, String.isEmpty_iff, List.contains_iff_mem]
  split
  . next empty => simp [empty]
  split
  . next nul => simp [nul]
  split
  . next long => simp [Nat.not_lt.mpr long]
  . next filled noNul short => simp [filled, noNul, Nat.not_le.mp short]

section

variable {tree : FileTree} {text : String} {path : Path} {location : Location}
  {content : ByteArray} (parsed : Path.ofText text = .ok path) (closed : path.slashed = false)
  (walked : tree.walk (tree.start path) path.names = .ok location)
  (file : tree.find location = .file content)

include parsed closed walked file

theorem locate_of_file : tree.locate text = .ok location := by
  rw [locate, bind_eq_ok_iff]
  refine ⟨path, parsed, ?_⟩
  rw [bind_eq_ok_iff]
  refine ⟨location, walked, ?_⟩
  rw [file, closed]
  rfl

theorem present_of_file : tree.present text = true := by
  rw [present, locate_of_file parsed closed walked file]
  rfl

theorem read_of_file : tree.read text = .ok content := by
  rw [FileTree.read, bind_eq_ok_iff]
  refine ⟨location, locate_of_file parsed closed walked file, ?_⟩
  rw [file]
  rfl

end

def target (tree : FileTree) (text : String) : Except FileError Location := do
  let path ← Path.ofText text
  tree.walk (tree.start path) path.names

theorem target_of_locate (tree : FileTree) (text : String) (location : Location)
    (located : tree.locate text = .ok location) : tree.target text = .ok location := by
  simp only [locate, bind_eq_ok_iff] at located
  rcases located with ⟨path, parsed, other, walked, located⟩
  rw [target, bind_eq_ok_iff]
  refine ⟨path, parsed, ?_⟩
  rw [walked]
  split at located
  . exact located
  . split at located
    . cases located
    . exact located
  . cases located

theorem lookup_of_find (tree : FileTree) (location : Location) (content : ByteArray)
    (found : tree.find location = .file content) :
    tree.files.lookup location = some content := by
  unfold find at found
  split at found
  . next other known =>
    cases found
    exact known
  . split at found
    . cases found
    . cases found

theorem lookup_of_read (tree : FileTree) (text : String) (bytes : ByteArray)
    (read : tree.read text = .ok bytes) :
    ∃ location, tree.target text = .ok location ∧ tree.files.lookup location = some bytes := by
  unfold FileTree.read at read
  rw [bind_eq_ok_iff] at read
  rcases read with ⟨location, located, read⟩
  refine ⟨location, tree.target_of_locate text location located, ?_⟩
  apply lookup_of_find
  split at read
  . next content found =>
    rw [pure_eq_ok_iff] at read
    rw [found, read]
  . cases read
  . cases read

theorem lookup_put (tree : FileTree) (location other : Location) (content : ByteArray) :
    (tree.put location content).files.lookup other =
      if other = location then some content else tree.files.lookup other := by
  rw [put, lookup_cons_eq_ite]
  split
  . rfl
  . next apart => exact lookup_filter (· != location) tree.files other (by simpa using apart)

theorem put_of_write (tree after : FileTree) (text content : String)
    (written : tree.write text content = .ok after) :
    ∃ location, tree.target text = .ok location ∧ after = tree.put location content.toUTF8 := by
  simp only [write, bind_eq_ok_iff] at written
  rcases written with ⟨path, parsed, location, walked, written⟩
  refine ⟨location, ?_, ?_⟩
  . rw [target, bind_eq_ok_iff]
    exact ⟨path, parsed, walked⟩
  . split at written
    . cases written
    . split at written
      . cases written
      . rw [pure_eq_ok_iff] at written
        exact written.symm

def storageFiles : storage.Files Location where
  named tree text := (tree.target text).toOption
  content tree location := tree.files.lookup location
  read := by
    intro tree text bytes read
    simpa only [Json.toOption_eq_some_iff] using tree.lookup_of_read text bytes read
  write := by
    intro tree text content after written
    rcases tree.put_of_write after text content written with ⟨location, led, rfl⟩
    refine ⟨location, (Json.toOption_eq_some_iff _ _).mpr led, ?_⟩
    funext other
    rw [lookup_put, Function.update_apply]

end FileTree

end DomainModel.CommandLine
