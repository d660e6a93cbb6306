import DomainModel.CommandLine.Storage

/-!
A tree of files, kept as a list of the files with their places. A directory is there if a file is in
it or below it, or if it leads to the working directory.
-/

namespace DomainModel.CommandLine

abbrev Location := List String

structure FileTree where
  files : List (Location × ByteArray) := []
  workingDirectory : Location := []

namespace FileTree

inductive Found where
  | nothing
  | directory
  | file (content : ByteArray)

def find (tree : FileTree) (location : Location) : Found :=
  match tree.files.lookup location with
  | some content => .file content
  | none =>
    if location.isPrefixOf tree.workingDirectory ||
        tree.files.any fun file => location.isPrefixOf file.1 then
      .directory
    else .nothing

structure Path where
  fromTop : Bool
  names : List String
  slashed : Bool

def Path.ofText (text : String) : Except FileError Path :=
  if text.isEmpty then .error .notFound
  else if text.toList.contains '\x00' then .error .nulInPath
  else if text.utf8ByteSize ≥ 4096 then .error .nameTooLong
  else
    .ok {
      fromTop := text.startsWith "/"
      names := ((text.splitOn "/").filter (!·.isEmpty))
      slashed := text.endsWith "/" }

def start (tree : FileTree) (path : Path) : Location :=
  if path.fromTop then [] else tree.workingDirectory

def child (location : Location) (name : String) : Except FileError Location :=
  if name = "." then .ok location
  else if name = ".." then .ok location.dropLast
  else if name.utf8ByteSize > 255 then .error .nameTooLong
  else .ok (location ++ [name])

def walk (tree : FileTree) : Location → List String → Except FileError Location
  | location, [] => .ok location
  | location, [name] => child location name
  | location, name :: names => do
    let next ← child location name
    match tree.find next with
    | .directory => tree.walk next names
    | .file _ => .error .notDirectory
    | .nothing => .error .notFound

def locate (tree : FileTree) (text : String) : Except FileError Location := do
  let path ← Path.ofText text
  let location ← tree.walk (tree.start path) path.names
  match tree.find location with
  | .directory => return location
  | .file _ => if path.slashed then .error .notDirectory else return location
  | .nothing => .error .notFound

def present (tree : FileTree) (text : String) : Bool := (tree.locate text).isOk

def read (tree : FileTree) (text : String) : Except FileError ByteArray := do
  match tree.find (← tree.locate text) with
  | .file content => return content
  | .directory => .error .isDirectory
  | .nothing => .error .notFound

def put (tree : FileTree) (location : Location) (content : ByteArray) : FileTree :=
  { tree with files := (location, content) :: tree.files.filter (·.1 != location) }

def write (tree : FileTree) (text : String) (content : String) : Except FileError FileTree := do
  let path ← Path.ofText text
  let location ← tree.walk (tree.start path) path.names
  match tree.find location with
  | .directory => .error .isDirectory
  | _ => if path.slashed then .error .isDirectory else return tree.put location content.toUTF8

def storage : Storage FileTree where
  present := present
  read := read
  write := write

end FileTree

end DomainModel.CommandLine
