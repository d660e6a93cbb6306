import DomainModel.Failure

/-!
File systems as values: a state, what paths hold in it, and the state after a write. A write gives a
new state only if all of it is written.
-/

namespace DomainModel.CommandLine

structure Storage (σ : Type) where
  present : σ → String → Bool
  read : σ → String → Except FileError ByteArray
  write : σ → String → String → Except FileError σ

namespace Storage

variable {σ : Type} (storage : Storage σ)

def readText (state : σ) (path : String) : Except FileError String := do
  let bytes ← storage.read state path
  match String.fromUTF8? bytes with
  | some text => return text
  | none => .error .notText

end Storage

end DomainModel.CommandLine
