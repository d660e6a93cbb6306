import DomainModel.NodePath

namespace DomainModel

structure Reference where
  text : Option String := none
  target : Option NodePath := none
  error : Option String := none
  deriving DecidableEq, Repr

namespace Reference

def linked (text : String) (target : NodePath) : Reference := { text, target := some target }

def dangling (text : String) : Reference := { text }

/--
What tells references apart without following them: the text, or the target's path if there is no
text. A reference that has neither cannot be told from any other.
-/
def key (reference : Reference) : Option String :=
  match reference.text, reference.target with
  | some text, _ => some text
  | none, some path => some (toString path)
  | none, none => none

end Reference

end DomainModel
