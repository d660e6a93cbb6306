import DomainModel.Json.Read
import DomainModel.Proofs.Json.Literals
import DomainModel.Proofs.Json.Strings

/-!
Terms: what a JSON text says, whatever its blanks, escapes and spellings of numbers are. The texts
of a term are given by a grammar, and the tree of a complete text stands for a term.
-/

namespace DomainModel.Json

/--
What a text says. A number that is out of range and a string with half a surrogate pair have their
place in a text, but nobody can read them.
-/
inductive Term where
  | null
  | bool (b : Bool)
  | number (n : Option Number)
  | string (s : Option String)
  | array (items : List Term)
  | object (members : List (Option String × Term))

def Blanks (t r : List Char) : Prop :=
  ∃ blanks, (∀ c ∈ blanks, Cursor.isBlank c = true) ∧ t = blanks ++ r

namespace Term

mutual

def Spelled : Term → List Char → List Char → Prop
  | .null, t, r => t = ['n', 'u', 'l', 'l'] ++ r
  | .bool true, t, r => t = ['t', 'r', 'u', 'e'] ++ r
  | .bool false, t, r => t = ['f', 'a', 'l', 's', 'e'] ++ r
  | .number n, t, r =>
    ∃ (literal : Literal) (text : List Char),
      literal.Written text ∧ literal.number.toOption = n ∧ t = text ++ r
  | .string s, t, r => StringSpelled s t r
  | .array items, t, r => ∃ u v, t = '[' :: u ∧ Blanks u v ∧ ItemsSpelled items v (']' :: r)
  | .object members, t, r =>
    ∃ u v, t = '\x7b' :: u ∧ Blanks u v ∧ MembersSpelled members v ('\x7d' :: r)
termination_by structural x => x

def ItemsSpelled : List Term → List Char → List Char → Prop
  | [], t, r => t = r
  | [x], t, r => ∃ u, x.Spelled t u ∧ Blanks u r
  | x :: y :: items, t, r =>
    ∃ u v w,
      x.Spelled t u ∧ Blanks u (',' :: v) ∧ Blanks v w ∧ ItemsSpelled (y :: items) w r
termination_by structural items => items

def MembersSpelled : List (Option String × Term) → List Char → List Char → Prop
  | [], t, r => t = r
  | [(key, x)], t, r =>
    ∃ u v w p,
      StringSpelled key t u ∧ Blanks u (':' :: v) ∧ Blanks v w ∧ x.Spelled w p ∧ Blanks p r
  | (key, x) :: member :: members, t, r =>
    ∃ u v w p q s,
      StringSpelled key t u ∧ Blanks u (':' :: v) ∧ Blanks v w ∧ x.Spelled w p ∧
      Blanks p (',' :: q) ∧ Blanks q s ∧ MembersSpelled (member :: members) s r
termination_by structural members => members

end

def SpelledBy (x : Term) (text : List Char) : Prop :=
  ∃ t r, Blanks text t ∧ x.Spelled t r ∧ Blanks r []

end Term

def Key.text? (key : Key) : Option String := unflawed key.text key.flaw

mutual

def Node.term? : Node → Option Term
  | .null _ _ => some .null
  | .bool _ _ b => some (.bool b)
  | .number _ literal => some (.number literal.number.toOption)
  | .string _ _ text flaw => some (.string (unflawed text flaw))
  | .array _ items => items.terms?.map .array
  | .object _ members => members.terms?.map .object
  | .brokenString _ _ _ | .broken _ _ => none
termination_by structural node => node

def Items.terms? : Items → Option (List Term)
  | .closed _ => some []
  | .broken _ => none
  | .item node _ more => return (← node.term?) :: (← more.terms?)
termination_by structural items => items

def Members.terms? : Members → Option (List (Option String × Term))
  | .closed _ => some []
  | .broken _ _ => none
  | .member key node _ more => return (key.text?, ← node.term?) :: (← more.terms?)
termination_by structural members => members

end

def Tree.term? (tree : Tree) : Option Term :=
  match tree.trailing with
  | some _ => none
  | none => tree.root.term?

end DomainModel.Json
