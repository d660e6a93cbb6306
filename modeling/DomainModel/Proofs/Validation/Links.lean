import DomainModel.Proofs.Document.Relinked
import DomainModel.Proofs.Validation.Revision
import DomainModel.Processor

namespace DomainModel

open Json (Term)

def Entity.hollow (e : Entity) : Entity := { name := e.name, features := [], superType := none }

namespace Document

def hollow : Document → Document := revise Entity.hollow id

def GreetsByText (document : Document) : Prop :=
  ∀ scope, document.scope.Encloses scope →
    ∀ greeting, .greeting greeting ∈ scope.elements → greeting.person.text.isSome

theorem greetsByText_iff (document : Document) :
    document.GreetsByText ↔
      ∀ scope ∈ document.scope.depthFirst, ∀ element ∈ scope.elements,
        ∀ greeting ∈ element.greeting?, greeting.person.text.isSome := by
  unfold GreetsByText
  simp only [Scope.mem_depthFirst_iff, Option.mem_def, Element.greeting?_eq_some_iff]
  constructor
  . intro greets scope enclosed element mem greeting same
    rw [same] at mem
    exact greets scope enclosed greeting mem
  . intro greets scope enclosed greeting mem
    exact greets scope enclosed _ mem greeting rfl

instance (document : Document) : Decidable document.GreetsByText :=
  decidable_of_iff' _ document.greetsByText_iff

theorem validate_hollow (document : Document) (settings : ValidationSettings) :
    document.hollow.scope.validate settings = document.scope.validate settings := by
  apply document.scope.validate_revise Entity.hollow id
  constructor
  . intro entity
    rfl
  . intro inner _ greeting _
    rfl

theorem Reference.key_unlinked {r : Reference} (named : r.text.isSome) : r.unlinked.key = r.key := by
  rcases r with ⟨text, target, error⟩
  cases text with
  | none => cases named
  | some text => rfl

theorem validate_unlinked (document : Document) (greets : document.GreetsByText)
    (settings : ValidationSettings) :
    document.unlinked.scope.validate settings = document.scope.validate settings := by
  apply document.scope.validate_revise Entity.unlinked Greeting.unlinked
  constructor
  . intro entity
    rfl
  . intro inner enclosed greeting mem
    exact Reference.key_unlinked (greets inner enclosed greeting mem)

theorem greetsByText_unlinked_iff (document : Document) :
    document.unlinked.GreetsByText ↔ document.GreetsByText := by
  have scopes := document.scope.encloses_revise_iff Entity.unlinked Greeting.unlinked
  constructor
  . intro greets scope enclosed greeting mem
    apply greets _ ((scopes _).mpr ⟨scope, enclosed, rfl⟩) greeting.unlinked
    exact List.mem_map.mpr ⟨_, mem, rfl⟩
  . intro greets scope enclosed greeting mem
    rcases (scopes _).mp enclosed with ⟨before, within, rfl⟩
    rcases List.mem_map.mp mem with ⟨element, inside, same⟩
    cases element with
    | greeting greeting =>
      cases same
      exact greets before within greeting inside
    | _ => cases same

theorem greetsByText_of_unlinked {document other : Document}
    (same : document.unlinked = other.unlinked) (greets : document.GreetsByText) :
    other.GreetsByText := by
  rw [← greetsByText_unlinked_iff, same, greetsByText_unlinked_iff] at greets
  exact greets

theorem validate_eq_of_unlinked {document other : Document}
    (same : document.unlinked = other.unlinked) (greets : document.GreetsByText)
    (settings : ValidationSettings) :
    document.scope.validate settings = other.scope.validate settings := by
  rw [← document.validate_unlinked greets, same]
  exact other.validate_unlinked (greetsByText_of_unlinked same greets) settings

theorem validate_eq_of_relinked (text other : String) (x y : Term)
    (spelled : x.SpelledBy text.toList) (spelled' : y.SpelledBy other.toList)
    (same : x.unlinked = y.unlinked) :
    ((∃ d, ofText text = .ok d) ↔ ∃ d, ofText other = .ok d) ∧
    (∀ d d', ofText text = .ok d → ofText other = .ok d' → d.GreetsByText →
      (∀ settings, d.scope.validate settings = d'.scope.validate settings) ∧
      ∀ settings session session' change later,
        change.diagnostics = later.diagnostics →
          (Processor.derive settings session change d).1.diagnostics =
            (Processor.derive settings session' later d').1.diagnostics ∧
          (Processor.derive settings session change d).1.hasErrors =
            (Processor.derive settings session' later d').1.hasErrors) ∧
    ∀ d d' : Document, d.hollow = d'.hollow →
      ∀ settings, d.scope.validate settings = d'.scope.validate settings := by
  refine ⟨?_, ?_, ?_⟩
  . constructor
    . intro accepted
      rcases accepted with ⟨d, read⟩
      rcases exists_ofText_of_unlinked spelled spelled' same read with ⟨d', read', _⟩
      exact ⟨d', read'⟩
    . intro accepted
      rcases accepted with ⟨d, read⟩
      rcases exists_ofText_of_unlinked spelled' spelled same.symm read with ⟨d', read', _⟩
      exact ⟨d', read'⟩
  . intro d d' read read' greets
    rcases exists_ofText_of_unlinked spelled spelled' same read with ⟨_, found, unlinked⟩
    rw [found] at read'
    cases read'
    have validated := validate_eq_of_unlinked unlinked greets
    refine ⟨validated, ?_⟩
    intro settings session session' change later served
    have diagnostics : (Processor.derive settings session change d).1.diagnostics =
        (Processor.derive settings session' later d').1.diagnostics := by
      dsimp only [Processor.derive]
      rw [served, validated]
    refine ⟨diagnostics, ?_⟩
    unfold Snapshot.hasErrors
    rw [diagnostics]
  . intro d d' same settings
    rw [← d.validate_hollow, same, d'.validate_hollow]

-- A greeting whose reference leads somewhere else in either text.
def linkedText : String :=
  "\x7b\"$type\":\"Domainmodel\",\"elements\":[\x7b\"$type\":\"Greeting\"," ++
    "\"person\":\x7b\"$ref\":\"#/e@0\",\"$refText\":\"A\",\"$error\":\"?\"\x7d\x7d]\x7d"

def linkedTerm : Term :=
  .named [
    ("$type", .string (some "Domainmodel")),
    ("elements", .array [.named [
      ("$type", .string (some "Greeting")),
      ("person", .named [
        ("$ref", .string (some "#/e@0")),
        ("$refText", .string (some "A")),
        ("$error", .string (some "?"))])]])]

def strayText : String :=
  "\x7b\"$type\":\"Domainmodel\",\"elements\":[\x7b\"$type\":\"Greeting\"," ++
    "\"person\":\x7b\"$ref\":\"nowhere\",\"$refText\":\"A\",\"$error\":\"\"\x7d\x7d]\x7d"

def strayTerm : Term :=
  .named [
    ("$type", .string (some "Domainmodel")),
    ("elements", .array [.named [
      ("$type", .string (some "Greeting")),
      ("person", .named [
        ("$ref", .string (some "nowhere")),
        ("$refText", .string (some "A")),
        ("$error", .string (some ""))])]])]

theorem linkedTerm_spelled : linkedTerm.SpelledBy linkedText.toList := by
  rw [← Json.term?_scan_eq_some_iff]
  have chars : linkedText = String.ofList
      ['\x7b', '"', '$', 't', 'y', 'p', 'e', '"', ':', '"', 'D', 'o', 'm', 'a', 'i', 'n', 'm', 'o',
       'd', 'e', 'l', '"', ',', '"', 'e', 'l', 'e', 'm', 'e', 'n', 't', 's', '"', ':', '[', '\x7b',
       '"', '$', 't', 'y', 'p', 'e', '"', ':', '"', 'G', 'r', 'e', 'e', 't', 'i', 'n', 'g', '"',
       ',', '"', 'p', 'e', 'r', 's', 'o', 'n', '"', ':', '\x7b', '"', '$', 'r', 'e', 'f', '"', ':',
       '"', '#', '/', 'e', '@', '0', '"', ',', '"', '$', 'r', 'e', 'f', 'T', 'e', 'x', 't', '"',
       ':', '"', 'A', '"', ',', '"', '$', 'e', 'r', 'r', 'o', 'r', '"', ':', '"', '?', '"', '\x7d',
       '\x7d', ']', '\x7d'] := rfl
  rw [chars, String.toList_ofList]
  rfl

theorem strayTerm_spelled : strayTerm.SpelledBy strayText.toList := by
  rw [← Json.term?_scan_eq_some_iff]
  have chars : strayText = String.ofList
      ['\x7b', '"', '$', 't', 'y', 'p', 'e', '"', ':', '"', 'D', 'o', 'm', 'a', 'i', 'n', 'm', 'o',
       'd', 'e', 'l', '"', ',', '"', 'e', 'l', 'e', 'm', 'e', 'n', 't', 's', '"', ':', '[', '\x7b',
       '"', '$', 't', 'y', 'p', 'e', '"', ':', '"', 'G', 'r', 'e', 'e', 't', 'i', 'n', 'g', '"',
       ',', '"', 'p', 'e', 'r', 's', 'o', 'n', '"', ':', '\x7b', '"', '$', 'r', 'e', 'f', '"', ':',
       '"', 'n', 'o', 'w', 'h', 'e', 'r', 'e', '"', ',', '"', '$', 'r', 'e', 'f', 'T', 'e', 'x',
       't', '"', ':', '"', 'A', '"', ',', '"', '$', 'e', 'r', 'r', 'o', 'r', '"', ':', '"', '"',
       '\x7d', '\x7d', ']', '\x7d'] := rfl
  rw [chars, String.toList_ofList]
  rfl

theorem ofText_linkedText :
    ofText linkedText =
      .ok { elements := [.greeting ⟨⟨some "A", some ⟨[⟨"e", some 0⟩]⟩, some "?"⟩⟩] } := by
  rw [ofText_eq_ok_iff_means linkedText _ linkedTerm_spelled, Means, linkedTerm,
    Term.recordMeans_named_iff]
  refine ⟨by decide, rfl, rfl, _, rfl, .cons ⟨_, rfl, ?_, rfl⟩ .nil⟩
  intro v mem
  simp only [List.mem_cons, Prod.mk.injEq, List.not_mem_nil, or_false] at mem
  rcases mem with ⟨_, rfl⟩ | ⟨other, _⟩
  . exact ⟨_, rfl⟩
  . exact absurd other (by decide)

theorem validate_eq_of_relinked_stray :
    linkedTerm.SpelledBy linkedText.toList ∧
    strayTerm.SpelledBy strayText.toList ∧
    linkedTerm.unlinked = strayTerm.unlinked ∧
    ∃ d d',
      ofText linkedText = .ok d ∧
      ofText strayText = .ok d' ∧
      d.GreetsByText ∧
      ∀ settings, d.scope.validate settings = d'.scope.validate settings := by
  have same : linkedTerm.unlinked = strayTerm.unlinked := rfl
  have relinked := validate_eq_of_relinked linkedText strayText linkedTerm strayTerm
    linkedTerm_spelled strayTerm_spelled same
  rcases relinked.1.mp ⟨_, ofText_linkedText⟩ with ⟨d', read⟩
  refine ⟨linkedTerm_spelled, strayTerm_spelled, same, _, d', ofText_linkedText, read, ?_, ?_⟩
  . decide
  . apply (relinked.2.1 _ d' ofText_linkedText read _).1
    decide

end Document

end DomainModel
