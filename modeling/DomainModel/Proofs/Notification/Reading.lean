import DomainModel.Notification
import DomainModel.Proofs.Document.Reading

namespace DomainModel

open Json (Fault Node ReadsAs Term Value bind_eq_ok_iff pure_eq_ok_iff)

namespace Json

namespace Term

def IsNatural (x : Term) (n : Nat) : Prop := x = .number (some (.integer n))

def IsUInt8 (x : Term) (n : UInt8) : Prop := x.IsNatural n.toNat

def IsUInt32 (x : Term) (n : UInt32) : Prop := x.IsNatural n.toNat

end Term

theorem readsAs_natural (bound : Nat) (expected : String) :
    ReadsAs (Node.natural bound expected) fun x n => x.IsNatural n ∧ n < bound := by
  intro node n
  cases node with
  | number start literal =>
    unfold Node.natural Term.IsNatural
    simp only [bind_eq_ok_iff, Node.term?, Option.some.injEq, exists_eq_left', Term.number.injEq,
      toOption_eq_some_iff]
    constructor
    . rintro ⟨number, read, judged⟩
      split at judged
      . next m =>
        split at judged
        . next inside =>
          rw [pure_eq_ok_iff] at judged
          subst judged
          rw [Int.toNat_of_nonneg inside.1]
          exact ⟨read, by omega⟩
        . cases judged
      . cases judged
    . rintro ⟨read, small⟩
      refine ⟨_, read, ?_⟩
      dsimp only
      rw [if_pos (by omega)]
      rfl
  | null start stop => simp [Node.natural, Node.term?, Term.IsNatural]
  | bool start stop b => simp [Node.natural, Node.term?, Term.IsNatural]
  | string start stop text flaw => simp [Node.natural, Node.term?, Term.IsNatural]
  | array start items => simp [Node.natural, Node.term?, Term.IsNatural]
  | object start members => simp [Node.natural, Node.term?, Term.IsNatural]
  | brokenString start flaw fault => simp [Node.natural, Node.term?]
  | broken start fault => simp [Node.natural, Node.term?]

theorem ReadsAs.word {α : Type} (size : Nat) (expected : String) (ofNat : Nat → α) (toNat : α → Nat)
    (lt : ∀ a, toNat a < size) (ofNat_toNat : ∀ a, ofNat (toNat a) = a)
    (toNat_ofNat : ∀ n, n < size → toNat (ofNat n) = n) :
    ReadsAs (fun node => return ofNat (← node.natural size expected)) fun x a =>
      x.IsNatural (toNat a) := by
  intro node a
  simp only [bind_eq_ok_iff, pure_eq_ok_iff, readsAs_natural size expected node]
  constructor
  . rintro ⟨n, ⟨x, said, is, small⟩, rfl⟩
    rw [toNat_ofNat n small]
    exact ⟨x, said, is⟩
  . rintro ⟨x, said, is⟩
    exact ⟨_, ⟨x, said, is, lt a⟩, ofNat_toNat a⟩

theorem readsAs_uint8 : ReadsAs Node.uint8 Term.IsUInt8 := by
  apply ReadsAs.word UInt8.size "u8" Nat.toUInt8 UInt8.toNat
  . exact UInt8.toNat_lt
  . intro n
    exact UInt8.ofNat_toNat
  . intro n small
    exact UInt8.toNat_ofNat_of_lt small

theorem readsAs_uint32 : ReadsAs Node.uint32 Term.IsUInt32 := by
  apply ReadsAs.word UInt32.size "u32" Nat.toUInt32 UInt32.toNat
  . exact UInt32.toNat_lt
  . intro n
    exact UInt32.ofNat_toNat
  . intro n small
    exact UInt32.toNat_ofNat_of_lt small

end Json

namespace SourcePosition

structure MembersMean (members : List (String × Term)) (p : SourcePosition) : Prop where
  line : Term.MeansOr Term.IsUInt32 none (members.lookup "line") p.line
  character : Term.MeansOr Term.IsUInt32 none (members.lookup "character") p.character

def Means : Term → SourcePosition → Prop := Term.RecordMeans ["line", "character"] MembersMean

theorem readsAs_ofNode : ReadsAs ServiceDiagnostic.positionRecord.ofNode Means := by
  apply ServiceDiagnostic.positionRecord.readsAs_ofNode
  . decide
  . exact ⟨Json.readsAs_uint32.isSome, Json.readsAs_uint32.isSome, trivial⟩
  . intro entries members all p
    have line := all.finds_iff { name := "line", read := Node.uint32 } Json.readsAs_uint32
    have character := all.finds_iff { name := "character", read := Node.uint32 } Json.readsAs_uint32
    constructor
    . rintro ⟨⟨_, _, _⟩, ⟨hasLine, hasCharacter, _⟩, rfl⟩
      exact ⟨(line _).mp hasLine, (character _).mp hasCharacter⟩
    . intro means
      exact ⟨(p.line, p.character, ()),
        ⟨(line _).mpr means.line, (character _).mpr means.character, trivial⟩, rfl⟩

end SourcePosition

namespace SourceRange

structure MembersMean (members : List (String × Term)) (r : SourceRange) : Prop where
  start : Term.MeansOr SourcePosition.Means none (members.lookup "start") r.start
  stop : Term.MeansOr SourcePosition.Means none (members.lookup "end") r.stop

def Means : Term → SourceRange → Prop := Term.RecordMeans ["start", "end"] MembersMean

theorem readsAs_ofNode : ReadsAs ServiceDiagnostic.rangeRecord.ofNode Means := by
  have position := SourcePosition.readsAs_ofNode
  apply ServiceDiagnostic.rangeRecord.readsAs_ofNode
  . decide
  . exact ⟨position.isSome, position.isSome, trivial⟩
  . intro entries members all r
    have start := all.finds_iff
      { name := "start", read := ServiceDiagnostic.positionRecord.ofNode } position
    have stop := all.finds_iff
      { name := "end", read := ServiceDiagnostic.positionRecord.ofNode } position
    constructor
    . rintro ⟨⟨_, _, _⟩, ⟨hasStart, hasStop, _⟩, rfl⟩
      exact ⟨(start _).mp hasStart, (stop _).mp hasStop⟩
    . intro means
      exact ⟨(r.start, r.stop, ()),
        ⟨(start _).mpr means.start, (stop _).mpr means.stop, trivial⟩, rfl⟩

end SourceRange

namespace ServiceDiagnostic

inductive IsCode : Term → String → Prop where
  | text (s : String) : IsCode (.string (some s)) s
  | integer (n : Int) (small : n < 0x8000000000000000) :
      IsCode (.number (some (.integer n))) (toString n)

def codeOfValue : Value → Except Fault String
  | .string s => .ok s
  | .number (.integer n) =>
    if n < 0x8000000000000000 then .ok (toString n) else .error { cause := .noCode }
  | _ => .error { cause := .noCode }

theorem readCode_eq (limit : Nat) :
    readCode limit = Node.optional (fun node => do codeOfValue (← node.toValue limit)) := by
  funext node
  have judge (v : Value) :
      (match v with
      | .string text => pure (some text)
      | .number (.integer n) =>
        if n < 0x8000000000000000 then pure (some (toString n)) else throw { cause := .noCode }
      | _ => throw { cause := .noCode }) =
        (do return some (← codeOfValue v) : Except Fault (Option String)) := by
    unfold codeOfValue
    split
    . rfl
    . split
      . rfl
      . rfl
    . rfl
  unfold readCode
  split
  . rfl
  . next notNull =>
    rw [node.optional_eq _ notNull, bind_assoc]
    congr
    funext v
    exact judge v

theorem isCode_iff (limit : Nat) (x : Term) (s : String) :
    IsCode x s ↔ ∃ v, x.value? limit = some v ∧ codeOfValue v = .ok s := by
  constructor
  . intro is
    cases is with
    | text => exact ⟨.string s, rfl, rfl⟩
    | integer n small => exact ⟨.number (.integer n), rfl, if_pos small⟩
  . rintro ⟨v, read, judged⟩
    have gives := Term.gives_of_value? read
    unfold codeOfValue at judged
    split at judged
    . cases judged
      rw [show x = _ from gives]
      exact .text _
    . split at judged
      . next small =>
        cases judged
        rw [show x = _ from gives]
        exact .integer _ small
      . cases judged
    . cases judged

theorem readsAs_readCode (limit : Nat) : ReadsAs (readCode limit) (Term.Optionally IsCode) := by
  rw [readCode_eq]
  apply ReadsAs.optional
  . intro node s
    simp only [bind_eq_ok_iff, Json.Node.toValue_eq_ok_iff, isCode_iff limit]
    constructor
    . rintro ⟨v, ⟨x, said, read⟩, judged⟩
      exact ⟨x, said, v, read, judged⟩
    . rintro ⟨x, said, v, read, judged⟩
      exact ⟨v, ⟨x, said, read⟩, judged⟩
  . intro s is
    cases is

structure MembersMean (members : List (String × Term)) (d : ServiceDiagnostic) : Prop where
  severity : Term.MeansOr (Term.Optionally Term.IsUInt8) (some none) (members.lookup "severity")
    d.severity
  range : Term.MeansOr SourceRange.Means none (members.lookup "range") d.range
  message : Term.MeansOr Term.IsText none (members.lookup "message") d.message
  source : Term.MeansOr (Term.Optionally Term.IsText) (some none) (members.lookup "source") d.source
  code : Term.MeansOr (Term.Optionally IsCode) (some none) (members.lookup "code") d.code

def Means : Term → ServiceDiagnostic → Prop :=
  Term.RecordMeans ["severity", "range", "message", "source", "code"] MembersMean

theorem readsAs_optionalUInt8 :
    ReadsAs (Node.optional Node.uint8) (Term.Optionally Term.IsUInt8) := by
  apply Json.readsAs_uint8.optional
  rintro n ⟨⟩

theorem readsAs_ofNode (limit : Nat) : ReadsAs (record limit).ofNode Means := by
  have range := SourceRange.readsAs_ofNode
  have text := Document.readsAs_optionalText
  apply (record limit).readsAs_ofNode
  . change ["severity", "range", "message", "source", "code"].Nodup
    decide
  . exact ⟨readsAs_optionalUInt8.isSome, range.isSome, Json.readsAs_text.isSome, text.isSome,
      (readsAs_readCode limit).isSome, trivial⟩
  . intro entries members all d
    have severity := all.finds_iff
      { name := "severity", read := Node.optional Node.uint8, absent := some none }
      readsAs_optionalUInt8
    have range := all.finds_iff { name := "range", read := rangeRecord.ofNode } range
    have message := all.finds_iff { name := "message", read := Node.text } Json.readsAs_text
    have source := all.finds_iff
      { name := "source", read := Node.optional Node.text, absent := some none } text
    have code := all.finds_iff { name := "code", read := readCode limit, absent := some none }
      (readsAs_readCode limit)
    constructor
    . rintro ⟨⟨_, _, _, _, _, _⟩, ⟨hasSeverity, hasRange, hasMessage, hasSource, hasCode, _⟩, rfl⟩
      exact ⟨(severity _).mp hasSeverity, (range _).mp hasRange, (message _).mp hasMessage,
        (source _).mp hasSource, (code _).mp hasCode⟩
    . intro means
      exact ⟨(d.severity, d.range, d.message, d.source, d.code, ()),
        ⟨(severity _).mpr means.severity, (range _).mpr means.range, (message _).mpr means.message,
          (source _).mpr means.source, (code _).mpr means.code, trivial⟩,
        rfl⟩

end ServiceDiagnostic

namespace DocumentChange

structure MembersMean (members : List (String × Term)) (change : DocumentChange) : Prop where
  content : Term.MeansOr Term.IsText none (members.lookup "content") change.content
  diagnostics : Term.MeansOr (Term.Lists ServiceDiagnostic.Means) (some [])
    (members.lookup "diagnostics") change.diagnostics

def Means : Term → DocumentChange → Prop :=
  Term.RecordMeans ["content", "diagnostics"] MembersMean

theorem readsAs_ofNode : ReadsAs record.ofNode Means := by
  have list := (ServiceDiagnostic.readsAs_ofNode (Json.nestingLimit - 3)).list
  apply record.readsAs_ofNode
  . decide
  . exact ⟨Json.readsAs_text.isSome, list.isSome, trivial⟩
  . intro entries members all change
    have content := all.finds_iff { name := "content", read := Node.text } Json.readsAs_text
    have diagnostics := all.finds_iff
      { name := "diagnostics",
        read := Node.list (ServiceDiagnostic.record (Json.nestingLimit - 3)).ofNode,
        absent := some [] } list
    constructor
    . rintro ⟨⟨_, _, _⟩, ⟨hasContent, hasDiagnostics, _⟩, rfl⟩
      exact ⟨(content _).mp hasContent, (diagnostics _).mp hasDiagnostics⟩
    . intro means
      exact ⟨(change.content, change.diagnostics, ()),
        ⟨(content _).mpr means.content, (diagnostics _).mpr means.diagnostics, trivial⟩, rfl⟩

theorem ofText_eq_ok_iff (text : String) (change : DocumentChange) :
    ofText text = .ok change ↔ ∃ x, x.SpelledBy text.toList ∧ Means x change := by
  rw [← readsAs_ofNode.decode, ofText]
  cases Json.decode record.ofNode text with
  | error error => simp
  | ok read => simp

end DocumentChange

end DomainModel
