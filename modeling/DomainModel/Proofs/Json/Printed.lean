import DomainModel.Json.Printer
import DomainModel.Proofs.Json.Reading

/-!
Printed values. What is written for a value is a text that says this value: its strings are escaped
such that the escapes stand for the same characters, and between its tokens there are only blanks.
Numbers have to be such that the literal that is written for them stands for them again, which
integers of 64 bits without a sign are.
-/

namespace DomainModel.Json

theorem codeUnit?_control (n : Nat) (h : n < 32) :
    codeUnit? '0' '0' (Nat.digitChar (n / 16)) (Nat.digitChar (n % 16)) = some n := by
  revert n
  decide

namespace Piece

-- A piece that says one character whatever comes next.
def Says (piece : Piece) (c : Char) : Prop :=
  ∀ pieces, decode (piece :: pieces) = (decode pieces).map (c :: ·)

theorem says_char (c : Char) : (Piece.char c).Says c := by
  intro pieces
  rfl

theorem says_unit (c : Char) (control : c.toNat < 32) : (Piece.unit c.toNat).Says c := by
  intro pieces
  have noLeading : ¬ isLeading c.toNat = true := by
    simp [isLeading]
    omega
  have noTrailing : ¬ isTrailing c.toNat = true := by
    simp [isTrailing]
    omega
  rw [decode_unit_of_not_leading _ _ noLeading, if_neg noTrailing, Char.ofNat_toNat]

theorem exists_written_escapedChar (c : Char) :
    ∃ piece : Piece, piece.Written (escapedChar c) ∧ piece.Says c := by
  unfold escapedChar
  split
  . exact ⟨_, .escaped '"' '"' rfl, says_char _⟩
  . exact ⟨_, .escaped '\\' '\\' rfl, says_char _⟩
  . exact ⟨_, .escaped '\x08' 'b' rfl, says_char _⟩
  . exact ⟨_, .escaped '\t' 't' rfl, says_char _⟩
  . exact ⟨_, .escaped '\n' 'n' rfl, says_char _⟩
  . exact ⟨_, .escaped '\x0c' 'f' rfl, says_char _⟩
  . exact ⟨_, .escaped '\r' 'r' rfl, says_char _⟩
  . next noQuote noEscape _ _ _ _ _ =>
    split
    . next control =>
      have small : c.toNat < 32 := control
      exact ⟨_, .coded _ _ _ _ _ (codeUnit?_control c.toNat small), says_unit c small⟩
    . next visible => exact ⟨_, .plain c visible noQuote noEscape, says_char c⟩

theorem exists_allWritten_escaped (cs : List Char) :
    ∃ pieces, AllWritten pieces (cs.flatMap escapedChar) ∧ decode pieces = some cs := by
  induction cs with
  | nil => exact ⟨[], .nil, rfl⟩
  | cons c cs ih =>
    rcases ih with ⟨pieces, written, meant⟩
    rcases exists_written_escapedChar c with ⟨piece, first, told⟩
    refine ⟨piece :: pieces, ?_, ?_⟩
    . rw [List.flatMap_cons]
      exact .cons first written
    . rw [told pieces, meant, Option.map_some]

end Piece

theorem stringSpelled_writeString (s : String) (r : List Char) :
    StringSpelled (some s) (writeString s r) r := by
  rcases Piece.exists_allWritten_escaped s.toList with ⟨pieces, written, meant⟩
  refine ⟨pieces, _, written, rfl, ?_⟩
  rw [meant, Option.map_some, String.ofList_toList]

def Number.IsExact (n : Number) : Prop :=
  ∃ literal : Literal, literal.Written n.text.toList ∧ literal.number = .ok n

namespace Literal

theorem le_ofDigitChars (ds : List Char) (n : Nat) : n ≤ Nat.ofDigitChars 10 ds n := by
  induction ds generalizing n with
  | nil => simp
  | cons d ds ih =>
    have more := ih (10 * n + (d.toNat - '0'.toNat))
    rw [Nat.ofDigitChars_cons]
    omega

theorem ofDigitChars_cons (d : Char) (ds : List Char) (n : Nat) :
    Nat.ofDigitChars 10 (d :: ds) n = Nat.ofDigitChars 10 ds (appendDigit n d) := by
  rw [Nat.ofDigitChars_cons, Nat.mul_comm]
  rfl

theorem wholePart_eq (ds : List Char) (n : Nat) (fits : Nat.ofDigitChars 10 ds n < UInt64.size) :
    wholePart ds n = (Nat.ofDigitChars 10 ds n, 0) := by
  induction ds generalizing n with
  | nil => simp [wholePart]
  | cons d ds ih =>
    rw [ofDigitChars_cons] at fits ⊢
    have next := Nat.lt_of_le_of_lt (le_ofDigitChars ds _) fits
    rw [wholePart, if_pos next]
    exact ih _ fits

theorem toDigits_eq_zero_of_head {n : Nat} (zero : (Nat.toDigits 10 n).head? = some '0') :
    Nat.toDigits 10 n = ['0'] := by
  induction n using Nat.strongRecOn with
  | ind n ih =>
    by_cases small : n < 10
    . rw [Nat.toDigits_of_lt_base small] at zero ⊢
      rw [List.head?_cons, Option.some.injEq] at zero
      rw [zero]
    . have split : Nat.toDigits 10 n = Nat.toDigits 10 (n / 10) ++ [(n % 10).digitChar] := by
        apply Nat.toDigits_of_base_le
        . decide
        . omega
      rw [split, List.head?_append_of_ne_nil _ Nat.toDigits_ne_nil] at zero
      -- The digits in front are those of a smaller number, which is zero and yet is not.
      have front := ih (n / 10) (by omega) zero
      have value := Nat.ofDigitChars_ten_toDigits (n := n / 10)
      rw [front] at value
      have none : n / 10 = 0 := value.symm
      omega

def ofNat (n : Nat) : Literal where
  negative := false
  whole := Nat.toDigits 10 n
  fraction := []
  exponent := none
  stop := 0

theorem written_ofNat (n : Nat) : (ofNat n).Written (Nat.toDigits 10 n) where
  whole := by
    refine ⟨Nat.toDigits_ne_nil, ?_⟩
    intro d mem
    apply Nat.isDigit_of_mem_toDigits _ _ mem
    . decide
    . decide
  noZero := toDigits_eq_zero_of_head
  fraction := by
    intro d mem
    cases mem
  text_eq := by
    refine ⟨[], .none, ?_⟩
    simp [ofNat, fractionText]

theorem number_ofNat (n : Nat) (fits : n < UInt64.size) : (ofNat n).number = .ok (.integer n) := by
  have value := Nat.ofDigitChars_ten_toDigits (n := n)
  have whole : wholePart (ofNat n).whole 0 = (n, 0) := by
    apply (wholePart_eq (Nat.toDigits 10 n) 0 (by rw [value]; exact fits)).trans
    rw [value]
  unfold number
  rw [whole]
  rfl

end Literal

theorem Number.isExact_ofNat (n : Nat) (fits : n < UInt64.size) :
    (Number.integer n).IsExact := by
  refine ⟨Literal.ofNat n, ?_, Literal.number_ofNat n fits⟩
  have text : (Number.integer n).text.toList = Nat.toDigits 10 n := Nat.toList_repr
  rw [text]
  exact Literal.written_ofNat n

namespace Value

mutual

def term : Value → Term
  | .null => .null
  | .bool b => .bool b
  | .number n => .number (some n)
  | .string s => .string (some s)
  | .array items => .array (itemTerms items)
  | .object members => .object (memberTerms members)
termination_by structural value => value

def itemTerms : List Value → List Term
  | [] => []
  | item :: items => item.term :: itemTerms items
termination_by structural items => items

def memberTerms : List (String × Value) → List (Option String × Term)
  | [] => []
  | (key, value) :: members => (some key, value.term) :: memberTerms members
termination_by structural members => members

end

mutual

def IsExact : Value → Prop
  | .number n => n.IsExact
  | .array items => ItemsAreExact items
  | .object members => MembersAreExact members
  | _ => True
termination_by structural value => value

def ItemsAreExact : List Value → Prop
  | [] => True
  | item :: items => item.IsExact ∧ ItemsAreExact items
termination_by structural items => items

def MembersAreExact : List (String × Value) → Prop
  | [] => True
  | (_, value) :: members => value.IsExact ∧ MembersAreExact members
termination_by structural members => members

end

theorem itemTerms_eq_map (items : List Value) : itemTerms items = items.map term := by
  induction items with
  | nil => rfl
  | cons item items ih => rw [itemTerms, ih, List.map_cons]

theorem memberTerms_eq_map (members : List (String × Value)) :
    memberTerms members = members.map fun member => (some member.1, member.2.term) := by
  induction members with
  | nil => rfl
  | cons member members ih => rw [memberTerms, ih, List.map_cons]

theorem term_array (items : List Value) : (array items).term = .array (items.map term) := by
  rw [term, itemTerms_eq_map]

theorem term_object (members : List (String × Value)) :
    (object members).term = .named (members.map fun member => (member.1, member.2.term)) := by
  rw [term, memberTerms_eq_map, Term.named, List.map_map]
  rfl

theorem depth_array_le (items : List Value) (limit : Nat)
    (h : ∀ item ∈ items, item.term.depth ≤ limit) : (array items).term.depth ≤ limit + 1 := by
  rw [term_array, Term.depth]
  apply Nat.succ_le_succ
  rw [Term.itemsDepth_le_iff, List.forall_mem_map]
  exact h

theorem depth_object_le (members : List (String × Value)) (limit : Nat)
    (h : ∀ member ∈ members, member.2.term.depth ≤ limit) :
    (object members).term.depth ≤ limit + 1 := by
  rw [term_object, Term.named, Term.depth]
  apply Nat.succ_le_succ
  rw [Term.membersDepth_le_iff, List.forall_mem_map]
  exact h

theorem itemsAreExact_iff (items : List Value) :
    ItemsAreExact items ↔ ∀ item ∈ items, item.IsExact := by
  induction items with
  | nil => simp [ItemsAreExact]
  | cons item items ih => rw [ItemsAreExact, ih, List.forall_mem_cons]

end Value

theorem Spread.blanks_lineBreak (spread : Spread) (r : List Char) :
    Blanks (spread.lineBreak r) r := by
  cases spread with
  | line => exact .refl r
  | indented depth =>
    refine ⟨'\n' :: List.replicate (2 * depth) ' ', ?_, rfl⟩
    intro c mem
    rw [List.mem_cons, List.mem_replicate] at mem
    rcases mem with rfl | ⟨_, rfl⟩
    . rfl
    . rfl

theorem Spread.colon_eq (spread : Spread) (r : List Char) :
    ∃ t, spread.colon r = ':' :: t ∧ Blanks t r := by
  cases spread with
  | line => exact ⟨r, rfl, .refl r⟩
  | indented depth => exact ⟨' ' :: r, rfl, [' '], by simp [Cursor.isBlank], rfl⟩

theorem Spread.colon_inner (spread : Spread) (r : List Char) :
    spread.inner.colon r = spread.colon r := by
  cases spread with
  | line => rfl
  | indented depth => rfl

theorem Spread.lineBreak_append (spread : Spread) (r s : List Char) :
    spread.lineBreak (r ++ s) = spread.lineBreak r ++ s := by
  cases spread with
  | line => rfl
  | indented depth => simp [lineBreak]

theorem Spread.colon_append (spread : Spread) (r s : List Char) :
    spread.colon (r ++ s) = spread.colon r ++ s := by
  cases spread with
  | line => rfl
  | indented depth => rfl

theorem writeString_append (text : String) (r s : List Char) :
    writeString text (r ++ s) = writeString text r ++ s := by
  simp [writeString]

mutual

theorem Value.write_append (value : Value) (spread : Spread) (r s : List Char) :
    value.write spread (r ++ s) = value.write spread r ++ s := by
  cases value with
  | null => rfl
  | bool b =>
    cases b with
    | true => rfl
    | false => rfl
  | number n => simp [Value.write]
  | string text => exact writeString_append text r s
  | array items =>
    cases items with
    | nil => rfl
    | cons item items =>
      simp only [Value.write, List.cons_append, ← Spread.lineBreak_append]
      rw [← item.write_append, ← writeItems_append, ← Spread.lineBreak_append]
      rfl
  | object members =>
    cases members with
    | nil => rfl
    | cons member members =>
      rcases member with ⟨key, value⟩
      simp only [Value.write, List.cons_append, ← Spread.lineBreak_append, ← writeString_append,
        ← Spread.colon_append]
      rw [← value.write_append, ← writeMembers_append, ← Spread.lineBreak_append]
      rfl
termination_by structural value

theorem writeItems_append (items : List Value) (spread : Spread) (r s : List Char) :
    writeItems spread items (r ++ s) = writeItems spread items r ++ s := by
  cases items with
  | nil => rfl
  | cons item items =>
    simp only [writeItems, List.cons_append, ← Spread.lineBreak_append]
    rw [← item.write_append, ← writeItems_append]
termination_by structural items

theorem writeMembers_append (members : List (String × Value)) (spread : Spread)
    (r s : List Char) :
    writeMembers spread members (r ++ s) = writeMembers spread members r ++ s := by
  cases members with
  | nil => rfl
  | cons member members =>
    rcases member with ⟨key, value⟩
    simp only [writeMembers, List.cons_append, ← Spread.lineBreak_append, ← writeString_append,
      ← Spread.colon_append]
    rw [← value.write_append, ← writeMembers_append]
termination_by structural members

end

theorem itemsSpelled_write (spread : Spread) (item : Value) (items : List Value)
    (h : ∀ x ∈ item :: items, ∀ r, x.term.Spelled (x.write spread r) r) (t r : List Char)
    (blanks : Blanks t r) :
    Term.ItemsSpelled (Value.itemTerms (item :: items))
      (item.write spread (writeItems spread items t)) r := by
  induction items generalizing item with
  | nil => exact ⟨_, h item List.mem_cons_self t, blanks⟩
  | cons next items ih =>
    rw [List.forall_mem_cons] at h
    exact ⟨_, _, _, h.1 _, .refl _, spread.blanks_lineBreak _, ih next h.2⟩

theorem membersSpelled_write (spread : Spread) (member : String × Value)
    (members : List (String × Value))
    (h : ∀ x ∈ member :: members, ∀ r, x.2.term.Spelled (x.2.write spread r) r) (t r : List Char)
    (blanks : Blanks t r) :
    Term.MembersSpelled (Value.memberTerms (member :: members))
      (writeString member.1
        (spread.colon (member.2.write spread (writeMembers spread members t)))) r := by
  induction members generalizing member with
  | nil =>
    rcases spread.colon_eq (member.2.write spread (writeMembers spread [] t)) with ⟨u, colon, space⟩
    rw [colon]
    have name := stringSpelled_writeString member.1 (':' :: u)
    exact ⟨_, _, _, _, name, .refl _, space, h member List.mem_cons_self t, blanks⟩
  | cons next members ih =>
    rw [List.forall_mem_cons] at h
    rcases spread.colon_eq (member.2.write spread (writeMembers spread (next :: members) t)) with
      ⟨u, colon, space⟩
    rw [colon]
    have name := stringSpelled_writeString member.1 (':' :: u)
    exact ⟨_, _, _, _, _, _, name, .refl _, space, h.1 _, .refl _, spread.blanks_lineBreak _,
      ih next h.2⟩

mutual

theorem Value.spelled_write (value : Value) (exact : value.IsExact) (spread : Spread)
    (r : List Char) : value.term.Spelled (value.write spread r) r := by
  cases value with
  | null => rfl
  | bool b =>
    cases b with
    | true => rfl
    | false => rfl
  | number n =>
    rcases exact with ⟨literal, written, stands⟩
    refine ⟨literal, _, written, ?_, rfl⟩
    rw [stands]
    rfl
  | string s => exact stringSpelled_writeString s r
  | array items =>
    have inner := spelled_write_items items exact spread.inner
    cases items with
    | nil => exact ⟨_, _, rfl, .refl _, rfl⟩
    | cons item items =>
      refine ⟨_, _, rfl, spread.inner.blanks_lineBreak _, ?_⟩
      apply itemsSpelled_write spread.inner item items inner
      apply spread.blanks_lineBreak
  | object members =>
    have inner := spelled_write_members members exact spread.inner
    cases members with
    | nil => exact ⟨_, _, rfl, .refl _, rfl⟩
    | cons member members =>
      rcases member with ⟨key, value⟩
      refine ⟨_, _, rfl, spread.inner.blanks_lineBreak _, ?_⟩
      rw [← spread.colon_inner]
      apply membersSpelled_write spread.inner (key, value) members inner
      apply spread.blanks_lineBreak
termination_by structural value

theorem spelled_write_items (items : List Value) (exact : Value.ItemsAreExact items)
    (spread : Spread) : ∀ x ∈ items, ∀ r, x.term.Spelled (x.write spread r) r := by
  cases items with
  | nil => simp
  | cons item items =>
    rw [List.forall_mem_cons]
    exact ⟨item.spelled_write exact.1 spread, spelled_write_items items exact.2 spread⟩
termination_by structural items

theorem spelled_write_members (members : List (String × Value))
    (exact : Value.MembersAreExact members) (spread : Spread) :
    ∀ x ∈ members, ∀ r, x.2.term.Spelled (x.2.write spread r) r := by
  cases members with
  | nil => simp
  | cons member members =>
    rcases member with ⟨key, value⟩
    rw [List.forall_mem_cons]
    exact ⟨value.spelled_write exact.1 spread, spelled_write_members members exact.2 spread⟩
termination_by structural members

end

mutual

theorem Value.value?_term (value : Value) (limit : Nat) (shallow : value.term.depth ≤ limit) :
    value.term.value? limit = some value := by
  cases value with
  | null => rfl
  | bool b => rfl
  | number n => rfl
  | string s => rfl
  | array items =>
    rw [Value.term, Term.depth] at shallow
    cases limit with
    | zero => omega
    | succ limit =>
      rw [Value.term, Term.value?, itemValues?_itemTerms items limit (by omega)]
      rfl
  | object members =>
    rw [Value.term, Term.depth] at shallow
    cases limit with
    | zero => omega
    | succ limit =>
      rw [Value.term, Term.value?, memberValues?_memberTerms members limit (by omega)]
      rfl
termination_by structural value

theorem itemValues?_itemTerms (items : List Value) (limit : Nat)
    (shallow : Term.itemsDepth (Value.itemTerms items) ≤ limit) :
    Term.itemValues? limit (Value.itemTerms items) = some items := by
  cases items with
  | nil => rfl
  | cons item items =>
    rw [Value.itemTerms, Term.itemsDepth] at shallow
    rw [Value.itemTerms, Term.itemValues?, item.value?_term limit (by omega),
      itemValues?_itemTerms items limit (by omega)]
    rfl
termination_by structural items

theorem memberValues?_memberTerms (members : List (String × Value)) (limit : Nat)
    (shallow : Term.membersDepth (Value.memberTerms members) ≤ limit) :
    Term.memberValues? limit (Value.memberTerms members) = some members := by
  cases members with
  | nil => rfl
  | cons member members =>
    rcases member with ⟨key, value⟩
    rw [Value.memberTerms, Term.membersDepth] at shallow
    rw [Value.memberTerms, Term.memberValues?, value.value?_term limit (by omega),
      memberValues?_memberTerms members limit (by omega)]
    rfl
termination_by structural members

end

mutual

theorem Term.depth_le_of_value? (x : Term) (limit : Nat) (v : Value)
    (read : x.value? limit = some v) : x.depth ≤ limit := by
  cases x with
  | null | bool _ | number _ | string _ => exact Nat.zero_le limit
  | array items =>
    cases limit with
    | zero => cases read
    | succ limit =>
      rw [Term.value?, Option.map_eq_some_iff] at read
      rcases read with ⟨values, read, _⟩
      exact Nat.succ_le_succ (itemsDepth_le_of_itemValues? items limit values read)
  | object members =>
    cases limit with
    | zero => cases read
    | succ limit =>
      rw [Term.value?, Option.map_eq_some_iff] at read
      rcases read with ⟨values, read, _⟩
      exact Nat.succ_le_succ (membersDepth_le_of_memberValues? members limit values read)
termination_by structural x

theorem itemsDepth_le_of_itemValues? (items : List Term) (limit : Nat) (values : List Value)
    (read : Term.itemValues? limit items = some values) : Term.itemsDepth items ≤ limit := by
  cases items with
  | nil => exact Nat.zero_le limit
  | cons x items =>
    simp only [Term.itemValues?, Option.bind_eq_bind, Option.bind_eq_some_iff] at read
    rcases read with ⟨v, first, values, others, _⟩
    rw [Term.itemsDepth, Nat.max_le]
    exact ⟨x.depth_le_of_value? limit v first,
      itemsDepth_le_of_itemValues? items limit values others⟩
termination_by structural items

theorem membersDepth_le_of_memberValues? (members : List (Option String × Term)) (limit : Nat)
    (values : List (String × Value)) (read : Term.memberValues? limit members = some values) :
    Term.membersDepth members ≤ limit := by
  cases members with
  | nil => exact Nat.zero_le limit
  | cons member members =>
    rcases member with ⟨key, x⟩
    simp only [Term.memberValues?, Option.bind_eq_bind, Option.bind_eq_some_iff] at read
    rcases read with ⟨_, _, v, first, values, others, _⟩
    rw [Term.membersDepth, Nat.max_le]
    exact ⟨x.depth_le_of_value? limit v first,
      membersDepth_le_of_memberValues? members limit values others⟩
termination_by structural members

end

theorem Value.value?_term_eq_some_iff (value : Value) (limit : Nat) (v : Value) :
    value.term.value? limit = some v ↔ value.term.depth ≤ limit ∧ v = value := by
  constructor
  . intro read
    have shallow := Term.depth_le_of_value? _ _ _ read
    rw [value.value?_term limit shallow] at read
    exact ⟨shallow, (Option.some.inj read).symm⟩
  . rintro ⟨shallow, rfl⟩
    exact v.value?_term limit shallow

theorem decode_toValue_eq_ok_iff (limit : Nat) (text : String) (value : Value) :
    decode (·.toValue limit) text = .ok value ↔
      ∃ x : Term, x.SpelledBy text.toList ∧ x.value? limit = some value := by
  have reads : ReadsAs (·.toValue limit) fun x v => x.value? limit = some v := by
    intro node v
    exact node.toValue_eq_ok_iff limit v
  exact reads.decode text value

/--
The text is JSON and says just this value: a reader under which so many arrays and objects may be
open finds the value or gives up on its depth.
-/
structure Shows (text : String) (value : Value) : Prop where
  spelled : value.term.SpelledBy text.toList
  read : ∀ limit v,
    decode (·.toValue limit) text = .ok v ↔ value.term.depth ≤ limit ∧ v = value

theorem shows_of_spelledBy (text : String) (value : Value)
    (spelled : value.term.SpelledBy text.toList) : Shows text value where
  spelled := spelled
  read := by
    intro limit v
    rw [decode_toValue_eq_ok_iff, ← value.value?_term_eq_some_iff]
    constructor
    . rintro ⟨x, other, read⟩
      rw [spelled.unique other]
      exact read
    . intro read
      exact ⟨value.term, spelled, read⟩

namespace Value

theorem spelledBy_write (value : Value) (exact : value.IsExact) (spread : Spread)
    (r : List Char) (blanks : Blanks r []) :
    value.term.SpelledBy (value.write spread [] ++ r) := by
  rw [← value.write_append, List.nil_append]
  exact ⟨_, r, .refl _, value.spelled_write exact spread r, blanks⟩

theorem spelledBy_compact (value : Value) (exact : value.IsExact) :
    value.term.SpelledBy value.compact.toList := by
  have spelled := value.spelledBy_write exact .line [] (.refl _)
  rw [List.append_nil] at spelled
  rw [compact, String.toList_ofList]
  exact spelled

theorem parse_compact (value : Value) (exact : value.IsExact)
    (shallow : value.term.depth ≤ nestingLimit) : parse value.compact = .ok value := by
  have shown := shows_of_spelledBy value.compact value (value.spelledBy_compact exact)
  rw [parse, shown.read]
  exact ⟨shallow, rfl⟩

theorem shows_pretty (value : Value) (exact : value.IsExact) (ending : String)
    (blanks : Blanks ending.toList []) : Shows (value.pretty ++ ending) value := by
  apply shows_of_spelledBy
  rw [String.toList_append, pretty, String.toList_ofList]
  exact value.spelledBy_write exact (.indented 0) ending.toList blanks

end Value

end DomainModel.Json
