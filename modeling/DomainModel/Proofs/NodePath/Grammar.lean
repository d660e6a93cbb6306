import DomainModel.NodePath
import Mathlib.Data.List.Forall2
import Mathlib.Data.List.TakeWhile

/-!
The grammar of the texts of paths. A path is spelled by the last part of a text, behind all signs
`#`. This is a slash alone for the root, and else there is a slash before each segment. Exactly the
texts of the grammar are read, and what is read from them is the path that they spell.
-/

namespace DomainModel

theorem all_ne_of_not_mem {sign : Char} {text : List Char} (h : sign ∉ text) :
    ∀ c ∈ text, decide (c ≠ sign) = true := by
  intro c mem
  apply decide_eq_true
  intro same
  rw [same] at mem
  exact h mem

namespace Segment

def SpellsIndex (text : List Char) (index : Nat) : Prop :=
  ∃ digits,
    (text = digits ∨ text = '+' :: digits) ∧
    digits ≠ [] ∧
    (∀ d ∈ digits, d.isDigit) ∧
    index = Nat.ofDigitChars 10 digits 0 ∧
    index < UInt64.size

theorem digitsValue_eq_ofDigitChars (digits : List Char) :
    digitsValue digits = Nat.ofDigitChars 10 digits 0 := by
  rw [Nat.ofDigitChars_eq_foldl]
  unfold digitsValue
  simp only [Nat.mul_comm]

theorem eq_indexDigits_or (text : List Char) :
    text = indexDigits text ∨ text = '+' :: indexDigits text := by
  unfold indexDigits
  split
  . right
    rfl
  . left
    rfl

theorem indexDigits_eq_self {text : List Char} (unsigned : '+' ∉ text) :
    indexDigits text = text := by
  rcases eq_indexDigits_or text with same | signed
  . exact same.symm
  . rw [signed] at unsigned
    exact absurd List.mem_cons_self unsigned

theorem index?_eq_some_iff (text : List Char) (index : Nat) :
    index? text = some index ↔ SpellsIndex text index := by
  unfold index?
  constructor
  . intro found
    dsimp only at found
    split at found
    . next known =>
      rcases known with ⟨inside, digits, bounded⟩
      cases found
      rw [List.all_eq_true] at digits
      exact ⟨_, eq_indexDigits_or text, inside, digits, digitsValue_eq_ofDigitChars _, bounded⟩
    . cases found
  . rintro ⟨digits, sign, inside, all, rfl, bounded⟩
    have unsigned : indexDigits text = digits := by
      rcases sign with rfl | rfl
      . apply indexDigits_eq_self
        intro mem
        cases all '+' mem
      . rfl
    dsimp only
    rw [unsigned, digitsValue_eq_ofDigitChars, if_pos]
    exact ⟨inside, List.all_eq_true.mpr all, bounded⟩

inductive Spelled : List Char → Segment → Prop where
  | property {property : List Char} (named : property ≠ []) (plain : '@' ∉ property) :
      Spelled property ⟨String.ofList property, none⟩
  | indexed {property text : List Char} {index : Nat} (named : property ≠ [])
      (plain : '@' ∉ property) (counted : SpellsIndex text index) :
      Spelled (property ++ '@' :: text) ⟨String.ofList property, some index⟩

theorem Spelled.ne_nil {text : List Char} {segment : Segment} (h : Spelled text segment) :
    text ≠ [] := by
  cases h with
  | property named => exact named
  | indexed => simp

theorem ofText?_of_not_mem {property : List Char} (plain : '@' ∉ property) :
    ofText? property = if property = [] then none else some ⟨String.ofList property, none⟩ := by
  have taken := List.takeWhile_eq_self_iff.mpr (all_ne_of_not_mem plain)
  have dropped := List.dropWhile_eq_nil_iff.mpr (all_ne_of_not_mem plain)
  simp only [ofText?, taken, dropped]

theorem ofText?_append {property : List Char} (plain : '@' ∉ property) (text : List Char) :
    ofText? (property ++ '@' :: text) =
      if property = [] then none
      else (index? text).map fun index => ⟨String.ofList property, some index⟩ := by
  have taken : (property ++ '@' :: text).takeWhile (· ≠ '@') = property := by
    rw [List.takeWhile_append_of_pos (all_ne_of_not_mem plain)]
    simp
  have dropped : (property ++ '@' :: text).dropWhile (· ≠ '@') = '@' :: text := by
    rw [List.dropWhile_append_of_pos (all_ne_of_not_mem plain)]
    simp
  simp only [ofText?, taken, dropped]

theorem ofText?_eq_some_iff (text : List Char) (segment : Segment) :
    ofText? text = some segment ↔ Spelled text segment := by
  constructor
  . intro read
    by_cases marked : '@' ∈ text
    -- The property ends at the first of the signs.
    . rcases List.eq_append_cons_of_mem marked with ⟨property, index, rfl, plain⟩
      rw [ofText?_append plain] at read
      split at read
      . cases read
      . next named =>
        rw [Option.map_eq_some_iff] at read
        rcases read with ⟨n, counted, rfl⟩
        rw [index?_eq_some_iff] at counted
        exact .indexed named plain counted
    . rw [ofText?_of_not_mem marked] at read
      split at read
      . cases read
      . next named =>
        cases read
        exact .property named marked
  . intro spelled
    cases spelled with
    | property named plain => rw [ofText?_of_not_mem plain, if_neg named]
    | indexed named plain counted =>
      rw [← index?_eq_some_iff] at counted
      rw [ofText?_append plain, if_neg named, counted]
      rfl

end Segment

namespace NodePath

structure IsFragment (text part : List Char) : Prop where
  plain : '#' ∉ part
  last : text = part ∨ ∃ before, text = before ++ '#' :: part

theorem fragment_eq_self {text : List Char} (h : '#' ∉ text) : fragment text = text := by
  rw [← List.mem_reverse] at h
  unfold fragment
  rw [List.takeWhile_eq_self_iff.mpr (all_ne_of_not_mem h), List.reverse_reverse]

theorem fragment_append (before text : List Char) :
    fragment (before ++ '#' :: text) = fragment text := by
  have taken (back : List Char) :
      (back ++ '#' :: before.reverse).takeWhile (· ≠ '#') = back.takeWhile (· ≠ '#') := by
    induction back with
    | nil => rfl
    | cons c back ih => rw [List.cons_append, List.takeWhile_cons, List.takeWhile_cons, ih]
  have back : (before ++ '#' :: text).reverse = text.reverse ++ '#' :: before.reverse := by simp
  rw [fragment, fragment, back, taken]

theorem IsFragment.fragment_eq {text part : List Char} (h : IsFragment text part) :
    fragment text = part := by
  rcases h with ⟨plain, rfl | ⟨before, rfl⟩⟩
  . exact fragment_eq_self plain
  . rw [fragment_append, fragment_eq_self plain]

theorem exists_isFragment (text : List Char) : ∃ part, IsFragment text part := by
  by_cases marked : '#' ∈ text
  . rw [← List.mem_reverse] at marked
    rcases List.eq_append_cons_of_mem marked with ⟨back, front, split, plain⟩
    refine ⟨back.reverse, by simpa using plain, .inr ⟨front.reverse, ?_⟩⟩
    rw [← text.reverse_reverse, split]
    simp
  . exact ⟨text, marked, .inl rfl⟩

theorem fragment_eq_iff (text part : List Char) :
    fragment text = part ↔ IsFragment text part := by
  constructor
  . rcases exists_isFragment text with ⟨last, known⟩
    rw [known.fragment_eq]
    rintro rfl
    exact known
  . exact IsFragment.fragment_eq

theorem splitSlashes_ne_nil (text : List Char) : splitSlashes text ≠ [] := by
  induction text with
  | nil => simp [splitSlashes]
  | cons c text ih =>
    unfold splitSlashes
    split
    . next none => exact absurd none ih
    . split
      . simp
      . simp

theorem splitSlashes_slash (text : List Char) :
    splitSlashes ('/' :: text) = [] :: splitSlashes text := by
  rw [splitSlashes]
  cases split : splitSlashes text with
  | nil => exact absurd split (splitSlashes_ne_nil text)
  | cons part parts => simp

theorem splitSlashes_cons {c : Char} (h : c ≠ '/') {text part : List Char}
    {parts : List (List Char)} (split : splitSlashes text = part :: parts) :
    splitSlashes (c :: text) = (c :: part) :: parts := by
  simp [splitSlashes, split, h]

theorem splitSlashes_append {part : List Char} (h : '/' ∉ part) (text : List Char) :
    splitSlashes (part ++ '/' :: text) = part :: splitSlashes text := by
  induction part with
  | nil => exact splitSlashes_slash text
  | cons c part ih =>
    rw [List.mem_cons, not_or] at h
    exact splitSlashes_cons (Ne.symm h.1) (ih h.2)

theorem splitSlashes_of_not_mem {part : List Char} (h : '/' ∉ part) :
    splitSlashes part = [part] := by
  induction part with
  | nil => rfl
  | cons c part ih =>
    rw [List.mem_cons, not_or] at h
    exact splitSlashes_cons (Ne.symm h.1) (ih h.2)

theorem splitSlashes_flatMap {part : List Char} {parts : List (List Char)}
    (whole : ∀ p ∈ part :: parts, '/' ∉ p) :
    splitSlashes (part ++ parts.flatMap ('/' :: ·)) = part :: parts := by
  induction parts generalizing part with
  | nil =>
    rw [List.flatMap_nil, List.append_nil]
    apply splitSlashes_of_not_mem
    exact whole part List.mem_cons_self
  | cons next parts ih =>
    rw [List.forall_mem_cons] at whole
    rw [List.flatMap_cons, List.cons_append, splitSlashes_append whole.1, ih whole.2]

theorem splitSlashes_spec (text : List Char) :
    (∀ part ∈ splitSlashes text, '/' ∉ part) ∧
    (splitSlashes text).flatMap ('/' :: ·) = '/' :: text := by
  induction text with
  | nil => simp [splitSlashes]
  | cons c text ih =>
    by_cases slash : c = '/'
    . subst slash
      rw [splitSlashes_slash, List.forall_mem_cons, List.flatMap_cons, ih.2]
      exact ⟨⟨by simp, ih.1⟩, rfl⟩
    . cases split : splitSlashes text with
      | nil => exact absurd split (splitSlashes_ne_nil text)
      | cons part parts =>
        rw [split, List.forall_mem_cons, List.flatMap_cons, List.cons_append,
          List.cons_inj_right] at ih
        rw [splitSlashes_cons slash split, List.forall_mem_cons, List.flatMap_cons, ← ih.2]
        refine ⟨⟨?_, ih.1.2⟩, rfl⟩
        rw [List.mem_cons, not_or]
        exact ⟨Ne.symm slash, ih.1.1⟩

inductive Spelled : List Char → NodePath → Prop where
  | root : Spelled ['/'] root
  | segments {parts : List (List Char)} {segments : List Segment} (inside : parts ≠ [])
      (whole : ∀ part ∈ parts, '/' ∉ part)
      (spelled : List.Forall₂ Segment.Spelled parts segments) :
      Spelled (parts.flatMap ('/' :: ·)) ⟨segments⟩

theorem mapM_ofText?_eq_some_iff (parts : List (List Char)) (segments : List Segment) :
    parts.mapM Segment.ofText? = some segments ↔
      List.Forall₂ Segment.Spelled parts segments := by
  induction parts generalizing segments with
  | nil => simp [eq_comm]
  | cons part parts ih =>
    simp only [List.mapM_cons, Option.bind_eq_bind, Option.bind_eq_some_iff, Option.pure_def,
      Option.some.injEq, ih, Segment.ofText?_eq_some_iff, List.forall₂_cons_left_iff]
    constructor
    . rintro ⟨segment, spelled, rest, all, rfl⟩
      exact ⟨segment, rest, spelled, all, rfl⟩
    . rintro ⟨segment, rest, spelled, all, rfl⟩
      exact ⟨segment, spelled, rest, all, rfl⟩

theorem ofChars?_of_fragment {text rest : List Char} (known : fragment text = '/' :: rest)
    (inside : rest ≠ []) :
    ofChars? text = ((splitSlashes rest).mapM Segment.ofText?).map NodePath.mk := by
  unfold ofChars?
  rw [known]
  cases rest with
  | nil => exact absurd rfl inside
  | cons c rest => rfl

theorem ofChars?_eq_some_iff (text : List Char) (path : NodePath) :
    ofChars? text = some path ↔ Spelled (fragment text) path := by
  constructor
  . intro read
    unfold ofChars? at read
    split at read
    . next slash =>
      cases read
      rw [slash]
      exact .root
    . next rest _ known =>
      rw [Option.map_eq_some_iff] at read
      rcases read with ⟨segments, read, rfl⟩
      rw [mapM_ofText?_eq_some_iff] at read
      have split := splitSlashes_spec rest
      rw [known, ← split.2]
      exact .segments (splitSlashes_ne_nil rest) split.1 read
    . cases read
  . generalize known : fragment text = part
    intro spelled
    cases spelled with
    | root =>
      unfold ofChars?
      rw [known]
      rfl
    | @segments parts segments inside whole spelled =>
      cases spelled with
      | nil => exact absurd rfl inside
      | @cons part segment parts segments first spelled =>
        rw [List.flatMap_cons, List.cons_append] at known
        rw [ofChars?_of_fragment known, splitSlashes_flatMap whole,
          (mapM_ofText?_eq_some_iff _ _).mpr (.cons first spelled)]
        . rfl
        . intro empty
          exact first.ne_nil (List.append_eq_nil_iff.mp empty).1

theorem ofText_eq_ok_iff (text : String) (path : NodePath) :
    ofText text = .ok path ↔ ofChars? text.toList = some path := by
  unfold ofText
  cases ofChars? text.toList with
  | none => simp
  | some other => simp

theorem ofText_eq_error_iff (text : String) (error : InvalidNodePath) :
    ofText text = .error error ↔ ofChars? text.toList = none ∧ error = ⟨text⟩ := by
  unfold ofText
  cases ofChars? text.toList with
  | none => simp [eq_comm]
  | some other => simp

theorem ofText_append_eq_ok_iff (document text : String) (path : NodePath) :
    ofText (document ++ "#" ++ text) = .ok path ↔ ofText text = .ok path := by
  have marked : (document ++ "#" ++ text).toList = document.toList ++ '#' :: text.toList := by
    simp
  rw [ofText_eq_ok_iff, ofText_eq_ok_iff, marked, ofChars?, ofChars?, fragment_append]

theorem reads_grammar (text : String) :
    (∀ path, ofText text = .ok path ↔
      ∃ part, IsFragment text.toList part ∧ Spelled part path) ∧
    ((∀ path part, IsFragment text.toList part → ¬Spelled part path) →
      ofText text = .error ⟨text⟩) ∧
    ∀ (document : String) (path : NodePath),
      ofText (document ++ "#" ++ text) = .ok path ↔ ofText text = .ok path := by
  have accepted (path : NodePath) :
      ofText text = .ok path ↔ ∃ part, IsFragment text.toList part ∧ Spelled part path := by
    rw [ofText_eq_ok_iff, ofChars?_eq_some_iff]
    constructor
    . intro spelled
      exact ⟨_, (fragment_eq_iff _ _).mp rfl, spelled⟩
    . rintro ⟨part, known, spelled⟩
      rw [known.fragment_eq]
      exact spelled
  refine ⟨accepted, ?_, ?_⟩
  . intro unspelled
    rw [ofText_eq_error_iff]
    refine ⟨?_, rfl⟩
    rw [Option.eq_none_iff_forall_not_mem]
    intro path read
    rw [Option.mem_def, ← ofText_eq_ok_iff, accepted] at read
    rcases read with ⟨part, known, spelled⟩
    exact unspelled path part known spelled
  . intro document path
    exact ofText_append_eq_ok_iff document text path

end NodePath

end DomainModel
