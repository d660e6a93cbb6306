import DomainModel.Proofs.NodePath.Grammar

namespace DomainModel

namespace Segment

structure Legible (segment : Segment) : Prop where
  named : segment.property ≠ ""
  plain : ∀ c ∈ segment.property.toList, c ≠ '/' ∧ c ≠ '@' ∧ c ≠ '#'
  bounded : ∀ index, segment.index = some index → index < UInt64.size

theorem legible_contained {property : String}
    (contained : property = "elements" ∨ property = "features") {index : Nat}
    (h : index < UInt64.size) : Legible ⟨property, some index⟩ := by
  constructor
  . rcases contained with rfl | rfl
    . simp
    . simp
  . rcases contained with rfl | rfl
    . simp
    . simp
  . intro other same
    cases same
    exact h

theorem isDigit_of_mem_toDigits {n : Nat} {d : Char} (mem : d ∈ Nat.toDigits 10 n) :
    d.isDigit = true := by
  apply Nat.isDigit_of_mem_toDigits _ _ mem
  . decide
  . decide

theorem not_mem_toDigits {c : Char} (h : c.isDigit = false) (n : Nat) :
    c ∉ Nat.toDigits 10 n := by
  intro mem
  rw [isDigit_of_mem_toDigits mem] at h
  cases h

theorem spellsIndex_toDigits {n : Nat} (h : n < UInt64.size) :
    SpellsIndex (Nat.toDigits 10 n) n := by
  refine ⟨_, .inl rfl, Nat.toDigits_ne_nil, ?_, ?_, h⟩
  . intro d mem
    exact isDigit_of_mem_toDigits mem
  . apply Eq.symm
    apply Nat.ofDigitChars_toDigits
    . decide
    . decide

theorem Legible.spelled_render {segment : Segment} (h : segment.Legible) :
    Spelled segment.render segment := by
  have named : segment.property.toList ≠ [] := by
    rw [ne_eq, String.toList_eq_nil_iff]
    exact h.named
  have plain : '@' ∉ segment.property.toList := by
    intro mem
    exact (h.plain '@' mem).2.1 rfl
  have spelled (index : Option Nat) (same : segment.index = index) :
      Spelled segment.render ⟨String.ofList segment.property.toList, index⟩ := by
    unfold render
    rw [same]
    cases index with
    | none => exact .property named plain
    | some index => exact .indexed named plain (spellsIndex_toDigits (h.bounded index same))
  rw [String.ofList_toList] at spelled
  exact spelled segment.index rfl

theorem Legible.not_mem_render {segment : Segment} (h : segment.Legible) {c : Char}
    (sign : c = '/' ∨ c = '#') : c ∉ segment.render := by
  have unnamed : c ∉ segment.property.toList := by
    intro mem
    rcases h.plain c mem with ⟨noSlash, _, noHash⟩
    rcases sign with slash | hash
    . exact noSlash slash
    . exact noHash hash
  have uncounted : ∀ n, c ∉ '@' :: Nat.toDigits 10 n := by
    intro n
    rcases sign with rfl | rfl
    . have absent := not_mem_toDigits (show '/'.isDigit = false from rfl) n
      simp [absent]
    . have absent := not_mem_toDigits (show '#'.isDigit = false from rfl) n
      simp [absent]
  unfold render
  split
  . rw [List.mem_append, not_or]
    exact ⟨unnamed, uncounted _⟩
  . exact unnamed

theorem Spelled.legible {text : List Char} {segment : Segment} (h : Spelled text segment)
    (noSlash : '/' ∉ text) (noHash : '#' ∉ text) : segment.Legible := by
  have plain {property : List Char} (unmarked : '@' ∉ property) (within : property ⊆ text) :
      ∀ c ∈ (String.ofList property).toList, c ≠ '/' ∧ c ≠ '@' ∧ c ≠ '#' := by
    rw [String.toList_ofList]
    intro c mem
    refine ⟨?_, ?_, ?_⟩
    . rintro rfl
      exact noSlash (within mem)
    . rintro rfl
      exact unmarked mem
    . rintro rfl
      exact noHash (within mem)
  cases h with
  | property named unmarked =>
    refine ⟨by simpa using named, plain unmarked (List.Subset.refl _), ?_⟩
    intro index counted
    cases counted
  | indexed named unmarked counted =>
    refine ⟨by simpa using named, plain unmarked (List.subset_append_left _ _), ?_⟩
    intro index same
    cases same
    rcases counted with ⟨_, _, _, _, _, bounded⟩
    exact bounded

end Segment

namespace NodePath

theorem spelled_render {path : NodePath} (legible : ∀ s ∈ path.segments, s.Legible) :
    Spelled path.render path := by
  rcases path with ⟨segments⟩
  cases segments with
  | nil => exact .root
  | cons segment segments =>
    have parts : NodePath.render ⟨segment :: segments⟩ =
        ((segment :: segments).map Segment.render).flatMap ('/' :: ·) := by
      rw [List.flatMap_map]
      rfl
    rw [parts]
    apply Spelled.segments
    . simp
    . rw [List.forall_mem_map]
      intro s mem
      exact (legible s mem).not_mem_render (.inl rfl)
    . rw [List.forall₂_map_left_iff, List.forall₂_same]
      intro s mem
      exact (legible s mem).spelled_render

theorem not_mem_render {path : NodePath} (legible : ∀ s ∈ path.segments, s.Legible) :
    '#' ∉ path.render := by
  unfold render
  split
  . simp
  . intro mem
    rw [List.mem_flatMap] at mem
    rcases mem with ⟨segment, inside, mem⟩
    rw [List.mem_cons] at mem
    rcases mem with slash | mem
    . cases slash
    . exact (legible segment inside).not_mem_render (.inr rfl) mem

theorem ofText_toString (path : NodePath) (legible : ∀ s ∈ path.segments, s.Legible) :
    ofText (toString path) = .ok path := by
  have printed : (toString path).toList = path.render := String.toList_ofList
  rw [ofText_eq_ok_iff, ofChars?_eq_some_iff, printed, fragment_eq_self (not_mem_render legible)]
  exact spelled_render legible

theorem legible_child {path : NodePath} (known : ∀ s ∈ path.segments, s.Legible)
    {property : String} (contained : property = "elements" ∨ property = "features") {index : Nat}
    (bounded : index < UInt64.size) : ∀ s ∈ (path.child property index).segments, s.Legible := by
  unfold child
  rw [List.forall_mem_append, List.forall_mem_singleton]
  exact ⟨known, Segment.legible_contained contained bounded⟩

theorem legible_of_forall₂ {parts : List (List Char)} {segments : List Segment}
    (spelled : List.Forall₂ Segment.Spelled parts segments)
    (plain : ∀ part ∈ parts, '/' ∉ part ∧ '#' ∉ part) : ∀ s ∈ segments, s.Legible := by
  induction spelled with
  | nil => simp
  | cons first _ ih =>
    rw [List.forall_mem_cons] at plain ⊢
    exact ⟨first.legible plain.1.1 plain.1.2, ih plain.2⟩

theorem Spelled.legible {text : List Char} {path : NodePath} (h : Spelled text path)
    (noHash : '#' ∉ text) : ∀ s ∈ path.segments, s.Legible := by
  cases h with
  | root => simp [NodePath.root]
  | segments _ whole spelled =>
    apply legible_of_forall₂ spelled
    intro part mem
    refine ⟨whole part mem, ?_⟩
    intro inside
    apply noHash
    rw [List.mem_flatMap]
    exact ⟨part, mem, List.mem_cons_of_mem _ inside⟩

theorem legible_of_ofText {text : String} {path : NodePath} (read : ofText text = .ok path) :
    ∀ s ∈ path.segments, s.Legible := by
  rw [ofText_eq_ok_iff, ofChars?_eq_some_iff] at read
  apply read.legible
  exact ((fragment_eq_iff _ _).mp rfl).plain

/-- A path is read from some text, or else it leads from the root into lists of elements and of
features, by indexes of 64 bits. -/
inductive Arises : NodePath → Prop where
  | read {text : String} {path : NodePath} (read : ofText text = .ok path) : Arises path
  | root : Arises root
  | child {path : NodePath} {property : String} {index : Nat} (above : Arises path)
      (contained : property = "elements" ∨ property = "features")
      (bounded : index < UInt64.size) : Arises (path.child property index)

theorem Arises.legible {path : NodePath} (h : path.Arises) : ∀ s ∈ path.segments, s.Legible := by
  induction h with
  | read read => exact legible_of_ofText read
  | root => simp [NodePath.root]
  | child _ contained bounded ih => exact legible_child ih contained bounded

theorem inverse_of_arises (path other : NodePath) (arises : path.Arises)
    (arises' : other.Arises) :
    ofText (toString path) = .ok path ∧
    (toString path = toString other ↔ path = other) ∧
    ∀ document : String, ofText (document ++ "#" ++ toString path) = .ok path := by
  have back := ofText_toString path arises.legible
  have back' := ofText_toString other arises'.legible
  refine ⟨back, ?_, ?_⟩
  . constructor
    . intro alike
      rw [alike, back', Except.ok.injEq] at back
      exact back.symm
    . rintro rfl
      rfl
  . intro document
    rw [ofText_append_eq_ok_iff]
    exact back

-- An index with a sign and leading zeros, and a segment without index; the largest of all indexes.
def respelled : NodePath := ⟨[⟨"elements", some 7⟩, ⟨"name", none⟩]⟩

def lastFeature : NodePath := (root.child "elements" 7).child "features" (UInt64.size - 1)

theorem inverse_of_arises_respelled :
    respelled.Arises ∧
    lastFeature.Arises ∧
    ofText (toString respelled) = .ok respelled ∧
    (toString respelled = toString lastFeature ↔ respelled = lastFeature) ∧
    ∀ document : String, ofText (document ++ "#" ++ toString respelled) = .ok respelled := by
  have read : ofText "file:///blog.masala#/elements@+007/name" = .ok respelled := rfl
  have built : lastFeature.Arises := by
    apply Arises.child _ (.inr rfl) (by decide)
    exact .child .root (.inl rfl) (by decide)
  exact ⟨.read read, built, inverse_of_arises respelled lastFeature (.read read) built⟩

end NodePath

end DomainModel
