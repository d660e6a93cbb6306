import DomainModel.Proofs.Listing.Groups
import DomainModel.Proofs.NodePath.Printed

namespace DomainModel

namespace Text

/-- The number of lines of a text. A last line that is not ended counts if it has any characters. -/
def lineCount (text : List Char) : Nat :=
  text.count '\n' + if text.getLast?.all (· = '\n') then 0 else 1

def IsPlain (text : String) : Prop := '\n' ∉ text.toList

instance (text : String) : Decidable (IsPlain text) := inferInstanceAs (Decidable (_ ∉ _))

@[simp]
theorem isPlain_append (text other : String) :
    IsPlain (text ++ other) ↔ IsPlain text ∧ IsPlain other := by
  unfold IsPlain
  rw [String.toList_append, List.mem_append, not_or]

theorem isPlain_getD {text? : Option String} (plain : ∀ text ∈ text?, IsPlain text)
    {fallback : String} (h : IsPlain fallback) : IsPlain (text?.getD fallback) := by
  cases text? with
  | none => exact h
  | some text => exact plain text rfl

theorem isPlain_toString (n : Nat) : IsPlain (toString n) := by
  have digits : (toString n).toList = Nat.toDigits 10 n := String.toList_ofList
  unfold IsPlain
  rw [digits]
  apply Segment.not_mem_toDigits
  rfl

theorem lineCount_cons (line : String) (plain : IsPlain line) (rest : List Char) :
    lineCount (line.toList ++ '\n' :: rest) = lineCount rest + 1 := by
  unfold lineCount
  rw [List.count_append, List.count_eq_zero.mpr plain, List.count_cons_self]
  have last : (line.toList ++ '\n' :: rest).getLast?.all (· = '\n') =
      rest.getLast?.all (· = '\n') := by
    cases rest with
    | nil => simp
    | cons c rest => simp [List.getLast?_cons]
  rw [last]
  omega

theorem lineCount_join (lines : List String) (plain : ∀ line ∈ lines, IsPlain line) :
    lineCount (String.join (lines.map (· ++ "\n"))).toList = lines.length := by
  rw [String.toList_join, List.flatMap_map]
  induction lines with
  | nil => rfl
  | cons line lines ih =>
    rw [List.forall_mem_cons] at plain
    rw [List.flatMap_cons, String.toList_append, List.append_assoc, List.length_cons, ← ih plain.2]
    exact lineCount_cons line plain.1 _

end Text

open Text (IsPlain lineCount)

theorem SourcePosition.toNat_lineNumber (p : SourcePosition) :
    p.lineNumber.toNat =
      if p.line.toNat + 1 = UInt32.size then 0 else p.line.toNat + 1 := by
  have bound : p.line.toNat < UInt32.size := p.line.toNat_lt_size
  have sum : p.lineNumber.toNat = (p.line.toNat + 1) % UInt32.size := UInt32.toNat_add _ _
  rw [sum]
  split
  . next last =>
    rw [last, Nat.mod_self]
  . next before =>
    apply Nat.mod_eq_of_lt
    omega

example : (SourceRange.mk ⟨4294967295, 0⟩ ⟨4294967295, 7⟩).text = "Line 0-0" := by
  decide +kernel

theorem Severity.isPlain_name (severity : Severity) : IsPlain severity.name := by
  cases severity with
  | error | warning => decide

namespace Diagnostic

structure IsPlain (d : Diagnostic) : Prop where
  message : Text.IsPlain d.message
  source : ∀ source ∈ d.source, Text.IsPlain source
  code : ∀ code ∈ d.code, Text.IsPlain code.text
  path : ∀ path ∈ d.target.bind Target.node?, Text.IsPlain (toString path)

theorem isPlain_iff (d : Diagnostic) :
    d.IsPlain ↔
      Text.IsPlain d.message ∧ (∀ source ∈ d.source, Text.IsPlain source) ∧
      (∀ code ∈ d.code, Text.IsPlain code.text) ∧
      ∀ path ∈ d.target.bind Target.node?, Text.IsPlain (toString path) := by
  constructor
  . rintro ⟨message, source, code, path⟩
    exact ⟨message, source, code, path⟩
  . rintro ⟨message, source, code, path⟩
    exact ⟨message, source, code, path⟩

instance (d : Diagnostic) : Decidable d.IsPlain := decidable_of_iff' _ d.isPlain_iff

theorem IsPlain.target {d : Diagnostic} (h : d.IsPlain) : ∀ target ∈ d.target,
    Text.IsPlain target.text := by
  intro target known
  cases target with
  | node path =>
    apply h.path
    rw [Option.mem_def.mp known]
    rfl
  | range r =>
    unfold Target.text SourceRange.text
    simp only [Text.isPlain_append, Text.isPlain_toString, and_true]
    decide

end Diagnostic

namespace Listing

theorem length_entryLines (message : String) (entry : ListingEntry) :
    (entryLines message entry).length = 2 := by
  rfl

theorem length_groupLines (group : ListingGroup) :
    (groupLines group).length = 1 + 2 * group.entries.length := by
  have pairs : (group.entries.flatMap (entryLines group.message)).length =
      2 * group.entries.length := by
    induction group.entries with
    | nil => rfl
    | cons entry entries ih =>
      rw [List.flatMap_cons, List.length_append, length_entryLines, ih, List.length_cons]
      exact Nat.add_comm _ _
  unfold groupLines
  rw [List.length_cons, pairs, Nat.add_comm]

theorem length_lines (listing : Listing) :
    listing.lines.length = listing.size + 2 * listing.entryCount := by
  rw [entryCount_eq]
  unfold lines size
  induction listing.groups with
  | nil => rfl
  | cons group groups ih =>
    rw [List.flatMap_cons, List.length_append, length_groupLines, ih]
    rw [List.length_cons, List.map_cons, List.sum_cons]
    omega

theorem isPlain_entryLines {d : Diagnostic} (plain : d.IsPlain) :
    ∀ line ∈ entryLines d.message (entry d), IsPlain line := by
  have location : ∀ text ∈ (entry d).location, IsPlain text := by
    intro text shown
    rcases Option.map_eq_some_iff.mp shown with ⟨target, known, rfl⟩
    exact plain.target target known
  have code : ∀ text ∈ (entry d).code, IsPlain text := by
    intro text shown
    rcases Option.map_eq_some_iff.mp shown with ⟨code, known, rfl⟩
    exact plain.code code known
  have none : IsPlain "-" := by
    decide
  simp only [entryLines, List.forall_mem_cons, List.not_mem_nil, Text.isPlain_append]
  refine ⟨?_, ?_, nofun⟩
  . refine ⟨⟨⟨?_, Text.isPlain_getD location d.severity.isPlain_name⟩, ?_⟩, plain.message⟩
    . decide
    . decide
  . refine ⟨⟨⟨?_, Text.isPlain_getD plain.source none⟩, ?_⟩, Text.isPlain_getD code none⟩
    . decide
    . decide

theorem Regroups.isPlain_lines {listing : Listing} {ds : List Diagnostic}
    (h : listing.Regroups ds) (plain : ∀ d ∈ ds, d.IsPlain) :
    ∀ line ∈ listing.lines, IsPlain line := by
  unfold lines
  simp only [List.mem_flatMap]
  rintro line ⟨group, mem, inside⟩
  unfold groupLines at inside
  rw [List.mem_cons, List.mem_flatMap] at inside
  rcases inside with rfl | ⟨item, isEntry, inside⟩
  . rcases h.exists_of_mem mem with ⟨d, isDiagnostic, same⟩
    rw [← same]
    exact (plain d isDiagnostic).message
  . rw [h.entries group mem, List.mem_map] at isEntry
    rcases isEntry with ⟨d, isDiagnostic, rfl⟩
    rw [List.mem_filter, decide_eq_true_iff] at isDiagnostic
    rw [← isDiagnostic.2] at inside
    exact isPlain_entryLines (plain d isDiagnostic.1) line inside

theorem regrouped (ds : List Diagnostic) :
    let listing := ofDiagnostics ds
    listing.Regroups ds ∧
    listing.messages.Nodup ∧
    (∀ group ∈ listing.groups, group.entries ≠ []) ∧
    listing.entryCount = ds.length ∧
    listing.size = (ds.map (·.message)).toFinset.card ∧
    ((∀ d ∈ ds, d.IsPlain) →
      lineCount listing.text.toList = listing.size + 2 * listing.entryCount) := by
  have regroups := regroups_ofDiagnostics ds
  refine ⟨regroups, regroups.nodup, regroups.entries_ne_nil, entryCount_ofDiagnostics ds,
    regroups.size_eq, ?_⟩
  intro plain
  rw [← length_lines]
  exact Text.lineCount_join _ (regroups.isPlain_lines plain)

-- One message under another, of a language service and of the program, with and without a place.
def interleaved : List Diagnostic := [
  { severity := .warning, message := "m", code := some (.external "7") },
  { severity := .error, message := "n", target := some (.range ⟨⟨3, 0⟩, ⟨4, 2⟩⟩) },
  { severity := .error, message := "m", source := some "masala",
    code := some (.own .repeatedEntity),
    target := some (.node (NodePath.root.child "elements" 2)) }]

theorem regrouped_interleaved :
    (∀ d ∈ interleaved, d.IsPlain) ∧ lineCount (ofDiagnostics interleaved).text.toList = 8 := by
  have plain : ∀ d ∈ interleaved, d.IsPlain := by
    decide
  rcases regrouped interleaved with ⟨_, _, _, _, _, lines⟩
  refine ⟨plain, ?_⟩
  rw [lines plain]
  decide

end Listing

end DomainModel
