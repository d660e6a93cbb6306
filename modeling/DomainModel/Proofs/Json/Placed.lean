import DomainModel.Json.Record
import DomainModel.Proofs.Json.Basic
import DomainModel.Proofs.Json.Strings

/-!
Faults have places. A scan knows where each fault of a text is, and reading keeps these places; a
fault that is only noticed after a value was read is settled where the value ends. So no record is
refused without a place.
-/

namespace DomainModel.Json

def Fault.IsPlaced (fault : Fault) : Prop := fault.offset.isSome = true

def FailsPlaced {α : Type} (x : Except Fault α) : Prop := ∀ fault, x = .error fault → fault.IsPlaced

namespace FailsPlaced

theorem ok {α : Type} (a : α) : FailsPlaced (.ok a) := by
  intro fault failed
  cases failed

theorem error {α : Type} {fault : Fault} (placed : fault.IsPlaced) :
    FailsPlaced (.error fault : Except Fault α) := by
  intro other failed
  cases failed
  exact placed

theorem bind {α β : Type} {x : Except Fault α} {f : α → Except Fault β} (first : FailsPlaced x)
    (next : ∀ a, x = .ok a → FailsPlaced (f a)) : FailsPlaced (x >>= f) := by
  cases x with
  | error fault => exact error (first fault rfl)
  | ok a => exact next a rfl

theorem settle {α : Type} (offset : Nat) (x : Except Fault α) :
    FailsPlaced (Json.settle offset x) := by
  cases x with
  | error fault => exact error rfl
  | ok a => exact ok a

end FailsPlaced

def FlawPlaced (flaw : Option Fault) : Prop := ∀ fault ∈ flaw, fault.IsPlaced

mutual

def Node.IsPlaced : Node → Prop
  | .string _ _ _ flaw => FlawPlaced flaw
  | .array _ items => items.IsPlaced
  | .object _ members => members.IsPlaced
  | .brokenString _ flaw fault => FlawPlaced flaw ∧ fault.IsPlaced
  | .broken _ fault => fault.IsPlaced
  | _ => True
termination_by structural node => node

def Items.IsPlaced : Items → Prop
  | .closed _ => True
  | .broken fault => fault.IsPlaced
  | .item node _ more => node.IsPlaced ∧ more.IsPlaced
termination_by structural items => items

def Members.IsPlaced : Members → Prop
  | .closed _ => True
  | .broken flaw fault => FlawPlaced flaw ∧ fault.IsPlaced
  | .member key node _ more => FlawPlaced key.flaw ∧ node.IsPlaced ∧ more.IsPlaced
termination_by structural members => members

end

theorem FlawPlaced.none : FlawPlaced none := by
  intro fault mem
  cases mem

theorem FlawPlaced.orElse {flaw : Option Fault} (placed : FlawPlaced flaw) (offset : Nat)
    (cause : Cause) : FlawPlaced (flaw <|> some (.atOffset offset cause)) := by
  cases flaw with
  | none =>
    intro fault mem
    cases mem
    rfl
  | some flaw => exact placed

theorem FlawPlaced.getD {flaw : Option Fault} (placed : FlawPlaced flaw) {fault : Fault}
    (h : fault.IsPlaced) : (flaw.getD fault).IsPlaced := by
  cases flaw with
  | none => exact h
  | some flaw => exact placed flaw rfl

namespace StringState

theorem flawPlaced_giveUp {s : StringState} (placed : FlawPlaced s.flaw) (offset : Nat)
    (cause : Cause) : FlawPlaced (s.giveUp offset cause).flaw := by
  unfold giveUp
  split
  . exact placed
  . exact placed.orElse offset cause

theorem flawPlaced_fresh {s : StringState} (placed : FlawPlaced s.flaw) (offset unit : Nat) :
    FlawPlaced (pushUnit.fresh offset unit s).flaw := by
  unfold pushUnit.fresh
  split
  . exact placed
  . split
    . exact placed.orElse offset _
    . exact placed

theorem flawPlaced_pushUnit {s : StringState} (placed : FlawPlaced s.flaw) (offset unit : Nat) :
    FlawPlaced (s.pushUnit offset unit).flaw := by
  unfold pushUnit
  split
  . split
    . exact placed
    . apply flawPlaced_fresh
      exact flawPlaced_giveUp placed offset _
  . exact flawPlaced_fresh placed offset unit

end StringState

def ScannedString.IsPlaced : ScannedString → Prop
  | .closed _ flaw _ => FlawPlaced flaw
  | .broken flaw fault => FlawPlaced flaw ∧ fault.IsPlaced

theorem isPlaced_scanString (offset : Nat) (s : StringState) (t : List Char)
    (placed : FlawPlaced s.flaw) : (scanString offset s t).IsPlaced := by
  fun_induction scanString offset s t with
  | case1 => exact ⟨placed, rfl⟩
  | case2 => exact ⟨placed, rfl⟩
  | case3 offset s a b c d rest unit known ih =>
    apply ih
    exact StringState.flawPlaced_pushUnit placed _ _
  | case4 => exact ⟨placed, rfl⟩
  | case5 => exact ⟨placed, rfl⟩
  | case6 => exact ⟨placed, rfl⟩
  | case7 offset s e rest _ notUnit c known ih =>
    apply ih
    exact StringState.flawPlaced_giveUp placed _ _
  | case8 => exact ⟨StringState.flawPlaced_giveUp placed _ _, rfl⟩
  | case9 => exact StringState.flawPlaced_giveUp placed _ _
  | case10 => exact ⟨StringState.flawPlaced_giveUp placed _ _, rfl⟩
  | case11 offset s c rest noEscape _ noQuote visible ih =>
    apply ih
    exact StringState.flawPlaced_giveUp placed _ _

theorem failsPlaced_scanWord (word : List Char) (c : Cursor) : FailsPlaced (scanWord c word) := by
  induction word generalizing c with
  | nil => exact .ok c
  | cons expected word ih =>
    rw [scanWord]
    split
    . exact .error rfl
    . split
      . apply ih
      . exact .error rfl

theorem isPlaced_scanConstant (c : Cursor) (word : List Char) (node : Nat → Node)
    (placed : ∀ stop, (node stop).IsPlaced) : (scanConstant c word node).1.IsPlaced := by
  unfold scanConstant
  have word := failsPlaced_scanWord word c
  split
  . apply placed
  . next fault failed => exact word fault failed

namespace Literal

theorem isPlaced_missingDigit (c : Cursor) : (missingDigit c).IsPlaced := by
  unfold missingDigit
  split
  . rfl
  . rfl

theorem failsPlaced_scanWhole (c : Cursor) : FailsPlaced (scanWhole c) := by
  unfold scanWhole
  split
  . split
    . exact .error rfl
    . exact .ok _
  . split
    . exact .error (isPlaced_missingDigit c)
    . exact .ok _

theorem failsPlaced_scanFraction (c : Cursor) : FailsPlaced (scanFraction c) := by
  unfold scanFraction
  split
  . split
    . exact .error (isPlaced_missingDigit _)
    . exact .ok _
  . exact .ok _

theorem failsPlaced_scanExponent (c : Cursor) : FailsPlaced (scanExponent c) := by
  have digits (negative : Bool) (c : Cursor) :
      FailsPlaced (scanExponent.exponentDigits negative c) := by
    unfold scanExponent.exponentDigits
    split
    . exact .error (isPlaced_missingDigit c)
    . exact .ok _
  unfold scanExponent
  split
  . apply digits
  . apply digits
  . apply digits
  . apply digits
  . apply digits
  . apply digits
  . exact .ok _

theorem failsPlaced_scan (c : Cursor) : FailsPlaced (scan c) := by
  apply FailsPlaced.bind (failsPlaced_scanWhole _)
  intro whole _
  apply FailsPlaced.bind (failsPlaced_scanFraction _)
  intro fraction _
  apply FailsPlaced.bind (failsPlaced_scanExponent _)
  intro exponent _
  exact .ok _

theorem failsPlaced_number (literal : Literal) : FailsPlaced literal.number := by
  have fractional (significand leftOut : Nat) :
      FailsPlaced (literal.fractional significand leftOut) := by
    unfold fractional
    dsimp only
    split
    . split
      . exact .ok _
      . exact .error rfl
    . split
      . exact .error rfl
      . exact .ok _
  unfold number
  dsimp only
  split
  . split
    . exact .ok _
    . split
      . exact .ok _
      . exact .ok _
  . apply fractional

end Literal

structure Placing (budget : Nat) : Prop where
  node : ∀ c, (scanNode budget c).1.IsPlaced
  firstItem : ∀ c, (scanFirstItem budget c).1.IsPlaced
  item : ∀ c, (scanItem budget c).1.IsPlaced
  firstMember : ∀ c, (scanFirstMember budget c).1.IsPlaced
  member : ∀ c, (scanMember budget c).1.IsPlaced

theorem Placing.node_succ {budget : Nat} (h : Placing budget) (c : Cursor) :
    (scanNode (budget + 1) c).1.IsPlaced := by
  rw [scanNode]
  dsimp only
  split
  . rfl
  . apply isPlaced_scanConstant
    exact fun _ => trivial
  . apply isPlaced_scanConstant
    exact fun _ => trivial
  . apply isPlaced_scanConstant
    exact fun _ => trivial
  . next rest _ =>
    have string := isPlaced_scanString (c.skipBlanks.offset + 1) {} rest .none
    generalize scanString (c.skipBlanks.offset + 1) {} rest = scanned at string ⊢
    cases scanned with
    | closed text flaw next => exact string
    | broken flaw fault => exact string
  . exact h.firstItem _
  . exact h.firstMember _
  . split
    . have number := Literal.failsPlaced_scan c.skipBlanks
      split
      . trivial
      . next fault failed => exact number fault failed
    . rfl

theorem Placing.firstItem_succ {budget : Nat} (h : Placing budget) (c : Cursor) :
    (scanFirstItem (budget + 1) c).1.IsPlaced := by
  rw [scanFirstItem]
  split
  . rfl
  . trivial
  . apply h.item

theorem Placing.item_succ {budget : Nat} (h : Placing budget) (c : Cursor) :
    (scanItem (budget + 1) c).1.IsPlaced := by
  have node := h.node c
  rw [scanItem]
  generalize scanNode budget c = result at node ⊢
  rcases result with ⟨found, next⟩
  cases next with
  | none => exact ⟨node, rfl⟩
  | some next =>
    dsimp only
    split
    . exact ⟨node, rfl⟩
    . exact ⟨node, trivial⟩
    . split
      . exact ⟨node, rfl⟩
      . exact ⟨node, rfl⟩
      . exact ⟨node, h.item _⟩
    . exact ⟨node, rfl⟩

theorem Placing.firstMember_succ {budget : Nat} (h : Placing budget) (c : Cursor) :
    (scanFirstMember (budget + 1) c).1.IsPlaced := by
  rw [scanFirstMember]
  split
  . exact ⟨.none, rfl⟩
  . trivial
  . apply h.member
  . exact ⟨.none, rfl⟩

theorem Placing.member_succ {budget : Nat} (h : Placing budget) (c : Cursor) :
    (scanMember (budget + 1) c).1.IsPlaced := by
  have key := isPlaced_scanString (c.offset + 1) {} (c.rest.drop 1) .none
  rw [scanMember]
  generalize scanString (c.offset + 1) {} (c.rest.drop 1) = scanned at key ⊢
  cases scanned with
  | broken flaw fault => exact key
  | closed text flaw named =>
    dsimp only
    split
    . exact ⟨key, rfl, .none, rfl⟩
    . have node := h.node (named.skipBlanks.advance 1)
      generalize scanNode budget (named.skipBlanks.advance 1) = result at node ⊢
      rcases result with ⟨found, next⟩
      cases next with
      | none => exact ⟨key, node, .none, rfl⟩
      | some next =>
        dsimp only
        split
        . exact ⟨key, node, .none, rfl⟩
        . exact ⟨key, node, trivial⟩
        . split
          . exact ⟨key, node, .none, rfl⟩
          . exact ⟨key, node, h.member _⟩
          . exact ⟨key, node, .none, rfl⟩
          . exact ⟨key, node, .none, rfl⟩
        . exact ⟨key, node, .none, rfl⟩
    . exact ⟨key, rfl, .none, rfl⟩

theorem placing (budget : Nat) : Placing budget := by
  induction budget with
  | zero =>
    refine ⟨fun c => ?_, fun c => ?_, fun c => ?_, fun c => ?_, fun c => ?_⟩
    . rw [scanNode]; rfl
    . rw [scanFirstItem]; rfl
    . rw [scanItem]; rfl
    . rw [scanFirstMember]; exact ⟨.none, rfl⟩
    . rw [scanMember]; exact ⟨.none, rfl⟩
  | succ budget ih =>
    exact ⟨ih.node_succ, ih.firstItem_succ, ih.item_succ, ih.firstMember_succ, ih.member_succ⟩

theorem isPlaced_scan (text : List Char) :
    (scan text).root.IsPlaced ∧ FlawPlaced (scan text).trailing := by
  have root := (placing (3 * text.length + 3)).node (.ofText text)
  unfold scan
  generalize scanNode (3 * text.length + 3) (.ofText text) = result at root ⊢
  rcases result with ⟨root, next⟩
  cases next with
  | none => exact ⟨root, .none⟩
  | some next =>
    dsimp only
    split
    . exact ⟨root, .none⟩
    . refine ⟨root, ?_⟩
      intro fault mem
      cases mem
      rfl

theorem Fault.isPlaced_skipped {fault : Fault} (placed : fault.IsPlaced) :
    fault.skipped.IsPlaced := by
  unfold skipped
  split
  . rw [IsPlaced, Option.isSome_map]
    exact placed
  . exact placed

theorem Key.failsPlaced_read {key : Key} (placed : FlawPlaced key.flaw) : FailsPlaced key.read := by
  unfold read
  split
  . next flaw found => exact .error (placed flaw found)
  . exact .ok _

mutual

theorem Node.failsPlaced_skip (node : Node) (placed : node.IsPlaced) : FailsPlaced node.skip := by
  cases node with
  | null _ _ | bool _ _ _ | number _ _ | string _ _ _ _ => exact .ok ()
  | array start items => exact items.failsPlaced_skip placed
  | object start members => exact members.failsPlaced_skip placed
  | brokenString start flaw fault => exact .error (Fault.isPlaced_skipped placed.2)
  | broken start fault => exact .error (Fault.isPlaced_skipped placed)
termination_by structural node

theorem Items.failsPlaced_skip (items : Items) (placed : items.IsPlaced) :
    FailsPlaced items.skip := by
  cases items with
  | closed stop => exact .ok ()
  | broken fault => exact .error (Fault.isPlaced_skipped placed)
  | item node finish more =>
    apply FailsPlaced.bind (node.failsPlaced_skip placed.1)
    exact fun _ _ => more.failsPlaced_skip placed.2
termination_by structural items

theorem Members.failsPlaced_skip (members : Members) (placed : members.IsPlaced) :
    FailsPlaced members.skip := by
  cases members with
  | closed stop => exact .ok ()
  | broken flaw fault => exact .error (Fault.isPlaced_skipped placed.2)
  | member key node finish more =>
    apply FailsPlaced.bind (node.failsPlaced_skip placed.2.1)
    exact fun _ _ => more.failsPlaced_skip placed.2.2
termination_by structural members

end

theorem Node.isPlaced_mismatch (node : Node) (placed : node.IsPlaced) (expected : String) :
    (node.mismatch expected).IsPlaced := by
  cases node with
  | null _ _ | bool _ _ _ | array _ _ | object _ _ => rfl
  | number start literal =>
    have number := literal.failsPlaced_number
    dsimp only [mismatch]
    split
    . rfl
    . next fault failed => exact number fault failed
  | string start stop text flaw =>
    cases flaw with
    | none => rfl
    | some flaw => exact placed flaw rfl
  | brokenString start flaw fault => exact placed.1.getD placed.2
  | broken start fault => exact placed

namespace Record

variable {α : Type} (record : Record Node α)

theorem failsPlaced_ofNodeMembers (members : Members) (placed : members.IsPlaced)
    (slots : record.s) : FailsPlaced (record.ofNodeMembers members slots) := by
  cases members with
  | closed stop => exact FailsPlaced.ok (slots, stop)
  | broken flaw fault => exact FailsPlaced.error (placed.1.getD placed.2)
  | member key node finish more =>
    rw [ofNodeMembers]
    apply FailsPlaced.bind (Key.failsPlaced_read placed.1)
    intro name _
    split
    . apply FailsPlaced.bind (node.failsPlaced_skip placed.2.1)
      exact fun _ _ => failsPlaced_ofNodeMembers more placed.2.2 slots
    . split
      . exact FailsPlaced.error rfl
      . apply FailsPlaced.bind (.settle finish _)
        exact fun slots _ => failsPlaced_ofNodeMembers more placed.2.2 slots
termination_by structural members

theorem failsPlaced_fillNodeItems {τ s : Type} (fields : Fields Node τ s) (index : Nat)
    (items : Items) (placed : items.IsPlaced) :
    FailsPlaced (record.fillNodeItems index fields items) := by
  induction fields generalizing index items with
  | nil => exact .ok _
  | cons field rest ih =>
    cases items with
    | broken fault => exact .error placed
    | closed stop =>
      rw [fillNodeItems]
      split
      . exact .error rfl
      . apply FailsPlaced.bind (ih (index + 1) (.closed stop) trivial)
        exact fun _ _ => .ok _
    | item node finish more =>
      rw [fillNodeItems]
      apply FailsPlaced.bind (.settle finish _)
      intro value _
      apply FailsPlaced.bind (ih (index + 1) more placed.2)
      exact fun _ _ => .ok _

theorem isPlaced_of_fillNodeItems {τ s : Type} (fields : Fields Node τ s) (index : Nat)
    (items rest : Items) (placed : items.IsPlaced) (values : τ)
    (filled : record.fillNodeItems index fields items = .ok (values, rest)) : rest.IsPlaced := by
  induction fields generalizing index items with
  | nil =>
    cases filled
    exact placed
  | cons field fields ih =>
    rcases values with ⟨value, values⟩
    cases items with
    | broken fault => cases filled
    | closed stop =>
      rw [fillNodeItems] at filled
      split at filled
      . cases filled
      . rw [bind_eq_ok_iff] at filled
        rcases filled with ⟨⟨others, left⟩, others_filled, same⟩
        cases same
        exact ih (index + 1) (.closed stop) trivial values others_filled
    | item node finish more =>
      rw [fillNodeItems, bind_eq_ok_iff] at filled
      rcases filled with ⟨_, _, filled⟩
      rw [bind_eq_ok_iff] at filled
      rcases filled with ⟨⟨others, left⟩, others_filled, same⟩
      cases same
      exact ih (index + 1) more placed.2 values others_filled

theorem failsPlaced_ofNode (node : Node) (placed : node.IsPlaced) :
    FailsPlaced (record.ofNode node) := by
  cases node with
  | object start members =>
    apply FailsPlaced.bind (record.failsPlaced_ofNodeMembers members placed record.fields.empty)
    rintro ⟨slots, stop⟩ _
    apply FailsPlaced.bind (.settle stop _)
    exact fun _ _ => .ok _
  | array start items =>
    apply FailsPlaced.bind (record.failsPlaced_fillNodeItems record.fields 0 items placed)
    rintro ⟨values, rest⟩ filled
    have left := record.isPlaced_of_fillNodeItems record.fields 0 items rest placed values filled
    cases rest with
    | closed stop => exact .ok _
    | broken fault => exact .error left
    | item node finish more => exact .error rfl
  | null _ _ | bool _ _ _ | number _ _ | string _ _ _ _ | brokenString _ _ _ | broken _ _ =>
    exact .error (Node.isPlaced_mismatch _ placed _)

end Record

theorem exists_place_of_decode {α : Type} (read : Node → Except Fault α)
    (placed : ∀ node, node.IsPlaced → FailsPlaced (read node)) (text : String) (error : Error)
    (failed : decode read text = .error error) :
    ∃ offset, error.place = Place.ofOffset text.toList offset := by
  rcases isPlaced_scan text.toList with ⟨root, trailing⟩
  have whole : FailsPlaced ((scan text.toList).read read) := by
    unfold Tree.read
    apply FailsPlaced.bind (placed _ root)
    intro a _
    split
    . next fault found => exact .error (trailing fault found)
    . exact .ok a
  unfold decode at failed
  split at failed
  . cases failed
  . next fault refused =>
    cases failed
    rcases fault with ⟨cause, offset⟩
    cases offset with
    | none => cases whole _ refused
    | some offset => exact ⟨offset, rfl⟩

end DomainModel.Json
