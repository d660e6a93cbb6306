import DomainModel.Proofs.Json.Scanning

namespace DomainModel.Json

/-- What was found is complete just if the scan can go on, and then it is spelled up to there. -/
def Accounts {α : Type} (said : Option α) (spelled : α → List Char → Prop) : Option Cursor → Prop
  | none => said = none
  | some next => ∃ x, said = some x ∧ spelled x next.rest

structure Faithful (budget : Nat) : Prop where
  node : ∀ c : Cursor,
    Accounts (scanNode budget c).1.term? (fun x r => ∃ t, Blanks c.rest t ∧ x.Spelled t r)
      (scanNode budget c).2
  firstItem : ∀ c : Cursor,
    Accounts (scanFirstItem budget c).1.terms?
      (fun xs r => ∃ t, Blanks c.rest t ∧ Term.ItemsSpelled xs t (']' :: r))
      (scanFirstItem budget c).2
  item : ∀ c : Cursor,
    Accounts (scanItem budget c).1.terms?
      (fun xs r => xs ≠ [] ∧ ∃ t, Blanks c.rest t ∧ Term.ItemsSpelled xs t (']' :: r))
      (scanItem budget c).2
  firstMember : ∀ c : Cursor,
    Accounts (scanFirstMember budget c).1.terms?
      (fun xs r => ∃ t, Blanks c.rest t ∧ Term.MembersSpelled xs t ('\x7d' :: r))
      (scanFirstMember budget c).2
  member : ∀ c : Cursor, c.rest.head? = some '"' →
    Accounts (scanMember budget c).1.terms?
      (fun xs r => xs ≠ [] ∧ Term.MembersSpelled xs c.rest ('\x7d' :: r)) (scanMember budget c).2

theorem rest_of_scanWord (word : List Char) (c next : Cursor)
    (found : scanWord c word = .ok next) : c.rest = word ++ next.rest := by
  induction word generalizing c with
  | nil =>
    cases found
    rfl
  | cons expected word ih =>
    rw [scanWord] at found
    split at found
    . cases found
    . next first rest same =>
      split at found
      . next known =>
        have after := ih _ found
        rw [Cursor.advance, same] at after
        rw [same, known]
        exact congrArg (expected :: ·) after
      . cases found

theorem accounts_scanConstant (c : Cursor) (word : List Char) (node : Nat → Node) (x : Term)
    (said : ∀ stop, (node stop).term? = some x)
    (spelled : ∀ r, c.rest = word ++ r → x.Spelled c.rest r) :
    Accounts (scanConstant c word node).1.term? (fun x r => x.Spelled c.rest r)
      (scanConstant c word node).2 := by
  unfold scanConstant
  cases found : scanWord c word with
  | error fault => rfl
  | ok next => exact ⟨x, said next.offset, spelled next.rest (rest_of_scanWord word c next found)⟩

theorem Accounts.imp {α : Type} {said : Option α} {spelled spelled' : α → List Char → Prop}
    {next : Option Cursor} (h : Accounts said spelled next)
    (imp : ∀ x r, spelled x r → spelled' x r) : Accounts said spelled' next := by
  cases next with
  | none => exact h
  | some next =>
    rcases h with ⟨x, known, found⟩
    exact ⟨x, known, imp x next.rest found⟩

theorem Faithful.node_succ {budget : Nat} (h : Faithful budget) (c : Cursor) :
    Accounts (scanNode (budget + 1) c).1.term?
      (fun x r => ∃ t, Blanks c.rest t ∧ x.Spelled t r) (scanNode (budget + 1) c).2 := by
  rw [scanNode]
  have blanks := blanks_skipBlanks c
  generalize c.skipBlanks = skipped at blanks ⊢
  rcases skipped with ⟨offset, t⟩
  dsimp only at blanks ⊢
  have found {said : Option Term} {next : Option Cursor}
      (spelled : Accounts said (fun x r => x.Spelled t r) next) :
      Accounts said (fun x r => ∃ t, Blanks c.rest t ∧ x.Spelled t r) next :=
    spelled.imp fun x r spelled => ⟨t, blanks, spelled⟩
  split
  . rfl
  . apply found
    apply accounts_scanConstant _ _ _ .null
    . exact fun stop => rfl
    . exact fun r same => same
  . apply found
    apply accounts_scanConstant _ _ _ (.bool true)
    . exact fun stop => rfl
    . exact fun r same => same
  . apply found
    apply accounts_scanConstant _ _ _ (.bool false)
    . exact fun stop => rfl
    . exact fun r same => same
  . next u =>
    apply found
    cases closed : scanString (offset + 1) {} u with
    | broken flaw fault => rfl
    | closed text flaw next =>
      exact ⟨_, rfl, stringSpelled_of_scanString _ u text flaw next closed⟩
  . next u =>
    apply found
    have inner := h.firstItem ⟨offset + 1, u⟩
    change Accounts (Node.term? (.array offset (scanFirstItem budget ⟨offset + 1, u⟩).1)) _
      (scanFirstItem budget ⟨offset + 1, u⟩).2
    cases after : (scanFirstItem budget ⟨offset + 1, u⟩).2 with
    | none =>
      rw [after] at inner
      change Option.map _ _ = none
      rw [inner]
      rfl
    | some next =>
      rw [after] at inner
      rcases inner with ⟨items, said, v, blanks, spelled⟩
      refine ⟨.array items, ?_, u, v, rfl, blanks, spelled⟩
      rw [Node.term?, said]
      rfl
  . next u =>
    apply found
    have inner := h.firstMember ⟨offset + 1, u⟩
    change Accounts (Node.term? (.object offset (scanFirstMember budget ⟨offset + 1, u⟩).1)) _
      (scanFirstMember budget ⟨offset + 1, u⟩).2
    cases after : (scanFirstMember budget ⟨offset + 1, u⟩).2 with
    | none =>
      rw [after] at inner
      change Option.map _ _ = none
      rw [inner]
      rfl
    | some next =>
      rw [after] at inner
      rcases inner with ⟨members, said, v, blanks, spelled⟩
      refine ⟨.object members, ?_, u, v, rfl, blanks, spelled⟩
      rw [Node.term?, said]
      rfl
  . next first u _ _ _ _ _ _ =>
    apply found
    split
    . cases scanned : Literal.scan ⟨offset, first :: u⟩ with
      | error fault => rfl
      | ok result =>
        rcases result with ⟨literal, next⟩
        rcases Literal.rest_of_scan _ next literal scanned with ⟨text, written, same⟩
        exact ⟨_, rfl, literal, text, written, rfl, same⟩
    . rfl

theorem Faithful.firstItem_succ {budget : Nat} (h : Faithful budget) (c : Cursor) :
    Accounts (scanFirstItem (budget + 1) c).1.terms?
      (fun xs r => ∃ t, Blanks c.rest t ∧ Term.ItemsSpelled xs t (']' :: r))
      (scanFirstItem (budget + 1) c).2 := by
  rw [scanFirstItem]
  have blanks := blanks_skipBlanks c
  generalize c.skipBlanks = skipped at blanks ⊢
  rcases skipped with ⟨offset, t⟩
  dsimp only at blanks ⊢
  split
  . rfl
  . exact ⟨[], rfl, _, blanks, rfl⟩
  . apply (h.item ⟨offset, t⟩).imp
    rintro xs r ⟨_, u, more, spelled⟩
    exact ⟨u, blanks.trans more, spelled⟩

theorem Faithful.item_succ {budget : Nat} (h : Faithful budget) (c : Cursor) :
    Accounts (scanItem (budget + 1) c).1.terms?
      (fun xs r => xs ≠ [] ∧ ∃ t, Blanks c.rest t ∧ Term.ItemsSpelled xs t (']' :: r))
      (scanItem (budget + 1) c).2 := by
  have first := h.node c
  rw [scanItem]
  generalize scanNode budget c = result at first ⊢
  rcases result with ⟨node, next⟩
  cases next with
  | none =>
    change node.term? = none at first
    change Items.terms? _ = none
    rw [Items.terms?, first]
    rfl
  | some next =>
    rcases first with ⟨x, said, t, blanks, spelled⟩
    dsimp only at said ⊢
    -- Whatever goes wrong after the item, there is no term for the items.
    have broken (finish : Nat) (fault : Fault) :
        (Items.item node finish (.broken fault)).terms? = none := by
      rw [Items.terms?, said]
      rfl
    have blanks' := blanks_skipBlanks next
    generalize next.skipBlanks = skipped at blanks' ⊢
    rcases skipped with ⟨offset, u⟩
    dsimp only at blanks' ⊢
    split
    . apply broken
    . next r =>
      refine ⟨[x], ?_, List.cons_ne_nil x [], t, blanks, next.rest, spelled, blanks'⟩
      rw [Items.terms?, said]
      rfl
    . next v =>
      dsimp only [Cursor.advance, List.drop]
      have blanks'' := blanks_skipBlanks ⟨offset + 1, v⟩
      generalize Cursor.skipBlanks ⟨offset + 1, v⟩ = skipped at blanks'' ⊢
      rcases skipped with ⟨after, w⟩
      dsimp only at blanks'' ⊢
      split
      . apply broken
      . apply broken
      . have more := h.item ⟨after, w⟩
        generalize scanItem budget ⟨after, w⟩ = result at more ⊢
        rcases result with ⟨items, stop⟩
        cases stop with
        | none =>
          change items.terms? = none at more
          change Items.terms? _ = none
          rw [Items.terms?, said, more]
          rfl
        | some stop =>
          rcases more with ⟨xs, saidMore, nonempty, p, blanksMore, spelledMore⟩
          cases xs with
          | nil => exact absurd rfl nonempty
          | cons y xs =>
            refine ⟨x :: y :: xs, ?_, List.cons_ne_nil x _, t, blanks, next.rest, v, p, spelled,
              blanks', blanks''.trans blanksMore, spelledMore⟩
            rw [Items.terms?, said, saidMore]
            rfl
    . apply broken

theorem Faithful.firstMember_succ {budget : Nat} (h : Faithful budget) (c : Cursor) :
    Accounts (scanFirstMember (budget + 1) c).1.terms?
      (fun xs r => ∃ t, Blanks c.rest t ∧ Term.MembersSpelled xs t ('\x7d' :: r))
      (scanFirstMember (budget + 1) c).2 := by
  rw [scanFirstMember]
  have blanks := blanks_skipBlanks c
  generalize c.skipBlanks = skipped at blanks ⊢
  rcases skipped with ⟨offset, t⟩
  dsimp only at blanks ⊢
  split
  . rfl
  . exact ⟨[], rfl, _, blanks, rfl⟩
  . next u =>
    apply (h.member ⟨offset, '"' :: u⟩ rfl).imp
    rintro xs r ⟨_, spelled⟩
    exact ⟨_, blanks, spelled⟩
  . rfl

theorem terms?_member_broken (key : Key) (node : Node) (finish : Nat) (flaw : Option Fault)
    (fault : Fault) : (Members.member key node finish (.broken flaw fault)).terms? = none := by
  rw [Members.terms?]
  cases node.term? with
  | none => rfl
  | some x => rfl

theorem Faithful.member_succ {budget : Nat} (h : Faithful budget) (c : Cursor)
    (quote : c.rest.head? = some '"') :
    Accounts (scanMember (budget + 1) c).1.terms?
      (fun xs r => xs ≠ [] ∧ Term.MembersSpelled xs c.rest ('\x7d' :: r))
      (scanMember (budget + 1) c).2 := by
  rcases c with ⟨offset, t⟩
  cases t with
  | nil => cases quote
  | cons d t =>
    cases quote
    rw [scanMember]
    dsimp only [List.drop]
    cases closed : scanString (offset + 1) {} t with
    | broken flaw fault => rfl
    | closed text flaw named =>
      have name := stringSpelled_of_scanString _ _ text flaw named closed
      dsimp only
      have keyed : Key.text? ⟨text, flaw, named.offset, closeObject named⟩ = unflawed text flaw :=
        rfl
      generalize (⟨text, flaw, named.offset, closeObject named⟩ : Key) = key at keyed ⊢
      have blanks := blanks_skipBlanks named
      generalize named.skipBlanks = skipped at blanks ⊢
      rcases skipped with ⟨colon, u⟩
      dsimp only at blanks ⊢
      split
      . apply terms?_member_broken
      . next v =>
        dsimp only [Cursor.advance, List.drop]
        have value := h.node ⟨colon + 1, v⟩
        generalize scanNode budget ⟨colon + 1, v⟩ = result at value ⊢
        rcases result with ⟨node, next⟩
        cases next with
        | none => apply terms?_member_broken
        | some next =>
          rcases value with ⟨x, said, w, blanks', spelled⟩
          dsimp only at said ⊢
          have blanks'' := blanks_skipBlanks next
          generalize next.skipBlanks = skipped at blanks'' ⊢
          rcases skipped with ⟨finish, p⟩
          dsimp only at blanks'' ⊢
          split
          . apply terms?_member_broken
          . next r =>
            refine ⟨[(unflawed text flaw, x)], ?_, List.cons_ne_nil _ [], named.rest, v, w,
              next.rest, name, blanks, blanks', spelled, blanks''⟩
            rw [Members.terms?, said, keyed]
            rfl
          . next q =>
            dsimp only [List.drop]
            have comma := blanks_skipBlanks ⟨finish + 1, q⟩
            generalize Cursor.skipBlanks ⟨finish + 1, q⟩ = skipped at comma ⊢
            rcases skipped with ⟨after, s⟩
            dsimp only at comma ⊢
            split
            . apply terms?_member_broken
            . next k =>
              have more := h.member ⟨after, '"' :: k⟩ rfl
              generalize scanMember budget ⟨after, '"' :: k⟩ = result at more ⊢
              rcases result with ⟨members, stop⟩
              cases stop with
              | none =>
                change members.terms? = none at more
                change Members.terms? _ = none
                rw [Members.terms?, said, more]
                rfl
              | some stop =>
                rcases more with ⟨xs, saidMore, nonempty, spelledMore⟩
                cases xs with
                | nil => exact absurd rfl nonempty
                | cons member xs =>
                  refine ⟨(unflawed text flaw, x) :: member :: xs, ?_, List.cons_ne_nil _ _,
                    named.rest, v, w, next.rest, q, '"' :: k, name, blanks, blanks', spelled,
                    blanks'', comma, spelledMore⟩
                  rw [Members.terms?, said, saidMore, keyed]
                  rfl
            . apply terms?_member_broken
            . apply terms?_member_broken
          . apply terms?_member_broken
      . apply terms?_member_broken

theorem faithful (budget : Nat) : Faithful budget := by
  induction budget with
  | zero =>
    refine ⟨fun c => ?_, fun c => ?_, fun c => ?_, fun c => ?_, fun c _ => ?_⟩
    . rw [scanNode]; rfl
    . rw [scanFirstItem]; rfl
    . rw [scanItem]; rfl
    . rw [scanFirstMember]; rfl
    . rw [scanMember]; rfl
  | succ budget ih =>
    exact ⟨ih.node_succ, ih.firstItem_succ, ih.item_succ, ih.firstMember_succ, ih.member_succ⟩

theorem term?_scan_eq_some_iff (text : List Char) (x : Term) :
    (scan text).term? = some x ↔ x.SpelledBy text := by
  unfold scan
  constructor
  . have found := (faithful (3 * text.length + 3)).node (.ofText text)
    generalize scanNode (3 * text.length + 3) (.ofText text) = result at found ⊢
    rcases result with ⟨root, next⟩
    cases next with
    | none =>
      change root.term? = none at found
      intro said
      change root.term? = some x at said
      rw [found] at said
      cases said
    | some next =>
      rcases found with ⟨y, known, t, blanks, spelled⟩
      have blanks' := blanks_skipBlanks next
      dsimp only
      generalize next.skipBlanks = skipped at blanks' ⊢
      rcases skipped with ⟨offset, r⟩
      -- Nothing but blanks may follow the root.
      cases r with
      | nil =>
        intro said
        change root.term? = some x at said
        change root.term? = some y at known
        rw [known] at said
        cases said
        exact ⟨t, next.rest, blanks, spelled, blanks'⟩
      | cons c r =>
        intro said
        cases said
  . rintro ⟨t, r, blanks, spelled, blanks'⟩
    rcases scanNode_of_spelled x (3 * text.length + 3) (.ofText text) t r blanks spelled
        (blanks'.endsNumber endsNumber_nil) (by dsimp only [Cursor.ofText]; omega) with
      ⟨root, next, scanned, said⟩
    rcases skipBlanks_eq ⟨next, r⟩ [] blanks' (by simp) with ⟨stop, skipped⟩
    simp only [scanned, skipped]
    exact said

theorem Term.SpelledBy.unique {x y : Term} {text : List Char} (h : x.SpelledBy text)
    (h' : y.SpelledBy text) : x = y := by
  rw [← term?_scan_eq_some_iff] at h h'
  rw [h] at h'
  exact Option.some.inj h'

end DomainModel.Json
