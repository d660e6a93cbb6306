import DomainModel.Proofs.Json.Spelling

namespace DomainModel.Json

theorem scanNode_null (budget : Nat) (c : Cursor) (offset : Nat) (r : List Char)
    (skipped : c.skipBlanks = ⟨offset, ['n', 'u', 'l', 'l'] ++ r⟩) :
    scanNode (budget + 1) c = (.null offset (offset + 4), some ⟨offset + 4, r⟩) := by
  rw [scanNode, skipped]
  rfl

theorem scanNode_true (budget : Nat) (c : Cursor) (offset : Nat) (r : List Char)
    (skipped : c.skipBlanks = ⟨offset, ['t', 'r', 'u', 'e'] ++ r⟩) :
    scanNode (budget + 1) c = (.bool offset (offset + 4) true, some ⟨offset + 4, r⟩) := by
  rw [scanNode, skipped]
  rfl

theorem scanNode_false (budget : Nat) (c : Cursor) (offset : Nat) (r : List Char)
    (skipped : c.skipBlanks = ⟨offset, ['f', 'a', 'l', 's', 'e'] ++ r⟩) :
    scanNode (budget + 1) c = (.bool offset (offset + 5) false, some ⟨offset + 5, r⟩) := by
  rw [scanNode, skipped]
  rfl

theorem scanNode_string (budget : Nat) (c : Cursor) (offset : Nat) (u : List Char) (text : String)
    (flaw : Option Fault) (next : Cursor) (skipped : c.skipBlanks = ⟨offset, '"' :: u⟩)
    (closed : scanString (offset + 1) {} u = .closed text flaw next) :
    scanNode (budget + 1) c = (.string offset next.offset text flaw, some next) := by
  simp only [scanNode, skipped, closed]

theorem scanNode_array (budget : Nat) (c : Cursor) (offset : Nat) (u : List Char)
    (skipped : c.skipBlanks = ⟨offset, '[' :: u⟩) :
    scanNode (budget + 1) c =
      (.array offset (scanFirstItem budget ⟨offset + 1, u⟩).1,
        (scanFirstItem budget ⟨offset + 1, u⟩).2) := by
  rw [scanNode, skipped]
  rfl

theorem scanNode_object (budget : Nat) (c : Cursor) (offset : Nat) (u : List Char)
    (skipped : c.skipBlanks = ⟨offset, '\x7b' :: u⟩) :
    scanNode (budget + 1) c =
      (.object offset (scanFirstMember budget ⟨offset + 1, u⟩).1,
        (scanFirstMember budget ⟨offset + 1, u⟩).2) := by
  rw [scanNode, skipped]
  rfl

theorem scanNode_number (budget : Nat) (c : Cursor) (offset : Nat) (d : Char) (u : List Char)
    (literal : Literal) (next : Cursor) (first : d = '-' ∨ d.isDigit = true)
    (skipped : c.skipBlanks = ⟨offset, d :: u⟩)
    (scanned : Literal.scan ⟨offset, d :: u⟩ = .ok (literal, next)) :
    scanNode (budget + 1) c = (.number offset literal, some next) := by
  rw [scanNode, skipped]
  dsimp only
  split
  . simp_all
  . simp_all
  . simp_all
  . simp_all
  . simp_all
  . simp_all
  . simp_all
  . next same =>
    cases same
    rw [if_pos first, scanned]

theorem scanFirstItem_closed (budget : Nat) (c : Cursor) (offset : Nat) (r : List Char)
    (skipped : c.skipBlanks = ⟨offset, ']' :: r⟩) :
    scanFirstItem (budget + 1) c = (.closed (offset + 1), some ⟨offset + 1, r⟩) := by
  rw [scanFirstItem, skipped]
  rfl

theorem scanFirstItem_open (budget : Nat) (c : Cursor) (offset : Nat) (d : Char) (u : List Char)
    (first : d ≠ ']') (skipped : c.skipBlanks = ⟨offset, d :: u⟩) :
    scanFirstItem (budget + 1) c = scanItem budget ⟨offset, d :: u⟩ := by
  rw [scanFirstItem, skipped]
  dsimp only
  split
  . simp_all
  . simp_all
  . rfl

theorem scanItem_last (budget : Nat) (c next : Cursor) (node : Node) (offset : Nat) (r : List Char)
    (scanned : scanNode budget c = (node, some next))
    (skipped : next.skipBlanks = ⟨offset, ']' :: r⟩) :
    scanItem (budget + 1) c =
      (.item node (offset + 1) (.closed (offset + 1)), some ⟨offset + 1, r⟩) := by
  rw [scanItem, scanned]
  dsimp only
  rw [skipped]
  rfl

theorem scanItem_more (budget : Nat) (c next : Cursor) (node : Node) (offset after : Nat)
    (v w : List Char) (d : Char) (first : d ≠ ']')
    (scanned : scanNode budget c = (node, some next))
    (skipped : next.skipBlanks = ⟨offset, ',' :: v⟩)
    (skipped' : (⟨offset + 1, v⟩ : Cursor).skipBlanks = ⟨after, d :: w⟩) :
    scanItem (budget + 1) c =
      (.item node after (scanItem budget ⟨after, d :: w⟩).1,
        (scanItem budget ⟨after, d :: w⟩).2) := by
  simp only [scanItem, scanned, skipped, Cursor.advance, List.drop, skipped']
  split
  . simp_all
  . simp_all
  . rfl

theorem scanFirstMember_closed (budget : Nat) (c : Cursor) (offset : Nat) (r : List Char)
    (skipped : c.skipBlanks = ⟨offset, '\x7d' :: r⟩) :
    scanFirstMember (budget + 1) c = (.closed (offset + 1), some ⟨offset + 1, r⟩) := by
  rw [scanFirstMember, skipped]
  rfl

theorem scanFirstMember_open (budget : Nat) (c : Cursor) (offset : Nat) (u : List Char)
    (skipped : c.skipBlanks = ⟨offset, '"' :: u⟩) :
    scanFirstMember (budget + 1) c = scanMember budget ⟨offset, '"' :: u⟩ := by
  rw [scanFirstMember, skipped]
  rfl

theorem scanMember_last (budget : Nat) (c named next : Cursor) (text : String)
    (flaw : Option Fault) (node : Node) (colon offset : Nat) (v r : List Char)
    (key : scanString (c.offset + 1) {} (c.rest.drop 1) = .closed text flaw named)
    (atColon : named.skipBlanks = ⟨colon, ':' :: v⟩)
    (scanned : scanNode budget ⟨colon + 1, v⟩ = (node, some next))
    (skipped : next.skipBlanks = ⟨offset, '\x7d' :: r⟩) :
    scanMember (budget + 1) c =
      (.member ⟨text, flaw, named.offset, closeObject named⟩ node (offset + 1)
          (.closed (offset + 1)),
        some ⟨offset + 1, r⟩) := by
  simp only [scanMember, key, atColon, Cursor.advance, List.drop, scanned, skipped]

theorem scanMember_more (budget : Nat) (c named next : Cursor) (text : String)
    (flaw : Option Fault) (node : Node) (colon offset after : Nat) (v w u : List Char)
    (key : scanString (c.offset + 1) {} (c.rest.drop 1) = .closed text flaw named)
    (atColon : named.skipBlanks = ⟨colon, ':' :: v⟩)
    (scanned : scanNode budget ⟨colon + 1, v⟩ = (node, some next))
    (skipped : next.skipBlanks = ⟨offset, ',' :: w⟩)
    (skipped' : (⟨offset + 1, w⟩ : Cursor).skipBlanks = ⟨after, '"' :: u⟩) :
    scanMember (budget + 1) c =
      (.member ⟨text, flaw, named.offset, closeObject named⟩ node offset
          (scanMember budget ⟨after, '"' :: u⟩).1,
        (scanMember budget ⟨after, '"' :: u⟩).2) := by
  simp only [scanMember, key, atColon, Cursor.advance, List.drop, scanned, skipped, skipped']

theorem StartsValue.noBlank {c : Char} (h : StartsValue c) : Cursor.isBlank c = false := by
  cases blank : Cursor.isBlank c with
  | false => rfl
  | true =>
    simp only [Cursor.isBlank, Bool.or_eq_true, beq_iff_eq] at blank
    rcases blank with ((rfl | rfl) | rfl) | rfl
    . simp [StartsValue] at h
    . simp [StartsValue] at h
    . simp [StartsValue] at h
    . simp [StartsValue] at h

theorem StartsValue.ne_closing {c : Char} (h : StartsValue c) : c ≠ ']' := by
  rintro rfl
  simp [StartsValue] at h

theorem skipBlanks_eq_cons (c : Cursor) (d : Char) (u : List Char) (blanks : Blanks c.rest (d :: u))
    (stop : Cursor.isBlank d = false) : ∃ next, c.skipBlanks = ⟨next, d :: u⟩ := by
  apply skipBlanks_eq c (d :: u) blanks
  intro e mem
  cases mem
  exact stop

theorem exists_skipBlanks_of_spelled (c : Cursor) {x : Term} {t r : List Char}
    (blanks : Blanks c.rest t) (spelled : x.Spelled t r) : ∃ next, c.skipBlanks = ⟨next, t⟩ := by
  rcases spelled.eq_cons with ⟨d, u, rfl, first, _⟩
  exact skipBlanks_eq_cons c d u blanks first.noBlank

def ItemsFound (items : List Term) : Prop :=
  ∀ budget offset t r, Term.ItemsSpelled items t (']' :: r) → 3 * t.length + 1 ≤ budget →
    ∃ nodes next,
      scanItem budget ⟨offset, t⟩ = (nodes, some ⟨next, r⟩) ∧ nodes.terms? = some items

def MembersFound (members : List (Option String × Term)) : Prop :=
  ∀ budget offset t r, Term.MembersSpelled members t ('\x7d' :: r) → 3 * t.length + 1 ≤ budget →
    ∃ nodes next,
      scanMember budget ⟨offset, t⟩ = (nodes, some ⟨next, r⟩) ∧ nodes.terms? = some members

theorem Term.ItemsSpelled.eq_cons {x : Term} {items : List Term} {t r : List Char}
    (h : ItemsSpelled (x :: items) t r) : ∃ c u, t = c :: u ∧ StartsValue c := by
  cases items with
  | nil =>
    rcases h with ⟨u, spelled, _⟩
    rcases spelled.eq_cons with ⟨c, v, same, first, _⟩
    exact ⟨c, v, same, first⟩
  | cons y items =>
    rcases h with ⟨u, v, w, spelled, _⟩
    rcases spelled.eq_cons with ⟨c, v, same, first, _⟩
    exact ⟨c, v, same, first⟩

theorem Term.MembersSpelled.eq_cons {member : Option String × Term}
    {members : List (Option String × Term)} {t r : List Char}
    (h : MembersSpelled (member :: members) t r) : ∃ u, t = '"' :: u := by
  cases members with
  | nil =>
    rcases h with ⟨u, v, w, p, name, _⟩
    rcases name.eq_cons with ⟨k, same, _⟩
    exact ⟨k, same⟩
  | cons other members =>
    rcases h with ⟨u, v, w, p, q, s, name, _⟩
    rcases name.eq_cons with ⟨k, same, _⟩
    exact ⟨k, same⟩

theorem scanFirstItem_of_found {items : List Term} (found : items ≠ [] → ItemsFound items)
    (budget : Nat) (c : Cursor) (t r : List Char) (blanks : Blanks c.rest t)
    (spelled : Term.ItemsSpelled items t (']' :: r)) (enough : 3 * c.rest.length + 2 ≤ budget) :
    ∃ nodes next,
      scanFirstItem budget c = (nodes, some ⟨next, r⟩) ∧ nodes.terms? = some items := by
  have longer := blanks.length_le
  cases budget with
  | zero => omega
  | succ budget =>
    cases items with
    | nil =>
      cases spelled
      rcases skipBlanks_eq_cons c ']' r blanks rfl with ⟨offset, skipped⟩
      exact ⟨_, _, scanFirstItem_closed budget c offset r skipped, rfl⟩
    | cons x items =>
      rcases spelled.eq_cons with ⟨d, u, rfl, first⟩
      rcases skipBlanks_eq_cons c d u blanks first.noBlank with ⟨offset, skipped⟩
      rw [scanFirstItem_open budget c offset d u first.ne_closing skipped]
      exact found (List.cons_ne_nil x items) budget offset (d :: u) r spelled (by omega)

theorem scanFirstMember_of_found {members : List (Option String × Term)}
    (found : members ≠ [] → MembersFound members) (budget : Nat) (c : Cursor) (t r : List Char)
    (blanks : Blanks c.rest t) (spelled : Term.MembersSpelled members t ('\x7d' :: r))
    (enough : 3 * c.rest.length + 2 ≤ budget) :
    ∃ nodes next,
      scanFirstMember budget c = (nodes, some ⟨next, r⟩) ∧ nodes.terms? = some members := by
  have longer := blanks.length_le
  cases budget with
  | zero => omega
  | succ budget =>
    cases members with
    | nil =>
      cases spelled
      rcases skipBlanks_eq_cons c '\x7d' r blanks rfl with ⟨offset, skipped⟩
      exact ⟨_, _, scanFirstMember_closed budget c offset r skipped, rfl⟩
    | cons member members =>
      rcases spelled.eq_cons with ⟨u, rfl⟩
      rcases skipBlanks_eq_cons c '"' u blanks rfl with ⟨offset, skipped⟩
      rw [scanFirstMember_open budget c offset u skipped]
      exact found (List.cons_ne_nil member members) budget offset ('"' :: u) r spelled (by omega)

mutual

theorem scanNode_of_spelled (x : Term) (budget : Nat) (c : Cursor) (t r : List Char)
    (blanks : Blanks c.rest t) (spelled : x.Spelled t r) (stop : EndsNumber r)
    (enough : 3 * c.rest.length ≤ budget) :
    ∃ node next, scanNode budget c = (node, some ⟨next, r⟩) ∧ node.term? = some x := by
  -- The text that is left pays for the budget: three calls for each of its characters.
  have longer := blanks.length_le
  rcases exists_skipBlanks_of_spelled c blanks spelled with ⟨offset, skipped⟩
  cases budget with
  | zero =>
    rcases spelled.eq_cons with ⟨d, u, rfl, _, _⟩
    rw [List.length_cons] at longer
    omega
  | succ budget =>
    cases x with
    | null =>
      cases spelled
      exact ⟨_, _, scanNode_null budget c offset r skipped, rfl⟩
    | bool b =>
      cases b with
      | true =>
        cases spelled
        exact ⟨_, _, scanNode_true budget c offset r skipped, rfl⟩
      | false =>
        cases spelled
        exact ⟨_, _, scanNode_false budget c offset r skipped, rfl⟩
    | number n =>
      rcases spelled with ⟨literal, text, written, rfl, rfl⟩
      rcases written.eq_cons with ⟨d, v, rfl, sign⟩
      rcases Literal.scan_append literal _ r written stop offset with ⟨next, scanned⟩
      refine ⟨_, _, scanNode_number budget c offset d _ _ _ sign skipped scanned, ?_⟩
      rw [Node.term?, Literal.number_withStop]
    | string s =>
      rcases scanString_of_stringSpelled s t r spelled (offset + 1) with
        ⟨text, flaw, next, closed, rfl⟩
      rcases StringSpelled.eq_cons spelled with ⟨v, rfl, _⟩
      exact ⟨_, _, scanNode_string budget c offset v text flaw _ skipped closed, rfl⟩
    | array items =>
      rcases spelled with ⟨v, w, rfl, blanks, spelled⟩
      rw [List.length_cons] at longer
      rcases scanFirstItem_of_found (scanItem_of_spelled items) budget ⟨offset + 1, v⟩ w r blanks
          spelled (by dsimp only; omega) with ⟨nodes, next, scanned, said⟩
      refine ⟨.array offset nodes, next, ?_, ?_⟩
      . rw [scanNode_array budget c offset v skipped, scanned]
      . rw [Node.term?, said]
        rfl
    | object members =>
      rcases spelled with ⟨v, w, rfl, blanks, spelled⟩
      rw [List.length_cons] at longer
      rcases scanFirstMember_of_found (scanMember_of_spelled members) budget ⟨offset + 1, v⟩ w r
          blanks spelled (by dsimp only; omega) with ⟨nodes, next, scanned, said⟩
      refine ⟨.object offset nodes, next, ?_, ?_⟩
      . rw [scanNode_object budget c offset v skipped, scanned]
      . rw [Node.term?, said]
        rfl
termination_by structural x

theorem scanItem_of_spelled (items : List Term) (nonempty : items ≠ []) : ItemsFound items := by
  intro budget offset t r spelled enough
  cases items with
  | nil => exact absurd rfl nonempty
  | cons x items =>
    cases budget with
    | zero => omega
    | succ budget =>
      cases items with
      | nil =>
        rcases spelled with ⟨u, spelled, blanks⟩
        rcases scanNode_of_spelled x budget ⟨offset, t⟩ t u (.refl t) spelled
            (blanks.endsNumber (endsNumber_cons ']' r (by decide))) (by dsimp only; omega) with
          ⟨node, next, scanned, said⟩
        rcases skipBlanks_eq_cons ⟨next, u⟩ ']' r blanks rfl with ⟨after, skipped⟩
        refine ⟨_, _, scanItem_last budget _ _ node after r scanned skipped, ?_⟩
        rw [Items.terms?, said]
        rfl
      | cons y items =>
        rcases spelled with ⟨u, v, w, spelled, blanks, blanks', more⟩
        rcases scanNode_of_spelled x budget ⟨offset, t⟩ t u (.refl t) spelled
            (blanks.endsNumber (endsNumber_cons ',' v (by decide))) (by dsimp only; omega) with
          ⟨node, next, scanned, said⟩
        rcases skipBlanks_eq_cons ⟨next, u⟩ ',' v blanks rfl with ⟨comma, skipped⟩
        rcases more.eq_cons with ⟨d, p, rfl, first⟩
        rcases skipBlanks_eq_cons ⟨comma + 1, v⟩ d p blanks' first.noBlank with ⟨after, skipped'⟩
        have shorter := spelled.length_lt_of_blanks blanks blanks'
        rcases scanItem_of_spelled (y :: items) (List.cons_ne_nil y items) budget after (d :: p) r
            more (by omega) with ⟨nodes, stop, scannedMore, saidMore⟩
        refine ⟨.item node after nodes, stop, ?_, ?_⟩
        . rw [scanItem_more budget _ _ node comma after v p d first.ne_closing scanned skipped
            skipped', scannedMore]
        . rw [Items.terms?, said, saidMore]
          rfl
termination_by structural items

theorem scanMember_of_spelled (members : List (Option String × Term)) (nonempty : members ≠ []) :
    MembersFound members := by
  intro budget offset t r spelled enough
  cases members with
  | nil => exact absurd rfl nonempty
  | cons member members =>
    rcases member with ⟨key, x⟩
    cases budget with
    | zero => omega
    | succ budget =>
      cases members with
      | nil =>
        rcases spelled with ⟨u, v, w, p, name, blanks, blanks', spelled, blanks''⟩
        rcases scanString_of_stringSpelled key t u name (offset + 1) with
          ⟨text, flaw, named, closed, rfl⟩
        rcases skipBlanks_eq_cons ⟨named, u⟩ ':' v blanks rfl with ⟨colon, atColon⟩
        have shorter := name.length_lt_of_blanks blanks
        rcases scanNode_of_spelled x budget ⟨colon + 1, v⟩ w p blanks' spelled
            (blanks''.endsNumber (endsNumber_cons '\x7d' r (by decide))) (by dsimp only; omega) with
          ⟨node, next, scanned, said⟩
        rcases skipBlanks_eq_cons ⟨next, p⟩ '\x7d' r blanks'' rfl with ⟨after, skipped⟩
        refine ⟨_, _, scanMember_last budget _ _ _ text flaw node colon after v r closed atColon
          scanned skipped, ?_⟩
        rw [Members.terms?, said]
        rfl
      | cons other members =>
        rcases spelled with ⟨u, v, w, p, q, s, name, blanks, blanks', spelled, comma, after, more⟩
        rcases scanString_of_stringSpelled key t u name (offset + 1) with
          ⟨text, flaw, named, closed, rfl⟩
        rcases skipBlanks_eq_cons ⟨named, u⟩ ':' v blanks rfl with ⟨colon, atColon⟩
        have shorter := name.length_lt_of_blanks blanks
        rcases scanNode_of_spelled x budget ⟨colon + 1, v⟩ w p blanks' spelled
            (comma.endsNumber (endsNumber_cons ',' q (by decide))) (by dsimp only; omega) with
          ⟨node, next, scanned, said⟩
        rcases skipBlanks_eq_cons ⟨next, p⟩ ',' q comma rfl with ⟨atComma, skipped⟩
        rcases more.eq_cons with ⟨k, rfl⟩
        rcases skipBlanks_eq_cons ⟨atComma + 1, q⟩ '"' k after rfl with ⟨second, skipped'⟩
        have shorter' := spelled.length_lt_of_blanks comma after
        have behind := blanks'.length_le
        rcases scanMember_of_spelled (other :: members) (List.cons_ne_nil other members) budget
            second ('"' :: k) r more (by omega) with ⟨nodes, stop, scannedMore, saidMore⟩
        refine ⟨.member ⟨text, flaw, named, closeObject ⟨named, u⟩⟩ node atComma nodes, stop, ?_,
          ?_⟩
        . rw [scanMember_more budget _ _ _ text flaw node colon atComma second v q k closed atColon
            scanned skipped skipped', scannedMore]
        . rw [Members.terms?, said, saidMore]
          rfl
termination_by structural members

end

end DomainModel.Json
