import DomainModel.Proofs.Json.Terms

namespace DomainModel.Json

theorem Blanks.refl (t : List Char) : Blanks t t := ⟨[], by simp, rfl⟩

theorem Blanks.trans {t u r : List Char} (h : Blanks t u) (h' : Blanks u r) : Blanks t r := by
  rcases h with ⟨blanks, blank, rfl⟩
  rcases h' with ⟨more, blank', rfl⟩
  refine ⟨blanks ++ more, ?_, by rw [List.append_assoc]⟩
  intro c mem
  rw [List.mem_append] at mem
  exact mem.elim (blank c) (blank' c)

theorem skipBlanks_eq (c : Cursor) (r : List Char) (blanks : Blanks c.rest r)
    (stop : ∀ d ∈ r.head?, Cursor.isBlank d = false) : ∃ next, c.skipBlanks = ⟨next, r⟩ := by
  rcases c with ⟨offset, t⟩
  rcases blanks with ⟨blanks, blank, rfl⟩
  dsimp only [Cursor.skipBlanks]
  induction blanks generalizing offset with
  | nil =>
    refine ⟨offset, ?_⟩
    cases r with
    | nil => rfl
    | cons d r => simp [Cursor.skipBlanks.go, stop d rfl]
  | cons d blanks ih =>
    rw [List.forall_mem_cons] at blank
    rw [List.cons_append, Cursor.skipBlanks.go, if_pos blank.1]
    exact ih (offset + 1) blank.2

theorem blanks_skipBlanks (c : Cursor) : Blanks c.rest c.skipBlanks.rest := by
  rcases c with ⟨offset, t⟩
  dsimp only [Cursor.skipBlanks]
  induction t generalizing offset with
  | nil => exact .refl []
  | cons d t ih =>
    rw [Cursor.skipBlanks.go]
    split
    . next blank =>
      rcases ih (offset + 1) with ⟨blanks, allBlank, same⟩
      refine ⟨d :: blanks, ?_, ?_⟩
      . rw [List.forall_mem_cons]
        exact ⟨blank, allBlank⟩
      . rw [List.cons_append, ← same]
    . exact .refl _

theorem Blanks.length_le {t r : List Char} (h : Blanks t r) : r.length ≤ t.length := by
  rcases h with ⟨blanks, _, rfl⟩
  simp

theorem Blanks.endsNumber {t r : List Char} (h : Blanks t r) (stop : EndsNumber r) :
    EndsNumber t := by
  rcases h with ⟨blanks, blank, rfl⟩
  cases blanks with
  | nil => exact stop
  | cons d blanks =>
    intro c mem
    cases mem
    have isBlank := blank d List.mem_cons_self
    simp only [Cursor.isBlank, Bool.or_eq_true, beq_iff_eq] at isBlank
    rcases isBlank with ((rfl | rfl) | rfl) | rfl
    . decide
    . decide
    . decide
    . decide

theorem endsNumber_cons (c : Char) (r : List Char)
    (stop : c.isDigit = false ∧ c ≠ '.' ∧ c ≠ 'e' ∧ c ≠ 'E') : EndsNumber (c :: r) := by
  intro d mem
  cases mem
  exact stop

theorem endsNumber_nil : EndsNumber [] := by
  intro d mem
  cases mem

def StartsValue (c : Char) : Prop :=
  c = 'n' ∨ c = 't' ∨ c = 'f' ∨ c = '"' ∨ c = '[' ∨ c = '\x7b' ∨ c = '-' ∨ c.isDigit = true

theorem StringSpelled.eq_cons {s : Option String} {t r : List Char} (h : StringSpelled s t r) :
    ∃ u, t = '"' :: u ∧ r.length ≤ u.length := by
  rcases h with ⟨pieces, body, _, rfl, _⟩
  refine ⟨_, rfl, ?_⟩
  simp
  omega

theorem StringSpelled.length_lt {s : Option String} {t r : List Char} (h : StringSpelled s t r) :
    r.length < t.length := by
  rcases h.eq_cons with ⟨u, rfl, shorter⟩
  rw [List.length_cons]
  omega

theorem Literal.Written.eq_cons {literal : Literal} {text : List Char} (h : literal.Written text) :
    ∃ c u, text = c :: u ∧ (c = '-' ∨ c.isDigit = true) := by
  rcases h with ⟨digits, _, _, mark, _, rfl⟩
  cases literal.negative with
  | true => exact ⟨_, _, rfl, .inl rfl⟩
  | false =>
    cases whole : literal.whole with
    | nil => exact absurd whole digits.1
    | cons d ds =>
      refine ⟨_, _, rfl, .inr ?_⟩
      apply digits.2
      rw [whole]
      exact List.mem_cons_self

mutual

theorem Term.Spelled.eq_cons {x : Term} {t r : List Char} (h : x.Spelled t r) :
    ∃ c u, t = c :: u ∧ StartsValue c ∧ r.length ≤ u.length := by
  cases x with
  | null =>
    cases h
    refine ⟨_, _, rfl, .inl rfl, ?_⟩
    simp
    omega
  | bool b =>
    cases b with
    | true =>
      cases h
      refine ⟨_, _, rfl, .inr (.inl rfl), ?_⟩
      simp
      omega
    | false =>
      cases h
      refine ⟨_, _, rfl, .inr (.inr (.inl rfl)), ?_⟩
      simp
      omega
  | number n =>
    rcases h with ⟨literal, text, written, _, rfl⟩
    rcases written.eq_cons with ⟨c, u, rfl, first⟩
    refine ⟨c, u ++ r, rfl, ?_, by simp⟩
    rcases first with sign | digit
    . simp [StartsValue, sign]
    . simp [StartsValue, digit]
  | string s =>
    rcases StringSpelled.eq_cons h with ⟨u, rfl, shorter⟩
    exact ⟨_, u, rfl, by simp [StartsValue], shorter⟩
  | array items =>
    rcases h with ⟨u, v, rfl, blanks, spelled⟩
    refine ⟨_, u, rfl, by simp [StartsValue], ?_⟩
    have inner := length_le_of_itemsSpelled spelled
    have outer := blanks.length_le
    simp only [List.length_cons] at inner
    omega
  | object members =>
    rcases h with ⟨u, v, rfl, blanks, spelled⟩
    refine ⟨_, u, rfl, by simp [StartsValue], ?_⟩
    have inner := length_le_of_membersSpelled spelled
    have outer := blanks.length_le
    simp only [List.length_cons] at inner
    omega
termination_by structural x

theorem length_le_of_itemsSpelled {items : List Term} {t r : List Char}
    (h : Term.ItemsSpelled items t r) : r.length ≤ t.length := by
  cases items with
  | nil =>
    cases h
    exact Nat.le_refl _
  | cons x items =>
    cases items with
    | nil =>
      rcases h with ⟨u, spelled, blanks⟩
      rcases spelled.eq_cons with ⟨c, v, rfl, _, shorter⟩
      have after := blanks.length_le
      rw [List.length_cons]
      omega
    | cons y items =>
      rcases h with ⟨u, v, w, spelled, blanks, blanks', more⟩
      rcases spelled.eq_cons with ⟨c, p, rfl, _, shorter⟩
      have comma := blanks.length_le
      have after := blanks'.length_le
      have tail := length_le_of_itemsSpelled more
      rw [List.length_cons] at comma ⊢
      omega
termination_by structural items

theorem length_le_of_membersSpelled {members : List (Option String × Term)} {t r : List Char}
    (h : Term.MembersSpelled members t r) : r.length ≤ t.length := by
  cases members with
  | nil =>
    cases h
    exact Nat.le_refl _
  | cons member members =>
    rcases member with ⟨key, x⟩
    cases members with
    | nil =>
      rcases h with ⟨u, v, w, p, name, blanks, blanks', spelled, blanks''⟩
      rcases name.eq_cons with ⟨k, rfl, named⟩
      rcases spelled.eq_cons with ⟨c, q, rfl, _, shorter⟩
      have colon := blanks.length_le
      have value := blanks'.length_le
      have after := blanks''.length_le
      rw [List.length_cons] at colon value ⊢
      omega
    | cons member members =>
      rcases h with ⟨u, v, w, p, q, s, name, blanks, blanks', spelled, comma, after, more⟩
      rcases name.eq_cons with ⟨k, rfl, named⟩
      rcases spelled.eq_cons with ⟨c, q, rfl, _, shorter⟩
      have colon := blanks.length_le
      have value := blanks'.length_le
      have comma := comma.length_le
      have after := after.length_le
      have tail := length_le_of_membersSpelled more
      rw [List.length_cons] at colon value comma ⊢
      omega
termination_by structural members

end

theorem Term.Spelled.length_lt {x : Term} {t r : List Char} (h : x.Spelled t r) :
    r.length < t.length := by
  rcases h.eq_cons with ⟨c, u, rfl, _, shorter⟩
  rw [List.length_cons]
  omega

theorem StringSpelled.length_lt_of_blanks {s : Option String} {t u v : List Char} {c : Char}
    (h : StringSpelled s t u) (blanks : Blanks u (c :: v)) : v.length < t.length := by
  have shorter := h.length_lt
  have behind := blanks.length_le
  rw [List.length_cons] at behind
  omega

theorem Term.Spelled.length_lt_of_blanks {x : Term} {t u v w : List Char} {c : Char}
    (h : x.Spelled t u) (blanks : Blanks u (c :: v)) (blanks' : Blanks v w) :
    w.length < t.length := by
  have shorter := h.length_lt
  have behind := blanks.length_le
  have next := blanks'.length_le
  rw [List.length_cons] at behind
  omega

end DomainModel.Json
