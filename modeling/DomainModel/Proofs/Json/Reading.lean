import DomainModel.Proofs.Json.Lookups
import DomainModel.Proofs.Json.Scanned

/-!
What can be read from a text, said of the term that the text says. Reading visits the whole tree, so
it succeeds on complete texts only, and where things stand in the text has no part in its result.
-/

namespace DomainModel.Json

namespace Term

mutual

/-- The plain value that a term says, in which so many further arrays and objects may be open. -/
def value? (limit : Nat) : Term → Option Value
  | .null => some .null
  | .bool b => some (.bool b)
  | .number n => n.map .number
  | .string s => s.map .string
  | .array items =>
    match limit with
    | 0 => none
    | limit + 1 => (itemValues? limit items).map .array
  | .object members =>
    match limit with
    | 0 => none
    | limit + 1 => (memberValues? limit members).map .object
termination_by structural x => x

def itemValues? (limit : Nat) : List Term → Option (List Value)
  | [] => some []
  | x :: items => return (← x.value? limit) :: (← itemValues? limit items)
termination_by structural items => items

def memberValues? (limit : Nat) : List (Option String × Term) → Option (List (String × Value))
  | [] => some []
  | (key, x) :: members => return (← key, ← x.value? limit) :: (← memberValues? limit members)
termination_by structural members => members

end

end Term

namespace Term

mutual

def depth : Term → Nat
  | .array items => itemsDepth items + 1
  | .object members => membersDepth members + 1
  | _ => 0
termination_by structural x => x

def itemsDepth : List Term → Nat
  | [] => 0
  | x :: items => max x.depth (itemsDepth items)
termination_by structural items => items

def membersDepth : List (Option String × Term) → Nat
  | [] => 0
  | (_, x) :: members => max x.depth (membersDepth members)
termination_by structural members => members

end

theorem itemsDepth_le_iff (items : List Term) (limit : Nat) :
    itemsDepth items ≤ limit ↔ ∀ x ∈ items, x.depth ≤ limit := by
  induction items with
  | nil => simp [itemsDepth]
  | cons x items ih => rw [itemsDepth, Nat.max_le, ih, List.forall_mem_cons]

theorem membersDepth_le_iff (members : List (String × Term)) (limit : Nat) :
    membersDepth (members.map fun member => (some member.1, member.2)) ≤ limit ↔
      ∀ member ∈ members, member.2.depth ≤ limit := by
  induction members with
  | nil => simp [membersDepth]
  | cons member members ih =>
    rw [List.map_cons, membersDepth, Nat.max_le, ih, List.forall_mem_cons]

end Term

def Term.named (members : List (String × Term)) : Term :=
  .object (members.map fun member => (some member.1, member.2))

theorem Term.value?_array_eq_some_iff (limit : Nat) (items : List Term) (v : Value) :
    (Term.array items).value? (limit + 1) = some v ↔
      ∃ values,
        v = .array values ∧ List.Forall₂ (fun x v => x.value? limit = some v) items values := by
  have inner (values : List Value) :
      itemValues? limit items = some values ↔
        List.Forall₂ (fun x v => x.value? limit = some v) items values := by
    induction items generalizing values with
    | nil => simp [itemValues?, eq_comm]
    | cons x items ih =>
      simp only [itemValues?, Option.bind_eq_bind, Option.bind_eq_some_iff, Option.pure_def,
        Option.some.injEq, ih, List.forall₂_cons_left_iff]
      constructor
      . rintro ⟨v, read, values, all, rfl⟩
        exact ⟨v, values, read, all, rfl⟩
      . rintro ⟨v, values, read, all, rfl⟩
        exact ⟨v, read, values, all, rfl⟩
  simp only [value?, Option.map_eq_some_iff, inner]
  constructor
  . rintro ⟨values, all, rfl⟩
    exact ⟨values, rfl, all⟩
  . rintro ⟨values, rfl, all⟩
    exact ⟨values, all, rfl⟩

theorem Term.value?_named_eq_some_iff (limit : Nat) (members : List (String × Term)) (v : Value) :
    (Term.named members).value? (limit + 1) = some v ↔
      ∃ values,
        v = .object values ∧ Matched (fun x v => x.value? limit = some v) members values := by
  have inner (values : List (String × Value)) :
      memberValues? limit (members.map fun member => (some member.1, member.2)) = some values ↔
        Matched (fun x v => x.value? limit = some v) members values := by
    induction members generalizing values with
    | nil => simp [memberValues?, Matched, eq_comm]
    | cons member members ih =>
      simp only [List.map_cons, memberValues?, Option.bind_eq_bind, Option.bind_some,
        Option.bind_eq_some_iff, Option.pure_def, Option.some.injEq, ih]
      constructor
      . rintro ⟨v, read, values, all, rfl⟩
        exact .cons ⟨rfl, read⟩ all
      . intro all
        cases all with
        | @cons _ value _ values first all =>
          rcases value with ⟨_, v⟩
          rcases first with ⟨rfl, read⟩
          exact ⟨v, read, values, all, rfl⟩
  simp only [named, value?, Option.map_eq_some_iff, inner]
  constructor
  . rintro ⟨values, all, rfl⟩
    exact ⟨values, rfl, all⟩
  . rintro ⟨values, rfl, all⟩
    exact ⟨values, all, rfl⟩

theorem Term.exists_named_of_memberValues? {limit : Nat} {members : List (Option String × Term)}
    {values : List (String × Value)} (read : memberValues? limit members = some values) :
    ∃ members', object members = .named members' ∧
      Matched (fun x v => x.value? limit = some v) members' values := by
  have inner : ∃ members',
      members = members'.map (fun member => (some member.1, member.2)) ∧
      Matched (fun x v => x.value? limit = some v) members' values := by
    induction members generalizing values with
    | nil =>
      cases read
      exact ⟨[], rfl, .nil⟩
    | cons member members ih =>
      rcases member with ⟨key, x⟩
      simp only [memberValues?, Option.bind_eq_bind, Option.bind_eq_some_iff, Option.pure_def,
        Option.some.injEq] at read
      rcases read with ⟨name, rfl, v, first, values, others, rfl⟩
      rcases ih others with ⟨members', rfl, all⟩
      exact ⟨(name, x) :: members', rfl, .cons ⟨rfl, first⟩ all⟩
  rcases inner with ⟨members', rfl, all⟩
  exact ⟨members', rfl, all⟩

-- What the term is from which this value was read.
def Term.Gives (limit : Nat) (x : Term) : Value → Prop
  | .null => x = .null
  | .bool b => x = .bool b
  | .number n => x = .number (some n)
  | .string s => x = .string (some s)
  | .array values =>
    ∃ l items,
      limit = l + 1 ∧ x = .array items ∧
      List.Forall₂ (fun y v => y.value? l = some v) items values
  | .object values =>
    ∃ l members,
      limit = l + 1 ∧ x = .named members ∧ Matched (fun y v => y.value? l = some v) members values

theorem Term.gives_of_value? {limit : Nat} {x : Term} {v : Value} (read : x.value? limit = some v) :
    x.Gives limit v := by
  cases x with
  | null =>
    cases read
    rfl
  | bool b =>
    cases read
    rfl
  | number n =>
    simp only [value?, Option.map_eq_some_iff] at read
    rcases read with ⟨n, rfl, rfl⟩
    rfl
  | string s =>
    simp only [value?, Option.map_eq_some_iff] at read
    rcases read with ⟨s, rfl, rfl⟩
    rfl
  | array items =>
    cases limit with
    | zero => cases read
    | succ limit =>
      rw [value?_array_eq_some_iff] at read
      rcases read with ⟨values, rfl, all⟩
      exact ⟨limit, items, rfl, rfl, all⟩
  | object members =>
    cases limit with
    | zero => cases read
    | succ limit =>
      simp only [value?, Option.map_eq_some_iff] at read
      rcases read with ⟨values, read, rfl⟩
      rcases exists_named_of_memberValues? read with ⟨members', same, all⟩
      exact ⟨limit, members', rfl, same, all⟩

theorem Term.eq_string_of_value? {limit : Nat} {x : Term} {s : String}
    (read : x.value? limit = some (.string s)) : x = .string (some s) := gives_of_value? read

def ReadsAs {α : Type} (read : Node → Except Fault α) (means : Term → α → Prop) : Prop :=
  ∀ node a, read node = .ok a ↔ ∃ x, node.term? = some x ∧ means x a

theorem key_read_eq_ok_iff (key : Key) (name : String) :
    key.read = .ok name ↔ key.text? = some name := by
  rcases key with ⟨text, flaw, stop, finish⟩
  cases flaw with
  | none => simp [Key.read, Key.text?, unflawed]
  | some flaw => simp [Key.read, Key.text?, unflawed]

mutual

theorem Node.toValue_eq_ok_iff (limit : Nat) (node : Node) (v : Value) :
    node.toValue limit = .ok v ↔ ∃ x, node.term? = some x ∧ x.value? limit = some v := by
  cases node with
  | null start stop => simp [Node.toValue, Node.term?, Term.value?]
  | bool start stop b => simp [Node.toValue, Node.term?, Term.value?]
  | number start literal =>
    unfold Node.toValue
    simp only [bind_eq_ok_iff, pure_eq_ok_iff, Node.term?, Option.some.injEq, exists_eq_left',
      Term.value?, Option.map_eq_some_iff, toOption_eq_some_iff]
  | string start stop text flaw =>
    cases flaw with
    | none => simp [Node.toValue, Node.term?, Term.value?, unflawed]
    | some flaw => simp [Node.toValue, Node.term?, Term.value?, unflawed]
  | array start items =>
    cases limit with
    | zero => simp [Node.toValue, Node.term?, Term.value?]
    | succ limit =>
      simp only [Node.toValue, bind_eq_ok_iff, pure_eq_ok_iff, Items.toValues_eq_ok_iff limit items,
        Node.term?, Option.map_eq_some_iff]
      constructor
      . rintro ⟨values, ⟨xs, said, read⟩, rfl⟩
        exact ⟨.array xs, ⟨xs, said, rfl⟩, by simp [Term.value?, read]⟩
      . rintro ⟨_, ⟨xs, said, rfl⟩, read⟩
        simp only [Term.value?, Option.map_eq_some_iff] at read
        rcases read with ⟨values, read, rfl⟩
        exact ⟨values, ⟨xs, said, read⟩, rfl⟩
  | object start members =>
    cases limit with
    | zero => simp [Node.toValue, Node.term?, Term.value?]
    | succ limit =>
      simp only [Node.toValue, bind_eq_ok_iff, pure_eq_ok_iff,
        Members.toValues_eq_ok_iff limit members, Node.term?, Option.map_eq_some_iff]
      constructor
      . rintro ⟨values, ⟨xs, said, read⟩, rfl⟩
        exact ⟨.object xs, ⟨xs, said, rfl⟩, by simp [Term.value?, read]⟩
      . rintro ⟨_, ⟨xs, said, rfl⟩, read⟩
        simp only [Term.value?, Option.map_eq_some_iff] at read
        rcases read with ⟨values, read, rfl⟩
        exact ⟨values, ⟨xs, said, read⟩, rfl⟩
  | brokenString start flaw fault => simp [Node.toValue, Node.term?]
  | broken start fault => simp [Node.toValue, Node.term?]
termination_by structural node

theorem Items.toValues_eq_ok_iff (limit : Nat) (items : Items) (values : List Value) :
    items.toValues limit = .ok values ↔
      ∃ xs, items.terms? = some xs ∧ Term.itemValues? limit xs = some values := by
  cases items with
  | closed stop => simp [Items.toValues, Items.terms?, Term.itemValues?]
  | broken fault => simp [Items.toValues, Items.terms?]
  | item node finish more =>
    simp only [Items.toValues, bind_eq_ok_iff, pure_eq_ok_iff, Node.toValue_eq_ok_iff limit node,
      Items.toValues_eq_ok_iff limit more, Items.terms?]
    constructor
    . rintro ⟨v, ⟨x, said, read⟩, vs, ⟨xs, saidMore, readMore⟩, rfl⟩
      exact ⟨x :: xs, by simp [said, saidMore], by simp [Term.itemValues?, read, readMore]⟩
    . rintro ⟨xs, said, read⟩
      simp only [Option.bind_eq_bind, Option.bind_eq_some_iff, Option.pure_def,
        Option.some.injEq] at said
      rcases said with ⟨x, said, xs, saidMore, rfl⟩
      simp only [Term.itemValues?, Option.bind_eq_bind, Option.bind_eq_some_iff, Option.pure_def,
        Option.some.injEq] at read
      rcases read with ⟨v, read, vs, readMore, rfl⟩
      exact ⟨v, ⟨x, said, read⟩, vs, ⟨xs, saidMore, readMore⟩, rfl⟩
termination_by structural items

theorem Members.toValues_eq_ok_iff (limit : Nat) (members : Members)
    (values : List (String × Value)) :
    members.toValues limit = .ok values ↔
      ∃ xs, members.terms? = some xs ∧ Term.memberValues? limit xs = some values := by
  cases members with
  | closed stop => simp [Members.toValues, Members.terms?, Term.memberValues?]
  | broken flaw fault => simp [Members.toValues, Members.terms?]
  | member key node finish more =>
    simp only [Members.toValues, bind_eq_ok_iff, pure_eq_ok_iff, key_read_eq_ok_iff,
      Node.toValue_eq_ok_iff limit node, Members.toValues_eq_ok_iff limit more, Members.terms?]
    constructor
    . rintro ⟨name, named, v, ⟨x, said, read⟩, vs, ⟨xs, saidMore, readMore⟩, rfl⟩
      exact ⟨(key.text?, x) :: xs, by simp [said, saidMore],
        by simp [Term.memberValues?, named, read, readMore]⟩
    . rintro ⟨xs, said, read⟩
      simp only [Option.bind_eq_bind, Option.bind_eq_some_iff, Option.pure_def,
        Option.some.injEq] at said
      rcases said with ⟨x, said, xs, saidMore, rfl⟩
      simp only [Term.memberValues?, Option.bind_eq_bind, Option.bind_eq_some_iff,
        Option.pure_def, Option.some.injEq] at read
      rcases read with ⟨name, named, v, read, vs, readMore, rfl⟩
      exact ⟨name, named, v, ⟨x, said, read⟩, vs, ⟨xs, saidMore, readMore⟩, rfl⟩
termination_by structural members

end

mutual

theorem Node.skip_eq_ok_iff (node : Node) :
    node.skip = .ok () ↔ node.term?.isSome = true := by
  cases node with
  | null start stop => simp [Node.skip, Node.term?]
  | bool start stop b => simp [Node.skip, Node.term?]
  | number start literal => simp [Node.skip, Node.term?]
  | string start stop text flaw => simp [Node.skip, Node.term?]
  | array start items => simp [Node.skip, Node.term?, Items.skip_eq_ok_iff items]
  | object start members => simp [Node.skip, Node.term?, Members.skip_eq_ok_iff members]
  | brokenString start flaw fault => simp [Node.skip, Node.term?]
  | broken start fault => simp [Node.skip, Node.term?]
termination_by structural node

theorem Items.skip_eq_ok_iff (items : Items) :
    items.skip = .ok () ↔ items.terms?.isSome = true := by
  cases items with
  | closed stop => simp [Items.skip, Items.terms?]
  | broken fault => simp [Items.skip, Items.terms?]
  | item node finish more =>
    simp only [Items.skip, bind_eq_ok_iff, Node.skip_eq_ok_iff node, Items.skip_eq_ok_iff more,
      Items.terms?]
    cases node.term? with
    | none => simp
    | some x =>
      cases more.terms? with
      | none => simp
      | some xs => simp
termination_by structural items

theorem Members.skip_eq_ok_iff (members : Members) :
    members.skip = .ok () ↔ members.terms?.isSome = true := by
  cases members with
  | closed stop => simp [Members.skip, Members.terms?]
  | broken flaw fault => simp [Members.skip, Members.terms?]
  | member key node finish more =>
    simp only [Members.skip, bind_eq_ok_iff, Node.skip_eq_ok_iff node, Members.skip_eq_ok_iff more,
      Members.terms?]
    cases node.term? with
    | none => simp
    | some x =>
      cases more.terms? with
      | none => simp
      | some xs => simp
termination_by structural members

end

namespace Term

def IsText (x : Term) (s : String) : Prop := x = .string (some s)

def Optionally {α : Type} (means : Term → α → Prop) (x : Term) : Option α → Prop
  | none => x = .null
  | some a => means x a

def Lists {α : Type} (means : Term → α → Prop) (x : Term) (as : List α) : Prop :=
  ∃ items, x = .array items ∧ List.Forall₂ means items as

end Term

theorem readsAs_text : ReadsAs Node.text Term.IsText := by
  intro node s
  cases node with
  | string start stop text flaw =>
    cases flaw with
    | none => simp [Node.text, Node.term?, Term.IsText, unflawed]
    | some flaw => simp [Node.text, Node.term?, Term.IsText, unflawed]
  | null start stop => simp [Node.text, Node.term?, Term.IsText]
  | bool start stop b => simp [Node.text, Node.term?, Term.IsText]
  | number start literal => simp [Node.text, Node.term?, Term.IsText]
  | array start items => simp [Node.text, Node.term?, Term.IsText]
  | object start members => simp [Node.text, Node.term?, Term.IsText]
  | brokenString start flaw fault => simp [Node.text, Node.term?]
  | broken start fault => simp [Node.text, Node.term?]

theorem ReadsAs.identifier {α : Type} (choices : List (String × α)) :
    ReadsAs (Node.identifier choices) fun x a =>
      ∃ name, x.IsText name ∧ choices.lookup name = some a := by
  intro node a
  cases node with
  | string start stop text flaw =>
    cases flaw with
    | none =>
      simp only [Node.identifier, settle_eq_ok_iff, Node.variant, Node.term?, Term.IsText, unflawed,
        Option.some.injEq, exists_eq_left', Term.string.injEq]
      cases choices.lookup text with
      | none => simp
      | some choice => simp
    | some flaw => simp [Node.identifier, Node.term?, Term.IsText, unflawed]
  | null start stop => simp [Node.identifier, Node.term?, Term.IsText]
  | bool start stop b => simp [Node.identifier, Node.term?, Term.IsText]
  | number start literal => simp [Node.identifier, Node.term?, Term.IsText]
  | array start items => simp [Node.identifier, Node.term?, Term.IsText]
  | object start members => simp [Node.identifier, Node.term?, Term.IsText]
  | brokenString start flaw fault => simp [Node.identifier, Node.term?]
  | broken start fault => simp [Node.identifier, Node.term?]

theorem Node.optional_eq {α : Type} (read : Node → Except Fault α) (node : Node)
    (notNull : ∀ start stop, node ≠ .null start stop) :
    Node.optional read node = (do return some (← read node)) := by
  unfold Node.optional
  split
  . next start stop => exact absurd rfl (notNull start stop)
  . rfl

theorem ReadsAs.optional {α : Type} {read : Node → Except Fault α} {means : Term → α → Prop}
    (h : ReadsAs read means) (noNull : ∀ a, ¬ means .null a) :
    ReadsAs (Node.optional read) (Term.Optionally means) := by
  intro node found
  by_cases null : ∃ start stop, node = .null start stop
  . rcases null with ⟨start, stop, rfl⟩
    cases found with
    | none => simp [Node.optional, Node.term?, Term.Optionally]
    | some a => simp [Node.optional, Node.term?, Term.Optionally, noNull a]
  . rw [node.optional_eq read fun start stop same => null ⟨start, stop, same⟩, bind_eq_ok_iff]
    simp only [pure_eq_ok_iff, h node]
    cases found with
    | none =>
      simp only [Term.Optionally, exists_eq_right, reduceCtorEq, and_false, exists_false, false_iff]
      intro said
      cases node with
      | null start stop => exact null ⟨start, stop, rfl⟩
      | array start items => simp [Node.term?] at said
      | object start members => simp [Node.term?] at said
      | bool _ _ _ => cases said
      | number _ _ => cases said
      | string _ _ _ _ => cases said
      | brokenString _ _ _ => cases said
      | broken _ _ => cases said
    | some a => simp [Term.Optionally]

theorem ReadsAs.items {α : Type} {read : Node → Except Fault α} {means : Term → α → Prop}
    (h : ReadsAs read means) (items : Items) (as : List α) :
    Node.list.go read items = .ok as ↔
      ∃ xs, items.terms? = some xs ∧ List.Forall₂ means xs as := by
  cases items with
  | closed stop => simp [Node.list.go, Items.terms?, eq_comm]
  | broken fault => simp [Node.list.go, Items.terms?]
  | item node finish more =>
    simp only [Node.list.go, bind_eq_ok_iff, pure_eq_ok_iff, settle_eq_ok_iff, h node,
      h.items more, Items.terms?]
    constructor
    . rintro ⟨a, ⟨x, said, first⟩, as, ⟨xs, saidMore, others⟩, rfl⟩
      exact ⟨x :: xs, by simp [said, saidMore], .cons first others⟩
    . rintro ⟨xs, said, all⟩
      simp only [Option.bind_eq_bind, Option.bind_eq_some_iff, Option.pure_def,
        Option.some.injEq] at said
      rcases said with ⟨x, said, xs, saidMore, rfl⟩
      cases all with
      | cons first others => exact ⟨_, ⟨x, said, first⟩, _, ⟨xs, saidMore, others⟩, rfl⟩
termination_by structural items

theorem ReadsAs.list {α : Type} {read : Node → Except Fault α} {means : Term → α → Prop}
    (h : ReadsAs read means) : ReadsAs (Node.list read) (Term.Lists means) := by
  intro node as
  cases node with
  | array start items =>
    simp [Node.list, Node.term?, Term.Lists, h.items items as]
  | null start stop => simp [Node.list, Node.term?, Term.Lists]
  | bool start stop b => simp [Node.list, Node.term?, Term.Lists]
  | number start literal => simp [Node.list, Node.term?, Term.Lists]
  | string start stop text flaw => simp [Node.list, Node.term?, Term.Lists]
  | object start members => simp [Node.list, Node.term?, Term.Lists]
  | brokenString start flaw fault => simp [Node.list, Node.term?]
  | broken start fault => simp [Node.list, Node.term?]

theorem ReadsAs.decode {α : Type} {read : Node → Except Fault α} {means : Term → α → Prop}
    (h : ReadsAs read means) (text : String) (a : α) :
    Json.decode read text = .ok a ↔ ∃ x, x.SpelledBy text.toList ∧ means x a := by
  simp only [← term?_scan_eq_some_iff]
  unfold Json.decode Tree.read Tree.term?
  generalize scan text.toList = tree
  rcases tree with ⟨root, trailing⟩
  cases trailing with
  | none =>
    dsimp only
    rw [← h root a]
    cases read root with
    | error fault => simp [bind, Except.bind]
    | ok b => simp [bind, Except.bind, pure, Except.pure]
  | some fault =>
    cases read root with
    | error fault => simp [bind, Except.bind]
    | ok b => simp [bind, Except.bind, throw, throwThe, MonadExceptOf.throw]

end DomainModel.Json
