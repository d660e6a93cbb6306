import DomainModel.Toml.Scalar

namespace DomainModel.Toml

def isControl (c : Char) : Bool := (c < ' ' && c != '\t') || c == '\x7f'

def isBlank (c : Char) : Bool := c == ' ' || c == '\t'

def skipBlanks (text : List Char) : List Char := text.dropWhile isBlank

def skipTrivia (inComment : Bool) : List Char → Option (List Char)
  | [] => some []
  | '\n' :: rest => skipTrivia false rest
  | '\r' :: '\n' :: rest => skipTrivia false rest
  | c :: rest =>
    if inComment then if isControl c then none else skipTrivia true rest
    else if isBlank c then skipTrivia false rest
    else if c = '#' then skipTrivia true rest
    else some (c :: rest)

def endLine (inComment : Bool) : List Char → Option (List Char)
  | [] => some []
  | '\n' :: rest => some rest
  | '\r' :: '\n' :: rest => some rest
  | c :: rest =>
    if inComment then if isControl c then none else endLine true rest
    else if isBlank c then endLine false rest
    else if c = '#' then endLine true rest
    else none

def codePoint? (ds : List Char) : Option Char :=
  if ds.all (fun d => d.isDigit || ('a' ≤ d.toLower && d.toLower ≤ 'f')) then
    let code := digitsValue 16 ds
    if code.isValidChar then some (.ofNat code) else none
  else none

def escape? (c : Char) : Option Char :=
  match c with
  | '"' => some '"'
  | '\\' => some '\\'
  | 'b' => some '\x08'
  | 't' => some '\t'
  | 'n' => some '\n'
  | 'f' => some '\x0c'
  | 'r' => some '\r'
  | 'e' => some '\x1b'
  | _ => none

def endsLine (text : List Char) : Bool :=
  match skipBlanks text with
  | '\n' :: _ => true
  | '\r' :: '\n' :: _ => true
  | _ => false

def closeLong (quote : Char) (text : List Char) : Option (Nat × List Char) :=
  let quotes := (text.takeWhile (· == quote)).length
  if quotes < 3 then none
  else
    let kept := min (quotes - 3) 2
    some (kept, text.drop (kept + 3))

/--
The rest of a string in double quotes, on one line or over several (`long`). After a backslash at
the end of a line, blanks and line breaks are left out (`folding`).
-/
def basicString (long folding : Bool) (taken : List Char) :
    List Char → Option (String × List Char)
  | [] => none
  | '\r' :: '\n' :: rest =>
    if long then basicString long folding (if folding then taken else '\n' :: taken) rest else none
  | '\\' :: 'x' :: a :: b :: rest => do
    let c ← codePoint? [a, b]
    basicString long false (c :: taken) rest
  | '\\' :: 'u' :: a :: b :: c :: d :: rest => do
    let c ← codePoint? [a, b, c, d]
    basicString long false (c :: taken) rest
  | '\\' :: 'U' :: a :: b :: c :: d :: e :: f :: g :: h :: rest => do
    let c ← codePoint? [a, b, c, d, e, f, g, h]
    basicString long false (c :: taken) rest
  | '\\' :: rest =>
    if long && endsLine rest then basicString long true taken rest
    else
      match rest with
      | [] => none
      | c :: rest =>
        match escape? c with
        | some c => basicString long false (c :: taken) rest
        | none => none
  | c :: rest =>
    if c = '"' then
      if long then
        match closeLong '"' (c :: rest) with
        | some (kept, after) =>
          some (String.ofList (taken.reverse ++ List.replicate kept '"'), after)
        | none => basicString long false (c :: taken) rest
      else some (String.ofList taken.reverse, rest)
    else if c = '\n' then
      if long then basicString long folding (if folding then taken else c :: taken) rest else none
    else if isControl c then none
    else if folding && isBlank c then basicString long true taken rest
    else basicString long false (c :: taken) rest

def literalString (long : Bool) (taken : List Char) : List Char → Option (String × List Char)
  | [] => none
  | '\r' :: '\n' :: rest => if long then literalString long ('\n' :: taken) rest else none
  | c :: rest =>
    if c = '\'' then
      if long then
        match closeLong '\'' (c :: rest) with
        | some (kept, after) =>
          some (String.ofList (taken.reverse ++ List.replicate kept '\''), after)
        | none => literalString long (c :: taken) rest
      else some (String.ofList taken.reverse, rest)
    else if c = '\n' then
      if long then literalString long (c :: taken) rest else none
    else if isControl c then none
    else literalString long (c :: taken) rest

def skipFirstBreak : List Char → List Char
  | '\n' :: rest => rest
  | '\r' :: '\n' :: rest => rest
  | text => text

def nestingLimit : Nat := 80

def isBareKey (c : Char) : Bool := c.isAlphanum || c == '-' || c == '_'

def simpleKey? (text : List Char) : Option (String × List Char) :=
  match text with
  | '"' :: rest => basicString false false [] rest
  | '\'' :: rest => literalString false [] rest
  | _ =>
    let key := text.takeWhile isBareKey
    if key.isEmpty then none else some (String.ofList key, text.dropWhile isBareKey)

def moreKeys? : Nat → List Char → Option (List String × List Char)
  | 0, _ => none
  | budget + 1, text =>
    match skipBlanks text with
    | '.' :: rest => do
      let (key, rest) ← simpleKey? (skipBlanks rest)
      let (keys, rest) ← moreKeys? budget rest
      return (key :: keys, rest)
    | rest => some ([], rest)

def key? (text : List Char) : Option ((String × List String) × List Char) := do
  let (first, rest) ← simpleKey? (skipBlanks text)
  let (more, rest) ← moreKeys? nestingLimit rest
  return ((first, more), rest)

def isScalar (c : Char) : Bool :=
  c.isAlphanum || c == '-' || c == '_' || c == '+' || c == '.' || c == ':'

def bareScalar? (text : List Char) : Option (Value × List Char) :=
  let first := text.takeWhile isScalar
  let rest := text.dropWhile isScalar
  match date? first, rest with
  | some [], ' ' :: d :: more =>
    if d.isDigit then
      let time := (d :: more).takeWhile isScalar
      (scalar? (first ++ ' ' :: time)).map (·, (d :: more).dropWhile isScalar)
    else (scalar? first).map (·, rest)
  | _, _ => (scalar? first).map (·, rest)

mutual

def value? (budget depth : Nat) (text : List Char) : Option (Value × List Char) :=
  match budget with
  | 0 => none
  | budget + 1 =>
    match text with
    | '"' :: '"' :: '"' :: rest => do
      let (s, rest) ← basicString true false [] (skipFirstBreak rest)
      return (.string s, rest)
    | '"' :: rest => do
      let (s, rest) ← basicString false false [] rest
      return (.string s, rest)
    | '\'' :: '\'' :: '\'' :: rest => do
      let (s, rest) ← literalString true [] (skipFirstBreak rest)
      return (.string s, rest)
    | '\'' :: rest => do
      let (s, rest) ← literalString false [] rest
      return (.string s, rest)
    | '[' :: rest =>
      match depth with
      | 0 => none
      | depth + 1 => do
        let (items, rest) ← items? budget depth (← skipTrivia false rest)
        return (.array items, rest)
    | '{' :: rest =>
      match depth with
      | 0 => none
      | depth + 1 => do
        let (entries, rest) ← entries? budget depth [] (← skipTrivia false rest)
        return (.table .inline entries, rest)
    | _ => bareScalar? text

def items? (budget depth : Nat) (text : List Char) : Option (List Value × List Char) :=
  match budget with
  | 0 => none
  | budget + 1 =>
    match text with
    | ']' :: rest => some ([], rest)
    | _ => do
      let (item, rest) ← value? budget depth text
      match ← skipTrivia false rest with
      | ',' :: rest =>
        let (items, rest) ← items? budget depth (← skipTrivia false rest)
        return (item :: items, rest)
      | ']' :: rest => return ([item], rest)
      | _ => none

def entries? (budget depth : Nat) (table : Table) (text : List Char) :
    Option (Table × List Char) :=
  match budget with
  | 0 => none
  | budget + 1 =>
    match text with
    | '}' :: rest => some (table, rest)
    | _ => do
      let ((key, path), rest) ← key? text
      let rest ← skipTrivia false (← expect? '=' (← skipTrivia false rest))
      let (value, rest) ← value? budget depth rest
      let table ← table.insert key path value
      match ← skipTrivia false rest with
      | ',' :: rest => entries? budget depth table (← skipTrivia false rest)
      | '}' :: rest => return (table, rest)
      | _ => none

end

def header? (close : List Char) (text : List Char) :
    Option ((String × List String) × List Char) := do
  let (key, rest) ← key? text
  let rest ← close.foldlM (fun rest c => expect? c rest) rest
  return (key, ← endLine false rest)

def lines? (budget : Nat) (current : List String) (table : Table) (text : List Char) :
    Option Table :=
  match budget with
  | 0 => none
  | budget + 1 => do
    match ← skipTrivia false text with
    | [] => return table
    | '[' :: '[' :: rest =>
      let ((key, path), rest) ← header? [']', ']'] rest
      let keys := key :: path
      let table ← table.within keys.dropLast (Table.openItem (keys.getLast?.getD key))
      lines? budget keys table rest
    | '[' :: rest =>
      let ((key, path), rest) ← header? [']'] rest
      let keys := key :: path
      let table ← table.within keys.dropLast (Table.openTable (keys.getLast?.getD key))
      lines? budget keys table rest
    | text =>
      let ((key, path), rest) ← key? text
      let rest ← expect? '=' rest
      let (value, rest) ← value? text.length nestingLimit (skipBlanks rest)
      let rest ← endLine false rest
      let table ← table.within current (Table.insert key path value)
      lines? budget current table rest

def parse? (text : String) : Option Table :=
  let chars :=
    match text.toList with
    | '\ufeff' :: rest => rest
    | chars => chars
  lines? (chars.length + 1) [] [] chars

end DomainModel.Toml
