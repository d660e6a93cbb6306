import DomainModel.Toml.Value

namespace DomainModel.Toml

def digits? (isDigit : Char → Bool) : List Char → Option (List Char)
  | [] => none
  | [d] => if isDigit d then some [d] else none
  | d :: '_' :: rest =>
    if isDigit d then (digits? isDigit rest).map (d :: ·) else none
  | d :: rest => if isDigit d then (digits? isDigit rest).map (d :: ·) else none

def digitValue (d : Char) : Nat :=
  if d.isDigit then d.toNat - '0'.toNat else d.toLower.toNat - 'a'.toNat + 10

def digitsValue (base : Nat) (digits : List Char) : Nat :=
  digits.foldl (fun value d => value * base + digitValue d) 0

def takeSign : List Char → Bool × List Char
  | '-' :: rest => (true, rest)
  | '+' :: rest => (false, rest)
  | text => (false, text)

def whole? (text : List Char) : Option (List Char) :=
  match text with
  | '0' :: _ :: _ => none
  | _ => digits? Char.isDigit text

def integer? (text : List Char) : Option Int :=
  match text with
  | '0' :: 'x' :: rest =>
    (digits? (fun d => d.isDigit || ('a' ≤ d.toLower && d.toLower ≤ 'f')) rest).map
      fun ds => digitsValue 16 ds
  | '0' :: 'o' :: rest =>
    (digits? (fun d => '0' ≤ d && d ≤ '7') rest).map fun ds => digitsValue 8 ds
  | '0' :: 'b' :: rest =>
    (digits? (fun d => d == '0' || d == '1') rest).map fun ds => digitsValue 2 ds
  | _ =>
    let (negative, rest) := takeSign text
    (whole? rest).map fun ds =>
      let n : Int := digitsValue 10 ds
      if negative then -n else n

def nearest (digits : List Char) (places : Nat) (exponent : Int) : Float :=
  let significand := digitsValue 10 digits
  let shift : Int := exponent - places
  -- Past these bounds the answer no longer depends on the exponent.
  if significand = 0 ∨ shift + digits.length < -400 then 0
  else if 400 < shift then 1 / (0 : Float)
  else if 0 ≤ shift then Float.ofScientific significand false shift.toNat
  else Float.ofScientific significand true shift.natAbs

def exponent? (text : List Char) : Option Int :=
  let (negative, rest) := takeSign text
  (digits? Char.isDigit rest).map fun ds =>
    let n : Int := digitsValue 10 ds
    if negative then -n else n

def fractional? (text : List Char) : Option Float := do
  let mantissa := text.takeWhile fun c => c != 'e' && c != 'E'
  let afterMantissa := text.dropWhile fun c => c != 'e' && c != 'E'
  let exponent ←
    match afterMantissa with
    | [] => some 0
    | _ :: rest => exponent? rest
  let whole ← whole? (mantissa.takeWhile (· != '.'))
  match mantissa.dropWhile (· != '.') with
  | [] => if afterMantissa.isEmpty then none else some (nearest whole 0 exponent)
  | _ :: fraction =>
    let fraction ← digits? Char.isDigit fraction
    return nearest (whole ++ fraction) fraction.length exponent

def float? (text : List Char) : Option Value := do
  let (negative, rest) := takeSign text
  let signed (x : Float) : Value := .float (if negative then -x else x)
  if rest = ['i', 'n', 'f'] then return signed (1 / 0)
  else if rest = ['n', 'a', 'n'] then return signed (0 / 0)
  else
    let x ← fractional? rest
    return if x.isInf then .outOfRange else signed x

def field? (count low high : Nat) (text : List Char) : Option (Nat × List Char) :=
  let ds := text.take count
  let value := digitsValue 10 ds
  if ds.length = count ∧ ds.all Char.isDigit ∧ low ≤ value ∧ value ≤ high then
    some (value, text.drop count)
  else none

def expect? (c : Char) : List Char → Option (List Char)
  | d :: rest => if d = c then some rest else none
  | [] => none

def daysOf (year month : Nat) : Nat :=
  if month = 2 then
    if year % 4 = 0 ∧ (year % 100 ≠ 0 ∨ year % 400 = 0) then 29 else 28
  else if month = 4 ∨ month = 6 ∨ month = 9 ∨ month = 11 then 30
  else 31

def date? (text : List Char) : Option (List Char) := do
  let (year, text) ← field? 4 0 9999 text
  let (month, text) ← field? 2 1 12 (← expect? '-' text)
  let (_, text) ← field? 2 1 (daysOf year month) (← expect? '-' text)
  return text

def time? (text : List Char) : Option (List Char) := do
  let (_, text) ← field? 2 0 23 text
  let (_, text) ← field? 2 0 59 (← expect? ':' text)
  match text with
  | ':' :: text =>
    let (_, text) ← field? 2 0 60 text
    match text with
    | '.' :: text =>
      if (text.takeWhile Char.isDigit).isEmpty then none else some (text.dropWhile Char.isDigit)
    | _ => some text
  | _ => some text

def isZone (text : List Char) : Bool :=
  match text with
  | ['Z'] | ['z'] => true
  | sign :: text =>
    (sign == '+' || sign == '-') &&
      (do
        let (_, text) ← field? 2 0 23 text
        let (_, text) ← field? 2 0 59 (← expect? ':' text)
        return text : Option (List Char)) == some []
  | [] => false

def isDatetime (text : List Char) : Bool :=
  match date? text with
  | some [] => true
  | some (c :: text) =>
    (c == 'T' || c == 't' || c == ' ') &&
      match time? text with
      | some zone => zone.isEmpty || isZone zone
      | none => false
  | none => time? text == some []

def canHold (n : Int) : Bool :=
  -0x80000000000000000000000000000000 ≤ n && n < 0x100000000000000000000000000000000

def scalar? (text : List Char) : Option Value :=
  if text = ['t', 'r', 'u', 'e'] then some (.boolean true)
  else if text = ['f', 'a', 'l', 's', 'e'] then some (.boolean false)
  else
    match integer? text with
    | some n => some (if canHold n then .integer n else .outOfRange)
    | none =>
      match float? text with
      | some value => some value
      | none => if isDatetime text then some .datetime else none

end DomainModel.Toml
