import DomainModel.Json.Cursor
import DomainModel.Json.Fault

namespace DomainModel.Json

structure Literal where
  negative : Bool
  whole : List Char
  fraction : List Char
  exponent : Option (Bool × List Char)
  stop : Nat
  deriving DecidableEq

namespace Literal

def missingDigit (c : Cursor) : Fault :=
  match c.rest with
  | [] => .atOffset c.offset .endInNumber
  | _ :: _ => .atOffset (c.offset + 1) .invalidNumber

def scanExponent (c : Cursor) : Except Fault (Option (Bool × List Char) × Cursor) :=
  match c.rest with
  | 'e' :: '-' :: _ | 'E' :: '-' :: _ => exponentDigits true (c.advance 2)
  | 'e' :: '+' :: _ | 'E' :: '+' :: _ => exponentDigits false (c.advance 2)
  | 'e' :: _ | 'E' :: _ => exponentDigits false (c.advance 1)
  | _ => .ok (none, c)
where
  exponentDigits (negative : Bool) (c : Cursor) :
      Except Fault (Option (Bool × List Char) × Cursor) :=
    match c.digits with
    | ([], _) => .error (missingDigit c)
    | (digits, next) => .ok (some (negative, digits), next)

def scanFraction (c : Cursor) : Except Fault (List Char × Cursor) :=
  match c.rest with
  | '.' :: _ =>
    match (c.advance 1).digits with
    | ([], _) => .error (missingDigit (c.advance 1))
    | (digits, next) => .ok (digits, next)
  | _ => .ok ([], c)

def scanWhole (c : Cursor) : Except Fault (List Char × Cursor) :=
  match c.rest with
  | '0' :: d :: _ =>
    if d.isDigit then .error (.atOffset (c.offset + 2) .invalidNumber) else .ok (['0'], c.advance 1)
  | _ =>
    match c.digits with
    | ([], _) => .error (missingDigit c)
    | (digits, next) => .ok (digits, next)

def scan (c : Cursor) : Except Fault (Literal × Cursor) := do
  let negative := c.rest.head? == some '-'
  let (whole, c) ← scanWhole (if negative then c.advance 1 else c)
  let (fraction, c) ← scanFraction c
  let (exponent, c) ← scanExponent c
  return ({ negative, whole, fraction, exponent, stop := c.offset }, c)

def digitValue (d : Char) : Nat := d.toNat - '0'.toNat

def appendDigit (significand : Nat) (d : Char) : Nat := significand * 10 + digitValue d

-- The second number counts the digits at the end that were left out.
def wholePart : List Char → Nat → Nat × Nat
  | [], significand => (significand, 0)
  | d :: digits, significand =>
    let next := appendDigit significand d
    if next < UInt64.size then wholePart digits next else (significand, digits.length + 1)

-- The second number counts the digits after the point that were taken in.
def fractionPart : List Char → Nat → Nat × Nat
  | [], significand => (significand, 0)
  | d :: digits, significand =>
    let next := appendDigit significand d
    if next < UInt64.size then
      let (significand, count) := fractionPart digits next
      (significand, count + 1)
    else (significand, 0)

-- The error is the number of digits that exceeded 31 bits.
def exponentPart : List Char → Nat → Nat → Except Nat Nat
  | [], value, _ => .ok value
  | d :: digits, value, count =>
    let next := value * 10 + digitValue d
    if next < 0x80000000 then exponentPart digits next (count + 1) else .error (count + 1)

def powerOfTen (exponent : Nat) : Float := Float.ofScientific 1 false exponent

def shrink : Nat → Float → Float
  | 0, x => x
  | times + 1, x => if x == 0 then x else shrink times (x / powerOfTen 308)

/--
A significand times a power of ten. The significand and the power are rounded on their own, and
their product or quotient once more. What exceeds the range is refused, what is too small is zero.
-/
def scaled? (significand : Nat) (exponent : Int) : Option Float :=
  let x := significand.toUInt64.toFloat
  if 0 ≤ exponent then
    if exponent ≤ 308 then
      let y := x * powerOfTen exponent.toNat
      if y.isInf then none else some y
    else if x == 0 then some x else none
  else
    let places := exponent.natAbs
    let times := (places - 1) / 308
    some (shrink times x / powerOfTen (places - 308 * times))

def fractional (literal : Literal) (significand : Nat) (leftOut : Nat) : Except Fault Number := do
  let (significand, taken) := fractionPart literal.fraction significand
  let (negativeExponent, digits) := literal.exponent.getD (false, [])
  let x ← match exponentPart digits 0 0 with
    | .ok value =>
      let shift : Int := if negativeExponent then -value else value
      match scaled? significand (leftOut - taken + shift) with
      | some x => pure x
      | none => throw (.atOffset literal.stop .numberOutOfRange)
    | .error count =>
      if significand ≠ 0 ∧ ¬negativeExponent then
        throw (.atOffset (literal.stop - digits.length + count) .numberOutOfRange)
      else
        pure 0
  return .double (if literal.negative then -x else x)

def number (literal : Literal) : Except Fault Number :=
  let (significand, leftOut) := wholePart literal.whole 0
  if literal.fraction.isEmpty ∧ literal.exponent.isNone ∧ leftOut = 0 then
    if ¬literal.negative then .ok (.integer significand)
    else if 0 < significand ∧ significand ≤ 0x8000000000000000 then .ok (.integer (-significand))
    else .ok (.double (-significand.toUInt64.toFloat))
  else literal.fractional significand leftOut

end Literal

end DomainModel.Json
