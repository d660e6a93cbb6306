/-!
Shortest decimals: of all decimals that read back as a given binary number, one with the fewest
digits, and of those the nearest. Candidates are tested in exact arithmetic on natural numbers, on
ever finer decimal grids, so the first grid with a hit has the fewest digits.
-/

namespace DomainModel

open Float.Model (Format UnpackedFloat)

structure Decimal where
  digits : Nat
  exponent : Int
  deriving DecidableEq, Repr

namespace Decimal

/--
The reals that round to one binary number: everything between `low` and `high`, with the ends
if `closed`. All three numbers are multiplied by `10 ^ scale`, which makes them whole.
-/
structure Interval where
  low : Nat
  value : Nat
  high : Nat
  closed : Bool
  scale : Nat
  deriving DecidableEq, Repr

namespace Interval

/--
The interval of `mantissa * 2 ^ exponent`. It ends halfway to the two neighbours; the lower one is
only half as far away where the binary exponent changes. Ties round to an even mantissa.
-/
def ofBinary (format : Format) (mantissa : Nat) (exponent : Int) : Interval :=
  let below :=
    if mantissa = Nat.pow 2 (format.mantissaBits - 1) ∧ format.minExponent < exponent then 1 else 2
  let scale := (2 - exponent).toNat
  let factor := Nat.pow 2 (exponent - 2).toNat * Nat.pow 5 scale
  { low := (4 * mantissa - below) * factor
    value := 4 * mantissa * factor
    high := (4 * mantissa + 2) * factor
    closed := mantissa % 2 == 0
    scale }

def contains (i : Interval) (n : Nat) : Bool :=
  if i.closed then i.low ≤ n && n ≤ i.high else i.low < n && n < i.high

/--
The multiple of `step` in the interval that is nearest to the value, divided by `step`. Only the two
neighbours of the value can be nearest; the even one wins a tie.
-/
def nearest? (i : Interval) (step : Nat) : Option Nat :=
  let down := i.value / step
  let up := down + 1
  match i.contains (down * step), i.contains (up * step) with
  | false, false => none
  | true, false => some down
  | false, true => some up
  | true, true =>
    let toDown := i.value - down * step
    let toUp := up * step - i.value
    if toDown < toUp ∨ (toDown = toUp ∧ down % 2 = 0) then some down else some up

def shortest (i : Interval) : Nat → Decimal
  | 0 => ⟨i.value, -i.scale⟩
  | places + 1 =>
    match i.nearest? (Nat.pow 10 (places + 1)) with
    | some digits => ⟨digits, (places + 1 : Int) - i.scale⟩
    | none => i.shortest places

end Interval

def ofBinary (format : Format) (mantissa : Nat) (exponent : Int) : Decimal :=
  let i := Interval.ofBinary format mantissa exponent
  i.shortest (Nat.toDigits 10 i.value).length

structure Style where
  least : Int
  greatest : Int

def render (style : Style) (d : Decimal) : String :=
  let digits := Nat.toDigits 10 d.digits
  let lead : Int := d.exponent + digits.length - 1
  if style.least ≤ lead ∧ lead ≤ style.greatest then
    if 0 ≤ d.exponent then
      String.ofList (digits ++ List.replicate d.exponent.toNat '0') ++ ".0"
    else if 0 ≤ lead then
      String.ofList (digits.take (lead.toNat + 1)) ++ "." ++
        String.ofList (digits.drop (lead.toNat + 1))
    else
      "0." ++ String.ofList (List.replicate (-lead - 1).toNat '0' ++ digits)
  else
    let fraction := if digits.length = 1 then "" else "." ++ String.ofList (digits.drop 1)
    let sign := if lead < 0 then "-" else "+"
    String.ofList (digits.take 1) ++ fraction ++ "e" ++ sign ++ toString lead.natAbs

def render? (style : Style) (format : Format) : UnpackedFloat → Option String
  | .notANumber => none
  | .infinity _ => none
  | .zero sign => some (signed sign "0.0")
  | .finite sign mantissa exponent _ =>
    some (signed sign ((ofBinary format mantissa exponent).render style))
where
  signed (sign : UnpackedFloat.Sign) (text : String) : String :=
    match sign with
    | .negative => "-" ++ text
    | .positive => text

end Decimal

def Decimal.single : Decimal.Style := ⟨-6, 12⟩

def Decimal.double : Decimal.Style := ⟨-5, 15⟩

def Decimal.ofSingle? (x : Float32) : Option String :=
  Decimal.render? Decimal.single .binary32 x.toModel.unpack

def Decimal.ofDouble? (x : Float) : Option String :=
  Decimal.render? Decimal.double .binary64 x.toModel.unpack

end DomainModel
