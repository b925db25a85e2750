import StageHost.Decimal.Binary64
/-
  The decimal text of a binary number: the fewest digits that read back to it, and of those the
  nearest to it.
  A layout says which numbers are written positionally, always with a point; the others are
  written as one digit, the rest behind a point, and a signed exponent.
-/
namespace StageHost.Binary64

/-- A decimal number `digits · 10 ^ exponent`. -/
structure Decimal where
  digits : Nat
  exponent : Int
deriving DecidableEq, Repr

/-- The value and the ends of the interval of reals that round to it, as numerators over one
denominator. -/
structure Neighbourhood where
  low : Nat
  value : Nat
  high : Nat
  den : Nat
  closed : Bool

/-- The interval around a positive number: half a step to either side, a quarter below a power of
two, with its ends exactly if the significand is even. -/
def neighbourhood (x : Binary64) : Neighbourhood :=
  let e := x.exponent - 2
  let up : Nat := if 0 ≤ e then Nat.pow 2 e.toNat else 1
  let den : Nat := if 0 ≤ e then 1 else Nat.pow 2 (-e).toNat
  let m := 4 * x.significand
  let below := if x.significand = Nat.pow 2 52 ∧ -1074 < x.exponent then 1 else 2
  ⟨(m - below) * up, m * up, (m + 2) * up, den, x.significand % 2 = 0⟩

/-- Whether `digits · 10 ^ e` lies in the interval. -/
def Neighbourhood.contains (i : Neighbourhood) (d : Decimal) : Bool :=
  let (n, s) := if 0 ≤ d.exponent then (d.digits * Nat.pow 10 d.exponent.toNat * i.den, 1)
    else (d.digits * i.den, Nat.pow 10 (-d.exponent).toNat)
  if i.closed then i.low * s ≤ n && n ≤ i.high * s else i.low * s < n && n < i.high * s

/-- The point of the grid `10 ^ e` at or below the value, with the distance to it and to the
next one, in a common unit. -/
def Neighbourhood.below (i : Neighbourhood) (e : Int) : Nat × Nat × Nat :=
  let (n, d) := if 0 ≤ e then (i.value, i.den * Nat.pow 10 e.toNat)
    else (i.value * Nat.pow 10 (-e).toNat, i.den)
  (n / d, n % d, d - n % d)

/-- The nearer of the two grid points beside the value that lie in the interval; of two equally
near ones the one with an even last digit. -/
def Neighbourhood.onGrid (i : Neighbourhood) (e : Int) : Option Decimal :=
  let (q, down, up) := i.below e
  let lower : Decimal := ⟨q, e⟩
  let upper : Decimal := ⟨q + 1, e⟩
  match i.contains lower, i.contains upper with
  | true, true => some (if down < up ∨ down = up ∧ q % 2 = 0 then lower else upper)
  | true, false => some lower
  | false, true => some upper
  | false, false => none

/-- The least `k` with the value below `10 ^ k`, searched upward from `k`. -/
def Neighbourhood.magnitude (i : Neighbourhood) : Nat → Int → Int
  | 0, k => k
  | fuel + 1, k =>
    let small := if 0 ≤ k then i.value < i.den * Nat.pow 10 k.toNat
      else i.value * Nat.pow 10 (-k).toNat < i.den
    if small then k else i.magnitude fuel (k + 1)

/-- The fewest digits first: the grids of one digit, two digits and so on are tried in turn. -/
def Neighbourhood.shortest (i : Neighbourhood) (k : Int) : Nat → Nat → Decimal
  | 0, _ => ⟨i.value / i.den, 0⟩
  | fuel + 1, n =>
    match i.onGrid (k - n) with
    | some d => d
    | none => i.shortest k fuel (n + 1)

/-- The same number without zeros at the end of its digits, at most `fuel` of them. -/
def Decimal.strip : Nat → Decimal → Decimal
  | 0, d => d
  | fuel + 1, d =>
    if d.digits % 10 = 0 then Decimal.strip fuel ⟨d.digits / 10, d.exponent + 1⟩ else d

/-- The shortest decimal that reads back. Rounding up may carry to a power of ten, whose zeros
are no digits of its own. -/
def toDecimal (x : Binary64) : Decimal :=
  if x.significand = 0 then ⟨0, 0⟩
  else
    let i := x.neighbourhood
    Decimal.strip 20 (i.shortest (i.magnitude 640 (-330)) 20 1)

/-! ## Text -/

/-- The power of ten of the leading digit. -/
def Decimal.leading (d : Decimal) : Int :=
  d.exponent + (Nat.toDigits 10 d.digits).length - 1

/-- The digits with a point at the place that the exponent says. -/
def Decimal.positional (d : Decimal) : String :=
  let digits := Nat.toDigits 10 d.digits
  if 0 ≤ d.exponent then
    String.ofList (digits ++ List.replicate d.exponent.toNat '0' ++ ['.', '0'])
  else
    let places := (-d.exponent).toNat
    let padded := List.replicate (places + 1 - digits.length) '0' ++ digits
    let whole := padded.length - places
    String.ofList (padded.take whole ++ '.' :: padded.drop whole)

/-- The leading digit, the others behind a point if there are any, and the exponent with its
sign. -/
def Decimal.scientific (d : Decimal) : String :=
  let fraction := match Nat.toDigits 10 d.digits with
    | first :: [] => [first]
    | first :: rest => first :: '.' :: rest
    | [] => []
  let sign := if d.leading < 0 then "-" else "+"
  String.ofList fraction ++ "e" ++ sign ++ toString d.leading.natAbs

/-- The powers of ten of the leading digit, from `least` to `greatest`, with which a number is
written positionally. -/
structure Layout where
  least : Int
  greatest : Int
deriving DecidableEq, Repr

/-- The text of a decimal in a layout. -/
def Decimal.text (l : Layout) (d : Decimal) : String :=
  if l.least ≤ d.leading ∧ d.leading ≤ l.greatest then d.positional else d.scientific

/-- The text of a number in a layout. Zero keeps its sign. -/
def text (l : Layout) (x : Binary64) : String :=
  (if x.negative then "-" else "") ++ x.toDecimal.text l

end StageHost.Binary64
