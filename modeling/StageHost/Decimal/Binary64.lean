/-
  Binary floating-point numbers of 64 bits as exact values.
  `round` takes a ratio to the nearest number, ties to the even significand; `ofScientific` reads
  a decimal significand and exponent in two such steps.
-/
namespace StageHost

/-- The number `± significand · 2 ^ exponent`. A number made by `round` has a significand below
`2 ^ 53` and an exponent of at least `-1074`. -/
structure Binary64 where
  negative : Bool
  significand : Nat
  exponent : Int
deriving DecidableEq, Repr, Inhabited

namespace Binary64

/-- Zero of either sign. -/
def zero (negative : Bool) : Binary64 := ⟨negative, 0, -1074⟩

/-- The quotient rounded to the nearest whole number, ties to even. -/
def roundDiv (num den : Nat) : Nat :=
  let q := num / den
  let r := num % den
  if 2 * r < den then q else if den < 2 * r then q + 1 else q + q % 2

/-- The ratio `num / (den · 2 ^ e)` as a pair of naturals. -/
def scale (num den : Nat) (e : Int) : Nat × Nat :=
  if 0 ≤ e then (num, den * Nat.pow 2 e.toNat) else (num * Nat.pow 2 (-e).toNat, den)

/-- The nearest number to `num / den`, or `none` beyond the largest one. -/
def round (negative : Bool) (num den : Nat) : Option Binary64 :=
  if num = 0 then some (zero negative)
  else
    let guess : Int := (Nat.log2 num : Int) - Nat.log2 den - 53
    let (n, d) := scale num den guess
    let e := max (-1074) (if n / d < Nat.pow 2 53 then guess else guess + 1)
    let (n, d) := scale num den e
    let m := roundDiv n d
    let (m, e) := if m < Nat.pow 2 53 then (m, e) else (m / 2, e + 1)
    if 971 < e then none else some ⟨negative, m, e⟩

/-- The absolute value as a ratio. -/
def ratio (x : Binary64) : Nat × Nat :=
  if 0 ≤ x.exponent then (x.significand * Nat.pow 2 x.exponent.toNat, 1)
  else (x.significand, Nat.pow 2 (-x.exponent).toNat)

/-- The largest power of ten with a number of its own is `10 ^ 308`. -/
def maxPower : Nat := 308

/-- The product with a power of ten that is first rounded itself. -/
def timesPower (x : Binary64) (k : Nat) : Option Binary64 := do
  let p ← round false (Nat.pow 10 k) 1
  let (n, d) := x.ratio
  let (n', d') := p.ratio
  round x.negative (n * n') (d * d')

/-- The quotient by a power of ten that is first rounded itself. -/
def overPower (x : Binary64) (k : Nat) : Option Binary64 := do
  let p ← round false (Nat.pow 10 k) 1
  let (n, d) := x.ratio
  let (n', d') := p.ratio
  round x.negative (n * d') (d * n')

/-- Divides by `10 ^ 308` until the rest of the exponent is at most 308, at most `fuel` times. -/
def shrink : Nat → Binary64 → Nat → Option Binary64
  | 0, x, _ => some (zero x.negative)
  | fuel + 1, x, k =>
    if k ≤ maxPower then x.overPower k
    else if x.significand = 0 then some (zero x.negative)
    else do shrink fuel (← x.overPower maxPower) (k - maxPower)

/-- The number read from a significand and a power of ten: the significand is rounded, then
scaled. `none` where the scaled number would be infinite. -/
def ofScientific (negative : Bool) (significand : Nat) (exponent : Int) : Option Binary64 := do
  let x ← round negative significand 1
  if 0 ≤ exponent then
    if exponent.toNat ≤ maxPower then x.timesPower exponent.toNat
    else if significand = 0 then some (zero negative)
    else none
  else
    shrink 8 x (-exponent).toNat

end Binary64
end StageHost
