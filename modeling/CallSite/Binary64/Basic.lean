/-!
# Double-precision numbers by their bits

A `Binary64` is an IEEE 754 double-precision number, kept as its 64 bits: one sign bit, an
11-bit exponent field and a 52-bit fraction field. Everything this library does with such
numbers (rounding a ratio to the nearest one, cutting one to an integer, writing its shortest
decimal) is exact arithmetic on `Nat` and `Int` over these fields, so every step can be
evaluated and reasoned about in the logic.

A finite number has magnitude `significand * 2 ^ exponent`: with a zero exponent field the
significand is the fraction and the exponent is -1074, and otherwise the significand carries
the hidden leading bit `2 ^ 52` and the exponent is the field less 1075.

`Binary64.ofRatio` gives the double nearest to a non-negative ratio `n / d`, a tie going to
the even significand and a magnitude beyond the largest finite double going to infinity.
`Binary64.truncate` cuts a finite double toward zero to an integer.

## Implementation notes

The ratio is scaled by a power of two so that its integer part has 53 bits (fewer below the
normal range, where the exponent stops at -1074), then `roundHalfEven` rounds the scaled
quotient. Rounding up may carry into a 54th bit, which moves the exponent up by one.
-/

namespace CallSite

/-- An IEEE 754 double-precision number, by its 64 bits. -/
structure Binary64 where
  bits : UInt64
  deriving DecidableEq, Repr

namespace Binary64

/-- Whether the sign bit is set. -/
def signBit (x : Binary64) : Bool := Nat.pow 2 63 ≤ x.bits.toNat

/-- The 11-bit exponent field. -/
def exponentField (x : Binary64) : Nat := x.bits.toNat / Nat.pow 2 52 % Nat.pow 2 11

/-- The 52-bit fraction field. -/
def fractionField (x : Binary64) : Nat := x.bits.toNat % Nat.pow 2 52

/-- Whether `x` is not a number. -/
def isNaN (x : Binary64) : Bool := x.exponentField == 2047 && x.fractionField != 0

/-- Whether `x` is an infinity. -/
def isInfinite (x : Binary64) : Bool := x.exponentField == 2047 && x.fractionField == 0

/-- Whether `x` is a zero of either sign. -/
def isZero (x : Binary64) : Bool := x.exponentField == 0 && x.fractionField == 0

/-- The significand of a finite number: the fraction, with the hidden bit unless the exponent
field is zero. -/
def significand (x : Binary64) : Nat :=
  if x.exponentField = 0 then x.fractionField else Nat.pow 2 52 + x.fractionField

/-- The power of two that scales the significand of a finite number. -/
def exponent (x : Binary64) : Int :=
  if x.exponentField = 0 then -1074 else (x.exponentField : Int) - 1075

/-- Whether the gap to the next smaller magnitude is half the gap to the next larger one:
the case of a power of two above the smallest normal number. -/
def narrowBelow (x : Binary64) : Bool := x.fractionField == 0 && 1 < x.exponentField

/-- The number with the given sign, exponent field and fraction field. -/
def ofFields (neg : Bool) (e f : Nat) : Binary64 :=
  ⟨UInt64.ofNat ((if neg then Nat.pow 2 63 else 0) + e * Nat.pow 2 52 + f)⟩

/-- The zero of the given sign. -/
def zero (neg : Bool) : Binary64 := ofFields neg 0 0

/-- The infinity of the given sign. -/
def infinity (neg : Bool) : Binary64 := ofFields neg 2047 0

/-- The quiet not-a-number. -/
def nan : Binary64 := ofFields false 2047 (Nat.pow 2 51)

/-- The number one. -/
def one : Binary64 := ofFields false 1023 0

example : one.significand = 2 ^ 52 ∧ one.exponent = -52 ∧ (infinity true).signBit = true ∧
    nan.isNaN = true ∧ (zero true).isZero = true := by
  decide

end Binary64

/-! ## Rounding -/

/-- The quotient `num / den` rounded to the nearest integer, a tie going to the even one. -/
def roundHalfEven (num den : Nat) : Nat :=
  let q := num / den
  let r := num % den
  if den < 2 * r ∨ (2 * r = den ∧ q % 2 = 1) then q + 1 else q

example : roundHalfEven 5 2 = 2 ∧ roundHalfEven 7 2 = 4 ∧ roundHalfEven 8 3 = 3 := by decide

/-- The integer `k` with `2 ^ k ≤ n / d < 2 ^ (k + 1)`, for positive `n` and `d`. -/
def floorLog2 (n d : Nat) : Int :=
  let t : Int := (Nat.log2 n : Int) - Nat.log2 d
  if d * Nat.pow 2 t.toNat ≤ n * Nat.pow 2 (-t).toNat then t else t - 1

example : floorLog2 1 1 = 0 ∧ floorLog2 3 4 = -1 ∧ floorLog2 1024 3 = 8 := by decide

namespace Binary64

/-- The double nearest to `n / d`, with the sign bit set when `neg`: a tie goes to the even
significand, and a magnitude that rounds beyond the largest finite double is infinity. A zero
numerator (or denominator) gives the zero of that sign. -/
def ofRatio (neg : Bool) (n d : Nat) : Binary64 :=
  if n = 0 ∨ d = 0 then zero neg
  else
    let e : Int := max (floorLog2 n d - 52) (-1074)
    let q := roundHalfEven (n * Nat.pow 2 (-e).toNat) (d * Nat.pow 2 e.toNat)
    if q < Nat.pow 2 52 then ofFields neg 0 q
    else
      let (q, e) := if q = Nat.pow 2 53 then (Nat.pow 2 52, e + 1) else (q, e)
      if 971 < e then infinity neg else ofFields neg (e + 1075).toNat (q - Nat.pow 2 52)

/-- The double nearest to an integer. -/
def ofInt (i : Int) : Binary64 := ofRatio (i < 0) i.natAbs 1

example : ofInt 1 = one ∧ (ofInt (2 ^ 53 + 1)).bits = 0x4340000000000000 ∧
    (ofInt (2 ^ 1024)).isInfinite = true ∧ (ofRatio false 1 10).bits = 0x3FB999999999999A ∧
    (ofRatio false 1 (2 ^ 1075)).isZero = true ∧ (ofRatio false 3 (2 ^ 1076)).bits = 1 := by
  decide +kernel

/-- A finite double cut toward zero to an integer. -/
def truncate (x : Binary64) : Int :=
  let m := x.significand
  let q := x.exponent
  let a : Nat := m * Nat.pow 2 q.toNat / Nat.pow 2 (-q).toNat
  if x.signBit then -a else a

example : (ofInt (-7)).truncate = -7 ∧ (ofRatio true 5 2).truncate = -2 := by decide +kernel

end Binary64

end CallSite
