import CallSite.Binary64.Basic
import CallSite.Decimal.Shortest

/-!
# Reading a double

The literals of doubles: an optional sign, then either the words `inf`, `infinity` or `nan` in
any mix of case, or digits with an optional point (at least one digit in all) and an optional
exponent `e` or `E` with an optional sign and at least one digit. The value is the double
nearest to the decimal; a magnitude beyond the doubles is infinity and one below half the
least double is zero.

## Main definitions

* `Decimal.toBinary64`: the double nearest to a signed decimal.
* `readDouble?`: the double a literal stands for.
-/

namespace CallSite

namespace Decimal

/-- The double nearest to the decimal, with the sign bit set when `neg`. Decimals far beyond
either end of the doubles are decided by their number of digits alone. -/
def toBinary64 (neg : Bool) (d : Decimal) : Binary64 :=
  if d.digits = 0 then Binary64.zero neg
  else
    -- `10 ^ (size - 1) ≤ d < 10 ^ size`
    let size : Int := digitCount d.digits + d.exp
    if 310 < size then Binary64.infinity neg
    else if size < -330 then Binary64.zero neg
    else Binary64.ofRatio neg (d.digits * Nat.pow 10 d.exp.toNat) (Nat.pow 10 (-d.exp).toNat)

end Decimal

/-- The ASCII digits at the front of `cs`, and the rest. -/
def spanDigits (cs : List Char) : List Char × List Char :=
  (cs.takeWhile Char.isDigit, cs.dropWhile Char.isDigit)

/-- The value of a list of ASCII digits. -/
def digitsValue (ds : List Char) : Nat :=
  ds.foldl (fun acc c => 10 * acc + (c.toNat - '0'.toNat)) 0

/-- An optional sign at the front of `cs`: whether it is a minus, and the rest. -/
def splitSign : List Char → Bool × List Char
  | '+' :: rest => (false, rest)
  | '-' :: rest => (true, rest)
  | cs => (false, cs)

/-- The decimal of an unsigned finite literal: digits, an optional point and digits, at
least one digit in all, and an optional exponent. -/
def readUnsignedDecimal? (cs : List Char) : Option Decimal :=
  let (whole, rest) := spanDigits cs
  let (frac, rest) := match rest with
    | '.' :: r => spanDigits r
    | r => ([], r)
  if whole.isEmpty && frac.isEmpty then none
  else
    let digits := digitsValue (whole ++ frac)
    let scale : Int := frac.length
    match rest with
    | [] => some ⟨digits, -scale⟩
    | c :: r =>
      if c = 'e' ∨ c = 'E' then
        let (expNeg, r) := splitSign r
        let (expDigits, r) := spanDigits r
        if expDigits.isEmpty || !r.isEmpty then none
        else
          let e : Int := digitsValue expDigits
          some ⟨digits, (if expNeg then -e else e) - scale⟩
      else none

/-- The double that a literal stands for, or nothing when the text is no literal. -/
def readDouble? (cs : List Char) : Option Binary64 :=
  let (neg, body) := splitSign cs
  let word := body.map Char.toLower
  if word = "inf".toList ∨ word = "infinity".toList then some (Binary64.infinity neg)
  else if word = "nan".toList then some Binary64.nan
  else (readUnsignedDecimal? body).map (Decimal.toBinary64 neg)

example : readDouble? "2.5".toList = some ⟨0x4004000000000000⟩ ∧
    readDouble? "-Infinity".toList = some (Binary64.infinity true) ∧
    readDouble? "1e400".toList = some (Binary64.infinity false) ∧
    readDouble? "-0.0".toList = some (Binary64.zero true) ∧
    readDouble? ".5e1".toList = some ⟨0x4014000000000000⟩ ∧
    readDouble? "1.".toList = some Binary64.one ∧
    readDouble? "1e".toList = none ∧ readDouble? ".".toList = none ∧
    readDouble? "infin".toList = none := by
  decide +kernel

end CallSite
