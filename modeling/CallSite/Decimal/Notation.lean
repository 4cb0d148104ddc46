import CallSite.Decimal.Shortest

/-!
# Writing a double

A double is written with its shortest decimal (`Binary64.shortest`), laid out by a
`FloatFormat`: positionally when the exponent of the leading digit lies in a range, with a
point and a zero after an integral value, and in exponent notation otherwise.

## Main definitions

* `FloatFormat.host`: the format of doubles in the text of host values.
* `Decimal.layout`: the digits of a decimal, laid out by a format.
* `Binary64.render`: the text of a double, special values and sign included.
-/

namespace CallSite

/-- How a double is written. -/
structure FloatFormat where
  /-- The least exponent of the leading digit that is written positionally. -/
  plainFrom : Int
  /-- Exponents of the leading digit from this one up are written in exponent notation. -/
  plainBelow : Int
  /-- The least number of digits of a written exponent. -/
  expWidth : Nat
  /-- The text of a NaN. -/
  nanText : String
  /-- The text of an infinity, after its sign. -/
  infText : String

/-- Doubles in the text of host values are positional from `1e-4` up to below `1e16` (an
integral value keeps `.0`), and otherwise written as `d.ddde+XX` or `d.ddde-XX` with at least
two exponent digits; NaN is `nan` and infinity `inf`. -/
def FloatFormat.host : FloatFormat := ⟨-4, 16, 2, "nan", "inf"⟩

namespace Decimal

/-- The digits of a non-negative decimal laid out by `f`: positionally, with the point
after, inside or before the digits, or in exponent notation. -/
def layout (f : FloatFormat) (d : Decimal) : String :=
  let s := Nat.toDigits 10 d.digits
  let n := s.length
  let point : Int := n + d.exp
  let e := point - 1
  if f.plainFrom ≤ e ∧ e < f.plainBelow then
    if point ≤ 0 then
      String.ofList (['0', '.'] ++ List.replicate (-point).toNat '0' ++ s)
    else if point < n then
      String.ofList (s.take point.toNat ++ '.' :: s.drop point.toNat)
    else
      String.ofList (s ++ List.replicate (point - n).toNat '0' ++ ['.', '0'])
  else
    let mantissa := match s with
      | [c] => [c]
      | c :: rest => c :: '.' :: rest
      | [] => []
    let expDigits := Nat.toDigits 10 e.natAbs
    String.ofList (mantissa ++ 'e' :: (if e < 0 then '-' else '+') ::
      List.replicate (f.expWidth - expDigits.length) '0' ++ expDigits)

example : layout .host ⟨25, -1⟩ = "2.5" ∧ layout .host ⟨1, 16⟩ = "1e+16" ∧
    layout .host ⟨1, -7⟩ = "1e-07" ∧ layout .host ⟨1, -4⟩ = "0.0001" ∧
    layout .host ⟨12, 0⟩ = "12.0" ∧ layout .host ⟨0, 0⟩ = "0.0" ∧
    layout .host ⟨18446744073709552, 3⟩ = "1.8446744073709552e+19" := by
  decide

end Decimal

namespace Binary64

/-- The text of a double in the format `f`: the text of NaN, a minus sign before a negative
number (zero included), the text of infinity, or the laid-out shortest decimal. -/
def render (f : FloatFormat) (x : Binary64) : String :=
  if x.isNaN then f.nanText
  else
    let sign := if x.signBit then "-" else ""
    if x.isInfinite then sign ++ f.infText
    else if x.isZero then sign ++ Decimal.layout f ⟨0, 0⟩
    else sign ++ x.shortest.layout f

example : render .host ⟨0x3FB999999999999A⟩ = "0.1" ∧ render .host (zero true) = "-0.0" ∧
    render .host (infinity true) = "-inf" ∧ render .host nan = "nan" ∧
    render .host ⟨1⟩ = "5e-324" := by
  decide +kernel

end Binary64

end CallSite
