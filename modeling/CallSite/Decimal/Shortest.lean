import CallSite.Binary64.Basic

/-!
# The shortest decimal that reads back as a double

The reals that round to a finite positive double `x = m * 2 ^ q` form an interval: from
halfway to the double below to halfway to the double above, both ends included exactly when
`m` is even (ties go to the even significand). `Binary64.readsBack x d` tests whether the
decimal `d` lies in it, by exact cross-multiplication.

`Binary64.shortest x` is the decimal with the fewest significant digits in that interval and,
of two such, the one nearer to `x`; an exact tie goes to the even last digit. It tries grids
of one to seventeen significant digits in turn; on each grid only the two neighbours of `x`
can be the nearest point of the interval, so they are the only ones tested.

## Main definitions

* `Decimal`: `digits * 10 ^ exp`.
* `Binary64.readsBack`: the interval test.
* `Binary64.shortest`: the selected decimal, with trailing zeros moved into the exponent.
-/

namespace CallSite

/-- The decimal number `digits * 10 ^ exp`. -/
structure Decimal where
  digits : Nat
  exp : Int
  deriving DecidableEq, Repr

namespace Decimal

/-- The same number with the trailing zeros of its digits moved into the exponent. -/
def normalize (d : Decimal) : Decimal :=
  if h : d.digits ≠ 0 ∧ d.digits % 10 = 0 then
    normalize ⟨d.digits / 10, d.exp + 1⟩
  else d
termination_by d.digits
decreasing_by omega

example : normalize ⟨1200, -5⟩ = ⟨12, -3⟩ ∧ normalize ⟨0, 3⟩ = ⟨0, 3⟩ := by
  decide +kernel

end Decimal

/-- The number of decimal digits of `n`, at least one. -/
def digitCount (n : Nat) : Nat :=
  if n < 10 then 1 else digitCount (n / 10) + 1
termination_by n
decreasing_by omega

/-- Compares `a * 10 ^ i` with `n * 2 ^ j`, exactly. -/
def cmpScaled (a : Nat) (i : Int) (n : Nat) (j : Int) : Ordering :=
  compare (a * Nat.pow 10 i.toNat * Nat.pow 2 (-j).toNat)
    (n * Nat.pow 2 j.toNat * Nat.pow 10 (-i).toNat)

namespace Binary64

/-- Whether the decimal `d` lies among the reals that round to the finite positive `x`. -/
def readsBack (x : Binary64) (d : Decimal) : Bool :=
  let m := x.significand
  let lo := if x.narrowBelow then 4 * m - 1 else 4 * m - 2
  let hi := 4 * m + 2
  let incl := m % 2 == 0
  let cl := cmpScaled d.digits d.exp lo (x.exponent - 2)
  let ch := cmpScaled d.digits d.exp hi (x.exponent - 2)
  (cl == .gt || (incl && cl == .eq)) && (ch == .lt || (incl && ch == .eq))

/-- The least `k` with `x < 10 ^ k`, for a finite positive `x`. -/
def decimalScale (x : Binary64) : Int :=
  let q := x.exponent
  let n := x.significand * Nat.pow 2 q.toNat
  let d := Nat.pow 2 (-q).toNat
  let t : Int := (digitCount n : Int) - digitCount d
  -- `t` or `t - 1` is the exponent of the leading digit
  if d * Nat.pow 10 t.toNat ≤ n * Nat.pow 10 (-t).toNat then t + 1 else t

/-- The point of the grid `10 ^ g` that lies in the interval of `x` and is nearest to `x`, if
any lies there: the two neighbours of `x` on the grid are tested, and of two hits the nearer
is taken, an exact tie going to the even one. -/
def gridPoint (x : Binary64) (g : Int) : Option Decimal :=
  let m := x.significand
  let q := x.exponent
  let c := m * Nat.pow 2 q.toNat * Nat.pow 10 (-g).toNat /
    (Nat.pow 2 (-q).toNat * Nat.pow 10 g.toNat)
  let below : Decimal := ⟨c, g⟩
  let above : Decimal := ⟨c + 1, g⟩
  match x.readsBack below, x.readsBack above with
  | true, true =>
    match cmpScaled (2 * c + 1) g (2 * m) q with
    | .gt => some below
    | .lt => some above
    | .eq => if c % 2 = 0 then some below else some above
  | true, false => some below
  | false, true => some above
  | false, false => none

/-- The shortest decimal that reads back as the finite positive `x`, the nearest of those,
with trailing zeros moved into the exponent. Seventeen significant digits always suffice; the
exact value of `x` stands behind them. -/
def shortest (x : Binary64) : Decimal :=
  let k := x.decimalScale
  let found := (List.range' 1 17).findSome? fun (n : Nat) => x.gridPoint (k - n)
  match found with
  | some d => d.normalize
  | none =>
    let q := x.exponent
    (Decimal.mk (x.significand * Nat.pow 2 q.toNat * Nat.pow 5 (-q).toNat) (min q 0)).normalize

example : (⟨0x3FB999999999999A⟩ : Binary64).shortest = ⟨1, -1⟩ ∧
    (⟨0x3FF0000000000000⟩ : Binary64).shortest = ⟨1, 0⟩ ∧
    (⟨1⟩ : Binary64).shortest = ⟨5, -324⟩ ∧
    (⟨0x44B52D02C7E14AF6⟩ : Binary64).shortest = ⟨1, 23⟩ ∧
    (⟨0x7FEFFFFFFFFFFFFF⟩ : Binary64).shortest = ⟨17976931348623157, 292⟩ := by
  decide +kernel

end Binary64

end CallSite
