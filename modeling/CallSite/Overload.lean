import CallSite.Conversion
import CallSite.Method.Basic

/-!
# Choosing an overload

A candidate is scored against the arguments of a call site (`Converter.score`, and
`TypeTable.score` with the conversions of a type table): implicit
parameters are skipped; a variadic parameter ranks every remaining argument against its
element type; any other parameter ranks the next argument, or uses its default, or (when it
has none) makes the candidate inapplicable. A candidate with an argument of no conversion is
inapplicable too. The score is the arity fit, the worst rank and the sum of the ranks.

`TypeTable.selectBest` keeps the applicable candidates with the best score, ordered by arity
fit, then worst rank, then sum. One such candidate wins. Of several, the winner is the one
that is more specific than every other entry (`TypeTable.moreSpecific`); when there is not
exactly one such, the call is ambiguous.
-/

namespace CallSite

/-- How the number of arguments fits the parameters; lower is better. -/
inductive ArityFit where
  /-- Every parameter took an argument, or there were none to take. -/
  | exact
  /-- Some parameter used its default. -/
  | defaults
  /-- A variadic parameter took the remaining arguments. -/
  | variadic
  /-- Arguments were left over. -/
  | excess
  deriving DecidableEq, Repr

namespace ArityFit

/-- The fit as a number, from 0 for exact to 3 for excess. -/
def toNat : ArityFit → Nat
  | exact => 0
  | defaults => 1
  | variadic => 2
  | excess => 3

/-- The name of the fit, as the host reports it. -/
def name : ArityFit → String
  | exact => "EXACT"
  | defaults => "DEFAULTS"
  | variadic => "VARIADIC"
  | excess => "EXCESS"

end ArityFit

/-- How well a candidate accepts the arguments. -/
structure Score where
  arity : ArityFit
  worst : Rank
  total : Nat
  deriving DecidableEq, Repr

/-- Whether score `a` is strictly better than `b`: by arity fit, then worst rank, then sum. -/
def Score.better (a b : Score) : Bool :=
  a.arity.toNat < b.arity.toNat ||
    (a.arity.toNat == b.arity.toNat &&
      (a.worst.toNat < b.worst.toNat ||
        (a.worst.toNat == b.worst.toNat && a.total < b.total)))

/-- What walking the parameters along the arguments found: the ranks in order, the number of
arguments left over, and whether a default or a variadic parameter was used. -/
structure ArgFit where
  ranks : List Rank
  leftover : Nat
  usedDefault : Bool
  usedVariadic : Bool

/-- The score of what walking the parameters found: `none` when some argument has no
conversion. -/
def ArgFit.score (f : ArgFit) : Option Score :=
  if f.ranks.contains .impossible then none
  else
    let arity : ArityFit :=
      if 0 < f.leftover then .excess
      else if f.usedVariadic then .variadic
      else if f.usedDefault then .defaults
      else .exact
    let total := f.ranks.foldl (fun acc r => acc + r.toNat) 0
    some ⟨arity, f.ranks.foldl Rank.max .exact, total⟩

namespace Converter

variable {M : Type → Type} [Monad M]

/-- Walks the parameters along the arguments, ranking each argument against the parameter
(or element) type that takes it; `none` when a mandatory parameter has no argument. -/
def fitArgs (cv : Converter M) (elementType : Int → M Int) :
    List Param → List Argument → M (Option ArgFit)
  | [], args => pure (some ⟨[], args.length, false, false⟩)
  | p :: ps, args =>
    if p.implicit then fitArgs cv elementType ps args
    else if p.variadic then do
      let e ← elementType p.type
      let rs ← args.mapM fun a => cv.rank a.type e
      let rest ← fitArgs cv elementType ps []
      return rest.map fun f => { f with ranks := rs ++ f.ranks, usedVariadic := true }
    else
      match args with
      | a :: more => do
        let r ← cv.rank a.type p.type
        let rest ← fitArgs cv elementType ps more
        return rest.map fun f => { f with ranks := r :: f.ranks }
      | [] =>
        if p.optional then do
          let rest ← fitArgs cv elementType ps []
          return rest.map fun f => { f with usedDefault := true }
        else return none

/-- The score of `m` for the arguments, or `none` when `m` cannot accept them. The element
type of a variadic parameter comes from `elementType`. -/
def score (cv : Converter M) (elementType : Int → M Int) (m : Method) (args : List Argument) :
    M (Option Score) := do
  return (← cv.fitArgs elementType m.params args).bind ArgFit.score

end Converter

namespace TypeTable

/-- The score of `m` for the arguments, with the conversions of the type table. -/
def score (tt : TypeTable) (m : Method) (args : List Argument) : Except Fault (Option Score) :=
  tt.converter.score tt.elementType m args

/-- Whether `m` accepts the arguments. -/
def applicable (tt : TypeTable) (m : Method) (args : List Argument) : Except Fault Bool := do
  return (← tt.score m args).isSome

/-- The candidates that accept the arguments, in order. -/
def withArguments (tt : TypeTable) (ms : List Method) (args : List Argument) :
    Except Fault (List Method) :=
  ms.filterM (tt.applicable · args)

/-- Whether `a` is more specific than `b`: both have as many regular parameters, each of
`a`'s parameter types is a subtype of `b`'s at the same place, and not each of `b`'s of
`a`'s. Both directions are tested, each stopping at its first failure. -/
def moreSpecific (tt : TypeTable) (a b : Method) : Except Fault Bool := do
  let pa := a.regularParams
  let pb := b.regularParams
  if pa.length ≠ pb.length then return false
  let pairs := pa.zip pb
  let aBelow ← pairs.allM fun (x, y) => tt.isSubtype x.type y.type
  let bBelow ← pairs.allM fun (x, y) => tt.isSubtype y.type x.type
  return aBelow && !bBelow

/-- The best score of a non-empty list of scored candidates. -/
def bestScore (first : Score) (scored : List (Method × Score)) : Score :=
  scored.foldl (fun best ms => if ms.2.better best then ms.2 else best) first

/-- The single best candidate for the arguments. No applicable candidate is the fault
`noApplicableOverload name`; several best ones of which not exactly one is more specific than
every other entry are `ambiguousOverload`, named `name` or, when that is empty, after the
first of them. -/
def selectBest (tt : TypeTable) (ms : List Method) (args : List Argument) (name : String) :
    Except Fault Method := do
  let scored ← ms.filterMapM fun m => do return (← tt.score m args).map (m, ·)
  match scored with
  | [] => throw (.noApplicableOverload name)
  | (_, s) :: _ =>
    let best := bestScore s scored
    let tied := (scored.filter (·.2 = best)).map (·.1)
    match tied with
    | [w] => return w
    | _ =>
      let winners ← tied.filterM fun a =>
        tied.allM fun b => if b.id = a.id then pure true else tt.moreSpecific a b
      match winners with
      | [w] => return w
      | _ =>
        let shown := if name.isEmpty then (tied.head?.map (·.name)).getD name else name
        throw (.ambiguousOverload shown tied.length)

end TypeTable

end CallSite
