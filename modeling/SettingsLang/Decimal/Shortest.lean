import SettingsLang.Decimal.Binary64

/-!
The shortest decimal that reads back to a binary64 number. The reals that round to a number form
an interval around it; on the grids of one, two, … seventeen digits the number's two neighbours
are tried, and the first grid with a neighbour in the interval gives the digits. Of two such
neighbours the nearer one is taken, and of two equally near ones the upper.
-/

namespace SettingsLang.Binary64

attribute [local instance (high)] instPowNat

/-- The place of the decimal point of `num / den > 0`: the `p` with
`10 ^ (p - 1) ≤ num / den < 10 ^ p`. -/
def decimalPoint (num den : Nat) : Int :=
  if den ≤ num then Decimal.width (num / den)
  else 1 - (Decimal.width ((den - 1) / num) : Int)

/-- A number as fractions over one denominator: the number itself and the ends of the interval of
reals that round to it. The ends belong to it if the significand is even. -/
structure Neighbourhood where
  low : Nat
  value : Nat
  high : Nat
  denominator : Nat
  closed : Bool

/-- The interval of reals that round to a finite number. Below a power of two the next number is
half as far away as above it, unless the number is among the smallest. -/
def neighbourhood (x : Binary64) : Neighbourhood :=
  let m := x.significand
  let low := if x.fraction.val = 0 ∧ 1 < x.exponent.val then 4 * m - 1 else 4 * m - 2
  let q := x.scale - 2
  let up := 2 ^ q.toNat
  { low := low * up, value := 4 * m * up, high := (4 * m + 2) * up
    denominator := 2 ^ (-q).toNat, closed := m % 2 == 0 }

/-- The decimal `digits · 10 ^ exponent` on the grid of `10 ^ exponent` that rounds to the number,
if the grid has one: the nearer one of the number's two neighbours, the upper one of two equally
near. -/
def Neighbourhood.onGrid? (n : Neighbourhood) (exponent : Int) : Option Nat :=
  let raise := 10 ^ (-exponent).toNat
  let step := n.denominator * 10 ^ exponent.toNat
  let value := n.value * raise
  let below := value / step
  let inside (point : Nat) : Bool :=
    if n.closed then n.low * raise ≤ point * step && point * step ≤ n.high * raise
    else n.low * raise < point * step && point * step < n.high * raise
  let nearer :=
    if (below + 1) * step - value ≤ value - below * step then below + 1 else below
  match inside below, inside (below + 1) with
  | true, true => some nearer
  | true, false => some below
  | false, true => some (below + 1)
  | false, false => none

/-- The first grid with a decimal that rounds to the number, from the coarsest that has a digit
of it on; `tries` bounds the digits. -/
def Neighbourhood.firstOnGrid (n : Neighbourhood) : (tries : Nat) → (exponent : Int) → Nat × Int
  | 0, exponent => (n.value * 10 ^ (-exponent).toNat / (n.denominator * 10 ^ exponent.toNat), exponent)
  | tries + 1, exponent =>
    match n.onGrid? exponent with
    | some digits => (digits, exponent)
    | none => n.firstOnGrid tries (exponent - 1)

/-- The shortest decimal, as integer and power of ten, that reads back to a finite number other
than zero. -/
def shortest (x : Binary64) : Nat × Int :=
  let n := x.neighbourhood
  n.firstOnGrid 17 (decimalPoint n.value n.denominator - 1)

/-- How a number is laid out: positionally if its leading digit stands for a power of ten from
`plainFrom` on and below `plainBelow`, with an exponent otherwise. -/
structure Layout where
  plainFrom : Int
  plainBelow : Int
  nanText : String
  infinityText : String

/-- Numbers from 0.0001 on and below 10 ^ 16 are positional and have at least one digit after the
point; others are `d.ddde-dd`, without a point if there is one digit. -/
def scalarLayout : Layout where
  plainFrom := -4
  plainBelow := 16
  nanText := "NaN"
  infinityText := "inf"

/-- Every number is positional: none has its leading digit outside these bounds. -/
def positionalLayout : Layout where
  plainFrom := -400
  plainBelow := 400
  nanText := "NaN"
  infinityText := "inf"

/-- Digits and the place of the decimal point among them, written positionally. -/
def positional (ds : List Char) (point : Int) : List Char :=
  if point ≤ 0 then '0' :: '.' :: List.replicate (-point).toNat '0' ++ ds
  else if ds.length ≤ point.toNat then
    ds ++ List.replicate (point.toNat - ds.length) '0' ++ ['.', '0']
  else ds.take point.toNat ++ '.' :: ds.drop point.toNat

/-- Digits and the place of the decimal point among them, written with an exponent. -/
def scientific (ds : List Char) (point : Int) : List Char :=
  let exponent := (Decimal.integerText (point - 1)).toList
  match ds with
  | [] => 'e' :: exponent
  | [d] => d :: 'e' :: exponent
  | d :: ds => d :: '.' :: ds ++ 'e' :: exponent

def withoutTrailingZeros (ds : List Char) : List Char :=
  (ds.reverse.dropWhile (· == '0')).reverse

def magnitudeText (layout : Layout) (x : Binary64) : List Char :=
  if x.isNaN then layout.nanText.toList
  else if x.isInfinite then layout.infinityText.toList
  else if x.significand = 0 then ['0', '.', '0']
  else
    let (number, exponent) := x.shortest
    let ds := Decimal.digits number
    let point := exponent + ds.length
    if layout.plainFrom < point ∧ point ≤ layout.plainBelow then
      positional (withoutTrailingZeros ds) point
    else scientific (withoutTrailingZeros ds) point

/-- The text of a number in a layout. A NaN has no sign, a zero has one. -/
def textIn (layout : Layout) (x : Binary64) : String :=
  let magnitude := magnitudeText layout x
  String.ofList (if x.negative && !x.isNaN then '-' :: magnitude else magnitude)

def render (x : Binary64) : String :=
  x.textIn scalarLayout

end SettingsLang.Binary64
