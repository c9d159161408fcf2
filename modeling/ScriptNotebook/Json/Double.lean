import ScriptNotebook.Text.Digits

/-!
Finite double-precision numbers in exact arithmetic on natural numbers: rounding a quotient to the
nearest one, ties to even, products and quotients, and the text with the fewest digits that still
lies nearer to the number than to its neighbours.
-/
namespace ScriptNotebook

/-- The number `mantissa * 2 ^ exponent` with a sign; zero keeps its sign too. -/
structure Double where
  negative : Bool
  mantissa : Nat
  exponent : Int
  deriving DecidableEq, Repr

namespace Double

def minExponent : Int := -1074
def maxExponent : Int := 971

def zero (negative : Bool) : Double := ⟨negative, 0, minExponent⟩

def isZero (x : Double) : Bool := x.mantissa == 0

/-- The quotient of two numbers by `2 ^ e`, again as a quotient. -/
def overPower (num den : Nat) (e : Int) : Nat × Nat :=
  if 0 ≤ e then (num, den * Nat.pow 2 e.toNat) else (num * Nat.pow 2 (-e).toNat, den)

/-- The nearest integer to a quotient, the even one of two equally near. -/
def roundQuotient (num den : Nat) : Nat :=
  let q := num / den
  let r := num % den
  if den < 2 * r ∨ (den = 2 * r ∧ q % 2 = 1) then q + 1 else q

/-- The exponent at which a quotient has a mantissa of 53 bits, or the least exponent. -/
def exponentFor (num den : Nat) : Int :=
  let e := max minExponent ((num.log2 : Int) - den.log2 - 52)
  let (n, d) := overPower num den e
  if n < d * Nat.pow 2 52 then max minExponent (e - 1) else e

/-- The double nearest to `num / den`; there is none when that is too large. -/
def ofQuotient? (negative : Bool) (num den : Nat) : Option Double :=
  if num = 0 then some (zero negative)
  else
    let e := exponentFor num den
    let (n, d) := overPower num den e
    let m := roundQuotient n d
    let (m, e) := if m = Nat.pow 2 53 then (Nat.pow 2 52, e + 1) else (m, e)
    if maxExponent < e then none else some ⟨negative, m, e⟩

def quotient (x : Double) : Nat × Nat :=
  if 0 ≤ x.exponent then (x.mantissa * Nat.pow 2 x.exponent.toNat, 1)
  else (x.mantissa, Nat.pow 2 (-x.exponent).toNat)

/-- The rounded product with `10 ^ n`, the power itself being rounded first. -/
def timesPower? (x : Double) (n : Nat) : Option Double := do
  let power ← ofQuotient? false (Nat.pow 10 n) 1
  let (a, b) := x.quotient
  let (c, d) := power.quotient
  ofQuotient? x.negative (a * c) (b * d)

def overPower? (x : Double) (n : Nat) : Option Double := do
  let power ← ofQuotient? false (Nat.pow 10 n) 1
  let (a, b) := x.quotient
  let (c, d) := power.quotient
  ofQuotient? x.negative (a * d) (b * c)

def maxPower : Nat := 308

/-- Division by `10 ^ n` in steps of at most `10 ^ 308`.  Two whole steps take any number below
`2 ^ 64` to zero, so more than three steps never matter. -/
def scaleDown? : (steps : Nat) → Double → Nat → Option Double
  | 0, x, _ => some (zero x.negative)
  | steps + 1, x, n =>
    if n ≤ maxPower then x.overPower? n
    else do scaleDown? steps (← x.overPower? maxPower) (n - maxPower)

/-- The number `significand * 10 ^ exponent` as it is read: the significand is rounded, and then
the result of each step of scaling.  There is none when it is too large. -/
def ofDecimal? (negative : Bool) (significand : Nat) (exponent : Int) : Option Double := do
  let x ← ofQuotient? negative significand 1
  if x.isZero then return x
  match exponent with
  | .ofNat n => if n ≤ maxPower then x.timesPower? n else none
  | .negSucc n => scaleDown? 3 x (n + 1)

/-- The interval of the numbers that round to `mantissa * 2 ^ exponent`, as numerators over four
units of that exponent: the half-way points below and above, which belong to it when the mantissa
is even. -/
structure Rounding where
  low : Nat
  high : Nat
  closed : Bool

def rounding (x : Double) : Rounding where
  low := if x.mantissa = Nat.pow 2 52 ∧ minExponent < x.exponent then 4 * x.mantissa - 1
    else 4 * x.mantissa - 2
  high := 4 * x.mantissa + 2
  closed := x.mantissa % 2 == 0

/-- The quotient of a number of quarter units of `2 ^ e` by `10 ^ g`. -/
def overGrid (quarters : Nat) (e g : Int) : Nat × Nat :=
  let num := if 0 ≤ e then quarters * Nat.pow 2 e.toNat else quarters
  let den := if 0 ≤ e then 4 else 4 * Nat.pow 2 (-e).toNat
  if 0 ≤ g then (num, den * Nat.pow 10 g.toNat) else (num * Nat.pow 10 (-g).toNat, den)

/-- The multiple of `10 ^ g` that rounds to the number and is nearest to it, the even one of two
equally near. -/
def onGrid? (x : Double) (g : Int) : Option Nat :=
  let r := x.rounding
  let fits (d : Nat) : Bool :=
    let (lowNum, lowDen) := overGrid r.low x.exponent g
    let (highNum, highDen) := overGrid r.high x.exponent g
    if r.closed then lowNum ≤ d * lowDen && d * highDen ≤ highNum
    else lowNum < d * lowDen && d * highDen < highNum
  let (num, den) := overGrid (4 * x.mantissa) x.exponent g
  let near := roundQuotient num den
  if fits near then some near
  else if fits (num / den) then some (num / den)
  else if fits (num / den + 1) then some (num / den + 1)
  else none

/-- The first grid, going from `10 ^ g` to finer ones, with a point that rounds to the number. -/
def firstGrid : (steps : Nat) → Double → Int → Nat × Int
  | 0, _, g => (0, g)
  | steps + 1, x, g =>
    match x.onGrid? g with
    | some d => (d, g)
    | none => firstGrid steps x (g - 1)

def powerAbove (x : Double) : Int := ((x.mantissa.log2 : Int) + x.exponent) * 30103 / 100000 + 2

/-- The fewest digits that read back, and the power of ten of the last one.  Twenty grids below a
power above the number there are more than seventeen digits, which always suffice. -/
def shortest (x : Double) : Nat × Int :=
  if x.isZero then (0, 0) else firstGrid 24 x x.powerAbove

/-- Positional notation reaches from `10 ^ (-5)` to below `10 ^ 16`; outside it the text has an
exponent with its sign. -/
def text (x : Double) : Text :=
  let sign : Text := if x.negative then ['-'] else []
  let (value, last) := x.shortest
  let digits := Text.decimal value
  let point : Int := digits.length + last
  if value = 0 then sign ++ "0.0".toList
  else if 0 < point ∧ point ≤ 16 then
    if 0 ≤ last then sign ++ digits ++ List.replicate last.toNat '0' ++ ".0".toList
    else sign ++ digits.take point.toNat ++ '.' :: digits.drop point.toNat
  else if -5 < point ∧ point ≤ 0 then
    sign ++ "0.".toList ++ List.replicate (-point).toNat '0' ++ digits
  else
    let fraction : Text := if digits.length = 1 then [] else '.' :: digits.drop 1
    let exponent := point - 1
    sign ++ digits.take 1 ++ fraction ++ ['e', if exponent < 0 then '-' else '+']
      ++ Text.decimal exponent.natAbs

example : (ofDecimal? false 1 16).map text = some "1e+16".toList := by decide

example : (ofDecimal? true 15 (-8)).map text = some "-1.5e-7".toList := by decide +kernel

end Double

end ScriptNotebook
