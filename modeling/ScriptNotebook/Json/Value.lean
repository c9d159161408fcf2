import ScriptNotebook.Json.Form

/-!
What a written JSON value is worth.  Strings have to be well-formed in surrogates, numbers finite,
containers nested within the room given; objects keep the last of repeated keys.  An integer within
64 bits, signed or unsigned, is an integer, any other number a double.
-/
namespace ScriptNotebook.Json

/-- The text of written pieces.  A high surrogate needs a low one behind it, a low one a high one
in front. -/
def Piece.text? : List Piece → Option Text
  | [] => some []
  | .char c :: rest => (text? rest).map (c :: ·)
  | .unit n :: rest =>
    if 0xD800 ≤ n ∧ n < 0xDC00 then
      match rest with
      | .unit m :: rest =>
        if 0xDC00 ≤ m ∧ m < 0xE000 then
          (text? rest).map (Char.ofNat (0x10000 + (n - 0xD800) * 0x400 + (m - 0xDC00)) :: ·)
        else none
      | _ => none
    else if 0xDC00 ≤ n ∧ n < 0xE000 then none
    else (text? rest).map (Char.ofNat n :: ·)

namespace Numeral

def significandBound : Nat := Nat.pow 2 64

/-- Appends digits before the point as long as the significand stays below the bound; each digit
left out after that counts as a power of ten. -/
def takeWhole : (significand : Nat) → Text → Nat × Nat
  | s, [] => (s, 0)
  | s, d :: ds =>
    let next := s * 10 + (d.toNat - 48)
    if next < significandBound then takeWhole next ds else (s, (d :: ds).length)

/-- Appends digits behind the point as long as the significand stays below the bound; each one
appended takes a power of ten off, the others do not count. -/
def takeFraction : (significand : Nat) → Text → Nat × Nat
  | s, [] => (s, 0)
  | s, d :: ds =>
    let next := s * 10 + (d.toNat - 48)
    if next < significandBound then
      let (s, n) := takeFraction next ds
      (s, n + 1)
    else (s, 0)

def double? (n : Numeral) : Option Double :=
  let (s, up) := takeWhole 0 n.whole
  let (s, down) := takeFraction s (n.fraction.getD [])
  let shift : Int := match n.exponent with
    | none => 0
    | some (negative, ds) =>
      if negative then -(Text.decimalValue ds : Int) else Text.decimalValue ds
  Double.ofDecimal? n.negative s ((up : Int) - down + shift)

/-- A number without fraction and exponent that 64 bits hold, negative zero apart. -/
def integer? (n : Numeral) : Option Int :=
  if n.fraction = none ∧ n.exponent = none then
    let value := Text.decimalValue n.whole
    if n.negative then
      if 0 < value ∧ value ≤ Nat.pow 2 63 then some (-(value : Int)) else none
    else if value < Nat.pow 2 64 then some value else none
  else none

def json? (n : Numeral) : Option Json :=
  match n.integer? with
  | some i => some (.integer i)
  | none => n.double?.map .double

end Numeral

namespace Form

/-- How many containers may enclose each other. -/
def maxNesting : Nat := 127

mutual

/-- The value, if no more than `room` containers enclose each other in it. -/
def json? (room : Nat) : Form → Option Json
  | .null => some .null
  | .bool b => some (.bool b)
  | .number n => n.json?
  | .string ps => (Piece.text? ps).map .string
  | .array items => if room = 0 then none else (jsonItems? (room - 1) items).map .array
  | .object members => if room = 0 then none else (jsonMembers? (room - 1) members).map .ofMembers
termination_by structural f => f

def jsonItems? (room : Nat) : List Form → Option (List Json)
  | [] => some []
  | f :: fs => do return (← json? room f) :: (← jsonItems? room fs)
termination_by structural fs => fs

def jsonMembers? (room : Nat) : List (List Piece × Form) → Option (List (Text × Json))
  | [] => some []
  | (k, f) :: ms => do return (← Piece.text? k, ← json? room f) :: (← jsonMembers? room ms)
termination_by structural ms => ms

end

end Form

end ScriptNotebook.Json
