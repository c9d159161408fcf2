import ScriptNotebook.Text.Digits

/-!
Supplies of cell identifiers.  A supply names the identifier of every draw in advance; drawing only
moves on to the next one.
-/
namespace ScriptNotebook

structure IdSupply where
  /-- The identifier of each draw, counted from zero. -/
  name : Nat → Text
  drawn : Nat

namespace IdSupply

def next (ids : IdSupply) : Text := ids.name ids.drawn

def advance (ids : IdSupply) : IdSupply := { ids with drawn := ids.drawn + 1 }

/-- Eight hexadecimal digits that count up from a number and begin again after `2 ^ 32` draws. -/
def sequential (start : UInt32) : IdSupply where
  name n := Text.hex 8 ((start.toNat + n) % Nat.pow 2 32)
  drawn := 0

/-- Eight hexadecimal digits in no plain order.  The factor is odd, so `2 ^ 32` draws are all
different. -/
def scattered (seed : UInt32) : IdSupply where
  name n := Text.hex 8 ((seed.toNat + n * 0x9E3779B1) % Nat.pow 2 32)
  drawn := 0

/-- The given identifiers, and empty ones after them. -/
def ofList (names : List Text) : IdSupply where
  name n := names[n]?.getD []
  drawn := 0

end IdSupply

end ScriptNotebook
