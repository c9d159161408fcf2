import ScriptNotebook.Text.Basic

/-!
Search for a word in any letter case.  The characters whose lower case has one of the letters `a` to
`z` in it are the capitals `A` to `Z`, the Kelvin sign, and the capital I with a dot, which becomes
a small i and the dot.  So lowering these decides whether the lower case of a text has a given word
of such letters in it.
-/
namespace ScriptNotebook

/-- The lower case of the characters that have an ASCII letter there, any other as it is. -/
def lowerLetters (c : Char) : Text :=
  if 'A' ≤ c ∧ c ≤ 'Z' then [Char.ofNat (c.toNat + 32)]
  else if c = '\u212a' then ['k']
  else if c = '\u0130' then ['i', '\u0307']
  else [c]

namespace Text

/-- The text has the word, given in small letters, in any letter case. -/
def mentions (word t : Text) : Bool := contains word (t.flatMap lowerLetters)

example : mentions "markdown".toList "[MAR\u212aDown]".toList = true := by decide

end Text

end ScriptNotebook
