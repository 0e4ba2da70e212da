/-
# The text of a roll

A result is written as its notation in bold, the list of its faces with the
signed modifier behind it unless that is zero, and its total in bold. A kept
roll adds the policy and the total that was put aside; a batch stands under a
heading, each result followed by an empty line, and ends with the grand
total.

Key definitions: `Result.render`, `Kept.render`, `Batch.render`,
`Roll.render`.
-/
import DiceTower.Text.Digits
import DiceTower.Roll.Basic

namespace DiceTower

open Text

/-- Faces with a comma and a space between neighbours. -/
def renderFaces : List Nat → Text
  | [] => []
  | [face] => ofNat face
  | face :: rest => ofNat face ++ ", ".toList ++ renderFaces rest

/-- The signed modifier after a space; a modifier of zero is not written. -/
def renderModifier (modifier : Int) : Text :=
  if modifier = 0 then [] else ' ' :: ofIntSigned modifier

/-- The notation, the faces with the modifier, and the total, a line each. -/
def Result.render (r : Result) : Text :=
  "🎲 **".toList ++ r.expression.written ++ "**\nRolls: [".toList ++ renderFaces r.faces ++
    "]".toList ++ renderModifier r.expression.modifier ++ "\n**Total: ".toList ++ ofInt r.total ++
    "**".toList

/-- The kept result with the policy, and the other total on a line of its own. -/
def Kept.render (k : Kept) : Text :=
  k.chosen.render ++ " (".toList ++ k.policy.name ++ ")\n*Other roll: ".toList ++
    ofInt k.other.total ++ "*".toList

/-- Results, each followed by an empty line. -/
def renderResults : List Result → Text
  | [] => []
  | r :: rest => r.render ++ "\n\n".toList ++ renderResults rest

/-- A heading, the results, and the grand total. -/
def Batch.render (b : Batch) : Text :=
  "**Multiple Rolls**\n".toList ++ renderResults b.results ++ "**Grand Total: ".toList ++
    ofInt b.grandTotal ++ "**".toList

/-- The text of a roll. -/
def Roll.render : Roll → Text
  | .simple result => result.render
  | .kept pair => pair.render
  | .batch b => b.render

end DiceTower
