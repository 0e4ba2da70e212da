/-
# Replies to rolls

A reply holds everything that a front end shows of a roll: an optional title,
the text of the roll, a field for a critical, a colour, and whether quick
rolls are offered beside it, which is the case for a primary result on d20.

Key definitions: `Reply`, `Reply.ofRoll`, `Reply.render`.
-/
import DiceTower.Bot.Command
import DiceTower.Roll.Render

namespace DiceTower

/-- A named value beside the text of a reply. -/
structure Reply.Field where
  name : Text
  value : Text
deriving DecidableEq

/-- The colours of replies, as red, green and blue octets. -/
structure Palette where
  /-- The colour of a roll without a critical. -/
  plain : Nat
  /-- The colour of a critical success. -/
  success : Nat
  /-- The colour of a critical failure. -/
  failure : Nat

/-- Blue for plain rolls, green and red for criticals. -/
def palette : Palette := ⟨0x3498DB, 0x00FF00, 0xFF0000⟩

/-- What a front end shows of a roll. -/
structure Reply where
  /-- What the roll is for. -/
  title : Option Text
  /-- The text of the roll. -/
  description : Text
  /-- What is added to the text. -/
  fields : List Reply.Field
  /-- The colour, as red, green and blue octets. -/
  color : Nat
  /-- Whether quick rolls are offered beside the reply. -/
  quickRolls : Bool
deriving DecidableEq

namespace Reply

/-- The field of a critical. -/
def fieldOf : Critical → Reply.Field
  | .success => ⟨"⚡ CRITICAL SUCCESS! ⚡".toList, "Natural 20!".toList⟩
  | .failure => ⟨"💀 CRITICAL FAILURE! 💀".toList, "Natural 1!".toList⟩

/-- The colour of a critical, if there is one. -/
def colorOf : Option Critical → Nat
  | none => palette.plain
  | some .success => palette.success
  | some .failure => palette.failure

/-- The reply to a roll. -/
def ofRoll (roll : Roll) (title : Option Text) : Reply where
  title := title
  description := roll.render
  fields := (roll.critical.map fieldOf).toList
  color := colorOf roll.critical
  quickRolls := roll.primary.any fun r => r.expression.sides == criticalSides

/-! ### Text -/

/-- The title on a line of its own. -/
def renderTitle : Option Text → Text
  | none => []
  | some title => title ++ ['\n']

/-- Each field on two new lines. -/
def renderFields : List Reply.Field → Text
  | [] => []
  | field :: rest => '\n' :: field.name ++ '\n' :: field.value ++ renderFields rest

/-- The keywords of the quick rolls on a new line. -/
def renderQuickRolls (offered : Bool) : Text :=
  if offered then
    "\nQuick rolls: ".toList ++ [',', ' '].intercalate (QuickRoll.all.map QuickRoll.keyword)
  else []

/-- The text of a reply. -/
def render (r : Reply) : Text :=
  renderTitle r.title ++ r.description ++ renderFields r.fields ++ renderQuickRolls r.quickRolls

end Reply
end DiceTower
