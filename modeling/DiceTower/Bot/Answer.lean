/-
# Answers

The bot answers a command with the help text, with the reply to a roll, or
with an error. An answer is shown as plain text or as one JSON object that
carries its type.

Key definitions: `Answer`, `Answer.render`, `Answer.toJson`,
`Answer.compact`.
-/
import DiceTower.Bot.Reply
import DiceTower.Json.Basic

namespace DiceTower

/-- What the bot says to a command. -/
inductive Answer where
  | help (text : Text)
  | roll (reply : Reply)
  | error (message : Text)
deriving DecidableEq

/-- A field as an object. -/
def Reply.Field.toJson (field : Reply.Field) : Json :=
  .object [("name".toList, .string field.name), ("value".toList, .string field.value)]

namespace Answer

/-- The plain text of an answer. -/
def render : Answer → Text
  | help text => text
  | roll reply => reply.render
  | error message => message

/-- An answer as an object that carries its type. -/
def toJson : Answer → Json
  | help text => .object [("type".toList, .string "help".toList), ("text".toList, .string text)]
  | roll reply =>
    .object [("type".toList, .string "roll".toList), ("title".toList, Json.ofText? reply.title),
      ("description".toList, .string reply.description),
      ("fields".toList, .array (reply.fields.map Reply.Field.toJson)),
      ("color".toList, Json.ofNat reply.color),
      ("quick_rolls".toList, .boolean reply.quickRolls)]
  | error message =>
    .object [("type".toList, .string "error".toList), ("message".toList, .string message)]

/-- The compact JSON text of an answer. -/
def compact (a : Answer) : Text := a.toJson.compact

end Answer
end DiceTower
