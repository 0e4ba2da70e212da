/-
# Commands

A message that starts with the command prefix is a command; one that starts
with a roll prefix and holds at least one notation in front of its first `#`
is a roll. Anything else is not meant for the bot. What stands behind the
first `#` is the reason of a roll.

After the command prefix the readers of quick rolls, policy rolls, help and
plain rolls are tried in this order. The first that succeeds decides: if
anything but blanks follows, or if none succeeds, the command asks for help.

Key definitions: `QuickRoll`, `Command`, `Command.body`,
`Command.ofCommandText`, `Command.parse`, `Command.render`.
Key theorems: `Command.parse_of_not_lead`, `Command.parse_of_lead`.
-/
import DiceTower.Dice.Notation
import DiceTower.Roll.Basic
import DiceTower.Text.Keyword

namespace DiceTower

open Text

/-! ### Quick rolls -/

/-- A d20 roll for a common occasion. -/
inductive QuickRoll where
  | attack
  | save
  | check
  | initiative
deriving DecidableEq

namespace QuickRoll

/-- What a quick roll rolls. -/
def token : Text := "1d20".toList

/-- All quick rolls, in the order in which they are offered. -/
def all : List QuickRoll := [attack, save, check, initiative]

/-- The word that asks for a quick roll. -/
def keyword : QuickRoll → Text
  | attack => "attack".toList
  | save => "save".toList
  | check => "check".toList
  | initiative => "initiative".toList

/-- The title of a quick roll. -/
def title : QuickRoll → Text
  | attack => "Attack Roll".toList
  | save => "Saving Throw".toList
  | check => "Ability Check".toList
  | initiative => "Initiative".toList

end QuickRoll

/-! ### Commands -/

/-- What a message asks of the bot. -/
inductive Command where
  /-- The help text. -/
  | help
  /-- A quick roll. -/
  | quick (roll : QuickRoll)
  /-- The notations of a text, or one notation under a policy. -/
  | roll (text : Text) (policy : Option Policy) (reason : Option Text)
deriving DecidableEq

namespace Command

/-- A text, unless it is empty. -/
def unlessEmpty (text : Text) : Option Text := if text = [] then none else some text

/-- The dice text in front of the first `#`, and the reason behind it. -/
def body (text : Text) : Text × Option Text :=
  (trim (text.takeWhile (· ≠ '#')), unlessEmpty (trim ((text.dropWhile (· ≠ '#')).drop 1)))

/-- The roll of a body under a policy, if there is one. -/
def ofBody (text : Text) (policy : Option Policy) : Command :=
  roll (body text).1 policy (body text).2

/-! ### The readers behind the command prefix -/

/-- What a reader finds at the start of a text: a command and the rest, or
nothing. -/
abbrev Found := Except SplitCharacter (Option (Command × Text))

/-- A quick roll: its keyword and the name of the occasion, with blanks between. -/
def quickRoll (text : Text) : Found :=
  match oneOf [("quick".toList, ()), ("q".toList, ())] text with
  | .error e => .error e
  | .ok none => .ok none
  | .ok (some (_, rest)) =>
    match skipBlanks1? rest with
    | none => .ok none
    | some rest =>
      match oneOf (QuickRoll.all.map fun q => (q.keyword, quick q)) rest with
      | .error e => .error e
      | .ok found => .ok found

/-- The keywords of the policies. -/
def policyKeywords : List (Text × Policy) :=
  [("advantage".toList, .advantage), ("adv".toList, .advantage),
    ("disadvantage".toList, .disadvantage), ("dis".toList, .disadvantage)]

/-- A roll under a policy: its keyword, blanks, and the body. -/
def policyRoll (text : Text) : Found :=
  match oneOf policyKeywords text with
  | .error e => .error e
  | .ok none => .ok none
  | .ok (some (policy, rest)) =>
    match skipBlanks1? rest with
    | none => .ok none
    | some rest => .ok (some (ofBody rest (some policy), []))

/-- A call for help. -/
def helpCall (text : Text) : Found :=
  match oneOf [("help".toList, ()), ("h".toList, ())] text with
  | .error e => .error e
  | .ok none => .ok none
  | .ok (some (_, rest)) => .ok (some (help, rest))

/-- A plain roll: its keyword and the body. -/
def plainRoll (text : Text) : Found :=
  match oneOf [("roll".toList, ()), ("r".toList, ())] text with
  | .error e => .error e
  | .ok none => .ok none
  | .ok (some (_, rest)) => .ok (some (ofBody (skipBlanks rest) none, []))

/-- The readers, in the order in which they are tried. -/
def readers : List (Text → Found) := [quickRoll, policyRoll, helpCall, plainRoll]

/-- What the first successful reader finds. -/
def firstFound : List (Text → Found) → Text → Found
  | [], _ => .ok none
  | reader :: others, text =>
    match reader text with
    | .error e => .error e
    | .ok (some found) => .ok (some found)
    | .ok none => firstFound others text

/-- The command of the text behind the command prefix. -/
def ofCommandText (text : Text) : Except SplitCharacter Command :=
  match firstFound readers (skipBlanks text) with
  | .error e => .error e
  | .ok none => .ok help
  | .ok (some (command, rest)) => if skipBlanks rest = [] then .ok command else .ok help

/-! ### Messages -/

/-- The roll of a message that starts with a roll prefix. -/
def ofRollMessage? (message lead : Text) : Option Command :=
  match lead.isPrefixOf? message with
  | none => none
  | some rest =>
    if Notation.tokens (body (skipBlanks rest)).1 = [] then none
    else some (ofBody (skipBlanks rest) none)

/-- The command of a message, if it is meant for the bot. -/
def parse (commandPrefix : Text) (rollPrefixes : List Text) (message : Text) :
    Except SplitCharacter (Option Command) :=
  match commandPrefix.isPrefixOf? message with
  | some rest =>
    match ofCommandText rest with
    | .error e => .error e
    | .ok command => .ok (some command)
  | none => .ok (rollPrefixes.findSome? (ofRollMessage? message))

/-- A message without the command prefix is a roll of the first roll prefix that fits. -/
theorem parse_of_not_lead {lead message : Text} (h : lead.isPrefixOf? message = none)
    (rollPrefixes : List Text) :
    parse lead rollPrefixes message = .ok (rollPrefixes.findSome? (ofRollMessage? message)) := by
  simp [parse, h]

/-- The roll prefixes have no say in a message with the command prefix. -/
theorem parse_of_lead {lead message rest : Text} (h : lead.isPrefixOf? message = some rest)
    (rollPrefixes : List Text) :
    parse lead rollPrefixes message = (ofCommandText rest).map some := by
  simp only [parse, h]
  cases ofCommandText rest <;> rfl

/-! ### Writing commands -/

/-- The keyword of a roll, with the blank behind it. -/
def rollKeyword : Option Policy → Text
  | none => "roll ".toList
  | some .advantage => "adv ".toList
  | some .disadvantage => "dis ".toList

/-- The reason behind its mark. -/
def renderReason : Option Text → Text
  | none => []
  | some reason => " # ".toList ++ reason

/-- The text that asks for a command behind the command prefix. -/
def render : Command → Text
  | help => "help".toList
  | quick q => "q ".toList ++ q.keyword
  | roll text policy reason => rollKeyword policy ++ text ++ renderReason reason

end Command
end DiceTower
