/-
# The help text

The help text explains the commands, with the command prefix filled into the
examples.

Key definition: `helpText`.
-/
import DiceTower.Text.Basic

namespace DiceTower

/-- The help text up to the first place of the command prefix. -/
def helpStart : Text := "**Command Syntax**\nall Commands are prefixed with `".toList

/-- The help text on calls for help and on plain rolls. -/
def helpRolls : Text :=
  ("`.\nThe prefix is recognized both with or without following whitespace.\n\n" ++
    "`help`, `h` => show this help text\n" ++
    "`roll [dice]`, `r [dice]` => roll dice written as `XdY+Z`, e.g. `2d6+3`. " ++
    "Several expressions in one message are rolled together and summed: `").toList

/-- The help text on policies and quick rolls. -/
def helpPolicies : Text :=
  ("r 2d6 for damage 1d4`\n" ++
    "`advantage [dice]`, `adv [dice]` => roll twice and keep the higher total\n" ++
    "`disadvantage [dice]`, `dis [dice]` => roll twice and keep the lower total\n" ++
    "`quick [attack|save|check|initiative]`, `q [...]` => roll a d20 for a common check\n\n" ++
    "Append `# [reason]` to a roll to say what it is for, e.g. `").toList

/-- The help text behind the last place of the command prefix. -/
def helpEnd : Text :=
  "adv 1d20+5 # stealth`.\nDice counts go from 1 to 100, sides from 2 to 1000.".toList

/-- The help text for a command prefix. -/
def helpText (lead : Text) : Text :=
  helpStart ++ lead ++ helpRolls ++ lead ++ helpPolicies ++ lead ++ helpEnd

end DiceTower
