/-
# The command line

The program takes the path of its settings file, `table-bot.toml` if none is
given, and answers standard input line by line on standard output, until the
input ends or an answer can not be written. Its log goes to standard error and
shows errors only. The dealer's key is drawn from the system and renewed when it
is as old as the settings allow.

Key definition: `main`.
-/
import DiceTower.Console
import DiceTower.Settings.Plain

namespace DiceTower
namespace CommandLine

/-- The settings file when none is named. -/
def defaultPath : String := "table-bot.toml"

/-- Which lines the log shows. -/
def verbosity : Verbosity := .errors

/-- Shows the lines that are grave enough. -/
def showLog (lines : List LogLine) : IO Unit := do
  for (level, message) in lines do
    if verbosity.shows level then
      let mark := match level with
        | .warning => "WARN"
        | .error => "ERROR"
      IO.eprintln s!" {mark} {String.ofList message}"

/-- What stands at the path, and how the system takes to reading it. -/
def readFile (path : String) : IO (SettingsFile × Access) := do
  try
    let content ← IO.FS.readBinFile path
    return (.octets content.toList, .granted)
  catch e =>
    let words := (toString e).toList
    match e with
    | .noFileOrDirectory .. => return (.missing, { Access.granted with missing := words })
    | .inappropriateType .. => return (.directory, { Access.granted with directory := words })
    | _ => return (.octets [], { Access.granted with reading := some words })

/-- Writes what loading left at the path, or notes that it can not be written. -/
def writeFile (path : String) : SettingsFile → IO Unit
  | .octets content => do
    try IO.FS.writeBinFile path content.toByteArray
    catch e =>
      match Notice.tellAll verbosity [] [.unwritable (toString e).toList] with
      | .ok lines => showLog lines
      | .error lines => showLog lines
  | _ => pure ()

/-- The settings at the path, which is completed with the defaults, unless
loading breaks off. -/
def loadSettings (path : String) : IO (Option Settings) := do
  let (file, access) ← readFile path
  match Settings.load (.plain access verbosity) file with
  | .error lines =>
    showLog lines
    return none
  | .ok loaded =>
    showLog loaded.log
    if loaded.file ≠ file then writeFile path loaded.file
    return some loaded.settings

/-- A dealer with a key from the system. -/
def freshDealer : IO Dealer := do return Dealer.ofOctets (← IO.getRandomBytes 32).toList

/-- The next line of the input; none behind its end. -/
partial def readLine (input : IO.FS.Stream) (read : List UInt8) : IO (Option Console.RawLine) := do
  match (← input.read 1).toList with
  | [] => return if read.isEmpty then none else some ⟨read.reverse, false⟩
  | b :: _ =>
    if b = Console.lineFeed then return some ⟨read.reverse, true⟩ else readLine input (b :: read)

/-- Answers the lines of the input, one after another. -/
partial def answerLines (settings : Settings) (input output : IO.FS.Stream) (dealer : Dealer)
    (seededAt : Nat) : IO UInt32 := do
  match ← readLine input [] with
  | none => return UInt32.ofNat Console.Ending.finished.code
  | some line =>
    let now ← IO.monoMsNow
    let stale := settings.reseedSeconds * 1000 ≤ now - seededAt
    let (dealer, seededAt) ← if stale then pure (← freshDealer, now) else pure (dealer, seededAt)
    match Console.answerLine settings dealer line.content with
    | .stop ending =>
      if ending = .finished then
        showLog [(.error, "Error reading stdin: stream did not contain valid UTF-8".toList)]
      return UInt32.ofNat ending.code
    | .next text failure dealer =>
      showLog (Bot.logLines failure)
      try
        output.putStr (String.ofList text)
        output.flush
      catch e =>
        showLog [(.error, s!"Error writing reply: {e}".toList)]
        return UInt32.ofNat Console.Ending.finished.code
      answerLines settings input output dealer seededAt

end CommandLine
end DiceTower

open DiceTower CommandLine in
/-- Runs the bot on standard input and output. -/
def main (args : List String) : IO UInt32 := do
  match ← loadSettings (args.head?.getD defaultPath) with
  | none => return UInt32.ofNat Console.Ending.broken.code
  | some settings =>
    answerLines settings (← IO.getStdin) (← IO.getStdout) (← freshDealer) (← IO.monoMsNow)
