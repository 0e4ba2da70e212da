/-
# Evaluating messages

A message that is not meant for the bot gets no answer and draws no dice. A
call for help is answered with the help text. A roll takes one generator from
the dealer, whether it succeeds or not; where it fails, the answer is the
error behind a mark and the log gets one warning that names the failure.

Key definitions: `Reaction`, `Bot.logLines`, `Bot.answerRoll`, `Bot.eval`,
`Bot.evalAll`.
Key theorems: `Bot.eval_of_broken`, `Bot.evalAll_append`.
-/
import DiceTower.Bot.Answer
import DiceTower.Bot.Help
import DiceTower.Random.Dealer
import DiceTower.Settings.Basic
import DiceTower.Settings.Notice

namespace DiceTower

/-- What the bot does about a message. -/
inductive Reaction where
  /-- The message is not meant for the bot. -/
  | silent
  /-- Reading the message broke off inside a character. -/
  | broken
  /-- The bot answers; where a roll failed, its error goes to the log. -/
  | answered (answer : Answer) (failure : Option DiceError)
deriving DecidableEq

/-- The line that the log gets for a failed roll. -/
def DiceError.logLine (e : DiceError) : Text :=
  "roll failed for ".toList ++ e.token ++ ": ".toList ++ e.message

namespace Bot

/-- What the log gets beside an answer: one warning where a roll failed. -/
def logLines (failure : Option DiceError) : List (Level × Text) :=
  failure.toList.map fun e => (.warning, e.logLine)

/-- The message of an error behind its mark. -/
def markError (message : Text) : Text := "❌ ".toList ++ message

/-- The reaction to a roll that succeeded or failed. -/
def answerRoll (outcome : Except DiceError Roll) (title : Option Text) : Reaction :=
  match outcome with
  | .ok roll => .answered (.roll (Reply.ofRoll roll title)) none
  | .error e => .answered (.error (markError e.message)) (some e)

/-- A reaction that offers no quick rolls. -/
def withoutQuickRolls : Reaction → Reaction
  | .answered (.roll reply) failure => .answered (.roll { reply with quickRolls := false }) failure
  | other => other

/-- The title of a roll with a reason. -/
def reasonTitle (reason : Text) : Text := "Rolling for: ".toList ++ reason

/-- The title of a quick roll. -/
def quickTitle (q : QuickRoll) : Text := "Quick Roll: ".toList ++ q.title

/-- The reaction to a command, and the dealer after it. -/
def perform (settings : Settings) (dealer : Dealer) : Command → Reaction × Dealer
  | .help => (.answered (.help (helpText settings.commandPrefix)) none, dealer)
  | .quick q =>
    let (outcome, dealer) := dealer.rollText QuickRoll.token
    (withoutQuickRolls (answerRoll outcome (some (quickTitle q))), dealer)
  | .roll text policy reason =>
    let (outcome, dealer) := dealer.serve ⟨text, policy⟩
    (answerRoll outcome (reason.map reasonTitle), dealer)

/-- The reaction to a message, and the dealer after it. -/
def eval (settings : Settings) (dealer : Dealer) (message : Text) : Reaction × Dealer :=
  match Command.parse settings.commandPrefix settings.rollPrefixes message with
  | .error _ => (.broken, dealer)
  | .ok none => (.silent, dealer)
  | .ok (some command) => perform settings dealer command

/-- The reactions to several messages, one after another. -/
def evalAll (settings : Settings) : Dealer → List Text → List Reaction × Dealer
  | dealer, [] => ([], dealer)
  | dealer, message :: rest =>
    let (reaction, dealer) := eval settings dealer message
    let (reactions, dealer) := evalAll settings dealer rest
    (reaction :: reactions, dealer)

/-- A message on which reading breaks off draws nothing. -/
theorem eval_of_broken {settings : Settings} {message : Text} {e : SplitCharacter}
    (h : Command.parse settings.commandPrefix settings.rollPrefixes message = .error e)
    (dealer : Dealer) : eval settings dealer message = (.broken, dealer) := by
  simp [eval, h]

/-- Messages go on from where the first ones left the dealer. -/
theorem evalAll_append (settings : Settings) (dealer : Dealer) (first second : List Text) :
    evalAll settings dealer (first ++ second) =
      ((evalAll settings dealer first).1 ++
          (evalAll settings (evalAll settings dealer first).2 second).1,
        (evalAll settings (evalAll settings dealer first).2 second).2) := by
  induction first generalizing dealer with
  | nil => rfl
  | cons message rest ih => simp [evalAll, ih]

end Bot
end DiceTower
