/-
# Requests do not influence one another

A message makes the bot take a generator from its dealer exactly if it reads
as a roll or as a quick roll (`Bot.rolls`); it takes one, whether the roll
succeeds or not. Any other message leaves the dealer as it is and is answered
alike by every dealer. So the reaction to a message in a session depends on
the message and on the number of rolling messages before it
(`Bot.getElem?_evalAll`), and the reactions to the rolling messages are those
of a session without the others (`Bot.rollReactions_eq`).

Key definitions: `Command.rolls`, `Bot.rolls`, `Bot.rollsBefore`,
`Bot.rollReactions`.
Key theorems: `Bot.eval_snd`, `Bot.getElem?_evalAll`, `Bot.rollReactions_eq`,
`Bot.reactions_are_isolated`.
-/
import DiceTower.Bot.Eval
import DiceTower.Proofs.Random.Stream

namespace DiceTower

/-- Whether a command rolls dice. -/
def Command.rolls : Command → Bool
  | help => false
  | quick _ => true
  | roll _ _ _ => true

namespace Bot

variable (settings : Settings)

/-! ### One message -/

/-- Whether a message reads as a command that rolls dice. -/
def rolls (message : Text) : Bool :=
  match Command.parse settings.commandPrefix settings.rollPrefixes message with
  | .ok (some command) => command.rolls
  | _ => false

/-- A command that rolls takes one generator, any other takes none. -/
theorem perform_snd (d : Dealer) (command : Command) :
    (perform settings d command).2 = if command.rolls then d.after 1 else d := by
  cases command with
  | help => rfl
  | quick q => rfl
  | roll text policy reason => exact Dealer.served_serve ⟨text, policy⟩ d

/-- **A message that rolls takes one generator, any other takes none.** -/
theorem eval_snd (d : Dealer) (message : Text) :
    (eval settings d message).2 = if rolls settings message then d.after 1 else d := by
  unfold eval rolls
  cases Command.parse settings.commandPrefix settings.rollPrefixes message with
  | error e => rfl
  | ok read =>
    cases read with
    | none => rfl
    | some command => exact perform_snd settings d command

variable {settings}

/-- A message that does not roll is answered alike by every dealer. -/
theorem eval_fst_of_not_rolls {message : Text} (h : rolls settings message = false)
    (d d' : Dealer) : (eval settings d message).1 = (eval settings d' message).1 := by
  unfold rolls at h
  unfold eval
  cases hp : Command.parse settings.commandPrefix settings.rollPrefixes message with
  | error e => rfl
  | ok read =>
    rw [hp] at h
    cases read with
    | none => rfl
    | some command =>
      cases command with
      | help => rfl
      | quick q => cases h
      | roll text policy reason => cases h

/-! ### Sessions -/

variable (settings)

/-- How many of the first `n` messages roll. -/
def rollsBefore (messages : List Text) (n : Nat) : Nat :=
  (messages.take n).countP (rolls settings)

/-- **A message is answered by its place among the rolling ones.** In a session
it gets the reaction of the dealer that has served as many requests as there
are rolling messages before it. -/
theorem getElem?_evalAll : ∀ (messages : List Text) (d : Dealer) (n : Nat),
    (evalAll settings d messages).1[n]? =
      messages[n]?.map fun message =>
        (eval settings (d.after (rollsBefore settings messages n)) message).1
  | [], _, _ => rfl
  | message :: rest, d, 0 => rfl
  | message :: rest, d, n + 1 => by
    have hafter : (eval settings d message).2.after (rollsBefore settings rest n) =
        d.after (rollsBefore settings (message :: rest) (n + 1)) := by
      unfold rollsBefore
      rw [eval_snd, List.take_succ_cons, List.countP_cons]
      by_cases h : rolls settings message = true
      · rw [if_pos h, if_pos h]
        exact Dealer.after_advance _ d
      · rw [if_neg h, if_neg h, Nat.add_zero]
    show (evalAll settings (eval settings d message).2 rest).1[n]? = rest[n]?.map _
    rw [getElem?_evalAll rest, hafter]

/-- The reactions to the messages that roll, in order. -/
def rollReactions (d : Dealer) (messages : List Text) : List Reaction :=
  ((messages.zip (evalAll settings d messages).1).filter fun p => rolls settings p.1).map (·.2)

/-- **Messages that do not roll can be left out.** The reactions to the others
are those of a session of the others alone. -/
theorem rollReactions_eq : ∀ (messages : List Text) (d : Dealer),
    rollReactions settings d messages = (evalAll settings d (messages.filter (rolls settings))).1
  | [], _ => rfl
  | message :: rest, d => by
    have ih := rollReactions_eq rest (eval settings d message).2
    have hsnd := eval_snd settings d message
    unfold rollReactions at ih ⊢
    show ((((message, (eval settings d message).1) ::
      rest.zip (evalAll settings (eval settings d message).2 rest).1).filter
        fun p => rolls settings p.1).map (·.2)) = _
    by_cases h : rolls settings message = true
    · rw [List.filter_cons, if_pos h, List.filter_cons_of_pos h, List.map_cons, ih]
      rfl
    · rw [if_neg h] at hsnd
      rw [List.filter_cons, if_neg h, List.filter_cons_of_neg h, ih, hsnd]

/-! ### Two sessions -/

/-- **Requests do not influence one another.** In two sessions of one seed and
one configuration, a message is answered alike wherever as many rolling
messages stand before it, and a message that does not roll wherever it
stands; with the reaction its text, its JSON text and its line in the log are
the same. Messages that do not roll can be added, dropped and moved without a
change to the reactions to the rolling ones. A dealer that serves orders
without a bot answers an order alike at the same place, whatever stood before
it and whether that was refused. -/
theorem reactions_are_isolated (seed : UInt64) :
    (∀ (first second : List Text) (i j : Nat) (message : Text),
      first[i]? = some message → second[j]? = some message →
      (rolls settings message = true →
        rollsBefore settings first i = rollsBefore settings second j) →
      ∃ reaction, (evalAll settings (.ofSeed seed) first).1[i]? = some reaction ∧
        (evalAll settings (.ofSeed seed) second).1[j]? = some reaction) ∧
    (∀ first second : List Text, first.filter (rolls settings) = second.filter (rolls settings) →
      rollReactions settings (.ofSeed seed) first =
        rollReactions settings (.ofSeed seed) second) ∧
    ∀ (first second : List Dealer.Order) (n : Nat) (order : Dealer.Order),
      first[n]? = some order → second[n]? = some order →
      ∃ outcome, (Dealer.serveAll first (.ofSeed seed)).1[n]? = some outcome ∧
        (Dealer.serveAll second (.ofSeed seed)).1[n]? = some outcome := by
  refine ⟨?_, ?_, ?_⟩
  · intro first second i j message hfirst hsecond hcount
    refine ⟨_, by rw [getElem?_evalAll, hfirst, Option.map_some], ?_⟩
    rw [getElem?_evalAll, hsecond, Option.map_some, Option.some.injEq]
    by_cases h : rolls settings message = true
    · rw [hcount h]
    · exact eval_fst_of_not_rolls (eq_false_of_ne_true h) _ _
  · intro first second hsame
    rw [rollReactions_eq, rollReactions_eq, hsame]
  · intro first second n order hfirst hsecond
    refine ⟨_, by rw [Dealer.getElem?_serveAll, hfirst, Option.map_some], ?_⟩
    rw [Dealer.getElem?_serveAll, hsecond, Option.map_some]

/-- A quick roll after a refused roll and a hundred dice, and after a call for
help, a message on which reading breaks off and two other rolls; a pair after a
refused order, and after a batch. -/
theorem reactions_are_isolated_behind_others :
    ∃ first second : List Text, first[3]? = some "!q save".toList ∧
      second[4]? = some "!q save".toList ∧
      rollsBefore .default first 3 = 2 ∧ rollsBefore .default second 4 = 2 ∧
      (∃ reaction, (evalAll .default (.ofSeed 7) first).1[3]? = some reaction ∧
        (evalAll .default (.ofSeed 7) second).1[4]? = some reaction) ∧
      rollReactions .default (.ofSeed 7) second =
        rollReactions .default (.ofSeed 7) (second.drop 2) ∧
      ∃ outcome,
        (Dealer.serveAll [⟨"0d6".toList, none⟩, ⟨"d20".toList, some .advantage⟩]
          (.ofSeed 7)).1[1]? = some outcome ∧
        (Dealer.serveAll [⟨"2d6 d8".toList, none⟩, ⟨"d20".toList, some .advantage⟩]
          (.ofSeed 7)).1[1]? = some outcome := by
  have hisolated := reactions_are_isolated .default 7
  refine ⟨["!r 0d6".toList, "hello".toList, "!adv 100d6".toList, "!q save".toList],
    ["!help".toList, "!quic\u212a".toList, "!r d20 # luck".toList, "!roll 2d6 d8".toList,
      "!q save".toList], rfl, rfl, rfl, rfl, ?_, ?_, ?_⟩
  · exact hisolated.1 _ _ 3 4 "!q save".toList rfl rfl fun _ => rfl
  · exact hisolated.2.1 _ _ rfl
  · exact hisolated.2.2 _ _ 1 ⟨"d20".toList, some .advantage⟩ rfl rfl

end Bot
end DiceTower
