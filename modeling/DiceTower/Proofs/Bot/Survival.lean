/-
# When the bot survives a message

A command is always answered, so the bot breaks off on a message exactly if
reading it does (`Bot.eval_fst_eq_broken_iff`), and a session is survived
exactly if it holds no such message (`Bot.survives_evalAll_iff`). Where the bot
breaks off, the dealer is as it was. The message then holds the Kelvin sign, and
there is one for every command prefix, so the bot does not survive every message.

A generator has no die without sides, and it is never asked for one: the dice
of an order are those of its expressions, which have two sides or more
(`Dealer.hasDie_of_mem_calls`).

Key definitions: `Reaction.Survives`, `Dealer.calls`.
Key theorems: `Bot.eval_fst_eq_broken_iff`, `Bot.survives_evalAll_iff`,
`Dealer.hasDie_of_mem_calls`, `Bot.survives_eval_iff`.
-/
import DiceTower.Bot.Eval
import DiceTower.Proofs.Bot.Broken
import DiceTower.Proofs.Roll.Draws

namespace DiceTower

open Command (Breaks)
open Text

/-! ### The dice of an order -/

namespace Dealer

/-- The calls that an order makes of the generator it gets. -/
def calls (order : Order) (d : Dealer) : List Call :=
  match order.policy with
  | none => (Xoshiro.roller.recorded.rollText order.text (d.generator, [])).2.2
  | some policy => (Xoshiro.roller.recorded.rollKept order.text policy (d.generator, [])).2.2

theorem two_le_sides_of_mem_calls (order : Order) (d : Dealer) :
    ∀ c ∈ d.calls order, 2 ≤ c.sides := by
  unfold calls
  cases order.policy with
  | none =>
    refine (Xoshiro.roller.rollText_drawsExactly order.text d.generator []).two_le_sides ?_
    rintro made calls final ⟨expressions, -, hdrawn⟩
    exact hdrawn.two_le_sides
  | some policy =>
    refine (Xoshiro.roller.rollKept_drawsExactly order.text policy d.generator []).two_le_sides ?_
    rintro kept calls final ⟨e, first, second, -, -, hdrawn⟩
    exact hdrawn.two_le_sides

/-- **A generator is asked only for dice that it has.** -/
theorem hasDie_of_mem_calls (order : Order) (d : Dealer) :
    ∀ c ∈ d.calls order, Xoshiro.roller.hasDie c.sides = true := by
  intro c hc
  have hsides := two_le_sides_of_mem_calls order d c hc
  show (c.sides != 0) = true
  rw [bne_iff_ne]
  omega

end Dealer

/-! ### Commands are answered -/

/-- The bot is silent or it answers; it does not break off. -/
def Reaction.Survives (reaction : Reaction) : Prop :=
  reaction = .silent ∨ ∃ answer failure, reaction = .answered answer failure

theorem Reaction.survives_iff {reaction : Reaction} : reaction.Survives ↔ reaction ≠ .broken := by
  constructor
  · rintro (rfl | ⟨answer, failure, rfl⟩) h <;> cases h
  · intro h
    cases reaction with
    | silent => exact Or.inl rfl
    | broken => exact absurd rfl h
    | answered answer failure => exact Or.inr ⟨answer, failure, rfl⟩

namespace Bot

theorem survives_answerRoll (outcome : Except DiceError Roll) (title : Option Text) :
    (answerRoll outcome title).Survives := by
  cases outcome with
  | error e => exact Or.inr ⟨_, _, rfl⟩
  | ok roll => exact Or.inr ⟨_, _, rfl⟩

theorem survives_withoutQuickRolls {reaction : Reaction} (h : reaction.Survives) :
    (withoutQuickRolls reaction).Survives := by
  rcases h with rfl | ⟨answer, failure, rfl⟩
  · exact Or.inl rfl
  · cases answer <;> exact Or.inr ⟨_, _, rfl⟩

/-- **Every command is answered.** -/
theorem survives_perform (settings : Settings) (d : Dealer) (command : Command) :
    (perform settings d command).1.Survives := by
  cases command with
  | help => exact Or.inr ⟨_, _, rfl⟩
  | quick q =>
    show (withoutQuickRolls (answerRoll (d.rollText QuickRoll.token).1 _)).Survives
    exact survives_withoutQuickRolls (survives_answerRoll _ _)
  | roll text policy reason =>
    show (answerRoll (d.serve ⟨text, policy⟩).1 _).Survives
    exact survives_answerRoll _ _

/-! ### Messages and sessions -/

variable {settings : Settings} {d : Dealer}

/-- **The bot breaks off on a message exactly if reading it does.** -/
theorem eval_fst_eq_broken_iff {message : Text} :
    (eval settings d message).1 = .broken ↔ Breaks settings.commandPrefix message := by
  rw [← @Command.parse_eq_error_iff settings.commandPrefix settings.rollPrefixes message]
  unfold eval
  cases Command.parse settings.commandPrefix settings.rollPrefixes message with
  | error e => exact ⟨fun _ => rfl, fun _ => rfl⟩
  | ok read =>
    constructor
    · intro h
      cases read with
      | none => cases h
      | some command =>
        exact absurd h (Reaction.survives_iff.mp (survives_perform settings d command))
    · intro h
      cases h

theorem survives_eval_fst_iff {message : Text} :
    (eval settings d message).1.Survives ↔ ¬ Breaks settings.commandPrefix message := by
  rw [Reaction.survives_iff, Ne, eval_fst_eq_broken_iff]

/-- **A session is survived exactly if each of its messages is.** -/
theorem survives_evalAll_iff : ∀ {messages : List Text} {d : Dealer},
    (∀ reaction ∈ (evalAll settings d messages).1, reaction.Survives) ↔
      ∀ message ∈ messages, ¬ Breaks settings.commandPrefix message
  | [], d => ⟨fun _ _ hmem => absurd hmem List.not_mem_nil,
    fun _ _ hmem => absurd hmem List.not_mem_nil⟩
  | message :: rest, d => by
    have ih := @survives_evalAll_iff rest (eval settings d message).2
    show (∀ reaction ∈ (eval settings d message).1 ::
      (evalAll settings (eval settings d message).2 rest).1, reaction.Survives) ↔ _
    rw [List.forall_mem_cons, List.forall_mem_cons, survives_eval_fst_iff, ih]

/-- A message on which the bot breaks off leaves the dealer as it was. -/
theorem eval_of_breaks {message : Text} (h : Breaks settings.commandPrefix message) :
    eval settings d message = (.broken, d) :=
  eval_of_broken (Command.parse_eq_error_iff.mpr h) d

/-- **What the bot survives.** Whatever the settings and the dealer, the bot is
silent or answers on every message but those on which reading breaks off. These
hold the Kelvin sign, they leave the dealer as it was, and there is one for
every command prefix; a session without them is survived as a whole. A roll asks
its generator only for dice that it has. -/
theorem survives_eval_iff (settings : Settings) (d : Dealer) :
    (∀ message, (eval settings d message).1.Survives ↔ ¬ Breaks settings.commandPrefix message) ∧
      (∀ message, Breaks settings.commandPrefix message →
        eval settings d message = (.broken, d) ∧ kelvin ∈ message) ∧
      (∃ message, Breaks settings.commandPrefix message) ∧
      (∀ messages, (∀ reaction ∈ (evalAll settings d messages).1, reaction.Survives) ↔
        ∀ message ∈ messages, ¬ Breaks settings.commandPrefix message) ∧
      ∀ order, ∀ c ∈ d.calls order, Xoshiro.roller.hasDie c.sides = true := by
  refine ⟨fun message => survives_eval_fst_iff, ?_,
    ⟨_, Command.breaks_append_quic settings.commandPrefix⟩,
    fun messages => survives_evalAll_iff, fun order => Dealer.hasDie_of_mem_calls order d⟩
  intro message h
  exact ⟨eval_of_breaks h, h.kelvin_mem⟩

/-- The bot breaks off on `quic` and the sign; a pair is rolled with twenty-sided dice. -/
theorem survives_eval_iff_at_kelvin :
    Breaks Settings.default.commandPrefix "!quic\u212a".toList ∧
      eval .default (.ofSeed 7) "!quic\u212a".toList = (.broken, .ofSeed 7) ∧
      ∃ c ∈ (Dealer.ofSeed 7).calls ⟨"d20".toList, some .advantage⟩,
        c.sides = 20 ∧ Xoshiro.roller.hasDie c.sides = true := by
  have hbreaks : Breaks Settings.default.commandPrefix "!quic\u212a".toList :=
    Command.breaks_append_quic ['!']
  have hsides : ((Dealer.ofSeed 7).calls ⟨"d20".toList, some .advantage⟩).map (·.sides) =
      [20, 20] := rfl
  have hmem : 20 ∈ ((Dealer.ofSeed 7).calls ⟨"d20".toList, some .advantage⟩).map (·.sides) := by
    rw [hsides]
    exact List.mem_cons_self
  obtain ⟨c, hc, htwenty⟩ := List.mem_map.mp hmem
  obtain ⟨-, hbroken, -, -, hdice⟩ := survives_eval_iff .default (.ofSeed 7)
  exact ⟨hbreaks, (hbroken _ hbreaks).1, c, hc, htwenty, hdice _ c hc⟩

/-- The bot does not survive every message. -/
theorem exists_not_survives :
    ¬ (eval .default (.ofSeed 7) "!quic\u212a".toList).1.Survives ∧
      ¬ ∀ (settings : Settings) (d : Dealer) (message : Text),
        (eval settings d message).1.Survives := by
  have hbroken : ¬ (eval .default (.ofSeed 7) "!quic\u212a".toList).1.Survives :=
    fun h => Reaction.survives_iff.mp h rfl
  exact ⟨hbroken, fun h => hbroken (h .default (.ofSeed 7) "!quic\u212a".toList)⟩

end Bot
end DiceTower
