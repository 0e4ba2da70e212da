/-
# What a message comes to

The command of a message settles what kind of answer it gets, whatever the dice
show. No command gets no answer, a call for help the help text, and a quick roll
a roll. The text of any other roll is an order, and an order is refused for what
it is written as: under a policy the text has to stand for one expression, and
without one it has to hold a token, and each of its tokens has to stand for an
expression (`Dealer.Order.Refused`). A refused order is answered with its error,
which the log names with the token at fault, and it asks for no die; any other
order is answered with a roll, and it asks for one die or more
(`Dealer.calls_eq_nil_iff`).

A roll prefix lets only texts with a token through, so what fails behind one is a
token, and it has the shape of a notation.

Key definitions: `Dealer.Order.Refused`, `Dealer.Order.RefusedFor`,
`Reaction.answer?`, `Reaction.logLines`, `Bot.Outcome`.
Key theorems: `Dealer.Order.refused_iff`, `Dealer.serve_of_refusedFor`,
`Dealer.exists_serve_of_not_refused`, `Bot.outcome_eval`,
`Bot.command_settles_answer`.
-/
import DiceTower.Proofs.Bot.Rereading
import DiceTower.Proofs.Bot.Survival

namespace DiceTower

open Text Notation Expression

theorem Expression.forall_parse_ne_ok_iff {token : Text} :
    (∀ e, parse token ≠ .ok e) ↔ ∃ error, parse token = .error error := by
  cases parse token <;> simp

namespace Dealer

/-- The order is refused for what it is written as: under a policy the text
stands for no expression; without one the text has no token, or one that stands
for no expression. -/
def Order.Refused (order : Order) : Prop :=
  match order.policy with
  | some _ => ∀ e, parse order.text ≠ .ok e
  | none => tokens order.text = [] ∨ ∃ token ∈ tokens order.text, ∀ e, parse token ≠ .ok e

/-- The token that an order is refused for, with its error: the whole text, which is
trimmed where it has no token, or the first of its tokens that stands for no
expression. -/
inductive Order.RefusedFor : Order → Text → DiceError → Prop
  | whole {text : Text} {policy : Policy} {error : DiceError} (h : parse text = .error error) :
      RefusedFor ⟨text, some policy⟩ text error
  | noToken {text : Text} (h : tokens text = []) :
      RefusedFor ⟨text, none⟩ (trim text) (.invalidNotation (trim text))
  | token {text : Text} {before after : List Text} {token : Text} {error : DiceError}
      (htokens : tokens text = before ++ token :: after)
      (hbefore : ∀ t ∈ before, ∃ e, parse t = .ok e) (h : parse token = .error error) :
      RefusedFor ⟨text, none⟩ token error

/-- An order is refused exactly if there is a token to refuse it for. -/
theorem Order.refused_iff {order : Order} :
    order.Refused ↔ ∃ token error, order.RefusedFor token error := by
  constructor
  · intro h
    match order with
    | ⟨text, some policy⟩ =>
      obtain ⟨error, herror⟩ := forall_parse_ne_ok_iff.mp h
      exact ⟨text, error, .whole herror⟩
    | ⟨text, none⟩ =>
      by_cases hnil : tokens text = []
      · exact ⟨_, _, .noToken hnil⟩
      · obtain ⟨token, hmem, hbad⟩ : ∃ token ∈ tokens text, ∀ e, parse token ≠ .ok e :=
          Or.resolve_left h hnil
        cases hall : parseAll (tokens text) with
        | error error =>
          obtain ⟨before, first, after, htokens, hbefore, hfirst⟩ := parseAll_eq_error_iff.mp hall
          exact ⟨first, error, .token htokens hbefore hfirst⟩
        | ok expressions =>
          have hparsed : parse token ∈ expressions.map Except.ok := by
            rw [← parseAll_eq_ok_iff.mp hall]
            exact List.mem_map_of_mem hmem
          obtain ⟨e, -, he⟩ := List.mem_map.mp hparsed
          exact absurd he.symm (hbad e)
  · rintro ⟨token, error, h⟩
    cases h with
    | whole h => exact forall_parse_ne_ok_iff.mpr ⟨error, h⟩
    | noToken h => exact Or.inl h
    | token htokens hbefore h =>
      refine Or.inr ⟨token, ?_, forall_parse_ne_ok_iff.mpr ⟨error, h⟩⟩
      simp [htokens]

/-- The error names the token. -/
theorem Order.RefusedFor.token_eq {order : Order} {token : Text} {error : DiceError}
    (h : order.RefusedFor token error) : error.token = token := by
  cases h with
  | whole h => exact DiceError.token_of_parse h
  | noToken h => rfl
  | token htokens hbefore h => exact DiceError.token_of_parse h

/-- Where the text has tokens, the order is refused for one of them. -/
theorem Order.RefusedFor.mem_tokens {text token : Text} {error : DiceError}
    (h : RefusedFor ⟨text, none⟩ token error) (hne : tokens text ≠ []) :
    token ∈ tokens text ∧ parse token = .error error := by
  cases h with
  | noToken h => exact absurd h hne
  | token htokens hbefore h => exact ⟨by simp [htokens], h⟩

/-! ### Orders that are served -/

/-- **A refused order comes to its error,** whichever dealer has it. -/
theorem serve_of_refusedFor {order : Order} {token : Text} {error : DiceError}
    (h : order.RefusedFor token error) (d : Dealer) : (d.serve order).1 = .error error := by
  cases h with
  | @whole text policy _ h =>
    have hkept := Xoshiro.roller.rollKept_of_error h policy d.generator
    simp [serve, rollKept, hkept, Except.map]
  | noToken h =>
    have htext := Xoshiro.roller.rollText_of_tokens_eq_nil h d.generator
    simp [serve, rollText, htext]
  | @token text before after _ _ htokens hbefore h =>
    have hall : parseAll (tokens text) = .error error :=
      parseAll_eq_error_iff.mpr ⟨before, token, after, htokens, hbefore, h⟩
    have htext := Xoshiro.roller.rollText_of_error hall d.generator
    simp [serve, rollText, htext]

/-- An order is refused for one token and with one error. -/
theorem Order.RefusedFor.unique {order : Order} {token token' : Text} {error error' : DiceError}
    (h : order.RefusedFor token error) (h' : order.RefusedFor token' error') :
    token = token' ∧ error = error' := by
  have herror : error = error' := by
    have hserved := serve_of_refusedFor h (.ofSeed 0)
    rw [serve_of_refusedFor h' (.ofSeed 0), Except.error.injEq] at hserved
    exact hserved.symm
  exact ⟨by rw [← h.token_eq, ← h'.token_eq, herror], herror⟩

/-- An order that is not refused has its expressions. -/
theorem Order.exists_of_not_refused {text : Text} (h : ¬ Order.Refused ⟨text, none⟩) :
    tokens text ≠ [] ∧ ∃ expressions, parseAll (tokens text) = .ok expressions := by
  obtain ⟨hne, hall⟩ := not_or.mp h
  refine ⟨hne, exists_parseAll_eq_ok ?_⟩
  intro token hmem
  by_contra hnone
  exact hall ⟨token, hmem, fun e he => hnone ⟨e, he⟩⟩

theorem Order.exists_of_not_refused_under {text : Text} {policy : Policy}
    (h : ¬ Order.Refused ⟨text, some policy⟩) : ∃ e, parse text = .ok e := by
  by_contra hnone
  exact h fun e he => hnone ⟨e, he⟩

/-- **An order that is not refused comes to a roll,** whichever dealer has it. -/
theorem exists_serve_of_not_refused {order : Order} (h : ¬ order.Refused) (d : Dealer) :
    ∃ roll, (d.serve order).1 = .ok roll := by
  match order with
  | ⟨text, some policy⟩ =>
    obtain ⟨e, he⟩ := Order.exists_of_not_refused_under h
    refine ⟨.kept (Xoshiro.roller.rollTwice e policy d.generator).1, ?_⟩
    simp [serve, rollKept, Roller.rollKept, he, Except.map]
  | ⟨text, none⟩ =>
    obtain ⟨hne, expressions, hall⟩ := Order.exists_of_not_refused h
    have htext := Xoshiro.roller.rollText_of_ok hne hall d.generator
    refine ⟨Roll.ofResults (Xoshiro.roller.rollAll expressions d.generator).1, ?_⟩
    simp [serve, rollText, htext]

/-- The order of a quick roll is never refused. -/
theorem not_refused_quick : ¬ Order.Refused ⟨QuickRoll.token, none⟩ := by
  have htokens : tokens QuickRoll.token = [QuickRoll.token] := by decide
  obtain ⟨e, he⟩ : ∃ e, parse QuickRoll.token = .ok e := ⟨_, rfl⟩
  rintro (hnil | ⟨token, hmem, hbad⟩)
  · simp [htokens] at hnil
  · rw [htokens, List.mem_singleton] at hmem
    subst hmem
    exact hbad e he

end Dealer

/-! ### Answers -/

/-- The answer, if the bot answers. -/
def Reaction.answer? : Reaction → Option Answer
  | answered answer _ => some answer
  | _ => none

/-- What the log gets when the bot reacts. -/
def Reaction.logLines : Reaction → List (Level × Text)
  | answered _ failure => Bot.logLines failure
  | _ => []

namespace Bot

open Dealer

/-- What a command comes to, and a message without one. -/
inductive Outcome (settings : Settings) : Option Command → Reaction → Prop
  | silent : Outcome settings none .silent
  | help : Outcome settings (some .help) (.answered (.help (helpText settings.commandPrefix)) none)
  | quick (q : QuickRoll) (reply : Reply) :
      Outcome settings (some (.quick q)) (.answered (.roll reply) none)
  | rolled {text : Text} {policy : Option Policy} (reason : Option Text)
      (h : ¬ Order.Refused ⟨text, policy⟩) (reply : Reply) :
      Outcome settings (some (.roll text policy reason)) (.answered (.roll reply) none)
  | refused {text : Text} {policy : Option Policy} (reason : Option Text) {token : Text}
      {error : DiceError} (h : Order.RefusedFor ⟨text, policy⟩ token error) :
      Outcome settings (some (.roll text policy reason))
        (.answered (.error (markError error.message)) (some error))

variable {settings : Settings} {message : Text} {command : Option Command}

theorem outcome_perform (settings : Settings) (d : Dealer) (command : Command) :
    Outcome settings (some command) (perform settings d command).1 := by
  cases command with
  | help => exact .help
  | quick q =>
    obtain ⟨roll, hroll⟩ := exists_serve_of_not_refused not_refused_quick d
    have hperform : (perform settings d (.quick q)).1 = .answered (.roll
        { Reply.ofRoll roll (some (quickTitle q)) with quickRolls := false }) none := by
      show withoutQuickRolls (answerRoll (d.serve ⟨QuickRoll.token, none⟩).1 _) = _
      simp [hroll, answerRoll, withoutQuickRolls]
    rw [hperform]
    exact .quick q _
  | roll text policy reason =>
    show Outcome settings _ (answerRoll (d.serve ⟨text, policy⟩).1 (reason.map reasonTitle))
    by_cases h : Order.Refused ⟨text, policy⟩
    · obtain ⟨token, error, hfor⟩ := Order.refused_iff.mp h
      rw [serve_of_refusedFor hfor]
      exact .refused reason hfor
    · obtain ⟨roll, hroll⟩ := exists_serve_of_not_refused h d
      rw [hroll]
      exact .rolled reason h _

/-- **A message comes to what its command comes to.** -/
theorem outcome_eval
    (h : Command.parse settings.commandPrefix settings.rollPrefixes message = .ok command)
    (d : Dealer) : Outcome settings command (eval settings d message).1 := by
  unfold eval
  rw [h]
  cases command with
  | none => exact .silent
  | some command => exact outcome_perform settings d command

/-! ### The command and the answer -/

section

variable {reaction : Reaction} (h : Outcome settings command reaction)
include h

theorem Outcome.eq_silent_iff : reaction = .silent ↔ command = none := by
  cases h <;> simp

theorem Outcome.answers_help_iff :
    (∃ text, reaction.answer? = some (.help text)) ↔ command = some .help := by
  cases h <;> simp [Reaction.answer?]

theorem Outcome.answers_error_iff : (∃ shown, reaction.answer? = some (.error shown)) ↔
    ∃ text policy reason, command = some (.roll text policy reason) ∧
      Order.Refused ⟨text, policy⟩ := by
  cases h with
  | rolled reason hnot reply => simp [Reaction.answer?, hnot]
  | refused reason hfor => simp [Reaction.answer?, Order.refused_iff.mpr ⟨_, _, hfor⟩]
  | _ => simp [Reaction.answer?]

theorem Outcome.answers_roll_iff : (∃ reply, reaction.answer? = some (.roll reply)) ↔
    (∃ q, command = some (.quick q)) ∨
      ∃ text policy reason, command = some (.roll text policy reason) ∧
        ¬ Order.Refused ⟨text, policy⟩ := by
  cases h with
  | rolled reason hnot reply => simp [Reaction.answer?, hnot]
  | refused reason hfor => simp [Reaction.answer?, Order.refused_iff.mpr ⟨_, _, hfor⟩]
  | _ => simp [Reaction.answer?]

/-- An error is that of the order, and the log names it. -/
theorem Outcome.exists_of_error {shown : Text} (hshown : reaction.answer? = some (.error shown)) :
    ∃ text policy reason token error, command = some (.roll text policy reason) ∧
      Order.RefusedFor ⟨text, policy⟩ token error ∧ shown = markError error.message ∧
      reaction.logLines = [(.warning, error.logLine)] := by
  cases h with
  | @refused text policy reason token error hfor =>
    refine ⟨text, policy, reason, token, error, rfl, hfor, ?_, rfl⟩
    simpa [Reaction.answer?] using hshown.symm
  | _ => simp [Reaction.answer?] at hshown

/-- Without an error the log gets nothing. -/
theorem Outcome.logLines_eq_nil (hnone : ∀ shown, reaction.answer? ≠ some (.error shown)) :
    reaction.logLines = [] := by
  cases h with
  | refused reason hfor => exact absurd rfl (hnone _)
  | _ => rfl

end

/-- Behind a roll prefix the text of the roll has a token, and it is rolled without a policy. -/
theorem tokens_ne_nil_of_not_lead
    (h : Command.parse settings.commandPrefix settings.rollPrefixes message = .ok command)
    (hlead : ¬ settings.commandPrefix <+: message) {text : Text} {policy : Option Policy}
    {reason : Option Text} (hroll : command = some (.roll text policy reason)) :
    policy = none ∧ tokens text ≠ [] := by
  subst hroll
  have hok : ∀ e,
      Command.parse settings.commandPrefix settings.rollPrefixes message ≠ .error e := by simp [h]
  cases (Command.parse_eq_ok_iff_answers hok _).mp h with
  | command hmessage => exact absurd ⟨_, hmessage.symm⟩ hlead
  | roll _ hleads hbefore hfits =>
    obtain ⟨b, -, -, hshape⟩ := hfits
    exact ⟨rfl, tokens_ne_nil_iff.mpr hshape⟩

/-- **The command settles the answer,** whichever dealer has the dice. The bot is
silent exactly where there is no command, it helps exactly where help is called
for, and it answers with an error exactly where a roll's order is refused; a
quick roll and any other roll get a roll. For an error the log gets one warning,
which names the token at fault and the message that is shown behind the mark, and
else it gets none. Behind a roll prefix the token at fault is one of the tokens
of the text, and it is refused as a notation exactly if its modifier leaves the
signed 64-bit range. -/
theorem command_settles_answer
    (h : Command.parse settings.commandPrefix settings.rollPrefixes message = .ok command)
    (d : Dealer) :
    ((eval settings d message).1 = .silent ↔ command = none) ∧
    ((∃ text, (eval settings d message).1.answer? = some (.help text)) ↔ command = some .help) ∧
    ((∃ shown, (eval settings d message).1.answer? = some (.error shown)) ↔
      ∃ text policy reason, command = some (.roll text policy reason) ∧
        Order.Refused ⟨text, policy⟩) ∧
    ((∃ reply, (eval settings d message).1.answer? = some (.roll reply)) ↔
      (∃ q, command = some (.quick q)) ∨
        ∃ text policy reason, command = some (.roll text policy reason) ∧
          ¬ Order.Refused ⟨text, policy⟩) ∧
    (∀ shown, (eval settings d message).1.answer? = some (.error shown) →
      ∃ text policy reason token error, command = some (.roll text policy reason) ∧
        trim text = text ∧ Order.RefusedFor ⟨text, policy⟩ token error ∧
        shown = "❌ ".toList ++ error.message ∧
        (eval settings d message).1.logLines =
          [(.warning, "roll failed for ".toList ++ token ++ ": ".toList ++ error.message)] ∧
        (¬ settings.commandPrefix <+: message →
          policy = none ∧ token ∈ tokens text ∧
            (error = .invalidNotation token ↔
              ∃ p : Pieces, p.Valid ∧ p.text = token ∧ ¬ Signed64.Fits p.modifier))) ∧
    ((∀ shown, (eval settings d message).1.answer? ≠ some (.error shown)) →
      (eval settings d message).1.logLines = []) := by
  have houtcome := outcome_eval h d
  refine ⟨houtcome.eq_silent_iff, houtcome.answers_help_iff, houtcome.answers_error_iff,
    houtcome.answers_roll_iff, ?_, houtcome.logLines_eq_nil⟩
  intro shown hshown
  obtain ⟨text, policy, reason, token, error, hroll, hfor, hmark, hlines⟩ :=
    houtcome.exists_of_error hshown
  have hsound : trim text = text := by
    rw [hroll] at h
    exact (Command.sound_of_parse h).2.1
  have hline : error.logLine =
      "roll failed for ".toList ++ error.token ++ ": ".toList ++ error.message := rfl
  rw [hline, hfor.token_eq] at hlines
  refine ⟨text, policy, reason, token, error, hroll, hsound, hfor, hmark, hlines, ?_⟩
  intro hlead
  obtain ⟨rfl, hne⟩ := tokens_ne_nil_of_not_lead h hlead hroll
  obtain ⟨hmem, hparse⟩ := hfor.mem_tokens hne
  have hshape : HasShape token := isNotation_iff_hasShape.mp (List.mem_filter.mp hmem).2
  refine ⟨rfl, hmem, ?_⟩
  rw [← parse_eq_invalidNotation_iff_of_hasShape hshape, hparse, Except.error.injEq]

/-- Behind a roll prefix, the second of three tokens is the first one at fault:
its modifier is one too great. -/
theorem command_settles_answer_behind_roll_prefix : ∃ settings message text reason token,
    Command.parse settings.commandPrefix settings.rollPrefixes message =
      .ok (some (.roll text none reason)) ∧
    ¬ settings.commandPrefix <+: message ∧
    tokens text = ["d6".toList, token, "0d6".toList] ∧
    (∃ p : Pieces, p.Valid ∧ p.text = token ∧ ¬ Signed64.Fits p.modifier) ∧
    (eval settings (.ofSeed 7) message).1.logLines =
      [(.warning, "roll failed for ".toList ++ token ++ ": ".toList ++
        (DiceError.invalidNotation token).message)] := by
  let settings : Settings := ⟨"!".toList, ["/r".toList], 300, .text⟩
  let message : Text := "/r d6 or 2d6+9223372036854775808 0d6 # luck".toList
  let text : Text := "d6 or 2d6+9223372036854775808 0d6".toList
  let token : Text := "2d6+9223372036854775808".toList
  have hparse : Command.parse settings.commandPrefix settings.rollPrefixes message =
      .ok (some (.roll text none (some "luck".toList))) := rfl
  have hnot : ¬ settings.commandPrefix <+: message := by decide
  have htokens : tokens text = ["d6".toList, token, "0d6".toList] := by decide
  have hbad : parse token = .error (.invalidNotation token) := rfl
  obtain ⟨e, he⟩ : ∃ e, parse "d6".toList = .ok e := ⟨_, rfl⟩
  have hsplit : tokens text = ["d6".toList] ++ token :: ["0d6".toList] := htokens
  have hfor : Order.RefusedFor ⟨text, none⟩ token (.invalidNotation token) :=
    .token hsplit (by simpa using ⟨e, he⟩) hbad
  obtain ⟨-, -, herror, -, hnamed, -⟩ := command_settles_answer hparse (.ofSeed 7)
  obtain ⟨shown, hshown⟩ :=
    herror.mpr ⟨text, none, _, rfl, Order.refused_iff.mpr ⟨_, _, hfor⟩⟩
  obtain ⟨text', policy, reason, token', error, hroll, -, hfor', -, hlines, hbehind⟩ :=
    hnamed shown hshown
  obtain ⟨rfl, rfl, rfl⟩ : text = text' ∧ none = policy ∧ some "luck".toList = reason := by
    simpa using hroll
  obtain ⟨rfl, rfl⟩ := hfor.unique hfor'
  exact ⟨settings, message, text, _, token, hparse, hnot, htokens,
    ((hbehind hnot).2.2.mp rfl), hlines⟩

end Bot
end DiceTower
