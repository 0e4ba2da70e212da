/-
# Messages that differ in letter case

Behind the command prefix the case of ASCII letters has no say. Every reader
finds in a text in lower case what it finds in the text, in lower case, and
breaks off on both or on neither (`Command.ofCommandText_lower`). So two
messages that differ in case ask for commands that differ in the case of their
texts and reasons only, and these are rolled with the same faces.

What is shown may differ in case as well: the notation in a description and
the reason in a title are as they were written. Faces, totals, colours and
fields do not (`Bot.AnsweredAlike`).

Key definitions: `Command.lower`, `Reply.Alike`, `Bot.AnsweredAlike`.
Key theorems: `Command.ofCommandText_lower`, `Bot.case_has_no_say`.
-/
import DiceTower.Proofs.Bot.Isolation
import DiceTower.Proofs.Bot.Messages
import DiceTower.Proofs.Roll.LetterCase
import DiceTower.Proofs.Roll.Regular

namespace DiceTower

open Text

namespace Command

/-! ### Commands in lower case -/

/-- The command with its text and its reason in lower case. -/
def lower : Command → Command
  | help => help
  | quick q => quick q
  | roll text policy reason => roll (Text.lower text) policy (reason.map Text.lower)

/-- What a reader found, in lower case. -/
def lowerFound (found : Command × Text) : Command × Text := (found.1.lower, Text.lower found.2)

theorem unlessEmpty_lower (text : Text) :
    unlessEmpty (Text.lower text) = (unlessEmpty text).map Text.lower := by
  cases text <;> rfl

theorem body_lower (text : Text) :
    body (Text.lower text) = (Text.lower (body text).1, (body text).2.map Text.lower) := by
  have hmark : ∀ c : Char, decide (c.toLower ≠ '#') = decide (c ≠ '#') :=
    apply_toLower (f := fun c => decide (c ≠ '#')) (by decide)
  have hdrop : ∀ text : Text, (Text.lower text).drop 1 = Text.lower (text.drop 1) :=
    fun _ => List.map_drop.symm
  unfold body
  rw [takeWhile_lower hmark, dropWhile_lower hmark, hdrop, trim_lower, trim_lower,
    unlessEmpty_lower]

theorem ofBody_lower (text : Text) (policy : Option Policy) :
    ofBody (Text.lower text) policy = (ofBody text policy).lower := by
  rw [ofBody, body_lower]
  rfl

/-! ### Readers -/

theorem quickRoll_lower (text : Text) :
    quickRoll (Text.lower text) = (quickRoll text).map (Option.map lowerFound) := by
  unfold quickRoll
  rw [oneOf_lower]
  cases oneOf [("quick".toList, ()), ("q".toList, ())] text with
  | error e => rfl
  | ok found =>
    cases found with
    | none => rfl
    | some found =>
      simp only [Except.map, Option.map_some, skipBlanks1?_lower]
      cases skipBlanks1? found.2 with
      | none => rfl
      | some rest =>
        simp only [Option.map_some, oneOf_lower]
        cases hfound : oneOf (QuickRoll.all.map fun q => (q.keyword, quick q)) rest with
        | error e => rfl
        | ok found =>
          cases found with
          | none => rfl
          | some found =>
            obtain ⟨command, behind⟩ := found
            obtain ⟨word, hmem, -⟩ := exists_of_oneOf_eq_some isKeyword_of_mem_occasions hfound
            obtain ⟨k, -, hk⟩ := List.mem_map.mp hmem
            obtain ⟨rfl, rfl⟩ := Prod.mk.inj hk
            rfl

theorem policyRoll_lower (text : Text) :
    policyRoll (Text.lower text) = (policyRoll text).map (Option.map lowerFound) := by
  unfold policyRoll
  rw [oneOf_lower]
  cases oneOf policyKeywords text with
  | error e => rfl
  | ok found =>
    cases found with
    | none => rfl
    | some found =>
      simp only [Except.map, Option.map_some, skipBlanks1?_lower]
      cases skipBlanks1? found.2 with
      | none => rfl
      | some rest =>
        simp only [Option.map_some, ofBody_lower]
        rfl

theorem helpCall_lower (text : Text) :
    helpCall (Text.lower text) = (helpCall text).map (Option.map lowerFound) := by
  unfold helpCall
  rw [oneOf_lower]
  cases oneOf [("help".toList, ()), ("h".toList, ())] text with
  | error e => rfl
  | ok found => cases found <;> rfl

theorem plainRoll_lower (text : Text) :
    plainRoll (Text.lower text) = (plainRoll text).map (Option.map lowerFound) := by
  unfold plainRoll
  rw [oneOf_lower]
  cases oneOf [("roll".toList, ()), ("r".toList, ())] text with
  | error e => rfl
  | ok found =>
    cases found with
    | none => rfl
    | some found =>
      simp only [Except.map, Option.map_some, skipBlanks_lower, ofBody_lower]
      rfl

theorem firstFound_lower {text : Text} : ∀ {readers : List (Text → Found)},
    (∀ reader ∈ readers, reader (Text.lower text) = (reader text).map (Option.map lowerFound)) →
    firstFound readers (Text.lower text) = (firstFound readers text).map (Option.map lowerFound)
  | [], _ => rfl
  | reader :: others, h => by
    rw [firstFound, firstFound, h reader List.mem_cons_self]
    cases reader text with
    | error e => rfl
    | ok found =>
      cases found with
      | none => exact firstFound_lower fun r hr => h r (List.mem_cons_of_mem _ hr)
      | some found => rfl

/-- **What a text asks for does not depend on its case.** -/
theorem ofCommandText_lower (text : Text) :
    ofCommandText (Text.lower text) = (ofCommandText text).map lower := by
  have hreaders : ∀ reader ∈ readers, ∀ text,
      reader (Text.lower text) = (reader text).map (Option.map lowerFound) := by
    intro reader hreader text
    simp only [readers, List.mem_cons, List.not_mem_nil, or_false] at hreader
    rcases hreader with rfl | rfl | rfl | rfl
    · exact quickRoll_lower text
    · exact policyRoll_lower text
    · exact helpCall_lower text
    · exact plainRoll_lower text
  unfold ofCommandText
  rw [skipBlanks_lower, firstFound_lower fun reader hreader => hreaders reader hreader _]
  cases firstFound readers (skipBlanks text) with
  | error e => rfl
  | ok found =>
    cases found with
    | none => rfl
    | some found =>
      obtain ⟨command, rest⟩ := found
      simp only [Except.map, Option.map_some, lowerFound, skipBlanks_lower, lower_eq_nil_iff]
      by_cases hrest : skipBlanks rest = []
      · rw [if_pos hrest, if_pos hrest]
      · rw [if_neg hrest, if_neg hrest]
        rfl

end Command

/-! ### Alike answers -/

/-- The replies differ in the case of their titles and descriptions at most. -/
structure Reply.Alike (a b : Reply) : Prop where
  title : a.title.map Text.lower = b.title.map Text.lower
  description : Text.lower a.description = Text.lower b.description
  fields : a.fields = b.fields
  color : a.color = b.color
  quickRolls : a.quickRolls = b.quickRolls

/-- Rolls that differ in case are shown alike. -/
theorem Reply.alike_ofRoll {made made' : Roll} {title title' : Option Text}
    (h : made.lower = made'.lower) (htitle : title.map Text.lower = title'.map Text.lower) :
    (ofRoll made title).Alike (ofRoll made' title') := by
  have hcritical : made.critical = made'.critical := by
    rw [← made.critical_lower, h, made'.critical_lower]
  have hoffer : ∀ roll : Roll, (roll.lower.primary.any fun r => r.expression.sides == criticalSides) =
      roll.primary.any fun r => r.expression.sides == criticalSides := by
    intro roll
    cases roll <;> rfl
  constructor
  case title => exact htitle
  case description =>
    show Text.lower made.render = Text.lower made'.render
    rw [← made.lower_render_lower, h, made'.lower_render_lower]
  case fields =>
    show (made.critical.map fieldOf).toList = (made'.critical.map fieldOf).toList
    rw [hcritical]
  case color =>
    show colorOf made.critical = colorOf made'.critical
    rw [hcritical]
  case quickRolls =>
    show (made.primary.any fun r => r.expression.sides == criticalSides) =
      made'.primary.any fun r => r.expression.sides == criticalSides
    rw [← hoffer made, h, hoffer made']

namespace Bot

/-- The two reactions are of the same kind. Both messages broke off; or they are
answered with the same help text; or with the same error; or with replies to
rolls that were made with the dealer's next generator, have the same faces and
totals, and differ in the case of their notations at most. -/
inductive AnsweredAlike (d : Dealer) : Reaction → Reaction → Prop
  | broken : AnsweredAlike d .broken .broken
  | help (text : Text) :
      AnsweredAlike d (.answered (.help text) none) (.answered (.help text) none)
  | error (message : Text) {failure failure' : DiceError} (h : failure.lower = failure'.lower) :
      AnsweredAlike d (.answered (.error message) (some failure))
        (.answered (.error message) (some failure'))
  | roll {made made' : Roll} {reply reply' : Reply} (hmade : Xoshiro.roller.Made d.generator made)
      (hmade' : Xoshiro.roller.Made d.generator made') (hshown : reply.description = made.render)
      (hshown' : reply'.description = made'.render)
      (hfaces : made.results.map (·.faces) = made'.results.map (·.faces))
      (htotals : made.results.map (·.total) = made'.results.map (·.total))
      (hrolls : made.lower = made'.lower) (hreplies : reply.Alike reply') :
      AnsweredAlike d (.answered (.roll reply) none) (.answered (.roll reply') none)

variable {d : Dealer}

theorem AnsweredAlike.withoutQuickRolls {a b : Reaction} (h : AnsweredAlike d a b) :
    AnsweredAlike d (withoutQuickRolls a) (withoutQuickRolls b) := by
  cases h with
  | broken => exact .broken
  | help text => exact .help text
  | error message h => exact .error message h
  | roll hmade hmade' hshown hshown' hfaces htotals hrolls hreplies =>
    refine .roll hmade hmade' hshown hshown' hfaces htotals hrolls ?_
    exact ⟨hreplies.title, hreplies.description, hreplies.fields, hreplies.color, rfl⟩

/-- Outcomes that differ in case are answered alike. -/
theorem answeredAlike_answerRoll {outcome outcome' : Except DiceError Roll}
    {title title' : Option Text}
    (h : lowerOutcome Roll.lower outcome = lowerOutcome Roll.lower outcome')
    (htitle : title.map Text.lower = title'.map Text.lower)
    (hmade : ∀ made, outcome = .ok made → Xoshiro.roller.Made d.generator made)
    (hmade' : ∀ made, outcome' = .ok made → Xoshiro.roller.Made d.generator made) :
    AnsweredAlike d (answerRoll outcome title) (answerRoll outcome' title') := by
  match outcome, outcome' with
  | .error e, .error e' =>
    have hlower : e.lower = e'.lower := Except.error.inj h
    have hmessage : e.message = e'.message := by
      rw [← e.message_lower, hlower, e'.message_lower]
    show AnsweredAlike d (.answered (.error (markError e.message)) (some e))
      (.answered (.error (markError e'.message)) (some e'))
    rw [hmessage]
    exact .error _ hlower
  | .ok made, .ok made' =>
    have hrolls : made.lower = made'.lower := Except.ok.inj h
    have hresults : made.results.map Result.lower = made'.results.map Result.lower := by
      rw [← made.results_lower, hrolls, made'.results_lower]
    have hfaces := congrArg (List.map Result.faces) hresults
    have htotals := congrArg (List.map Result.total) hresults
    rw [List.map_map, List.map_map] at hfaces htotals
    exact .roll (hmade made rfl) (hmade' made' rfl) rfl rfl hfaces htotals hrolls
      (Reply.alike_ofRoll hrolls htitle)
  | .error e, .ok made' => cases h
  | .ok made, .error e' => cases h

/-! ### Commands that differ in case -/

/-- What an order comes to is made with the dealer's next generator. -/
theorem made_of_serve {text : Text} {policy : Option Policy} {made : Roll}
    (h : (d.serve ⟨text, policy⟩).1 = .ok made) : Xoshiro.roller.Made d.generator made := by
  cases policy with
  | none => exact .text h
  | some policy =>
    have hkept : (Xoshiro.roller.rollKept text policy d.generator).1.map Roll.kept = .ok made := h
    cases hroll : (Xoshiro.roller.rollKept text policy d.generator).1 with
    | error e =>
      rw [hroll] at hkept
      cases hkept
    | ok pair =>
      rw [hroll] at hkept
      obtain rfl : Roll.kept pair = made := Except.ok.inj hkept
      exact .kept hroll

theorem serve_lower (text : Text) (policy : Option Policy) :
    (d.serve ⟨Text.lower text, policy⟩).1 = lowerOutcome Roll.lower (d.serve ⟨text, policy⟩).1 := by
  cases policy with
  | none => exact congrArg Prod.fst (Xoshiro.roller.rollText_lower text d.generator)
  | some policy =>
    have hkept := congrArg Prod.fst (Xoshiro.roller.rollKept_lower text policy d.generator)
    show (Xoshiro.roller.rollKept (Text.lower text) policy d.generator).1.map Roll.kept =
      lowerOutcome Roll.lower ((Xoshiro.roller.rollKept text policy d.generator).1.map Roll.kept)
    rw [hkept]
    cases (Xoshiro.roller.rollKept text policy d.generator).1 <;> rfl

/-- Commands that differ in case are performed alike. -/
theorem perform_alike (settings : Settings) {command command' : Command}
    (h : command.lower = command'.lower) :
    AnsweredAlike d (perform settings d command).1 (perform settings d command').1 := by
  match command, command' with
  | .help, .help => exact .help _
  | .quick q, .quick q' =>
    obtain rfl : q = q' := Command.quick.inj h
    have hmade : ∀ made, (d.rollText QuickRoll.token).1 = .ok made →
        Xoshiro.roller.Made d.generator made := fun _ hroll => .text hroll
    exact (answeredAlike_answerRoll rfl rfl hmade hmade).withoutQuickRolls
  | .roll text policy reason, .roll text' policy' reason' =>
    obtain ⟨htext, rfl, hreason⟩ := Command.roll.inj h
    have houtcome : lowerOutcome Roll.lower (d.serve ⟨text, policy⟩).1 =
        lowerOutcome Roll.lower (d.serve ⟨text', policy⟩).1 := by
      rw [← serve_lower, ← serve_lower, htext]
    have htitle : (reason.map reasonTitle).map Text.lower =
        (reason'.map reasonTitle).map Text.lower := by
      have hcomp : ∀ r : Option Text, (r.map reasonTitle).map Text.lower =
          (r.map Text.lower).map fun r => Text.lower "Rolling for: ".toList ++ r := by
        intro r
        cases r with
        | none => rfl
        | some r => exact congrArg some (lower_append _ _)
      rw [hcomp, hcomp, hreason]
    exact answeredAlike_answerRoll houtcome htitle (fun _ => made_of_serve) fun _ => made_of_serve
  | .help, .quick _ => cases h
  | .help, .roll _ _ _ => cases h
  | .quick _, .help => cases h
  | .quick _, .roll _ _ _ => cases h
  | .roll _ _ _, .help => cases h
  | .roll _ _ _, .quick _ => cases h

/-- Commands that differ in case take as many generators. -/
theorem perform_snd_of_lower (settings : Settings) {command command' : Command}
    (h : command.lower = command'.lower) :
    (perform settings d command).2 = (perform settings d command').2 := by
  have hrolls : ∀ c : Command, c.lower.rolls = c.rolls := by
    intro c
    cases c <;> rfl
  rw [perform_snd, perform_snd, ← hrolls command, h, hrolls command']

/-! ### Messages that differ in case -/

/-- **Case has no say.** Two texts that differ in the case of ASCII letters at
most are answered alike behind the command prefix, by every dealer and under
all settings, and leave the dealer the same. -/
theorem case_has_no_say (settings : Settings) (d : Dealer) {s s' : Text}
    (h : Text.lower s = Text.lower s') :
    AnsweredAlike d (eval settings d (settings.commandPrefix ++ s)).1
        (eval settings d (settings.commandPrefix ++ s')).1 ∧
      (eval settings d (settings.commandPrefix ++ s)).2 =
        (eval settings d (settings.commandPrefix ++ s')).2 := by
  have hread : ∀ behind, Command.parse settings.commandPrefix settings.rollPrefixes
      (settings.commandPrefix ++ behind) = (Command.ofCommandText behind).map some :=
    fun behind => Command.parse_of_lead (List.isPrefixOf?_eq_some_iff_append_eq.mpr rfl) _
  have hcommands : (Command.ofCommandText s).map Command.lower =
      (Command.ofCommandText s').map Command.lower := by
    rw [← Command.ofCommandText_lower, h, Command.ofCommandText_lower]
  unfold eval
  rw [hread, hread]
  cases hs : Command.ofCommandText s with
  | error e =>
    rw [hs] at hcommands
    cases hs' : Command.ofCommandText s' with
    | error e' => exact ⟨.broken, rfl⟩
    | ok command' =>
      rw [hs'] at hcommands
      cases hcommands
  | ok command =>
    rw [hs] at hcommands
    cases hs' : Command.ofCommandText s' with
    | error e' =>
      rw [hs'] at hcommands
      cases hcommands
    | ok command' =>
      rw [hs'] at hcommands
      have hlower : command.lower = command'.lower := Except.ok.inj hcommands
      exact ⟨perform_alike settings hlower, perform_snd_of_lower settings hlower⟩

/-- A roll under a policy with a reason that ends with the Kelvin sign, which
is no letter of ASCII and stays as it is. -/
theorem case_has_no_say_beside_kelvin :
    Text.lower " ADV D20-1 # LucK\u212a".toList = Text.lower " aDv d20-1 # lUCk\u212a".toList ∧
      AnsweredAlike (Dealer.ofSeed 7)
        (eval .default (Dealer.ofSeed 7) "! ADV D20-1 # LucK\u212a".toList).1
        (eval .default (Dealer.ofSeed 7) "! aDv d20-1 # lUCk\u212a".toList).1 ∧
      (eval .default (Dealer.ofSeed 7) "! ADV D20-1 # LucK\u212a".toList).2 =
        (eval .default (Dealer.ofSeed 7) "! aDv d20-1 # lUCk\u212a".toList).2 := by
  have h : Text.lower " ADV D20-1 # LucK\u212a".toList =
      Text.lower " aDv d20-1 # lUCk\u212a".toList := by decide
  exact ⟨h, case_has_no_say .default (Dealer.ofSeed 7) h⟩

end Bot
end DiceTower
