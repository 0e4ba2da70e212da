/-
# Messages are answered as the grammar says

The first reader that succeeds decides for good, even where something else
than blanks follows what it has read. This agrees with the grammar, which
knows no order: the forms begin with different letters, so that a text that
one reader takes up is of no other form. The answer to a message is therefore
the one of the grammar and no other, wherever reading does not break off.

Key definition: `Command.settle`.
Key theorems: `Command.asks_settle`, `Command.eq_settle_of_asks`,
`Command.parse_eq_ok_iff_answers`.
-/
import DiceTower.Proofs.Bot.Readers
import Mathlib.Data.List.Basic

namespace DiceTower
namespace Command

open Text

/-! ### The text behind the command prefix -/

/-- What is made of the first reader's finding: anything but blanks behind it,
or no finding, is a call for help. -/
def settle : Option (Command × Text) → Command
  | none => help
  | some (command, rest) => if skipBlanks rest = [] then command else help

theorem ofCommandText_eq (text : Text) :
    ofCommandText text = (firstFound readers (skipBlanks text)).map settle := by
  unfold ofCommandText
  cases firstFound readers (skipBlanks text) with
  | error e => rfl
  | ok found =>
    rcases found with _ | ⟨command, rest⟩
    · rfl
    · by_cases hrest : skipBlanks rest = []
      · simp [settle, hrest, Except.map]
      · simp [settle, hrest, Except.map]

/-- Either the first reader succeeds, or it finds nothing and the others decide. -/
theorem firstFound_cons_cases {reader : Text → Found} {others : List (Text → Found)} {s : Text}
    {found : Option (Command × Text)} (h : firstFound (reader :: others) s = .ok found) :
    (∃ p, reader s = .ok (some p) ∧ found = some p) ∨
      (reader s = .ok none ∧ firstFound others s = .ok found) := by
  rw [firstFound] at h
  cases hread : reader s with
  | error e =>
    rw [hread] at h
    cases h
  | ok read =>
    rw [hread] at h
    cases read with
    | none => exact Or.inr ⟨rfl, h⟩
    | some p =>
      cases h
      exact Or.inl ⟨p, rfl, rfl⟩

theorem settle_of_blanks {rest : Text} (h : Blanks rest) (command : Command) :
    settle (some (command, rest)) = command :=
  if_pos (skipBlanks_eq_nil_iff.mpr h)

theorem settle_of_not_blanks {rest : Text} (h : ¬ Blanks rest) (command : Command) :
    settle (some (command, rest)) = help :=
  if_neg (mt skipBlanks_eq_nil_iff.mp h)

/-- **The readers find what the text asks for.** -/
theorem asks_settle {s : Text} {found : Option (Command × Text)}
    (h : firstFound readers s = .ok found) : Asks s (settle found) := by
  rcases firstFound_cons_cases h with ⟨⟨c, rest⟩, hquick, rfl⟩ | ⟨hquick, h⟩
  · obtain ⟨k, rfl, hform⟩ := quickForm_of_quickRoll hquick
    by_cases hrest : Blanks rest
    · rw [settle_of_blanks hrest]
      exact Asks.quick hform hrest
    · -- The reader has decided for good, but the text is of no other form either.
      rw [settle_of_not_blanks hrest]
      refine Asks.help ?_ (not_policyForm_of_opening hform.opening (by decide) (by decide))
        (not_plainForm_of_opening hform.opening (by decide))
      intro k' rest' hblanks hform'
      obtain ⟨-, rfl⟩ : quick k = quick k' ∧ rest = rest' := by
        simpa using quickRoll_of_quickForm hform' hblanks hquick
      exact hrest hblanks
  have hno_quick : ∀ k rest, Blanks rest → ¬ QuickForm s k rest := by
    intro k rest hblanks hform
    cases quickRoll_of_quickForm hform hblanks hquick
  rcases firstFound_cons_cases h with ⟨⟨c, rest⟩, hpolicy, rfl⟩ | ⟨hpolicy, h⟩
  · obtain ⟨rfl, policy, b, hform, rfl⟩ := policyForm_of_policyRoll hpolicy
    exact Asks.policy hform (bodyReads_body b)
  have hno_policy : ∀ policy b, ¬ PolicyForm s policy b := by
    intro policy b hform
    cases policyRoll_of_policyForm hform hpolicy
  rcases firstFound_cons_cases h with ⟨⟨c, rest⟩, hhelp, rfl⟩ | ⟨-, h⟩
  · obtain ⟨rfl, hopening⟩ := opening_of_helpCall hhelp
    have hsettle : settle (some (help, rest)) = help := ite_self _
    rw [hsettle]
    exact Asks.help hno_quick hno_policy (not_plainForm_of_opening hopening (by decide))
  rcases firstFound_cons_cases h with ⟨⟨c, rest⟩, hplain, rfl⟩ | ⟨hplain, h⟩
  · obtain ⟨rfl, b, hform, rfl⟩ := plainForm_of_plainRoll hplain
    exact Asks.plain hform (bodyReads_body b)
  have hno_plain : ∀ b, ¬ PlainForm s b := by
    intro b hform
    cases plainRoll_of_plainForm hform hplain
  cases h
  exact Asks.help hno_quick hno_policy hno_plain

/-- **A text asks for nothing but what the readers find.** -/
theorem eq_settle_of_asks {s : Text} {c : Command} {found : Option (Command × Text)}
    (h : firstFound readers s = .ok found) (hasks : Asks s c) : c = settle found := by
  have hsettle := asks_settle h
  cases hasks with
  | quick hform hrest =>
    rcases firstFound_cons_cases h with ⟨p, hquick, rfl⟩ | ⟨hquick, -⟩
    · cases quickRoll_of_quickForm hform hrest hquick
      rw [settle_of_blanks hrest]
    · cases quickRoll_of_quickForm hform hrest hquick
  | @policy policy b text reason hform hbody =>
    rcases firstFound_cons_cases h with ⟨p, hquick, rfl⟩ | ⟨-, h⟩
    · have hq := opening_of_quickRoll hquick
      exact absurd hform (not_policyForm_of_opening hq (by decide) (by decide) _ _)
    rcases firstFound_cons_cases h with ⟨p, hpolicy, rfl⟩ | ⟨hpolicy, -⟩
    · cases policyRoll_of_policyForm hform hpolicy
      rw [ofBody_of_bodyReads hbody]
      rfl
    · cases policyRoll_of_policyForm hform hpolicy
  | @plain b text reason hform hbody =>
    rcases firstFound_cons_cases h with ⟨p, hquick, rfl⟩ | ⟨-, h⟩
    · have hq := opening_of_quickRoll hquick
      exact absurd hform (not_plainForm_of_opening hq (by decide) _)
    rcases firstFound_cons_cases h with ⟨p, hpolicy, rfl⟩ | ⟨-, h⟩
    · rcases opening_of_policyRoll hpolicy with ha | hd
      · exact absurd hform (not_plainForm_of_opening ha (by decide) _)
      · exact absurd hform (not_plainForm_of_opening hd (by decide) _)
    rcases firstFound_cons_cases h with ⟨⟨c, rest⟩, hhelp, rfl⟩ | ⟨-, h⟩
    · obtain ⟨-, hopening⟩ := opening_of_helpCall hhelp
      exact absurd hform (not_plainForm_of_opening hopening (by decide) _)
    rcases firstFound_cons_cases h with ⟨p, hplain, rfl⟩ | ⟨hplain, -⟩
    · cases plainRoll_of_plainForm hform hplain
      rw [ofBody_of_bodyReads hbody]
      rfl
    · cases plainRoll_of_plainForm hform hplain
  | help hquick hpolicy hplain =>
    generalize settle found = c at hsettle ⊢
    cases hsettle with
    | quick hform hrest => exact absurd hform (hquick _ _ hrest)
    | policy hform => exact absurd hform (hpolicy _ _)
    | plain hform => exact absurd hform (hplain _)
    | help => rfl

/-! ### Messages -/

/-- A roll prefix gives the roll of the body behind it, where the message fits it. -/
theorem ofRollMessage?_eq_some_iff {message lead : Text} {command : Command} :
    ofRollMessage? message lead = some command ↔
      ∃ text reason, Fits message lead text reason ∧ command = roll text none reason := by
  unfold ofRollMessage?
  constructor
  · intro h
    cases hlead : lead.isPrefixOf? message with
    | none => simp [hlead] at h
    | some b =>
      by_cases htokens : Notation.tokens (body b).1 = []
      · simp [hlead, body_skipBlanks, htokens] at h
      · have hcommand : command = ofBody b none := by
          simpa [hlead, body_skipBlanks, htokens, ofBody_skipBlanks] using h.symm
        have hmessage := List.isPrefixOf?_eq_some_iff_append_eq.mp hlead
        exact ⟨(body b).1, (body b).2, ⟨b, hmessage.symm, bodyReads_body b,
          Notation.tokens_ne_nil_iff.mp htokens⟩, hcommand⟩
  · rintro ⟨text, reason, ⟨b, hmessage, hbody, hshape⟩, rfl⟩
    have hlead : lead.isPrefixOf? message = some b :=
      List.isPrefixOf?_eq_some_iff_append_eq.mpr hmessage.symm
    have htokens : Notation.tokens (body b).1 ≠ [] := by
      rw [bodyReads_iff.mp hbody]
      exact Notation.tokens_ne_nil_iff.mpr hshape
    simp [hlead, body_skipBlanks, htokens, ofBody_skipBlanks, ofBody_of_bodyReads hbody]

theorem ofRollMessage?_eq_none_iff {message lead : Text} :
    ofRollMessage? message lead = none ↔ ∀ text reason, ¬ Fits message lead text reason := by
  rw [Option.eq_none_iff_forall_ne_some]
  constructor
  · intro h text reason hfits
    exact h _ (ofRollMessage?_eq_some_iff.mpr ⟨text, reason, hfits, rfl⟩)
  · intro h command hcommand
    obtain ⟨text, reason, hfits, -⟩ := ofRollMessage?_eq_some_iff.mp hcommand
    exact h text reason hfits

/-- Without the command prefix, the answer is that of the first roll prefix that fits. -/
theorem findSome?_eq_iff_answers {lead message : Text} (hlead : ¬ lead <+: message)
    (leads : List Text) (answer : Option Command) :
    leads.findSome? (ofRollMessage? message) = answer ↔ Answers lead leads message answer := by
  constructor
  · intro h
    cases answer with
    | none =>
      refine Answers.silent hlead ?_
      intro p hp
      exact ofRollMessage?_eq_none_iff.mp (List.findSome?_eq_none_iff.mp h p hp)
    | some command =>
      obtain ⟨before, first, after, hleads, hfirst, hbefore⟩ := List.findSome?_eq_some_iff.mp h
      obtain ⟨text, reason, hfits, rfl⟩ := ofRollMessage?_eq_some_iff.mp hfirst
      refine Answers.roll hlead hleads ?_ hfits
      intro p hp
      exact ofRollMessage?_eq_none_iff.mp (hbefore p hp)
  · intro h
    cases h with
    | command hmessage => exact absurd ⟨_, hmessage.symm⟩ hlead
    | @roll before after first text reason _ hleads hbefore hfits =>
      refine List.findSome?_eq_some_iff.mpr ⟨before, first, after, hleads, ?_, ?_⟩
      · exact ofRollMessage?_eq_some_iff.mpr ⟨text, reason, hfits, rfl⟩
      · intro p hp
        exact ofRollMessage?_eq_none_iff.mpr (hbefore p hp)
    | silent _ hnone =>
      refine List.findSome?_eq_none_iff.mpr ?_
      intro p hp
      exact ofRollMessage?_eq_none_iff.mpr (hnone p hp)

/-- With the command prefix, the answer is what the text behind it asks for. -/
theorem settle_eq_iff_answers {lead message behind : Text} (hmessage : lead ++ behind = message)
    {found : Option (Command × Text)} (h : firstFound readers (skipBlanks behind) = .ok found)
    (leads : List Text) (answer : Option Command) :
    some (settle found) = answer ↔ Answers lead leads message answer := by
  constructor
  · rintro rfl
    obtain ⟨blanks, hblanks, hbehind⟩ := exists_skipBlanks behind
    refine Answers.command ?_ hblanks (noBlankAhead_skipBlanks behind) (asks_settle h)
    rw [← hbehind, hmessage]
  · intro hanswer
    cases hanswer with
    | @command blanks s command hsplit hblanks hs hasks =>
      have hbehind : behind = blanks ++ s := List.append_cancel_left (hmessage.trans hsplit)
      have hskip : skipBlanks behind = s := by
        rw [hbehind, skipBlanks_append hblanks, skipBlanks_of_noBlankAhead hs]
      rw [hskip] at h
      rw [eq_settle_of_asks h hasks]
    | roll hlead => exact absurd ⟨behind, hmessage⟩ hlead
    | silent hlead => exact absurd ⟨behind, hmessage⟩ hlead

/-- **Messages are answered as the grammar says.** Where reading does not break
off inside a character, the answer to a message is the one of the grammar and
no other. -/
theorem parse_eq_ok_iff_answers {lead : Text} {leads : List Text} {message : Text}
    (h : ∀ e, parse lead leads message ≠ .error e) (answer : Option Command) :
    parse lead leads message = .ok answer ↔ Answers lead leads message answer := by
  cases hlead : lead.isPrefixOf? message with
  | none =>
    have hnot : ¬ lead <+: message := by
      rintro ⟨behind, hmessage⟩
      rw [List.isPrefixOf?_eq_some_iff_append_eq.mpr hmessage] at hlead
      cases hlead
    rw [parse_of_not_lead hlead, Except.ok.injEq]
    exact findSome?_eq_iff_answers hnot leads answer
  | some behind =>
    have hmessage := List.isPrefixOf?_eq_some_iff_append_eq.mp hlead
    rw [parse_of_lead hlead, ofCommandText_eq] at h ⊢
    cases hfound : firstFound readers (skipBlanks behind) with
    | error e =>
      rw [hfound] at h
      exact absurd rfl (h e)
    | ok found =>
      show Except.ok (some (settle found)) = Except.ok answer ↔ _
      rw [Except.ok.injEq]
      exact settle_eq_iff_answers hmessage hfound leads answer

/-- A policy is asked for in capitals too, and what follows its words is read
as a body. -/
theorem answers_policy_in_capitals :
    (∀ e, parse "!".toList ["?".toList] "! ADV\t2d6 # luck".toList ≠ .error e) ∧
      Answers "!".toList ["?".toList] "! ADV\t2d6 # luck".toList
        (some (.roll "2d6".toList (some .advantage) (some "luck".toList))) := by
  have hparse : parse "!".toList ["?".toList] "! ADV\t2d6 # luck".toList =
      .ok (some (.roll "2d6".toList (some .advantage) (some "luck".toList))) := by rfl
  have hok : ∀ e, parse "!".toList ["?".toList] "! ADV\t2d6 # luck".toList ≠ .error e := by
    rw [hparse]
    rintro e ⟨⟩
  exact ⟨hok, (parse_eq_ok_iff_answers hok _).mp hparse⟩

end Command
end DiceTower
