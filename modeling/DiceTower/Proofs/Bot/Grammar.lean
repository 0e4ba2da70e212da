/-
# The grammar of messages

What a message asks for, said without an order of readers. Behind the command
prefix and the blanks after it stands a quick roll, a policy roll or a plain
roll; everything else asks for help. Without the command prefix the first roll
prefix that fits decides, and it fits if the text of the body behind it has a
word that is a notation.

The words of the forms begin with different letters (`QuickForm.opening`,
`PolicyForm.opening`, `PlainForm.opening`), so that no text is of two forms.

Key definitions: `Command.BodyReads`, `Command.QuickForm`,
`Command.PolicyForm`, `Command.PlainForm`, `Command.Asks`, `Command.Fits`,
`Command.Answers`.
Key theorems: `Command.bodyReads_iff`, `Command.plainForm_iff`.
-/
import DiceTower.Bot.Command
import DiceTower.Proofs.Notation.Shape
import DiceTower.Proofs.Text.Spelling

namespace DiceTower
namespace Command

open Text

/-! ### The grammar -/

/-- The text and the reason of a body: what stands in front of the first `#`
and what stands behind it, both trimmed; an empty reason is none. -/
inductive BodyReads : Text → Text → Option Text → Prop
  | plain {b : Text} (h : '#' ∉ b) : BodyReads b (trim b) none
  | unreasoned {front back : Text} (h : '#' ∉ front) (he : trim back = []) :
      BodyReads (front ++ '#' :: back) (trim front) none
  | reasoned {front back : Text} (h : '#' ∉ front) (he : trim back ≠ []) :
      BodyReads (front ++ '#' :: back) (trim front) (some (trim back))

/-- The words that ask for a quick roll. -/
def quickWords : List Text := ["quick".toList, "q".toList]

/-- A word for quick rolls, blanks, the name of the occasion, and the rest. -/
def QuickForm (s : Text) (k : QuickRoll) (rest : Text) : Prop :=
  ∃ word ∈ quickWords, ∃ gap behind, StartsWith word s (gap ++ behind) ∧ Gap gap ∧
    StartsWith k.keyword behind rest

/-- The words that ask for a policy. -/
def policyWords : Policy → List Text
  | .advantage => ["advantage".toList, "adv".toList]
  | .disadvantage => ["disadvantage".toList, "dis".toList]

/-- A word for a policy, blanks, and the body. -/
def PolicyForm (s : Text) (policy : Policy) (b : Text) : Prop :=
  ∃ word ∈ policyWords policy, ∃ gap, StartsWith word s (gap ++ b) ∧ Gap gap

/-- The letter `r`, or the word `roll` where it is spelled out, and the body. -/
def PlainForm (s b : Text) : Prop :=
  ∃ c behind, (c = 'r' ∨ c = 'R') ∧ s = c :: behind ∧
    (StartsWith "roll".toList s b ∨ (∀ b', ¬ StartsWith "roll".toList s b') ∧ b = behind)

/-- What the text behind the command prefix and its blanks asks for. -/
inductive Asks (s : Text) : Command → Prop
  | quick {k : QuickRoll} {rest : Text} (hform : QuickForm s k rest) (hrest : Blanks rest) :
      Asks s (.quick k)
  | policy {policy : Policy} {b text : Text} {reason : Option Text}
      (hform : PolicyForm s policy b) (hbody : BodyReads b text reason) :
      Asks s (.roll text (some policy) reason)
  | plain {b text : Text} {reason : Option Text} (hform : PlainForm s b)
      (hbody : BodyReads b text reason) : Asks s (.roll text none reason)
  | help (hquick : ∀ k rest, Blanks rest → ¬ QuickForm s k rest)
      (hpolicy : ∀ policy b, ¬ PolicyForm s policy b) (hplain : ∀ b, ¬ PlainForm s b) :
      Asks s .help

/-- The message is the roll prefix and a body that has a notation. -/
def Fits (message lead text : Text) (reason : Option Text) : Prop :=
  ∃ b, message = lead ++ b ∧ BodyReads b text reason ∧
    ∃ word ∈ words text, Notation.HasShape word

/-- What a message asks of the bot, under a command prefix and roll prefixes. -/
inductive Answers (lead : Text) (leads : List Text) (message : Text) : Option Command → Prop
  | command {blanks s : Text} {command : Command} (hmessage : message = lead ++ (blanks ++ s))
      (hblanks : Blanks blanks) (hs : NoBlankAhead s) (hasks : Asks s command) :
      Answers lead leads message (some command)
  | roll {before after : List Text} {first text : Text} {reason : Option Text}
      (hlead : ¬ lead <+: message) (hleads : leads = before ++ first :: after)
      (hbefore : ∀ p ∈ before, ∀ text reason, ¬ Fits message p text reason)
      (hfits : Fits message first text reason) :
      Answers lead leads message (some (.roll text none reason))
  | silent (hlead : ¬ lead <+: message)
      (hnone : ∀ p ∈ leads, ∀ text reason, ¬ Fits message p text reason) :
      Answers lead leads message none

/-! ### Bodies -/

theorem ne_mark {front : Text} (h : '#' ∉ front) : ∀ c ∈ front, decide (c ≠ '#') = true := by
  intro c hc
  refine decide_eq_true ?_
  rintro rfl
  exact h hc

theorem body_of_not_mem {b : Text} (h : '#' ∉ b) : body b = (trim b, none) := by
  have hbody : body (b ++ []) = (trim (b ++ []), unlessEmpty (trim [])) := by
    rw [body, List.takeWhile_append_of_pos (ne_mark h), List.dropWhile_append_of_pos (ne_mark h)]
    simp
  rw [List.append_nil] at hbody
  exact hbody

theorem body_append_mark {front : Text} (h : '#' ∉ front) (back : Text) :
    body (front ++ '#' :: back) = (trim front, unlessEmpty (trim back)) := by
  rw [body, List.takeWhile_append_of_pos (ne_mark h), List.dropWhile_append_of_pos (ne_mark h)]
  simp

/-- A body reads as the program reads it. -/
theorem bodyReads_iff {b text : Text} {reason : Option Text} :
    BodyReads b text reason ↔ body b = (text, reason) := by
  constructor
  · intro h
    cases h with
    | plain h => exact body_of_not_mem h
    | unreasoned h he => rw [body_append_mark h, unlessEmpty, if_pos he]
    | reasoned h he => rw [body_append_mark h, unlessEmpty, if_neg he]
  · intro h
    by_cases hmem : '#' ∈ b
    · obtain ⟨front, back, rfl, hfront⟩ := List.eq_append_cons_of_mem hmem
      rw [body_append_mark hfront] at h
      obtain ⟨rfl, rfl⟩ := Prod.mk.inj h
      unfold unlessEmpty
      by_cases he : trim back = []
      · rw [if_pos he]
        exact BodyReads.unreasoned hfront he
      · rw [if_neg he]
        exact BodyReads.reasoned hfront he
    · rw [body_of_not_mem hmem] at h
      obtain ⟨rfl, rfl⟩ := Prod.mk.inj h
      exact BodyReads.plain hmem

theorem ofBody_of_bodyReads {b text : Text} {reason : Option Text} (h : BodyReads b text reason)
    (policy : Option Policy) : ofBody b policy = roll text policy reason := by
  rw [ofBody, bodyReads_iff.mp h]

theorem bodyReads_body (b : Text) : BodyReads b (body b).1 (body b).2 :=
  bodyReads_iff.mpr rfl

/-- Blanks in front of a body do not count. -/
theorem body_skipBlanks (b : Text) : body (skipBlanks b) = body b := by
  obtain ⟨blanks, hblanks, hb⟩ := exists_skipBlanks b
  have hmark : '#' ∉ blanks := fun hmem => absurd (hblanks _ hmem) (by decide)
  have hspace : ∀ c ∈ blanks, isSpace c = true := fun c hc => isSpace_of_isBlank (hblanks c hc)
  have hbody : body (blanks ++ skipBlanks b) = body (skipBlanks b) := by
    rw [body, body, List.takeWhile_append_of_pos (ne_mark hmark),
      List.dropWhile_append_of_pos (ne_mark hmark), trim_append_of_isSpace_left hspace]
  calc body (skipBlanks b) = body (blanks ++ skipBlanks b) := hbody.symm
    _ = body b := by rw [← hb]

theorem ofBody_skipBlanks (b : Text) (policy : Option Policy) :
    ofBody (skipBlanks b) policy = ofBody b policy := by
  rw [ofBody, ofBody, body_skipBlanks]

/-! ### First letters -/

/-- The letter a text begins with, in lower case. -/
def opening (s : Text) : Option Char := s.head?.map Char.toLower

theorem opening_of_startsWith {k : Char} {word s rest : Text} (h : StartsWith word s rest)
    (hk : word.head? = some k) : opening s = some k := by
  cases word with
  | nil => cases hk
  | cons k' word =>
    obtain ⟨c, behind, hs, hc, -⟩ := h.exists_cons
    rw [opening, hs, List.head?_cons, Option.map_some, hc]
    exact hk

theorem QuickForm.opening {s rest : Text} {k : QuickRoll} (h : QuickForm s k rest) :
    opening s = some 'q' := by
  have hheads : ∀ word ∈ quickWords, word.head? = some 'q' := by decide
  obtain ⟨word, hword, gap, behind, hs, -, -⟩ := h
  exact opening_of_startsWith hs (hheads word hword)

theorem PolicyForm.opening {s b : Text} {policy : Policy} (h : PolicyForm s policy b) :
    opening s = some 'a' ∨ opening s = some 'd' := by
  have hheads : ∀ word ∈ policyWords policy, word.head? = some 'a' ∨ word.head? = some 'd' := by
    cases policy <;> decide
  obtain ⟨word, hword, gap, hs, -⟩ := h
  rcases hheads word hword with ha | hd
  · exact Or.inl (opening_of_startsWith hs ha)
  · exact Or.inr (opening_of_startsWith hs hd)

theorem PlainForm.opening {s b : Text} (h : PlainForm s b) : opening s = some 'r' := by
  obtain ⟨c, behind, hc, rfl, -⟩ := h
  rcases hc with rfl | rfl <;> rfl

theorem not_policyForm_of_opening {s : Text} {k : Char} (h : opening s = some k) (ha : k ≠ 'a')
    (hd : k ≠ 'd') (policy : Policy) (b : Text) : ¬ PolicyForm s policy b := by
  intro hform
  rcases hform.opening with hopening | hopening
  · rw [h, Option.some.injEq] at hopening
    exact ha hopening
  · rw [h, Option.some.injEq] at hopening
    exact hd hopening

theorem not_plainForm_of_opening {s : Text} {k : Char} (h : opening s = some k) (hr : k ≠ 'r')
    (b : Text) : ¬ PlainForm s b := by
  intro hform
  have hopening := hform.opening
  rw [h, Option.some.injEq] at hopening
  exact hr hopening

/-- Plain rolls by their two words, the longer one first. -/
theorem plainForm_iff {s b : Text} : PlainForm s b ↔ StartsWith "roll".toList s b ∨
    (∀ b', ¬ StartsWith "roll".toList s b') ∧ StartsWith "r".toList s b := by
  constructor
  · rintro ⟨c, behind, hc, rfl, hroll | ⟨hnot, rfl⟩⟩
    · exact Or.inl hroll
    · have hlower : c.toLower = 'r' := by
        rcases hc with rfl | rfl <;> decide
      refine Or.inr ⟨hnot, ?_⟩
      have hs := startsWith_cons (c := c) (startsWith_nil b)
      rw [hlower] at hs
      exact hs
  · rintro (hroll | ⟨hnot, hs⟩)
    · obtain ⟨c, behind, hs, hc, -⟩ := StartsWith.exists_cons hroll
      exact ⟨c, behind, eq_or_eq_toUpper_of_toLower_eq hc, hs, Or.inl hroll⟩
    · obtain ⟨c, behind, hcons, hc, hbehind⟩ := StartsWith.exists_cons hs
      have hb : behind = b := (startsWith_nil behind).rest_eq hbehind
      exact ⟨c, behind, eq_or_eq_toUpper_of_toLower_eq hc, hcons, Or.inr ⟨hnot, hb.symm⟩⟩

end Command
end DiceTower
