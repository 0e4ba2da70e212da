/-
# Notations are read between characters

The pieces of a notation are ASCII, and its readers take whole characters off
the text. So every reader leaves what stands behind a clean cut, whatever
follows the notation; and the letter, read as a keyword is, never breaks off
(`Notation.readersNeverSplit`).

Key definition: `Notation.ReadersNeverSplit`.
Key theorems: `Notation.keyword_letter`, `Notation.readersNeverSplit`.
-/
import DiceTower.Proofs.Notation.Shape
import DiceTower.Proofs.Text.Cuts

namespace DiceTower
namespace Notation

open Text

/-- No reader of notations cuts a text inside a character. -/
structure ReadersNeverSplit : Prop where
  /-- The letter can be read as a keyword, which never breaks off. -/
  letter_keyword : ∀ text, keyword "d".toList text = .ok ((letter? text).map (·.2))
  letter : ReadsCleanly letter?
  digits : ∀ text, CutsCleanly text (digits text).2
  digits1 : ReadsCleanly digits?
  sign : ReadsCleanly sign?
  signedDigits : ReadsCleanly signedDigits?
  modifier : ReadsCleanly modifier?
  recognize : ReadsCleanly recognize?
  read : ReadsCleanly read?

theorem startsWith_d_iff {text rest : Text} :
    StartsWith "d".toList text rest ↔ ∃ c, letter? text = some (c, rest) := by
  constructor
  · intro hs
    obtain ⟨c, behind, rfl, hc, hbehind⟩ := StartsWith.exists_cons hs
    have hrest : behind = rest := (startsWith_nil behind).rest_eq hbehind
    have hletter : c = 'd' ∨ c = 'D' := eq_or_eq_toUpper_of_toLower_eq hc
    exact ⟨c, letter?_eq_some_iff.mpr ⟨by rw [hrest], hletter⟩⟩
  · rintro ⟨c, h⟩
    obtain ⟨rfl, hletter⟩ := letter?_eq_some_iff.mp h
    have hc : c.toLower = 'd' := by
      rcases hletter with rfl | rfl <;> decide
    have hs := startsWith_cons (c := c) (startsWith_nil rest)
    rw [hc] at hs
    exact hs

/-- The letter of a notation is found where the keyword `d` is. -/
theorem keyword_letter (text : Text) :
    keyword "d".toList text = .ok ((letter? text).map (·.2)) := by
  have hd : isKeyword "d".toList = true := by decide
  cases hk : keyword "d".toList text with
  | error e => exact absurd hk (keyword_ne_error hd (by decide) text)
  | ok found =>
    cases found with
    | none =>
      cases hl : letter? text with
      | none => rfl
      | some p =>
        obtain ⟨c, rest⟩ := p
        have hs := (keyword_eq_some_iff hd).mpr (startsWith_d_iff.mpr ⟨c, hl⟩)
        rw [hk] at hs
        cases hs
    | some rest =>
      obtain ⟨c, hl⟩ := startsWith_d_iff.mp ((keyword_eq_some_iff hd).mp hk)
      rw [hl]
      rfl

theorem readsCleanly_signedDigits : ReadsCleanly signedDigits? := by
  rintro text ⟨sign, run⟩ rest h
  obtain ⟨rfl, -⟩ := signedDigits?_eq_some_iff.mp h
  exact cutsCleanly_iff_suffix.mpr (List.suffix_append _ rest)

/-- Where the modifier does not fit, its text is left over too. -/
theorem readsCleanly_read : ReadsCleanly read? := by
  intro text numerals rest h
  rw [read?_eq_pieces?] at h
  obtain ⟨⟨p, behind⟩, hp, hn⟩ := Option.map_eq_some_iff.mp h
  obtain ⟨-, rfl, -⟩ := pieces?_eq_some_iff.mp hp
  refine cutsCleanly_iff_suffix.mpr ?_
  by_cases hfit : Signed64.Fits p.modifier
  · rw [Pieces.numerals_of_fits hfit] at hn
    obtain ⟨-, rfl⟩ := Prod.mk.inj hn
    exact List.suffix_append _ behind
  · rw [Pieces.numerals_of_not_fits hfit] at hn
    obtain ⟨-, rfl⟩ := Prod.mk.inj hn
    exact ⟨p.count ++ p.letter :: p.sides, by simp [Pieces.text]⟩

/-- **Notations are read between characters.** -/
theorem readersNeverSplit : ReadersNeverSplit where
  letter_keyword := keyword_letter
  letter text c rest h := by
    obtain ⟨rfl, -⟩ := letter?_eq_some_iff.mp h
    exact cutsCleanly_iff_suffix.mpr (List.suffix_cons c rest)
  digits text := cutsCleanly_dropWhile Char.isDigit text
  digits1 text run rest h := by
    obtain ⟨rfl, -⟩ := digits?_eq_some_iff.mp h
    exact cutsCleanly_iff_suffix.mpr (List.suffix_append run rest)
  sign text c rest h := by
    obtain ⟨rfl, -⟩ := sign?_eq_some_iff.mp h
    exact cutsCleanly_iff_suffix.mpr (List.suffix_cons c rest)
  signedDigits := readsCleanly_signedDigits
  modifier text m rest h := by
    rw [modifier?_eq] at h
    obtain ⟨⟨signed, behind⟩, hs, hm⟩ := Option.bind_eq_some_iff.mp h
    have hrest : behind = rest := by
      by_cases hfit : Signed64.Fits (signedValue signed.1 signed.2)
      · simpa [hfit] using congrArg (Option.map (·.2)) hm
      · simp [hfit] at hm
    rw [← hrest]
    exact readsCleanly_signedDigits text signed behind hs
  recognize text found rest h :=
    cutsCleanly_iff_suffix.mpr ⟨found, recognize?_append_rest h⟩
  read := readsCleanly_read

end Notation
end DiceTower
