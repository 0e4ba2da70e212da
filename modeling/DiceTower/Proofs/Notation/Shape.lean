/-
# A notation, piece by piece

The recogniser of notations and the reader that converts their numbers take
the same pieces off a text: the longest run of digits, the letter, the
longest run of digits, and a sign with the longest run of digits behind it
where there is one. `pieces?` takes them off once, and both are read off it
(`recognize?_eq_pieces?`, `read?_eq_pieces?`). The pieces are the valid ones
that the text starts with and that cannot go on into the rest
(`pieces?_eq_some_iff`), so a token is a notation from end to end exactly if
it has the shape of one (`isNotation_iff_hasShape`).

Key definitions: `Notation.NoDigitAhead`, `Notation.Pieces.modifier`,
`Notation.Pieces.Ends`, `Notation.pieces?`.
Key theorems: `Notation.pieces?_eq_some_iff`, `Notation.recognize?_eq_pieces?`,
`Notation.read?_eq_pieces?`, `Notation.isNotation_iff_hasShape`.
-/
import DiceTower.Dice.Notation

namespace DiceTower
namespace Notation

open Text

/-! ### Runs of digits -/

/-- The text does not go on with a digit. -/
def NoDigitAhead (rest : Text) : Prop := ∀ c, rest.head? = some c → c.isDigit = false

theorem noDigitAhead_nil : NoDigitAhead [] := by
  intro c h
  simp at h

theorem noDigitAhead_cons {c : Char} (h : c.isDigit = false) (rest : Text) :
    NoDigitAhead (c :: rest) := by
  intro d hd
  obtain rfl : c = d := by simpa using hd
  exact h

theorem noDigitAhead_dropWhile (text : Text) : NoDigitAhead (text.dropWhile Char.isDigit) := by
  intro c hc
  have h := List.head?_dropWhile_not Char.isDigit text
  rw [hc] at h
  exact h

/-- The run of digits is the one that the rest does not go on with. -/
theorem digits_eq_iff {text run rest : Text} : digits text = (run, rest) ↔
    text = run ++ rest ∧ (∀ c ∈ run, c.isDigit = true) ∧ NoDigitAhead rest := by
  constructor
  · intro h
    have hrun : text.takeWhile Char.isDigit = run := congrArg Prod.fst h
    have hrest : text.dropWhile Char.isDigit = rest := congrArg Prod.snd h
    refine ⟨?_, ?_, ?_⟩
    · rw [← hrun, ← hrest, List.takeWhile_append_dropWhile]
    · intro c hc
      rw [← hrun] at hc
      exact List.all_eq_true.mp List.all_takeWhile c hc
    · rw [← hrest]
      exact noDigitAhead_dropWhile text
  · rintro ⟨rfl, hrun, hrest⟩
    exact digits_append hrun hrest

theorem digits?_eq_some_iff {text run rest : Text} : digits? text = some (run, rest) ↔
    text = run ++ rest ∧ run ≠ [] ∧ (∀ c ∈ run, c.isDigit = true) ∧ NoDigitAhead rest := by
  constructor
  · intro h
    obtain ⟨htext, hne, hrun⟩ := digits?_eq_some h
    have hd : digits text = (run, rest) := by
      unfold digits? at h
      split at h
      · simp at h
      · exact Option.some.inj h
    exact ⟨htext, hne, hrun, (digits_eq_iff.mp hd).2.2⟩
  · rintro ⟨htext, hne, hrun, hrest⟩
    unfold digits?
    rw [digits_eq_iff.mpr ⟨htext, hrun, hrest⟩]
    cases run with
    | nil => exact absurd rfl hne
    | cons c run => rfl

/-! ### The letter and the modifier -/

theorem letter?_eq_some_iff {text rest : Text} {c : Char} :
    letter? text = some (c, rest) ↔ text = c :: rest ∧ (c = 'd' ∨ c = 'D') := by
  constructor
  · exact letter?_eq_some
  · rintro ⟨rfl, hc⟩
    simp only [letter?, if_pos hc]

theorem sign?_eq_some_iff {text rest : Text} {c : Char} :
    sign? text = some (c, rest) ↔ text = c :: rest ∧ (c = '+' ∨ c = '-') := by
  cases text with
  | nil => simp [sign?]
  | cons d others =>
    simp only [sign?, List.cons.injEq]
    by_cases hd : d = '+' ∨ d = '-'
    · rw [if_pos hd]
      constructor
      · intro h
        obtain ⟨rfl, rfl⟩ := Prod.mk.inj (Option.some.inj h)
        exact ⟨⟨rfl, rfl⟩, hd⟩
      · rintro ⟨⟨rfl, rfl⟩, -⟩
        rfl
    · rw [if_neg hd]
      constructor
      · intro h
        cases h
      · rintro ⟨⟨rfl, rfl⟩, hc⟩
        exact absurd hc hd

theorem signedDigits?_eq_some_iff {text run rest : Text} {sign : Char} :
    signedDigits? text = some ((sign, run), rest) ↔
      text = sign :: run ++ rest ∧ (sign = '+' ∨ sign = '-') ∧ run ≠ [] ∧
        (∀ c ∈ run, c.isDigit = true) ∧ NoDigitAhead rest := by
  simp only [signedDigits?, Option.bind_eq_bind, Option.bind_eq_some_iff]
  constructor
  · rintro ⟨⟨s, behind⟩, hs, ⟨run', rest'⟩, hd, he⟩
    simp only [pure, Option.some.injEq, Prod.mk.injEq] at he
    obtain ⟨⟨rfl, rfl⟩, rfl⟩ := he
    obtain ⟨rfl, hsign⟩ := sign?_eq_some_iff.mp hs
    obtain ⟨rfl, hne, hrun, hrest⟩ := digits?_eq_some_iff.mp hd
    exact ⟨rfl, hsign, hne, hrun, hrest⟩
  · rintro ⟨rfl, hsign, hne, hrun, hrest⟩
    refine ⟨(sign, run ++ rest), sign?_eq_some_iff.mpr ⟨rfl, hsign⟩, (run, rest), ?_, rfl⟩
    exact digits?_eq_some_iff.mpr ⟨rfl, hne, hrun, hrest⟩

theorem not_isDigit_of_letter {c : Char} (h : c = 'd' ∨ c = 'D') : c.isDigit = false := by
  rcases h with rfl | rfl <;> decide

theorem not_isDigit_of_sign {c : Char} (h : c = '+' ∨ c = '-') : c.isDigit = false := by
  rcases h with rfl | rfl <;> decide

/-! ### All pieces -/

/-- The signed value of the modifier, zero where there is none. -/
def Pieces.modifier (p : Pieces) : Int :=
  match p.signed with
  | none => 0
  | some (sign, run) => signedValue sign run

/-- The pieces cannot go on into the rest: neither by a digit nor, where they
have no modifier, by a modifier. -/
def Pieces.Ends (p : Pieces) (rest : Text) : Prop :=
  NoDigitAhead rest ∧ (p.signed = none → signedDigits? rest = none)

theorem Pieces.ends_nil (p : Pieces) : p.Ends [] := ⟨noDigitAhead_nil, fun _ => rfl⟩

/-- The pieces of the notation at the start of a text, and what follows it. -/
def pieces? (text : Text) : Option (Pieces × Text) := do
  let (count, rest) := digits text
  let (letter, rest) ← letter? rest
  let (sides, rest) ← digits? rest
  match signedDigits? rest with
  | some (signed, rest) => some (⟨count, letter, sides, some signed⟩, rest)
  | none => some (⟨count, letter, sides, none⟩, rest)

/-- The sides end where the modifier or the rest begins. -/
theorem Pieces.Valid.noDigitAhead_signedText {p : Pieces} (hp : p.Valid) {rest : Text}
    (hrest : NoDigitAhead rest) : NoDigitAhead (p.signedText ++ rest) := by
  unfold Pieces.signedText
  cases hs : p.signed with
  | none => exact hrest
  | some signed =>
    obtain ⟨sign, run⟩ := signed
    exact noDigitAhead_cons (not_isDigit_of_sign (hp.2.2.2 sign run hs).1) _

/-- The count ends where the letter begins. -/
theorem Pieces.Valid.digits_text_append {p : Pieces} (hp : p.Valid) (rest : Text) :
    digits (p.text ++ rest) = (p.count, p.letter :: (p.sides ++ (p.signedText ++ rest))) := by
  refine digits_eq_iff.mpr ⟨by simp [Pieces.text], hp.1, ?_⟩
  exact noDigitAhead_cons (not_isDigit_of_letter hp.2.1) _

/-- Valid pieces that do not go on into the rest are taken off. -/
theorem pieces?_text_append {p : Pieces} (hp : p.Valid) {rest : Text} (hrest : p.Ends rest) :
    pieces? (p.text ++ rest) = some (p, rest) := by
  obtain ⟨-, hletter, ⟨hne, hsides⟩, hsigned⟩ := id hp
  have hc := hp.digits_text_append rest
  have hl : letter? (p.letter :: (p.sides ++ (p.signedText ++ rest))) =
      some (p.letter, p.sides ++ (p.signedText ++ rest)) := letter?_eq_some_iff.mpr ⟨rfl, hletter⟩
  have hs : digits? (p.sides ++ (p.signedText ++ rest)) = some (p.sides, p.signedText ++ rest) :=
    digits?_eq_some_iff.mpr ⟨rfl, hne, hsides, hp.noDigitAhead_signedText hrest.1⟩
  simp only [pieces?, hc, hl, hs, Option.bind_eq_bind, Option.bind_some]
  obtain ⟨count, letter, sides, signed⟩ := p
  cases signed with
  | none =>
    have hm : signedDigits? rest = none := hrest.2 rfl
    simp only [Pieces.signedText, List.nil_append, hm]
  | some signed =>
    obtain ⟨sign, run⟩ := signed
    obtain ⟨hsign, hrne, hrun⟩ := hsigned sign run rfl
    have hm : signedDigits? (sign :: run ++ rest) = some ((sign, run), rest) :=
      signedDigits?_eq_some_iff.mpr ⟨rfl, hsign, hrne, hrun, hrest.1⟩
    simp only [Pieces.signedText, hm]

theorem pieces?_text {p : Pieces} (hp : p.Valid) : pieces? p.text = some (p, []) := by
  have h := pieces?_text_append hp p.ends_nil
  rwa [List.append_nil] at h

/-- **The pieces of a text.** They are the valid pieces that the text starts
with and that do not go on into the rest. -/
theorem pieces?_eq_some_iff {text rest : Text} {p : Pieces} :
    pieces? text = some (p, rest) ↔ p.Valid ∧ text = p.text ++ rest ∧ p.Ends rest := by
  constructor
  · intro h
    cases hd : digits text with | mk count start =>
    simp only [pieces?, hd, Option.bind_eq_bind, Option.bind_eq_some_iff] at h
    obtain ⟨⟨letter, behind⟩, hl, ⟨sides, others⟩, hs, hm⟩ := h
    obtain ⟨htext, hcount, -⟩ := digits_eq_iff.mp hd
    obtain ⟨rfl, hletter⟩ := letter?_eq_some_iff.mp hl
    obtain ⟨rfl, hne, hsides, hothers⟩ := digits?_eq_some_iff.mp hs
    cases hsd : signedDigits? others with
    | none =>
      simp only [hsd, Option.some.injEq, Prod.mk.injEq] at hm
      obtain ⟨rfl, rfl⟩ := hm
      refine ⟨⟨hcount, hletter, ⟨hne, hsides⟩, ?_⟩, ?_, hothers, fun _ => hsd⟩
      · intro sign run h
        cases h
      · simpa [Pieces.text, Pieces.signedText] using htext
    | some found =>
      obtain ⟨⟨sign, run⟩, rest'⟩ := found
      simp only [hsd, Option.some.injEq, Prod.mk.injEq] at hm
      obtain ⟨rfl, rfl⟩ := hm
      obtain ⟨rfl, hsign, hrne, hrun, hrest⟩ := signedDigits?_eq_some_iff.mp hsd
      refine ⟨⟨hcount, hletter, ⟨hne, hsides⟩, ?_⟩, ?_, hrest, ?_⟩
      · intro sign' run' h
        cases h
        exact ⟨hsign, hrne, hrun⟩
      · simpa [Pieces.text, Pieces.signedText] using htext
      · intro h
        cases h
  · rintro ⟨hp, rfl, hrest⟩
    exact pieces?_text_append hp hrest

/-! ### The two readers -/

/-- The recogniser puts the pieces together again. -/
theorem recognize?_eq_pieces? (text : Text) :
    recognize? text = (pieces? text).map fun found => (found.1.text, found.2) := by
  simp only [recognize?, pieces?, Option.bind_eq_bind]
  cases letter? (digits text).2 with
  | none => rfl
  | some found =>
    obtain ⟨letter, behind⟩ := found
    simp only [Option.bind_some]
    cases digits? behind with
    | none => rfl
    | some found =>
      obtain ⟨sides, others⟩ := found
      simp only [Option.bind_some]
      cases signedDigits? others with
      | none => simp [Pieces.text, Pieces.signedText]
      | some found => simp [Pieces.text, Pieces.signedText]

/-- A modifier is read where the signed digits fit; else nothing is taken. -/
theorem modifier?_eq (text : Text) : modifier? text =
    (signedDigits? text).bind fun found =>
      if h : Signed64.Fits (signedValue found.1.1 found.1.2) then
        some (⟨signedValue found.1.1 found.1.2, h⟩, found.2)
      else none := rfl

/-- What the converting reader makes of the pieces: their digits and their
modifier, or, where the modifier does not fit, no modifier and its text in
front of the rest. -/
def Pieces.numerals (p : Pieces) (rest : Text) : Numerals × Text :=
  if h : Signed64.Fits p.modifier then (⟨p.count, p.sides, ⟨p.modifier, h⟩⟩, rest)
  else (⟨p.count, p.sides, Modifier.zero⟩, p.signedText ++ rest)

theorem Pieces.numerals_of_fits {p : Pieces} (h : Signed64.Fits p.modifier) (rest : Text) :
    p.numerals rest = (⟨p.count, p.sides, ⟨p.modifier, h⟩⟩, rest) := dif_pos h

theorem Pieces.numerals_of_not_fits {p : Pieces} (h : ¬ Signed64.Fits p.modifier) (rest : Text) :
    p.numerals rest = (⟨p.count, p.sides, Modifier.zero⟩, p.signedText ++ rest) := dif_neg h

/-- The converting reader takes the same pieces as the recogniser. -/
theorem read?_eq_pieces? (text : Text) :
    read? text = (pieces? text).map fun found => found.1.numerals found.2 := by
  simp only [read?, pieces?, Option.bind_eq_bind]
  cases letter? (digits text).2 with
  | none => rfl
  | some found =>
    obtain ⟨letter, behind⟩ := found
    simp only [Option.bind_some]
    cases digits? behind with
    | none => rfl
    | some found =>
      obtain ⟨sides, others⟩ := found
      simp only [Option.bind_some, modifier?_eq]
      cases hsd : signedDigits? others with
      | none =>
        have hfit : Signed64.Fits (0 : Int) := by decide
        have hn := Pieces.numerals_of_fits (p := ⟨(digits text).1, letter, sides, none⟩) hfit others
        exact congrArg some hn.symm
      | some found =>
        obtain ⟨⟨sign, run⟩, rest⟩ := found
        simp only [Option.bind_some, Option.map_some]
        by_cases hfit : Signed64.Fits (signedValue sign run)
        · rw [dif_pos hfit]
          have hn := Pieces.numerals_of_fits
            (p := ⟨(digits text).1, letter, sides, some (sign, run)⟩) hfit rest
          exact congrArg some hn.symm
        · rw [dif_neg hfit, (signedDigits?_eq_some_iff.mp hsd).1]
          have hn := Pieces.numerals_of_not_fits
            (p := ⟨(digits text).1, letter, sides, some (sign, run)⟩) hfit rest
          exact congrArg some hn.symm

/-- Valid pieces whose modifier fits are read to the end of their text. -/
theorem read?_text {p : Pieces} (hp : p.Valid) (hfit : Signed64.Fits p.modifier) :
    read? p.text = some (⟨p.count, p.sides, ⟨p.modifier, hfit⟩⟩, []) := by
  rw [read?_eq_pieces?, pieces?_text hp, Option.map_some, Pieces.numerals_of_fits hfit]

/-- A modifier that does not fit is written. -/
theorem Pieces.signedText_ne_nil {p : Pieces} (h : ¬ Signed64.Fits p.modifier) :
    p.signedText ≠ [] := by
  unfold Pieces.modifier at h
  unfold Pieces.signedText
  cases hs : p.signed with
  | none =>
    rw [hs] at h
    exact absurd (by decide) h
  | some signed => exact List.cons_ne_nil _ _

/-- Where the modifier does not fit, its text is left over. -/
theorem read?_text_of_not_fits {p : Pieces} (hp : p.Valid) (hfit : ¬ Signed64.Fits p.modifier) :
    read? p.text = some (⟨p.count, p.sides, Modifier.zero⟩, p.signedText) := by
  rw [read?_eq_pieces?, pieces?_text hp, Option.map_some, Pieces.numerals_of_not_fits hfit,
    List.append_nil]

/-- A text that is read to its end has the shape of a notation. -/
theorem hasShape_of_read? {token : Text} {numerals : Numerals}
    (h : read? token = some (numerals, [])) : HasShape token := by
  rw [read?_eq_pieces?] at h
  obtain ⟨⟨p, rest⟩, hp, hn⟩ := Option.map_eq_some_iff.mp h
  obtain ⟨hvalid, htext, -⟩ := pieces?_eq_some_iff.mp hp
  have hrest : rest = [] := by
    by_cases hfit : Signed64.Fits p.modifier
    · rw [Pieces.numerals_of_fits hfit] at hn
      exact congrArg Prod.snd hn
    · rw [Pieces.numerals_of_not_fits hfit] at hn
      have hnil : p.signedText ++ rest = [] := congrArg Prod.snd hn
      exact (List.append_eq_nil_iff.mp hnil).2
  rw [hrest, List.append_nil] at htext
  exact ⟨p, hvalid, htext.symm⟩

/-- A token is a notation from end to end exactly if it has the shape of one. -/
theorem isNotation_iff_hasShape {token : Text} : isNotation token = true ↔ HasShape token := by
  constructor
  · intro h
    unfold isNotation at h
    rw [recognize?_eq_pieces?] at h
    cases hp : pieces? token with
    | none => simp [hp] at h
    | some found =>
      obtain ⟨p, rest⟩ := found
      obtain ⟨hvalid, htext, -⟩ := pieces?_eq_some_iff.mp hp
      cases rest with
      | nil => exact ⟨p, hvalid, by simpa using htext.symm⟩
      | cons c rest => simp [hp] at h
  · rintro ⟨p, hp, rfl⟩
    simp only [isNotation, recognize?_eq_pieces?, pieces?_text hp, Option.map_some]

/-- The tokens of a text are its words that are notations. -/
theorem mem_tokens_iff {text token : Text} :
    token ∈ tokens text ↔ token ∈ words text ∧ HasShape token := by
  rw [tokens, List.mem_filter, isNotation_iff_hasShape]

/-- A text has tokens if one of its words is a notation. -/
theorem tokens_ne_nil_iff {text : Text} : tokens text ≠ [] ↔ ∃ word ∈ words text, HasShape word := by
  rw [List.ne_nil_iff_exists_cons]
  constructor
  · rintro ⟨word, others, h⟩
    have hmem : word ∈ tokens text := by
      rw [h]
      exact List.mem_cons_self
    exact ⟨word, mem_tokens_iff.mp hmem⟩
  · rintro ⟨word, hword⟩
    exact List.ne_nil_iff_exists_cons.mp (List.ne_nil_of_mem (mem_tokens_iff.mpr hword))

end Notation
end DiceTower
