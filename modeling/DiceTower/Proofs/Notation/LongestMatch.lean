/-
# The longest notation at the start of a text

A text may start with several notations: `12d345+67x` starts with `12d3`,
`12d345` and `12d345+6` too. Both readers take the pieces of the longest one.
Its count ends at the letter, so every other one has the same count; its sides
are a whole run of digits, so the sides of another are a first part of them;
and where another has a modifier, the sides are the same and its modifier is
a first part of the modifier of the longest (`Pieces.Ends.length_le`).

The readers part in one case only. Where the modifier leaves the signed 64-bit
range, the converting reader takes no modifier and leaves its text to the
rest, so it gets to the end of a token exactly if the token has the shape of a
notation and its modifier fits.

Key definitions: `Notation.Longest`, `Notation.ReadersAgree`.
Key theorems: `Notation.Pieces.Ends.length_le`, `Notation.recognize?_eq_some_iff`,
`Notation.recognize?_eq_none_iff`, `Notation.readers_agree_on_longest`.
-/
import DiceTower.Proofs.Notation.Classification
import DiceTower.Proofs.Text.Runs

namespace DiceTower
namespace Notation

open Text

/-! ### First parts of a run -/

/-- Digits in front of any text are a first part of the whole run. -/
theorem prefix_of_noDigitAhead : ∀ {digits run more rest : Text}, (∀ c ∈ digits, c.isDigit = true) →
    NoDigitAhead rest → digits ++ more = run ++ rest → digits <+: run
  | [], run, _, _, _, _, _ => List.nil_prefix
  | c :: digits, [], more, rest, hdigits, hrest, h => by
    have hc : c.isDigit = false := hrest c (by rw [← List.nil_append rest, ← h]; rfl)
    rw [hdigits c List.mem_cons_self] at hc
    cases hc
  | c :: digits, d :: run, more, rest, hdigits, hrest, h => by
    obtain ⟨rfl, htail⟩ := List.cons.inj h
    have hprefix := prefix_of_noDigitAhead (fun c hc => hdigits c (List.mem_cons_of_mem _ hc)) hrest
      htail
    exact List.cons_prefix_cons.mpr ⟨rfl, hprefix⟩

/-- A text starts with a run of digits unless no digit is ahead. -/
theorem digits?_eq_none_iff {text : Text} : digits? text = none ↔ NoDigitAhead text := by
  constructor
  · intro h c hc
    obtain ⟨rest, rfl⟩ : ∃ rest, text = c :: rest := List.head?_eq_some_iff.mp hc
    refine Bool.eq_false_iff.mpr fun hdigit => ?_
    simp [digits?, digits, hdigit] at h
  · intro h
    have hd : digits text = ([], text) := digits_eq_iff.mpr ⟨rfl, by simp, h⟩
    simp only [digits?, hd]

theorem digits?_append_ne_none {run : Text} (hne : run ≠ []) (hrun : ∀ c ∈ run, c.isDigit = true)
    (more : Text) : digits? (run ++ more) ≠ none := by
  obtain ⟨c, others, rfl⟩ := List.exists_cons_of_ne_nil hne
  intro h
  have hc : c.isDigit = false := digits?_eq_none_iff.mp h c rfl
  rw [hrun c List.mem_cons_self] at hc
  cases hc

/-- A sign and a digit are enough for a modifier. -/
theorem signedDigits?_append_ne_none {sign : Char} {run : Text} (hsign : sign = '+' ∨ sign = '-')
    (hne : run ≠ []) (hrun : ∀ c ∈ run, c.isDigit = true) (more : Text) :
    signedDigits? (sign :: run ++ more) ≠ none := by
  have hs : sign? (sign :: run ++ more) = some (sign, run ++ more) :=
    sign?_eq_some_iff.mpr ⟨rfl, hsign⟩
  obtain ⟨found, hd⟩ := Option.ne_none_iff_exists'.mp (digits?_append_ne_none hne hrun more)
  simp only [signedDigits?, hs, hd, Option.bind_eq_bind, Option.bind_some]
  exact Option.some_ne_none _

/-! ### Other pieces at the start of the same text -/

namespace Pieces

variable {p q : Pieces} {rest more : Text}

/-- Valid pieces are settled by their text. -/
theorem eq_of_text_eq (hp : p.Valid) (hq : q.Valid) (h : p.text = q.text) : p = q := by
  have hread : pieces? p.text = some (q, []) := h ▸ pieces?_text hq
  rw [pieces?_text hp] at hread
  exact congrArg Prod.fst (Option.some.inj hread)

/-- No modifier at the same place is longer than that of pieces that end there. -/
theorem Ends.length_signedText_le (hends : p.Ends rest) (hq : q.Valid)
    (h : q.signedText ++ more = p.signedText ++ rest) :
    q.signedText.length ≤ p.signedText.length := by
  cases hqs : q.signed with
  | none => simp [signedText, hqs]
  | some found =>
    obtain ⟨sign, run⟩ := found
    obtain ⟨hsign, hne, hrun⟩ := hq.2.2.2 sign run hqs
    have hqtext : q.signedText = sign :: run := by simp only [signedText, hqs]
    rw [hqtext] at h ⊢
    cases hps : p.signed with
    | none =>
      have hptext : p.signedText = [] := by simp only [signedText, hps]
      rw [hptext, List.nil_append] at h
      exact absurd (h ▸ hends.2 hps) (signedDigits?_append_ne_none hsign hne hrun more)
    | some found =>
      obtain ⟨sign', run'⟩ := found
      have hptext : p.signedText = sign' :: run' := by simp only [signedText, hps]
      rw [hptext] at h ⊢
      have hprefix : run <+: run' := prefix_of_noDigitAhead hrun hends.1 (List.cons.inj h).2
      exact Nat.succ_le_succ hprefix.length_le

/-- The count ends at the letter, so it is the same for all pieces of a text. -/
theorem count_eq_of_text_append (hp : p.Valid) (hq : q.Valid) (h : q.text ++ more = p.text ++ rest) :
    q.count = p.count ∧ q.sides ++ (q.signedText ++ more) = p.sides ++ (p.signedText ++ rest) := by
  have hdigits := congrArg digits h
  rw [hq.digits_text_append, hp.digits_text_append] at hdigits
  obtain ⟨hcount, hbehind⟩ := Prod.mk.inj hdigits
  exact ⟨hcount, (List.cons.inj hbehind).2⟩

/-- **Pieces that end are the longest.** Where the pieces cannot go on into the
rest, no others at the start of the same text have a longer text. -/
theorem Ends.length_le (hp : p.Valid) (hends : p.Ends rest) (hq : q.Valid)
    (h : q.text ++ more = p.text ++ rest) : q.text.length ≤ p.text.length := by
  obtain ⟨hcount, hbehind⟩ := count_eq_of_text_append hp hq h
  have hahead : NoDigitAhead (p.signedText ++ rest) := hp.noDigitAhead_signedText hends.1
  have hrest : q.sides.length + q.signedText.length ≤ p.sides.length + p.signedText.length := by
    cases hqs : q.signed with
    | none =>
      have hprefix : q.sides <+: p.sides := prefix_of_noDigitAhead hq.2.2.1.2 hahead hbehind
      have hqtext : q.signedText = [] := by simp only [signedText, hqs]
      rw [hqtext, List.length_nil]
      exact Nat.le_trans hprefix.length_le (Nat.le_add_right _ _)
    | some found =>
      -- a sign ends the sides of both, so only the modifiers may differ
      obtain ⟨sign, run⟩ := found
      have hqahead : NoDigitAhead (q.signedText ++ more) := by
        simp only [signedText, hqs]
        exact noDigitAhead_cons (not_isDigit_of_sign (hq.2.2.2 sign run hqs).1) _
      obtain ⟨hsides, hsigned⟩ := run_append_inj hq.2.2.1.2 hp.2.2.1.2 hqahead hahead hbehind
      rw [hsides]
      exact Nat.add_le_add_left (hends.length_signedText_le hq hsigned) _
  simp only [text, List.length_append, List.length_cons, hcount]
  omega

/-- Where valid pieces stand at the start of a text, some are taken off it. -/
theorem Valid.pieces?_ne_none (hp : p.Valid) (rest : Text) : pieces? (p.text ++ rest) ≠ none := by
  have hc := hp.digits_text_append rest
  obtain ⟨-, hletter, ⟨hne, hsides⟩, -⟩ := hp
  have hl : letter? (p.letter :: (p.sides ++ (p.signedText ++ rest))) =
      some (p.letter, p.sides ++ (p.signedText ++ rest)) := letter?_eq_some_iff.mpr ⟨rfl, hletter⟩
  obtain ⟨found, hs⟩ := Option.ne_none_iff_exists'.mp
    (digits?_append_ne_none hne hsides (p.signedText ++ rest))
  simp only [pieces?, hc, hl, hs, Option.bind_eq_bind, Option.bind_some]
  split <;> exact Option.some_ne_none _

end Pieces

/-! ### The longest match -/

/-- The text starts with the notation and with no longer one. -/
structure Longest (text found : Text) : Prop where
  starts : found <+: text
  hasShape : HasShape found
  length_le : ∀ other, other <+: text → HasShape other → other.length ≤ found.length

theorem longest_of_pieces? {text rest : Text} {p : Pieces} (h : pieces? text = some (p, rest)) :
    Longest text p.text := by
  obtain ⟨hp, rfl, hends⟩ := pieces?_eq_some_iff.mp h
  refine ⟨List.prefix_append _ _, ⟨p, hp, rfl⟩, ?_⟩
  rintro other ⟨more, hmore⟩ ⟨q, hq, rfl⟩
  exact hends.length_le hp hq hmore

/-- There is one longest notation at most. -/
theorem Longest.unique {text found found' : Text} (h : Longest text found)
    (h' : Longest text found') : found = found' := by
  have hle : found.length ≤ found'.length := h'.length_le found h.starts h.hasShape
  have hge : found'.length ≤ found.length := h.length_le found' h'.starts h'.hasShape
  exact (List.prefix_of_prefix_length_le h.starts h'.starts hle).eq_of_length_le hge

theorem pieces?_eq_none_iff {text : Text} :
    pieces? text = none ↔ ∀ found, found <+: text → ¬ HasShape found := by
  constructor
  · rintro h found ⟨rest, rfl⟩ ⟨p, hp, rfl⟩
    exact hp.pieces?_ne_none rest h
  · intro h
    cases hp : pieces? text with
    | none => rfl
    | some found =>
      have hlongest := longest_of_pieces? hp
      exact absurd hlongest.hasShape (h _ hlongest.starts)

theorem recognize?_eq_none_iff {text : Text} :
    recognize? text = none ↔ ∀ found, found <+: text → ¬ HasShape found := by
  rw [recognize?_eq_pieces?, Option.map_eq_none_iff, pieces?_eq_none_iff]

theorem longest_of_recognize? {text found rest : Text} (h : recognize? text = some (found, rest)) :
    Longest text found := by
  rw [recognize?_eq_pieces?] at h
  obtain ⟨⟨p, behind⟩, hp, hfound⟩ := Option.map_eq_some_iff.mp h
  obtain ⟨rfl, rfl⟩ := Prod.mk.inj hfound
  exact longest_of_pieces? hp

/-- **The recogniser takes the longest match.** -/
theorem recognize?_eq_some_iff {text found rest : Text} :
    recognize? text = some (found, rest) ↔ found ++ rest = text ∧ Longest text found := by
  constructor
  · intro h
    exact ⟨recognize?_append_rest h, longest_of_recognize? h⟩
  · rintro ⟨rfl, hlongest⟩
    cases hr : recognize? (found ++ rest) with
    | none => exact absurd hlongest.hasShape (recognize?_eq_none_iff.mp hr found hlongest.starts)
    | some taken =>
      obtain ⟨found', rest'⟩ := taken
      obtain rfl : found' = found := (longest_of_recognize? hr).unique hlongest
      rw [List.append_cancel_left (recognize?_append_rest hr)]

/-! ### The other reader -/

theorem read?_eq_none_iff {text : Text} : read? text = none ↔ recognize? text = none := by
  rw [read?_eq_pieces?, recognize?_eq_pieces?, Option.map_eq_none_iff, Option.map_eq_none_iff]

/-- The converting reader reads the pieces of what the recogniser finds. -/
theorem read?_of_recognize? {text found rest : Text} (h : recognize? text = some (found, rest))
    {p : Pieces} (hp : p.Valid) (hfound : p.text = found) :
    read? text = some (p.numerals rest) := by
  rw [recognize?_eq_pieces?] at h
  obtain ⟨⟨q, behind⟩, hq, htaken⟩ := Option.map_eq_some_iff.mp h
  obtain ⟨hqtext, rfl⟩ := Prod.mk.inj htaken
  obtain ⟨hvalid, -, -⟩ := pieces?_eq_some_iff.mp hq
  obtain rfl : p = q := Pieces.eq_of_text_eq hp hvalid (hfound.trans hqtext.symm)
  rw [read?_eq_pieces?, hq, Option.map_some]

/-- How the two readers agree on a text. -/
structure ReadersAgree (text : Text) : Prop where
  /-- The recogniser fails exactly if no prefix has the shape of a notation. -/
  recognize_none : recognize? text = none ↔ ∀ found, found <+: text → ¬ HasShape found
  /-- What it takes is the longest prefix that has the shape, and the rest is what follows. -/
  recognize_some : ∀ found rest,
    recognize? text = some (found, rest) ↔ found ++ rest = text ∧ Longest text found
  /-- A text is a notation exactly if it has the shape of one from end to end. -/
  isNotation_iff : isNotation text = true ↔ HasShape text
  /-- The converting reader fails on the same texts. -/
  read_none : read? text = none ↔ recognize? text = none
  /-- It reads the digits of what the recogniser takes; with a modifier that fits, or with
  none, it also takes as much. -/
  read_fitting : ∀ found rest, recognize? text = some (found, rest) →
    ∀ p : Pieces, p.Valid → p.text = found → ∀ hfit : Signed64.Fits p.modifier,
      read? text = some (⟨p.count, p.sides, ⟨p.modifier, hfit⟩⟩, rest)
  /-- A modifier that does not fit counts as zero, and the whole of it is left. -/
  read_oversized : ∀ found rest, recognize? text = some (found, rest) →
    ∀ p : Pieces, p.Valid → p.text = found → ¬ Signed64.Fits p.modifier →
      read? text = some (⟨p.count, p.sides, Modifier.zero⟩, p.signedText ++ rest)
  /-- A token that is no notation is refused as one. -/
  parse_other : isNotation text = false → Expression.parse text = .error (.invalidNotation text)
  /-- A token that is a notation has pieces, and is refused as a notation exactly if their
  modifier does not fit. -/
  parse_notation : isNotation text = true → ∃ p : Pieces, p.Valid ∧ p.text = text ∧
    (Expression.parse text = .error (.invalidNotation text) ↔ ¬ Signed64.Fits p.modifier)

theorem parse_eq_invalidNotation_iff {p : Pieces} (hp : p.Valid) :
    Expression.parse p.text = .error (.invalidNotation p.text) ↔ ¬ Signed64.Fits p.modifier := by
  rw [Expression.parse_eq_invalidNotation_iff_of_hasShape ⟨p, hp, rfl⟩]
  constructor
  · rintro ⟨q, hq, htext, hfit⟩
    rwa [← Pieces.eq_of_text_eq hq hp htext]
  · intro hfit
    exact ⟨p, hp, rfl, hfit⟩

/-- **The two readers of notations agree.** On every text both fail, or both
take the pieces of its longest notation and leave the same rest; only a
modifier that leaves the signed 64-bit range is left over by the one that
converts it. Hence a token is refused as a notation exactly if it has not the
shape of one or has such a modifier. -/
theorem readers_agree_on_longest (text : Text) : ReadersAgree text where
  recognize_none := recognize?_eq_none_iff
  recognize_some _ _ := recognize?_eq_some_iff
  isNotation_iff := isNotation_iff_hasShape
  read_none := read?_eq_none_iff
  read_fitting found rest h p hp hfound hfit := by
    rw [read?_of_recognize? h hp hfound, Pieces.numerals_of_fits hfit]
  read_oversized found rest h p hp hfound hfit := by
    rw [read?_of_recognize? h hp hfound, Pieces.numerals_of_not_fits hfit]
  parse_other h := by
    refine Expression.parse_of_verdict (.shapeless fun hshape => ?_)
    rw [isNotation_iff_hasShape.mpr hshape] at h
    cases h
  parse_notation h := by
    obtain ⟨p, hp, rfl⟩ := isNotation_iff_hasShape.mp h
    exact ⟨p, hp, rfl, parse_eq_invalidNotation_iff hp⟩

example :
    recognize? "1d6+9223372036854775808 x".toList =
      some ("1d6+9223372036854775808".toList, " x".toList) ∧
    (read? "1d6+9223372036854775808 x".toList).map (·.2) =
      some "+9223372036854775808 x".toList := ⟨by decide, by decide⟩

end Notation
end DiceTower
