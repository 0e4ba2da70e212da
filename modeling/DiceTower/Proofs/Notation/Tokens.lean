/-
# The notations among the words of a text

No notation holds white space, so a text that is a notation from end to end
is its own only token (`tokens_of_hasShape`). A text without tokens is
therefore no notation even when it is trimmed, and parsing it as a whole can
fail in one way only (`parse_trim_of_tokens_eq_nil`).

Several tokens are parsed in order: either all of them stand for expressions
(`parseAll_eq_ok_iff`), or the error is that of the first that stands for none
(`parseAll_eq_error_iff`).

Key theorems: `Notation.tokens_of_hasShape`,
`Expression.parse_trim_of_tokens_eq_nil`, `Expression.parseAll_eq_ok_iff`,
`Expression.parseAll_eq_error_iff`.
-/
import DiceTower.Proofs.Notation.Classification
import DiceTower.Proofs.Text.Words

namespace DiceTower

open Text

namespace Notation

/-! ### White space in notations -/

theorem not_isSpace_of_isDigit {c : Char} (h : c.isDigit = true) : isSpace c = false := by
  have hd : 48 ≤ c.toNat ∧ c.toNat ≤ 57 := by
    simpa [Char.isDigit, UInt32.le_iff_toNat_le] using h
  rw [Bool.eq_false_iff]
  intro hs
  simp only [isSpace, inRanges, spaceRanges, List.any_cons, List.any_nil, Bool.or_eq_true,
    Bool.and_eq_true, decide_eq_true_eq, Bool.false_eq_true, or_false] at hs
  omega

/-- The text of a notation consists of digits, the letter and a sign. -/
theorem Pieces.Valid.mem_text_cases {p : Pieces} (hp : p.Valid) {c : Char} (hc : c ∈ p.text) :
    c.isDigit = true ∨ (c = 'd' ∨ c = 'D') ∨ (c = '+' ∨ c = '-') := by
  obtain ⟨hcount, hletter, ⟨-, hsides⟩, hsigned⟩ := hp
  simp only [Pieces.text, List.mem_append, List.mem_cons] at hc
  rcases hc with (hc | rfl | hc) | hc
  · exact Or.inl (hcount c hc)
  · exact Or.inr (Or.inl hletter)
  · exact Or.inl (hsides c hc)
  · unfold Pieces.signedText at hc
    cases hs : p.signed with
    | none => simp [hs] at hc
    | some signed =>
      obtain ⟨sign, run⟩ := signed
      obtain ⟨hsign, -, hrun⟩ := hsigned sign run hs
      rw [hs] at hc
      rcases List.mem_cons.mp hc with rfl | hc
      · exact Or.inr (Or.inr hsign)
      · exact Or.inl (hrun c hc)

/-- The pieces of a notation hold no white space. -/
theorem Pieces.Valid.not_isSpace {p : Pieces} (hp : p.Valid) {c : Char} (hc : c ∈ p.text) :
    isSpace c = false := by
  rcases hp.mem_text_cases hc with hdigit | (rfl | rfl) | (rfl | rfl)
  · exact not_isSpace_of_isDigit hdigit
  all_goals decide

theorem Pieces.text_ne_nil (p : Pieces) : p.text ≠ [] := by
  simp [Pieces.text]

/-- A notation is its own only token. -/
theorem tokens_of_hasShape {token : Text} (h : HasShape token) : tokens token = [token] := by
  have hn : isNotation token = true := isNotation_iff_hasShape.mpr h
  obtain ⟨p, hp, rfl⟩ := h
  unfold tokens
  rw [words_of_not_isSpace p.text_ne_nil fun c hc => hp.not_isSpace hc]
  exact List.filter_cons_of_pos hn

theorem tokens_trim (text : Text) : tokens (trim text) = tokens text := by
  unfold tokens
  rw [words_trim]

end Notation

open Notation

namespace Expression

/-- A token that stands for an expression consists of digits, the letter and a sign. -/
theorem mem_cases_of_parse {token : Text} {e : Expression} (h : parse token = .ok e) {c : Char}
    (hc : c ∈ token) : c.isDigit = true ∨ (c = 'd' ∨ c = 'D') ∨ (c = '+' ∨ c = '-') := by
  obtain ⟨p, hp, rfl⟩ := hasShape_of_parse h
  exact hp.mem_text_cases hc

/-- **A text without tokens is no notation.** Parsed as a whole, it is refused
as a notation; its numbers are never looked at. -/
theorem parse_trim_of_tokens_eq_nil {text : Text} (h : tokens text = []) :
    parse (trim text) = .error (.invalidNotation (trim text)) := by
  refine parse_of_verdict (.shapeless fun hshape => ?_)
  have htokens : tokens (trim text) = [trim text] := tokens_of_hasShape hshape
  rw [tokens_trim, h] at htokens
  cases htokens

/-! ### Several tokens -/

theorem parseAll_cons_of_ok {token : Text} {e : Expression} (h : parse token = .ok e)
    (rest : List Text) : parseAll (token :: rest) = (parseAll rest).map (e :: ·) := by
  simp only [parseAll, h]
  cases parseAll rest <;> rfl

theorem parseAll_cons_of_error {token : Text} {error : DiceError} (h : parse token = .error error)
    (rest : List Text) : parseAll (token :: rest) = .error error := by
  simp only [parseAll, h]

/-- All tokens are parsed exactly if each is. -/
theorem parseAll_eq_ok_iff {tokens : List Text} {expressions : List Expression} :
    parseAll tokens = .ok expressions ↔ tokens.map parse = expressions.map .ok := by
  induction tokens generalizing expressions with
  | nil =>
    cases expressions with
    | nil => simp [parseAll]
    | cons e rest => simp [parseAll]
  | cons token others ih =>
    cases hp : parse token with
    | error error =>
      rw [parseAll_cons_of_error hp]
      cases expressions with
      | nil => simp
      | cons e rest => simp [hp]
    | ok e' =>
      rw [parseAll_cons_of_ok hp]
      cases expressions with
      | nil =>
        cases parseAll others <;> simp [Except.map]
      | cons e rest =>
        simp only [List.map_cons, hp, List.cons.injEq, ← ih]
        cases parseAll others <;> simp [Except.map]

/-- The expressions are written as their tokens. -/
theorem map_written_of_parseAll : ∀ {tokens : List Text} {expressions : List Expression},
    parseAll tokens = .ok expressions → expressions.map (·.written) = tokens
  | [], expressions, h => by
    obtain rfl : [] = expressions := Except.ok.inj h
    rfl
  | token :: others, expressions, h => by
    cases hp : parse token with
    | error error =>
      rw [parseAll_cons_of_error hp] at h
      cases h
    | ok e =>
      rw [parseAll_cons_of_ok hp] at h
      cases ho : parseAll others with
      | error error =>
        rw [ho] at h
        cases h
      | ok rest =>
        rw [ho] at h
        obtain rfl : e :: rest = expressions := Except.ok.inj h
        rw [List.map_cons, written_parse hp, map_written_of_parseAll ho]

/-- The error is that of the first token that stands for no expression. -/
theorem parseAll_eq_error_iff {tokens : List Text} {error : DiceError} :
    parseAll tokens = .error error ↔ ∃ before token after, tokens = before ++ token :: after ∧
      (∀ t ∈ before, ∃ e, parse t = .ok e) ∧ parse token = .error error := by
  induction tokens with
  | nil => simp [parseAll]
  | cons token others ih =>
    cases hp : parse token with
    | error error' =>
      rw [parseAll_cons_of_error hp]
      constructor
      · intro h
        obtain rfl : error' = error := Except.error.inj h
        exact ⟨[], token, others, rfl, by simp, hp⟩
      · rintro ⟨before, first, after, htokens, hbefore, herror⟩
        cases before with
        | nil =>
          obtain ⟨rfl, rfl⟩ := List.cons.inj htokens
          rw [Except.error.inj (hp.symm.trans herror)]
        | cons t before =>
          obtain ⟨rfl, -⟩ := List.cons.inj htokens
          obtain ⟨e, he⟩ := hbefore token List.mem_cons_self
          exact absurd (hp.symm.trans he) (by simp)
    | ok e =>
      rw [parseAll_cons_of_ok hp]
      have hmap : (parseAll others).map (e :: ·) = .error error ↔ parseAll others = .error error := by
        cases parseAll others <;> simp [Except.map]
      rw [hmap, ih]
      constructor
      · rintro ⟨before, first, after, rfl, hbefore, herror⟩
        refine ⟨token :: before, first, after, rfl, ?_, herror⟩
        intro t ht
        rcases List.mem_cons.mp ht with rfl | ht
        · exact ⟨e, hp⟩
        · exact hbefore t ht
      · rintro ⟨before, first, after, htokens, hbefore, herror⟩
        cases before with
        | nil =>
          obtain ⟨rfl, rfl⟩ := List.cons.inj htokens
          exact absurd (hp.symm.trans herror) (by simp)
        | cons t before =>
          obtain ⟨rfl, rfl⟩ := List.cons.inj htokens
          exact ⟨before, first, after, rfl, fun t ht => hbefore t (List.mem_cons_of_mem _ ht), herror⟩

/-- Tokens that each stand for an expression are all parsed. -/
theorem exists_parseAll_eq_ok {tokens : List Text} (h : ∀ t ∈ tokens, ∃ e, parse t = .ok e) :
    ∃ expressions, parseAll tokens = .ok expressions := by
  cases hall : parseAll tokens with
  | ok expressions => exact ⟨expressions, rfl⟩
  | error error =>
    obtain ⟨before, token, after, htokens, -, herror⟩ := parseAll_eq_error_iff.mp hall
    obtain ⟨e, he⟩ := h token (by rw [htokens]; simp)
    rw [he] at herror
    cases herror

end Expression
end DiceTower
