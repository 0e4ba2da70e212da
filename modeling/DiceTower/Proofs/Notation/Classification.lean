/-
# What a token comes to

`Expression.Verdict` classifies all tokens by the pieces they are made of: a
token without the shape of a notation, or with a modifier that leaves the
signed 64-bit range, is no notation; one whose count is written and out of
range is refused for its count, whatever its sides are; one whose sides are
out of range is refused for its sides; and any other is accepted with the
numbers its digits stand for. Parsing gives exactly this verdict
(`parse_eq_iff_verdict`), so every token has one verdict and no more.

Key definitions: `word32?`, `Expression.Verdict`.
Key theorems: `Expression.parse_eq_iff_verdict`,
`Expression.parse_eq_invalidNotation_iff_of_hasShape`.
-/
import DiceTower.Dice.Parse
import DiceTower.Proofs.Notation.Shape

namespace DiceTower

open Text Notation

/-- The number, unless it exceeds 2³² - 1. -/
def word32? (n : Nat) : Option Nat := if n ≤ 4294967295 then some n else none

namespace Expression

/-- The classification of tokens. -/
inductive Verdict (token : Text) : Except DiceError Expression → Prop
  /-- The token has not the shape of a notation. -/
  | shapeless (hshape : ¬ HasShape token) : Verdict token (.error (.invalidNotation token))
  /-- The modifier leaves the signed 64-bit range. -/
  | modifier {p : Pieces} (hp : p.Valid) (htext : p.text = token)
      (hfit : ¬ Signed64.Fits p.modifier) : Verdict token (.error (.invalidNotation token))
  /-- The count is written and out of range. -/
  | count {p : Pieces} (hp : p.Valid) (htext : p.text = token) (hfit : Signed64.Fits p.modifier)
      (hwritten : p.count ≠ []) (hcount : ¬ (1 ≤ value p.count ∧ value p.count ≤ 100)) :
      Verdict token (.error (.countOutOfRange token (word32? (value p.count))))
  /-- The count is absent or in range, and the sides are out of range. -/
  | sides {p : Pieces} (hp : p.Valid) (htext : p.text = token) (hfit : Signed64.Fits p.modifier)
      (hcount : p.count ≠ [] → 1 ≤ value p.count ∧ value p.count ≤ 100)
      (hsides : ¬ (2 ≤ value p.sides ∧ value p.sides ≤ 1000)) :
      Verdict token (.error (.sidesOutOfRange token (word32? (value p.sides))))
  /-- Every number is in range. -/
  | accepted {p : Pieces} (hp : p.Valid) (htext : p.text = token) (hfit : Signed64.Fits p.modifier)
      (hcount : p.count ≠ [] → 1 ≤ value p.count ∧ value p.count ≤ 100)
      (hsides : 2 ≤ value p.sides ∧ value p.sides ≤ 1000) {e : Expression}
      (ecount : e.count = if p.count = [] then 1 else value p.count)
      (esides : e.sides = value p.sides) (emodifier : e.modifier = p.modifier)
      (ewritten : e.written = token) : Verdict token (.ok e)

/-! ### Numbers in range -/

theorem bounded_of_mem {least greatest : Nat} {run : Text}
    (h : least ≤ value run ∧ value run ≤ greatest) :
    bounded least greatest run = .ok ⟨value run, h⟩ := dif_pos h

theorem bounded_of_not_mem {least greatest : Nat} {run : Text}
    (h : ¬ (least ≤ value run ∧ value run ≤ greatest)) :
    bounded least greatest run = .error (word32? (value run)) := by
  unfold bounded word32?
  rw [dif_neg h]
  by_cases hw : value run < 4294967296
  · rw [if_pos hw, if_pos (by omega)]
  · rw [if_neg hw, if_neg (by omega)]

theorem readCount_of_written {run : Text} (h : run ≠ []) :
    readCount run = bounded minCount maxCount run := if_neg h

/-- A count that is absent or in range is read. -/
theorem readCount_of_mem {run : Text} (h : run ≠ [] → 1 ≤ value run ∧ value run ≤ 100) :
    ∃ count, readCount run = .ok count ∧ count.1 = if run = [] then 1 else value run := by
  by_cases hrun : run = []
  · exact ⟨⟨1, by decide⟩, if_pos hrun, (if_pos hrun).symm⟩
  · refine ⟨⟨value run, h hrun⟩, ?_, (if_neg hrun).symm⟩
    rw [readCount_of_written hrun]
    exact bounded_of_mem (h hrun)

/-! ### Parsing after reading -/

section

variable {token : Text} {numerals : Numerals}

theorem parse_of_not_read (h : ∀ numerals, read? token ≠ some (numerals, [])) :
    parse token = .error (.invalidNotation token) := by
  unfold parse
  split
  · rename_i numerals hr
    exact absurd hr (h numerals)
  · rfl

theorem parse_of_count_error (hr : read? token = some (numerals, [])) {n : Option Nat}
    (hc : readCount numerals.count = .error n) : parse token = .error (.countOutOfRange token n) := by
  simp only [parse, hr, hc]

theorem parse_of_sides_error (hr : read? token = some (numerals, [])) {count}
    (hc : readCount numerals.count = .ok count) {n : Option Nat}
    (hs : readSides numerals.sides = .error n) : parse token = .error (.sidesOutOfRange token n) := by
  simp only [parse, hr, hc, hs]

theorem parse_of_ok (hr : read? token = some (numerals, [])) {count}
    (hc : readCount numerals.count = .ok count) {sides}
    (hs : readSides numerals.sides = .ok sides) {e : Expression} (ecount : e.count = count.1)
    (esides : e.sides = sides.1) (emodifier : e.modifier = numerals.modifier.1)
    (ewritten : e.written = token) : parse token = .ok e := by
  simp only [parse, hr, hc, hs]
  obtain ⟨count', sides', modifier', written', _, _, _⟩ := e
  subst ecount esides emodifier ewritten
  rfl

end

/-! ### The verdict -/

/-- Whatever the verdict is, parsing gives it. -/
theorem parse_of_verdict {token : Text} {answer : Except DiceError Expression}
    (h : Verdict token answer) : parse token = answer := by
  cases h with
  | shapeless hshape =>
    exact parse_of_not_read fun numerals hr => hshape (hasShape_of_read? hr)
  | @modifier p hp htext hfit =>
    subst htext
    refine parse_of_not_read fun numerals hr => Pieces.signedText_ne_nil hfit ?_
    rw [read?_text_of_not_fits hp hfit] at hr
    exact congrArg Prod.snd (Option.some.inj hr)
  | @count p hp htext hfit hwritten hcount =>
    subst htext
    refine parse_of_count_error (read?_text hp hfit) ?_
    rw [readCount_of_written hwritten]
    exact bounded_of_not_mem hcount
  | @sides p hp htext hfit hcount hsides =>
    subst htext
    obtain ⟨count, hc, -⟩ := readCount_of_mem hcount
    exact parse_of_sides_error (read?_text hp hfit) hc (bounded_of_not_mem hsides)
  | @accepted p hp htext hfit hcount hsides e ecount esides emodifier ewritten =>
    subst htext
    obtain ⟨count, hc, hcv⟩ := readCount_of_mem hcount
    exact parse_of_ok (read?_text hp hfit) hc (bounded_of_mem hsides) (ecount.trans hcv.symm)
      esides emodifier ewritten

/-- Every token has a verdict. -/
theorem exists_verdict (token : Text) : ∃ answer, Verdict token answer := by
  by_cases hshape : HasShape token
  · obtain ⟨p, hp, htext⟩ := hshape
    by_cases hfit : Signed64.Fits p.modifier
    · by_cases hcount : p.count ≠ [] → 1 ≤ value p.count ∧ value p.count ≤ 100
      · by_cases hsides : 2 ≤ value p.sides ∧ value p.sides ≤ 1000
        · obtain ⟨count, -, hcv⟩ := readCount_of_mem hcount
          let e : Expression := ⟨count, value p.sides, p.modifier, token, count.2, hsides, hfit⟩
          exact ⟨.ok e, .accepted hp htext hfit hcount hsides hcv rfl rfl rfl⟩
        · exact ⟨_, .sides hp htext hfit hcount hsides⟩
      · have hwritten : p.count ≠ [] := fun h => hcount fun hne => absurd h hne
        exact ⟨_, .count hp htext hfit hwritten fun h => hcount fun _ => h⟩
    · exact ⟨_, .modifier hp htext hfit⟩
  · exact ⟨_, .shapeless hshape⟩

/-- **Parsing gives the verdict.** Whatever the token, it is parsed to an
answer exactly if that is its verdict. -/
theorem parse_eq_iff_verdict (token : Text) (answer : Except DiceError Expression) :
    parse token = answer ↔ Verdict token answer := by
  constructor
  · intro h
    obtain ⟨answer', hv⟩ := exists_verdict token
    have heq : answer' = answer := (parse_of_verdict hv).symm.trans h
    exact heq ▸ hv
  · exact parse_of_verdict

/-- A token that stands for an expression has the shape of a notation. -/
theorem hasShape_of_parse {token : Text} {e : Expression} (h : parse token = .ok e) :
    HasShape token := by
  cases (parse_eq_iff_verdict token (.ok e)).mp h with
  | @accepted p hp htext => exact ⟨p, hp, htext⟩

/-- A token with the shape of a notation is refused as one exactly if its modifier
leaves the signed 64-bit range. -/
theorem parse_eq_invalidNotation_iff_of_hasShape {token : Text} (h : HasShape token) :
    parse token = .error (.invalidNotation token) ↔
      ∃ p : Pieces, p.Valid ∧ p.text = token ∧ ¬ Signed64.Fits p.modifier := by
  constructor
  · intro hparse
    obtain ⟨answer, hverdict⟩ := exists_verdict token
    rw [parse_of_verdict hverdict] at hparse
    subst hparse
    cases hverdict with
    | shapeless hshape => exact absurd h hshape
    | @modifier p hp htext hfit => exact ⟨p, hp, htext, hfit⟩
  · rintro ⟨p, hp, htext, hfit⟩
    exact parse_of_verdict (.modifier hp htext hfit)

end Expression
end DiceTower
