/-
# The tokens of a text decide its roll

Rolling a text looks at its tokens only. Without a token the whole text is
refused as a notation, trimmed of white space; if a token stands for no
expression, the first such token is refused; else the expressions are rolled
in order, to a simple roll if there is one and to a batch if there are more
(`rollText_of_tokens_eq_nil`, `rollText_of_error`, `rollText_of_ok`).

Key definition: `Roll.ofResults`.
Key theorems: `Roller.rollText_of_ok`, `Roller.rollText_decided_by_tokens`.
-/
import DiceTower.Proofs.Notation.Tokens
import DiceTower.Roll.Roller

namespace DiceTower

open Text Notation Expression

/-- The roll of several results: a lone one is simple, others are a batch. -/
def Roll.ofResults : List Result → Roll
  | [result] => .simple result
  | results => .batch (Batch.ofResults results)

theorem Roll.results_ofResults (results : List Result) : (ofResults results).results = results := by
  match results with
  | [] => rfl
  | [_] => rfl
  | _ :: _ :: _ => rfl

theorem Roll.ofResults_of_length_eq_one {results : List Result} (h : results.length = 1) :
    ∃ result, ofResults results = .simple result := by
  obtain ⟨result, rfl⟩ := List.length_eq_one_iff.mp h
  exact ⟨result, rfl⟩

theorem Roll.ofResults_of_two_le_length {results : List Result} (h : 2 ≤ results.length) :
    ofResults results = .batch (Batch.ofResults results) := by
  match results with
  | [] => simp at h
  | [_] => simp at h
  | _ :: _ :: _ => rfl

namespace Roller

variable {σ : Type} (roller : Roller σ)

/-- The results are those of the expressions, in order. -/
theorem map_expression_rollAll : ∀ (expressions : List Expression) (state : σ),
    (roller.rollAll expressions state).1.map (·.expression) = expressions
  | [], _ => rfl
  | e :: rest, state => by
    simp only [rollAll, List.map_cons, map_expression_rollAll rest]
    rfl

theorem length_rollAll (expressions : List Expression) (state : σ) :
    (roller.rollAll expressions state).1.length = expressions.length := by
  have h := congrArg List.length (roller.map_expression_rollAll expressions state)
  rwa [List.length_map] at h

/-! ### The three outcomes -/

/-- Without tokens the trimmed text is refused as a notation. -/
theorem rollText_of_tokens_eq_nil {text : Text} (h : tokens text = []) (state : σ) :
    roller.rollText text state = (.error (.invalidNotation (trim text)), state) := by
  simp only [rollText, h, rollToken, parse_trim_of_tokens_eq_nil h, Except.map]

/-- A token that stands for no expression refuses the whole text. -/
theorem rollText_of_error {text : Text} {error : DiceError}
    (h : parseAll (tokens text) = .error error) (state : σ) :
    roller.rollText text state = (.error error, state) := by
  match ht : tokens text with
  | [] =>
    rw [ht] at h
    cases h
  | [token] =>
    rw [ht] at h
    have hp : parse token = .error error := by
      cases hp : parse token with
      | error error' =>
        rw [parseAll_cons_of_error hp] at h
        rw [Except.error.inj h]
      | ok e =>
        rw [parseAll_cons_of_ok hp] at h
        cases h
    simp only [rollText, ht, rollToken, hp, Except.map]
  | first :: second :: rest =>
    rw [ht] at h
    simp only [rollText, ht, h]

/-- Tokens that all stand for expressions are rolled in order. -/
theorem rollText_of_ok {text : Text} {expressions : List Expression} (hne : tokens text ≠ [])
    (h : parseAll (tokens text) = .ok expressions) (state : σ) :
    roller.rollText text state =
      (.ok (Roll.ofResults (roller.rollAll expressions state).1),
        (roller.rollAll expressions state).2) := by
  match ht : tokens text with
  | [] => exact absurd ht hne
  | [token] =>
    rw [ht, parseAll_eq_ok_iff] at h
    obtain ⟨e, rfl, hp⟩ : ∃ e, expressions = [e] ∧ parse token = .ok e := by
      match expressions with
      | [] => simp at h
      | [e] => exact ⟨e, rfl, by simpa using h⟩
      | _ :: _ :: _ => simp at h
    simp only [rollText, ht, rollToken, hp, Except.map, rollAll, Roll.ofResults]
  | first :: second :: rest =>
    rw [ht] at h
    have hlen : 2 ≤ (roller.rollAll expressions state).1.length := by
      rw [length_rollAll, ← List.length_map (·.written), map_written_of_parseAll h]
      simp
    simp only [rollText, ht, h, Roll.ofResults_of_two_le_length hlen]

/-- **The tokens decide.** Without a token the trimmed text is refused as a
notation. The first token that stands for no expression is refused. Else the
roll is simple for one token and a batch for more, and its results are
written as the tokens, in order. The other words of the text have no say. -/
theorem rollText_decided_by_tokens (text : Text) (state : σ) :
    (tokens text = [] →
      roller.rollText text state = (.error (.invalidNotation (trim text)), state)) ∧
    (∀ before token after error, tokens text = before ++ token :: after →
      (∀ t ∈ before, ∃ e, parse t = .ok e) → parse token = .error error →
      roller.rollText text state = (.error error, state)) ∧
    (tokens text ≠ [] → (∀ t ∈ tokens text, ∃ e, parse t = .ok e) →
      ∃ made final, roller.rollText text state = (.ok made, final) ∧
        ((tokens text).length = 1 → ∃ result, made = .simple result) ∧
        (2 ≤ (tokens text).length → ∃ batch, made = .batch batch) ∧
        made.results.map (·.expression.written) = tokens text) ∧
    (∀ other, tokens text ≠ [] → tokens other = tokens text →
      roller.rollText other state = roller.rollText text state) := by
  refine ⟨fun h => roller.rollText_of_tokens_eq_nil h state, ?_, ?_, ?_⟩
  · intro before token after error htokens hbefore herror
    refine roller.rollText_of_error ?_ state
    exact parseAll_eq_error_iff.mpr ⟨before, token, after, htokens, hbefore, herror⟩
  · intro hne hall
    obtain ⟨expressions, h⟩ := exists_parseAll_eq_ok hall
    have hlen : (roller.rollAll expressions state).1.length = (tokens text).length := by
      rw [length_rollAll, ← map_written_of_parseAll h, List.length_map]
    refine ⟨_, _, roller.rollText_of_ok hne h state, ?_, ?_, ?_⟩
    · intro hone
      exact Roll.ofResults_of_length_eq_one (hlen.trans hone)
    · intro htwo
      exact ⟨_, Roll.ofResults_of_two_le_length (hlen.symm ▸ htwo)⟩
    · have hw : (fun r : Result => r.expression.written) = (·.written) ∘ (·.expression) := rfl
      rw [Roll.results_ofResults, hw, ← List.map_map, map_expression_rollAll,
        map_written_of_parseAll h]
  · intro other hne hsame
    cases h : parseAll (tokens text) with
    | error error =>
      rw [roller.rollText_of_error h, roller.rollText_of_error (hsame ▸ h)]
    | ok expressions =>
      rw [roller.rollText_of_ok hne h, roller.rollText_of_ok (hsame ▸ hne) (hsame ▸ h)]

end Roller
end DiceTower
