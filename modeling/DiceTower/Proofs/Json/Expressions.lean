/-
# Expressions are kept by their strings

An expression is read from a token, from a string or a slice of one, or from a
JSON value; all of these come down to parsing the token (`Expression.ReadFrom`).
So what is read keeps the token as it is, the token is made of characters that
JSON does not escape, and reading any form of the expression gives it again
(`Expression.KeptBy`).

The string of an expression decides it: its numbers are those that the string
is parsed to, and no other expression is read from the same string.

Key definitions: `Expression.ReadFrom`, `Expression.KeptBy`.
Key theorems: `Expression.ofJson_eq_ok_iff`, `Expression.ReadFrom.keptBy`,
`Expression.expressions_survive_serialization`.
-/
import DiceTower.Proofs.Json.Unambiguous
import DiceTower.Proofs.Notation.Tokens
import DiceTower.Roll.Json

namespace DiceTower

open Text

namespace Expression

/-- The ways in which an expression is read from a string. -/
inductive ReadFrom (e : Expression) : Text → Prop
  | token {input : Text} (h : parse input = .ok e) : ReadFrom e input
  | slice {s : String.Slice} (h : ofSlice s = .ok e) : ReadFrom e s.copy.toList
  | string {s : String} (h : ofString s = .ok e) : ReadFrom e s.toList
  | json {input : Text} (h : ofJson (.string input) = .ok e) : ReadFrom e input

/-- The string is the form of the expression, and the expression is what is read
from it. -/
structure KeptBy (e : Expression) (input : Text) : Prop where
  written_eq : e.written = input
  in_range : (1 ≤ e.count ∧ e.count ≤ 100) ∧ 2 ≤ e.sides ∧ e.sides ≤ 1000
  toString_eq : e.toString = String.ofList input
  alphabet : ∀ c ∈ input, c.isDigit = true ∨ (c = 'd' ∨ c = 'D') ∨ (c = '+' ∨ c = '-')
  compact_eq : e.toJson.compact = '"' :: input ++ ['"']
  parse_eq : parse input = .ok e
  ofString_toString : ofString e.toString = .ok e
  ofSlice_toString : ofSlice e.toString.toSlice = .ok e
  ofJson_toJson : ofJson e.toJson = .ok e
  /-- Blanks around the JSON text have no say. -/
  ofJsonText_compact : ∀ front back, Blanks front → Blanks back →
    ofJsonText (front ++ e.toJson.compact ++ back) = .ok e

/-! ### Reading -/

theorem ofSlice_toSlice (s : String) : ofSlice s.toSlice = ofString s := by
  rw [ofSlice, ofString, String.copy_toSlice]

theorem ofString_ofList (text : Text) : ofString (String.ofList text) = parse text := by
  rw [ofString, String.toList_ofList]

/-- Of JSON values the strings that are parsed are read as expressions, and no others. -/
theorem ofJson_eq_ok_iff {value : Json} {e : Expression} :
    ofJson value = .ok e ↔ ∃ input, value = .string input ∧ parse input = .ok e := by
  constructor
  · intro h
    cases value with
    | string input =>
      refine ⟨input, rfl, ?_⟩
      cases hp : parse input with
      | ok e' => simpa [ofJson, hp] using h
      | error error => simp [ofJson, hp] at h
    | _ => simp [ofJson] at h
  · rintro ⟨input, rfl, hp⟩
    simp only [ofJson, hp]

/-- Whatever the way, the string is parsed. -/
theorem ReadFrom.parse_eq {e : Expression} {input : Text} (h : ReadFrom e input) :
    parse input = .ok e := by
  cases h with
  | token h => exact h
  | slice h => exact h
  | string h => exact h
  | json h =>
    obtain ⟨text, htext, hp⟩ := ofJson_eq_ok_iff.mp h
    rwa [Json.string.inj htext]

/-- A string in quotes is read from its JSON text, whatever blanks stand around it. -/
theorem ofJsonText_quote (input : Text) {front back : Text} (hfront : Blanks front)
    (hback : Blanks back) :
    ofJsonText (front ++ Json.Quoted.quote input ++ back) = ofJson (.string input) := by
  have hskip : skipBlanks (front ++ Json.Quoted.quote input ++ back) =
      '"' :: (Json.Quoted.encode input ++ '"' :: back) := by
    rw [List.append_assoc, skipBlanks_append hfront, skipBlanks_of_noBlankAhead]
    · simp [Json.Quoted.quote]
    · intro c hc
      obtain rfl : '"' = c := by simpa [Json.Quoted.quote] using hc
      rfl
  rw [ofJsonText, hskip]
  simp only [Json.Quoted.decode?_encode_append, skipBlanks_eq_nil_iff.mpr hback, if_true]

/-! ### Writing -/

/-- No character of a token that is parsed is escaped in JSON. -/
theorem isPlain_of_parse {token : Text} {e : Expression} (h : parse token = .ok e) :
    ∀ c ∈ token, Json.Quoted.IsPlain c := by
  intro c hc
  rcases mem_cases_of_parse h hc with hdigit | (rfl | rfl) | (rfl | rfl)
  · refine ⟨ne_of_isDigit hdigit (by decide), ne_of_isDigit hdigit (by decide), ?_⟩
    exact Json.le_of_isDigit hdigit
  all_goals exact ⟨by decide, by decide, by decide⟩

/-- **An expression is kept by the string it is read from,** whatever the way. -/
theorem ReadFrom.keptBy {e : Expression} {input : Text} (h : ReadFrom e input) :
    KeptBy e input := by
  have hparse : parse input = .ok e := h.parse_eq
  have hwritten : e.written = input := written_parse hparse
  have hshown : e.toString = String.ofList input := by rw [toString, hwritten]
  have hstring : ofString e.toString = .ok e := by rw [hshown, ofString_ofList, hparse]
  have hjson : ofJson e.toJson = .ok e := ofJson_toJson hparse
  have hquote : e.toJson.compact = Json.Quoted.quote input := by
    rw [toJson, hwritten, Json.compact]
  exact {
    written_eq := hwritten
    in_range := ⟨e.count_mem, e.sides_mem⟩
    toString_eq := hshown
    alphabet := fun c hc => mem_cases_of_parse hparse hc
    compact_eq := by rw [hquote, Json.Quoted.quote_eq_of_plain (isPlain_of_parse hparse)]
    parse_eq := hparse
    ofString_toString := hstring
    ofSlice_toString := by rw [ofSlice_toSlice, hstring]
    ofJson_toJson := hjson
    ofJsonText_compact := fun front back hfront hback => by
      rw [hquote, ofJsonText_quote input hfront hback, ← hjson, toJson, hwritten] }

/-- **Expressions survive serialization.** A string and a slice of it are read as
the token they hold, and of JSON values the strings that are parsed are read, as
the same expression. Whatever the way in which an expression is read, its numbers
are in range, and it is shown as the string it was read from, which consists of
digits, the letter and signs and stands in JSON with nothing escaped; and it is read
again from any of its forms.
Two expressions that are read are one exactly if they are written alike. -/
theorem expressions_survive_serialization :
    (∀ s : String, ofString s = parse s.toList ∧ ofSlice s.toSlice = parse s.toList) ∧
    (∀ (value : Json) (e : Expression),
      ofJson value = .ok e ↔ ∃ input, value = .string input ∧ parse input = .ok e) ∧
    (∀ (e : Expression) (input : Text), ReadFrom e input → KeptBy e input) ∧
    ∀ (e e' : Expression) (input input' : Text), ReadFrom e input → ReadFrom e' input' →
      (e = e' ↔ e.written = e'.written) := by
  refine ⟨fun s => ⟨rfl, ofSlice_toSlice s⟩, fun value e => ofJson_eq_ok_iff,
    fun e input h => h.keptBy, ?_⟩
  intro e e' input input' h h'
  refine ⟨congrArg Expression.written, fun hwritten => ?_⟩
  have hinput : input = input' := by rw [← h.keptBy.written_eq, hwritten, h'.keptBy.written_eq]
  have hok : (.ok e : Except DiceError Expression) = .ok e' := by
    rw [← h.parse_eq, hinput, h'.parse_eq]
  exact Except.ok.inj hok

example : (ofJsonText " \"2D06-1\"\n".toList).toOption.map
    (fun e => (e.count, e.sides, e.modifier, e.toString)) = some (2, 6, -1, "2D06-1") := by
  decide

end Expression
end DiceTower
