/-
# Tokens of written texts

Words, quoted strings and keys that were written are tokens again: a word ends
where no character of words follows (`tokensFrom?_of_word`), and each escape
of a string stands for the character that it was written for (`run?_escape`),
so a quoted text is one token wherever it stands (`tokensFrom?_quote`).

A carriage return is read nowhere, and a byte order mark not between tokens.
So a text that was cut into tokens holds no line ends to fold and no mark to
drop (`tokens?_of_tokensFrom?`).

Key definitions: `Toml.NoWordAhead`, `Toml.IsWord`.
Key theorems: `Toml.tokensFrom?_of_word`, `Toml.tokensFrom?_quote`,
`Toml.exists_token_of_writeKey`, `Toml.tokens?_of_tokensFrom?`.
-/
import DiceTower.Toml.Reader

namespace DiceTower
namespace Toml

open Mode

/-! ### Words -/

/-- The text does not go on with a character of words. -/
def NoWordAhead (rest : Text) : Prop := ∀ c, rest.head? = some c → isWordChar c = false

theorem noWordAhead_cons {c : Char} (h : isWordChar c = false) (rest : Text) :
    NoWordAhead (c :: rest) := by
  intro d hd
  obtain rfl : c = d := by simpa using hd
  exact h

/-- The text is a run of one or more characters of words. -/
def IsWord (text : Text) : Prop := text ≠ [] ∧ ∀ c ∈ text, isWordChar c = true

theorem isWord_of_all {text : Text} (hne : text ≠ []) (h : text.all isWordChar = true) :
    IsWord text := ⟨hne, List.all_eq_true.mp h⟩

theorem IsWord.append {first second : Text} (h : IsWord first)
    (hsecond : ∀ c ∈ second, isWordChar c = true) : IsWord (first ++ second) := by
  refine ⟨by simp [h.1], ?_⟩
  intro c hc
  rcases List.mem_append.mp hc with hc | hc
  · exact h.2 c hc
  · exact hsecond c hc

/-- A character of words begins one. -/
theorem start_of_isWordChar {c : Char} (h : isWordChar c = true) :
    start c = some (word [c], []) := by
  have hne : ∀ d, isWordChar d = false → c ≠ d := by
    rintro d hd rfl
    rw [h] at hd
    cases hd
  have hspace : ¬ (c = ' ' ∨ c = '\t') := not_or.mpr ⟨hne _ (by decide), hne _ (by decide)⟩
  rw [start, if_neg (hne '\n' (by decide)), if_neg hspace, if_neg (hne '#' (by decide)),
    if_neg (hne '=' (by decide)), if_neg (hne ',' (by decide)), if_neg (hne '[' (by decide)),
    if_neg (hne ']' (by decide)), if_neg (hne '\'' (by decide)), if_neg (hne '"' (by decide)),
    if_pos h]

/-- A word ends where no character of words follows. -/
theorem tokensFrom?_word {rest : Text} (hrest : NoWordAhead rest) (read : Text) :
    tokensFrom? (word read) rest =
      (tokensFrom? between rest).map (Token.word read.reverse :: ·) := by
  cases rest with
  | nil => rfl
  | cons c rest =>
    have hc : isWordChar c = false := hrest c rfl
    have hstep : step (word read) c =
        (start c).map fun next => (next.1, Token.word read.reverse :: next.2) := by
      rw [step, hc]
      rfl
    rw [tokensFrom?, tokensFrom?, hstep, show step between c = start c from rfl]
    cases start c with
    | none => rfl
    | some next => 
      simp only [Option.map_some, Option.map_map]
      rfl

theorem tokensFrom?_word_append {rest : Text} (hrest : NoWordAhead rest) :
    ∀ {text : Text} (read : Text), (∀ c ∈ text, isWordChar c = true) →
      tokensFrom? (word read) (text ++ rest) =
        (tokensFrom? between rest).map (Token.word (read.reverse ++ text) :: ·)
  | [], read, _ => by rw [List.nil_append, List.append_nil, tokensFrom?_word hrest]
  | c :: text, read, h => by
    have hstep : step (word read) c = some (word (c :: read), []) := by
      rw [step, if_pos (h c List.mem_cons_self)]
    have ih := tokensFrom?_word_append hrest (c :: read)
      fun d hd => h d (List.mem_cons_of_mem _ hd)
    rw [List.cons_append, tokensFrom?, hstep]
    simp only [ih, List.nil_append, Option.map_id']
    rw [List.reverse_cons, List.append_assoc, List.singleton_append]

/-- **A word is a token.** -/
theorem tokensFrom?_of_word {text rest : Text} (h : IsWord text) (hrest : NoWordAhead rest) :
    tokensFrom? between (text ++ rest) =
      (tokensFrom? between rest).map (Token.word text :: ·) := by
  obtain ⟨c, text, rfl⟩ := List.exists_cons_of_ne_nil h.1
  have hstep : step between c = some (word [c], []) :=
    start_of_isWordChar (h.2 c List.mem_cons_self)
  have htail := tokensFrom?_word_append hrest [c] fun d hd => h.2 d (List.mem_cons_of_mem _ hd)
  rw [List.cons_append, tokensFrom?, hstep]
  simp only [htail, List.nil_append, Option.map_id']
  rfl

/-! ### Quoted strings -/

theorem hexValue?_hexDigit {n : Nat} (h : n < 16) : Json.Quoted.hexValue? (hexDigit n) = some n := by
  have hall : ∀ i : Fin 16, Json.Quoted.hexValue? (hexDigit i) = some i.val := by decide
  exact hall ⟨n, h⟩

/-- A character at which no token ends only changes the mode. -/
theorem run?_cons_of_step {mode next : Mode} {c : Char} (h : step mode c = some (next, []))
    (rest : Text) : run? mode (c :: rest) = run? next rest := by
  rw [run?, h]
  exact Option.map_id'

theorem step_code {c : Char} {digit : Nat} (h : Json.Quoted.hexValue? c = some digit) (read : Text)
    (left value : Nat) :
    step (code read (left + 1) value) c = afterDigit read left (value * 16 + digit) := by
  rw [step, h]

/-- The code of a character in four digits stands for the character. -/
theorem run?_code {c : Char} (h : c.toNat < 256) (read : Text) :
    run? (Mode.escape read)
        ['u', '0', '0', hexDigit (c.toNat / 16), hexDigit (c.toNat % 16)] =
      some (basic (c :: read), []) := by
  have hzero : Json.Quoted.hexValue? '0' = some 0 := by decide
  have hhigh : Json.Quoted.hexValue? (hexDigit (c.toNat / 16)) = some (c.toNat / 16) :=
    hexValue?_hexDigit (by omega)
  have hlow : Json.Quoted.hexValue? (hexDigit (c.toNat % 16)) = some (c.toNat % 16) :=
    hexValue?_hexDigit (by omega)
  have hwhole : c.toNat / 16 * 16 + c.toNat % 16 = c.toNat := by omega
  have hvalid : c.toNat.isValidChar := c.valid
  have hmark : step (Mode.escape read) 'u' = some (code read 4 0, []) := rfl
  have hfirst : step (code read 4 0) '0' = some (code read 3 0, []) := step_code hzero read 3 0
  have hsecond : step (code read 3 0) '0' = some (code read 2 0, []) := step_code hzero read 2 0
  have hthird : step (code read 2 0) (hexDigit (c.toNat / 16)) =
      some (code read 1 (c.toNat / 16), []) := by
    rw [step_code hhigh, Nat.zero_mul, Nat.zero_add, afterDigit]
  have hlast : step (code read 1 (c.toNat / 16)) (hexDigit (c.toNat % 16)) =
      some (basic (c :: read), []) := by
    rw [step_code hlow, hwhole, afterDigit, if_pos hvalid, Char.ofNat_toNat]
  rw [run?_cons_of_step hmark, run?_cons_of_step hfirst, run?_cons_of_step hsecond,
    run?_cons_of_step hthird, run?_cons_of_step hlast, run?]

/-- The characters that are escaped by a letter, the quote or the backslash. -/
def shortEscaped : List Char := ['\x08', '\t', '\n', '\x0c', '\r', '"', '\\']

/-- **An escape stands for its character.** -/
theorem run?_escape (c : Char) (read : Text) :
    run? (basic read) (Toml.escape c) = some (basic (c :: read), []) := by
  by_cases hshort : c ∈ shortEscaped
  -- one letter behind the backslash, which is read as the character
  · simp only [shortEscaped, List.mem_cons, List.not_mem_nil, or_false] at hshort
    rcases hshort with rfl | rfl | rfl | rfl | rfl | rfl | rfl <;> rfl
  · simp only [shortEscaped, List.mem_cons, List.not_mem_nil, or_false, not_or] at hshort
    obtain ⟨hb, ht, hn, hf, hr, hquote, hslash⟩ := hshort
    rw [Toml.escape, if_neg hb, if_neg ht, if_neg hn, if_neg hf, if_neg hr, if_neg hquote,
      if_neg hslash]
    by_cases hcontrol : c.toNat < 32 ∨ c.toNat = 127
    · have hbackslash : step (basic read) '\\' = some (Mode.escape read, []) := rfl
      rw [if_pos hcontrol, run?_cons_of_step hbackslash]
      exact run?_code (by omega) read
    -- every other character stands for itself
    · have hstring : isStringChar c = true := by
        simp [isStringChar]
        omega
      have hstep : step (basic read) c = some (basic (c :: read), []) := by
        rw [step, if_neg hquote, if_neg hslash, if_pos hstring]
      rw [if_neg hcontrol, run?_cons_of_step hstep, run?]

/-- Behind a text at which no token ends another is read in the mode it leads to. -/
theorem run?_append_of_run {mode next : Mode} {text : Text} (h : run? mode text = some (next, []))
    (rest : Text) : run? mode (text ++ rest) = run? next rest := by
  induction text generalizing mode with
  | nil =>
    simp only [run?, Option.some.injEq, Prod.mk.injEq, and_true] at h
    rw [List.nil_append, h]
  | cons c text ih =>
    rw [run?] at h
    cases hstep : step mode c with
    | none => simp [hstep] at h
    | some middle =>
      rw [hstep] at h
      obtain ⟨last, hlast, heq⟩ := Option.map_eq_some_iff.mp h
      obtain ⟨hmode, hfound⟩ := Prod.mk.inj heq
      obtain ⟨hmiddle, hnone⟩ := List.append_eq_nil_iff.mp hfound
      have hrun : run? middle.1 text = some (next, []) := by
        rw [hlast, ← hmode, ← hnone]
      have hstep' : step mode c = some (middle.1, []) := by
        rw [hstep, ← hmiddle]
      rw [List.cons_append, run?_cons_of_step hstep', ih hrun]

/-- Escapes in a row stand for their characters. -/
theorem run?_escapes (text read : Text) :
    run? (basic read) (text.flatMap Toml.escape) = some (basic (text.reverse ++ read), []) := by
  induction text generalizing read with
  | nil => rfl
  | cons c text ih =>
    rw [List.flatMap_cons, run?_append_of_run (run?_escape c read), ih, List.reverse_cons,
      List.append_assoc, List.singleton_append]

/-- **A quoted text is a token.** -/
theorem tokensFrom?_quote (text rest : Text) :
    tokensFrom? between (quote text ++ rest) =
      (tokensFrom? between rest).map (Token.quoted text :: ·) := by
  have hopen : step between '"' = some (basic [], []) := rfl
  have hrun : run? between (quote text) = some (between, [.quoted text]) := by
    rw [quote, List.cons_append, run?_cons_of_step hopen, run?_append_of_run (run?_escapes text []),
      List.append_nil]
    simp [run?, step]
  exact tokensFrom?_append_of_run hrun rest

/-! ### Keys -/

/-- A key is a token, in quotes or without. -/
theorem exists_token_of_writeKey (key : Text) : ∃ token, Draft.key? token = some key ∧
    ∀ rest, NoWordAhead rest → tokensFrom? between (writeKey key ++ rest) =
      (tokensFrom? between rest).map (token :: ·) := by
  by_cases hbare : key ≠ [] ∧ key.all isBare
  · refine ⟨.word key, if_pos hbare.2, ?_⟩
    intro rest hrest
    have hword : ∀ c ∈ key, isWordChar c = true := by
      intro c hc
      simp [isWordChar, List.all_eq_true.mp hbare.2 c hc]
    rw [writeKey, if_pos hbare]
    exact tokensFrom?_of_word ⟨hbare.1, hword⟩ hrest
  · refine ⟨.quoted key, rfl, ?_⟩
    intro rest _
    rw [writeKey, if_neg hbare]
    exact tokensFrom?_quote key rest

/-! ### Line ends -/

/-- A carriage return may stand nowhere but in front of a line feed. -/
theorem step_carriageReturn (mode : Mode) : step mode '\r' = none := by
  cases mode with
  | code read left value => cases left <;> rfl
  | _ => rfl

theorem not_mem_of_tokensFrom? {text : Text} : ∀ {mode : Mode} {tokens : List Token},
    tokensFrom? mode text = some tokens → '\r' ∉ text := by
  induction text with
  | nil => simp
  | cons c text ih =>
    intro mode tokens h
    rw [tokensFrom?] at h
    cases hstep : step mode c with
    | none => simp [hstep] at h
    | some next =>
      rw [hstep] at h
      obtain ⟨others, hothers, -⟩ := Option.map_eq_some_iff.mp h
      have hne : '\r' ≠ c := by
        rintro rfl
        rw [step_carriageReturn] at hstep
        cases hstep
      simp [hne, ih hothers]

theorem foldLineEnds_of_not_mem : ∀ {text : Text}, '\r' ∉ text → foldLineEnds text = text
  | [], _ => rfl
  | c :: text, h => by
    have hc : c ≠ '\r' := fun he => h (by simp [he])
    have htext : foldLineEnds text = text :=
      foldLineEnds_of_not_mem fun hmem => h (List.mem_cons_of_mem _ hmem)
    rw [foldLineEnds]
    · rw [htext]
    · intro rest heq
      exact absurd heq hc

theorem dropMark_of_tokensFrom? {text : Text} {tokens : List Token}
    (h : tokensFrom? between text = some tokens) : dropMark text = text := by
  cases text with
  | nil => rfl
  | cons c rest =>
    have hne : c ≠ '\ufeff' := by
      rintro rfl
      cases h
    rw [dropMark, if_neg hne]

/-- A text that is cut into tokens has no line ends to fold and no mark to drop. -/
theorem tokens?_of_tokensFrom? {text : Text} {tokens : List Token}
    (h : tokensFrom? between text = some tokens) : tokens? text = some tokens := by
  rw [tokens?, dropMark_of_tokensFrom? h, foldLineEnds_of_not_mem (not_mem_of_tokensFrom? h), h]

end Toml
end DiceTower
