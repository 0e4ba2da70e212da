/-
# Text and its white space

Text is the list of its characters. Two classes of white space are told
apart: the white space of Unicode, which separates the words of a message and
is trimmed from its ends, and the four blanks of the command line, which
separate the words of a command.

Key definitions: `Text`, `Text.isSpace`, `Text.words`, `Text.trim`,
`Text.isBlank`, `Text.skipBlanks`.
Key theorems: `Text.isSpace_of_isBlank`, `Text.skipBlanks_append`,
`Text.not_isSpace_of_mem_words`.
-/

namespace DiceTower

/-- A text is the list of its characters. -/
abbrev Text := List Char

namespace Text

/-! ### White space -/

/-- The code points of the Unicode property White_Space, as closed ranges. -/
def spaceRanges : List (Nat × Nat) :=
  [(0x09, 0x0D), (0x20, 0x20), (0x85, 0x85), (0xA0, 0xA0), (0x1680, 0x1680), (0x2000, 0x200A),
    (0x2028, 0x2029), (0x202F, 0x202F), (0x205F, 0x205F), (0x3000, 0x3000)]

/-- Whether a character's code point lies in one of the ranges. -/
def inRanges (ranges : List (Nat × Nat)) (c : Char) : Bool :=
  ranges.any fun range => decide (range.1 ≤ c.toNat) && decide (c.toNat ≤ range.2)

/-- The white space of Unicode. -/
def isSpace (c : Char) : Bool := inRanges spaceRanges c

/-- The blanks of the command line: space, tab, carriage return and line feed. -/
def isBlank (c : Char) : Bool := c == ' ' || c == '\t' || c == '\r' || c == '\n'

/-- Every blank is white space. -/
theorem isSpace_of_isBlank {c : Char} (h : isBlank c = true) : isSpace c = true := by
  simp only [isBlank, Bool.or_eq_true, beq_iff_eq] at h
  rcases h with ((rfl | rfl) | rfl) | rfl <;> decide

/-! ### Words and trimming -/

/-- The words of a text: what stands between its white space, in order. -/
def words (text : Text) : List Text :=
  (text.splitOnP isSpace).filter fun word => !word.isEmpty

/-- The text without the white space at its end. -/
def trimEnd (text : Text) : Text := (text.reverse.dropWhile isSpace).reverse

/-- The text without the white space at its two ends. -/
def trim (text : Text) : Text := trimEnd (text.dropWhile isSpace)

theorem words_nil : words [] = [] := by simp [words, List.splitOnP_nil]

/-- No piece that white space separates holds white space. -/
theorem not_isSpace_of_mem_splitOnP : ∀ (text : Text) {piece : Text} {c : Char},
    piece ∈ text.splitOnP isSpace → c ∈ piece → isSpace c = false
  | [], piece, c, hp, hc => by simp_all [List.splitOnP_nil]
  | d :: rest, piece, c, hp, hc => by
    rw [List.splitOnP_cons_eq_if_modifyHead] at hp
    split at hp
    · rcases List.mem_cons.mp hp with rfl | hp
      · simp at hc
      · exact not_isSpace_of_mem_splitOnP rest hp hc
    · rename_i hd
      have ih := @not_isSpace_of_mem_splitOnP rest
      cases hs : rest.splitOnP isSpace with
      | nil => simp [hs] at hp
      | cons first others =>
        rw [hs, List.modifyHead_cons] at hp
        rcases List.mem_cons.mp hp with rfl | hp
        · rcases List.mem_cons.mp hc with rfl | hc
          · simpa using hd
          · exact ih (by rw [hs]; exact List.mem_cons_self) hc
        · exact ih (by rw [hs]; exact List.mem_cons_of_mem _ hp) hc

/-- A word holds no white space. -/
theorem not_isSpace_of_mem_words {text word : Text} {c : Char} (hw : word ∈ words text)
    (hc : c ∈ word) : isSpace c = false :=
  not_isSpace_of_mem_splitOnP text (List.mem_filter.mp hw).1 hc

/-! ### Blanks -/

/-- The text after the longest run of blanks at its start. -/
def skipBlanks (text : Text) : Text := text.dropWhile isBlank

/-- Blanks in front of a text are skipped with those at its start. -/
theorem skipBlanks_append {blanks : Text} (h : ∀ c ∈ blanks, isBlank c = true) (text : Text) :
    skipBlanks (blanks ++ text) = skipBlanks text := by
  induction blanks with
  | nil => rfl
  | cons c rest ih =>
    have hc : isBlank c = true := h c List.mem_cons_self
    simpa [skipBlanks, List.dropWhile_cons, hc] using
      ih fun d hd => h d (List.mem_cons_of_mem _ hd)

/-- The text after a non-empty run of blanks, where it starts with one. -/
def skipBlanks1? : Text → Option Text
  | [] => none
  | c :: rest => if isBlank c then some (skipBlanks rest) else none

end Text
end DiceTower
