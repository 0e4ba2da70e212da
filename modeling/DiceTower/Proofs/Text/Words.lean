/-
# White space around and between words

White space only separates: where a character of it stands, the words of the
text are those in front of it and then those behind it (`words_append_space`).
So white space at the ends adds no word, a text that is trimmed keeps its
words (`words_trim`), and a text without white space is one word
(`words_of_not_isSpace`).

The blanks of a command line are told from what stands behind them: a text is
the longest run of blanks at its start and then a text that begins with none
(`exists_skipBlanks`).

Key definitions: `Text.Blanks`, `Text.Gap`, `Text.NoBlankAhead`.
Key theorems: `Text.words_append_space`, `Text.exists_trim`,
`Text.words_trim`, `Text.words_of_not_isSpace`, `Text.trim_trim`,
`Text.exists_skipBlanks`.
-/
import DiceTower.Text.Basic

namespace DiceTower
namespace Text

/-- **Words split at white space.** -/
theorem words_append_space {c : Char} (hc : isSpace c = true) (front back : Text) :
    words (front ++ c :: back) = words front ++ words back := by
  unfold words
  rw [List.splitOnP_append_cons front back hc, List.filter_append]

theorem words_of_isSpace {text : Text} (h : ∀ c ∈ text, isSpace c = true) : words text = [] := by
  induction text with
  | nil => exact words_nil
  | cons c rest ih =>
    have hw := words_append_space (h c List.mem_cons_self) [] rest
    rw [List.nil_append, words_nil, List.nil_append] at hw
    rw [hw]
    exact ih fun d hd => h d (List.mem_cons_of_mem _ hd)

theorem words_append_of_isSpace {back : Text} (h : ∀ c ∈ back, isSpace c = true) (text : Text) :
    words (text ++ back) = words text := by
  cases back with
  | nil => rw [List.append_nil]
  | cons c rest =>
    have hrest : words rest = [] := words_of_isSpace fun d hd => h d (List.mem_cons_of_mem _ hd)
    rw [words_append_space (h c List.mem_cons_self), hrest, List.append_nil]

theorem words_append_of_isSpace_left {front : Text} (h : ∀ c ∈ front, isSpace c = true)
    (text : Text) : words (front ++ text) = words text := by
  induction front with
  | nil => rfl
  | cons c rest ih =>
    have hw := words_append_space (h c List.mem_cons_self) [] (rest ++ text)
    rw [List.nil_append, words_nil, List.nil_append] at hw
    rw [List.cons_append, hw]
    exact ih fun d hd => h d (List.mem_cons_of_mem _ hd)

/-- A text without white space is one word, unless it is empty. -/
theorem words_of_not_isSpace {text : Text} (hne : text ≠ [])
    (h : ∀ c ∈ text, isSpace c = false) : words text = [text] := by
  unfold words
  rw [List.splitOnP_eq_singleton h]
  simp [hne]

/-! ### Trimming -/

theorem isSpace_of_mem_takeWhile {text : Text} {c : Char} (h : c ∈ text.takeWhile isSpace) :
    isSpace c = true :=
  List.all_eq_true.mp List.all_takeWhile c h

/-- What is trimmed off at the end is white space. -/
theorem exists_trimEnd (text : Text) :
    ∃ back : Text, (∀ c ∈ back, isSpace c = true) ∧ text = trimEnd text ++ back := by
  refine ⟨(text.reverse.takeWhile isSpace).reverse, ?_, ?_⟩
  · intro c hc
    exact isSpace_of_mem_takeWhile (List.mem_reverse.mp hc)
  · unfold trimEnd
    rw [← List.reverse_append, List.takeWhile_append_dropWhile, List.reverse_reverse]

/-- What is trimmed off is white space. -/
theorem exists_trim (text : Text) : ∃ front back : Text, (∀ c ∈ front, isSpace c = true) ∧
    (∀ c ∈ back, isSpace c = true) ∧ text = front ++ (trim text ++ back) := by
  obtain ⟨back, hback, htext⟩ := exists_trimEnd (text.dropWhile isSpace)
  refine ⟨text.takeWhile isSpace, back, fun c => isSpace_of_mem_takeWhile, hback, ?_⟩
  unfold trim
  rw [← htext, List.takeWhile_append_dropWhile]

/-- **Trimming keeps the words.** -/
theorem words_trim (text : Text) : words (trim text) = words text := by
  obtain ⟨front, back, hfront, hback, htext⟩ := exists_trim text
  have h : words text = words (trim text) := by
    calc words text = words (front ++ (trim text ++ back)) := by rw [← htext]
      _ = words (trim text ++ back) := words_append_of_isSpace_left hfront _
      _ = words (trim text) := words_append_of_isSpace hback _
  exact h.symm

theorem trim_append_of_isSpace_left {front : Text} (h : ∀ c ∈ front, isSpace c = true)
    (text : Text) : trim (front ++ text) = trim text := by
  unfold trim
  rw [List.dropWhile_append_of_pos h]

theorem trimEnd_append_of_isSpace {back : Text} (h : ∀ c ∈ back, isSpace c = true)
    (text : Text) : trimEnd (text ++ back) = trimEnd text := by
  have hback : ∀ c ∈ back.reverse, isSpace c = true := fun c hc => h c (List.mem_reverse.mp hc)
  unfold trimEnd
  rw [List.reverse_append, List.dropWhile_append_of_pos hback]

theorem trim_append_of_isSpace {back : Text} (h : ∀ c ∈ back, isSpace c = true) (text : Text) :
    trim (text ++ back) = trim text := by
  unfold trim
  rw [List.dropWhile_append]
  by_cases hnil : text.dropWhile isSpace = []
  · have hback : (back ++ []).dropWhile isSpace = [] := List.dropWhile_append_of_pos h
    rw [List.append_nil] at hback
    rw [hnil, hback]
    rfl
  · rw [if_neg (by simpa using hnil), trimEnd_append_of_isSpace h]

/-- Trimming once is enough. -/
theorem trim_trim (text : Text) : trim (trim text) = trim text := by
  obtain ⟨front, back, hfront, hback, htext⟩ := exists_trim text
  have h : trim text = trim (trim text) := by
    calc trim text = trim (front ++ (trim text ++ back)) := by rw [← htext]
      _ = trim (trim text ++ back) := trim_append_of_isSpace_left hfront _
      _ = trim (trim text) := trim_append_of_isSpace hback _
  exact h.symm

theorem mem_of_mem_trim {text : Text} {c : Char} (h : c ∈ trim text) : c ∈ text := by
  obtain ⟨front, back, -, -, htext⟩ := exists_trim text
  rw [htext]
  exact List.mem_append_right front (List.mem_append_left back h)

/-! ### Blanks -/

/-- The text is a run of blanks, which may be empty. -/
def Blanks (text : Text) : Prop := ∀ c ∈ text, isBlank c = true

/-- The text is a run of one or more blanks. -/
def Gap (text : Text) : Prop := Blanks text ∧ text ≠ []

/-- The text does not begin with a blank. -/
def NoBlankAhead (text : Text) : Prop := ∀ c, text.head? = some c → isBlank c = false

theorem skipBlanks_of_noBlankAhead : ∀ {text : Text}, NoBlankAhead text → skipBlanks text = text
  | [], _ => rfl
  | c :: rest, h => List.dropWhile_cons_of_neg (by rw [h c rfl]; decide)

/-- What stands behind the longest run of blanks begins with none. -/
theorem noBlankAhead_skipBlanks (text : Text) : NoBlankAhead (skipBlanks text) := by
  intro c hc
  have h := List.head?_dropWhile_not isBlank text
  rw [show text.dropWhile isBlank = skipBlanks text from rfl, hc] at h
  simpa using h

theorem exists_skipBlanks (text : Text) : ∃ blanks, Blanks blanks ∧
    text = blanks ++ skipBlanks text := by
  refine ⟨text.takeWhile isBlank, ?_, List.takeWhile_append_dropWhile.symm⟩
  intro c hc
  exact List.all_eq_true.mp List.all_takeWhile c hc

theorem skipBlanks_eq_nil_iff {text : Text} : skipBlanks text = [] ↔ Blanks text := by
  constructor
  · intro h
    obtain ⟨blanks, hblanks, htext⟩ := exists_skipBlanks text
    rw [h, List.append_nil] at htext
    rwa [htext]
  · intro h
    have hskip := skipBlanks_append h []
    rw [List.append_nil] at hskip
    exact hskip

/-- What is skipped in front of the rest is a gap. -/
theorem exists_gap_of_skipBlanks1? {text rest : Text} (h : skipBlanks1? text = some rest) :
    ∃ gap, Gap gap ∧ text = gap ++ rest := by
  cases text with
  | nil => simp [skipBlanks1?] at h
  | cons c text =>
    rw [skipBlanks1?] at h
    by_cases hc : isBlank c = true
    · rw [if_pos hc] at h
      obtain ⟨blanks, hblanks, htext⟩ := exists_skipBlanks text
      have hrest : skipBlanks text = rest := by simpa using h
      refine ⟨c :: blanks, ⟨?_, by simp⟩, by rw [← hrest, List.cons_append, ← htext]⟩
      intro d hd
      rcases List.mem_cons.mp hd with rfl | hd
      · exact hc
      · exact hblanks d hd
    · rw [if_neg hc] at h
      cases h

theorem noBlankAhead_of_skipBlanks1? {text rest : Text} (h : skipBlanks1? text = some rest) :
    NoBlankAhead rest := by
  cases text with
  | nil => simp [skipBlanks1?] at h
  | cons c text =>
    rw [skipBlanks1?] at h
    by_cases hc : isBlank c = true
    · rw [if_pos hc] at h
      rw [← Option.some.inj h]
      exact noBlankAhead_skipBlanks text
    · rw [if_neg hc] at h
      cases h

theorem skipBlanks1?_append {gap : Text} (h : Gap gap) (text : Text) :
    skipBlanks1? (gap ++ text) = some (skipBlanks text) := by
  obtain ⟨hblanks, hne⟩ := h
  cases gap with
  | nil => exact absurd rfl hne
  | cons c blanks =>
    rw [List.cons_append, skipBlanks1?, if_pos (hblanks c List.mem_cons_self)]
    rw [skipBlanks_append fun d hd => hblanks d (List.mem_cons_of_mem _ hd)]

end Text
end DiceTower
