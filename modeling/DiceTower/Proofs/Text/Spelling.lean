/-
# Words spelled in letters of either case

A keyword is written in lower case letters and has no `k` in front of its last
letter. Such a word is found at the start of a text exactly if the text starts
with a spelling of it in letters of either case (`keyword_eq_some_iff`): the
Kelvin sign agrees with a last `k` only, and there the cut falls inside the
sign and reading breaks off.

Of several keywords the first that the text starts with is taken. If none of
them begins with one in front of it, this is also the only one behind which no
letter follows (`oneOf_eq_of_startsWith`).

Key definitions: `Text.Spells`, `Text.StartsWith`, `Text.isKeyword`,
`Text.Unshadowed`.
Key theorems: `Text.keyword_eq_some_iff`, `Text.oneOf_cons_cases`,
`Text.exists_of_oneOf_eq_some`, `Text.oneOf_eq_of_startsWith`.
-/
import DiceTower.Proofs.Text.Words
import DiceTower.Text.Keyword

namespace DiceTower
namespace Text

/-- A spelling of a word in letters of either case. -/
def Spells (start word : Text) : Prop := start.map Char.toLower = word

/-- The text is a spelling of the word and then the rest. -/
def StartsWith (word text rest : Text) : Prop := ∃ start, Spells start word ∧ text = start ++ rest

/-- The text does not begin with a letter. -/
def NoLetterAhead (rest : Text) : Prop := ∀ c, rest.head? = some c → c.toLower.isLower = false

/-- Whether a word is of lower case letters with no `k` in front of the last. -/
def isKeyword : Text → Bool
  | [] => true
  | k :: word => k.isLower && (k != 'k' || word.isEmpty) && isKeyword word

/-- No keyword of a list begins with one in front of it. -/
def Unshadowed {α : Type} (words : List (Text × α)) : Prop :=
  words.Pairwise fun first second => ¬ first.1 <+: second.1

/-! ### Letters -/

theorem toLower_eq_self_of_lt {c : Char} (h : 90 < c.toNat) : c.toLower = c := by
  have hc : ¬ (c.val ≥ 'A'.val ∧ c.val ≤ 'Z'.val) := by
    intro hc
    have hle : c.toNat ≤ 90 := hc.2
    omega
  exact dif_neg hc

theorem toNat_of_isLower {c : Char} (h : c.isLower = true) : 97 ≤ c.toNat ∧ c.toNat ≤ 122 := by
  have hbounds : (decide ('a'.val ≤ c.val) && decide (c.val ≤ 'z'.val)) = true := h
  simpa [UInt32.le_iff_toNat_le] using hbounds

/-- A character is its lower case, or the upper case of it. -/
theorem eq_or_eq_toUpper_of_toLower_eq {c k : Char} (h : c.toLower = k) :
    c = k ∨ c = k.toUpper := by
  subst h
  by_cases hc : 90 < c.toNat
  · exact Or.inl (toLower_eq_self_of_lt hc).symm
  · have hsmall : ∀ n < 91, Char.ofNat n = (Char.ofNat n).toLower ∨
        Char.ofNat n = (Char.ofNat n).toLower.toUpper := by decide
    have hn := hsmall c.toNat (by omega)
    rwa [Char.ofNat_toNat] at hn

/-- A character whose lower case is a letter is a letter of ASCII. -/
theorem toNat_le_of_isLower_toLower {c : Char} (h : c.toLower.isLower = true) :
    c.toNat ≤ 122 := by
  by_cases hc : 90 < c.toNat
  · rw [toLower_eq_self_of_lt hc] at h
    exact (toNat_of_isLower h).2
  · omega

theorem utf8Size_eq_one {c : Char} (h : c.toNat ≤ 122) : c.utf8Size = 1 := by
  have hle : c.val ≤ 127 := UInt32.le_iff_toNat_le.mpr (Nat.le_trans h (by decide))
  exact Char.utf8Size_eq_one_iff.mpr hle

theorem ne_kelvin {c : Char} (h : c.toNat ≤ 122) : c ≠ kelvin := by
  rintro rfl
  exact absurd h (by decide)

/-- Folding a letter gives its lower case. -/
theorem fold_eq_toLower {c : Char} (h : c.toNat ≤ 122) : fold c = c.toLower := by
  unfold fold
  rw [if_neg (ne_kelvin h)]

theorem fold_of_isLower {k : Char} (h : k.isLower = true) : fold k = k := by
  have hk := toNat_of_isLower h
  rw [fold_eq_toLower hk.2, toLower_eq_self_of_lt (by omega)]

theorem not_isLower_of_isBlank {c : Char} (h : isBlank c = true) : c.toLower.isLower = false := by
  simp only [isBlank, Bool.or_eq_true, beq_iff_eq] at h
  rcases h with ((rfl | rfl) | rfl) | rfl <;> decide

theorem Blanks.noLetterAhead {text : Text} (h : Blanks text) : NoLetterAhead text := by
  intro c hc
  exact not_isLower_of_isBlank (h c (List.mem_of_head? hc))

theorem Gap.noLetterAhead_append {gap : Text} (h : Gap gap) (text : Text) :
    NoLetterAhead (gap ++ text) := by
  intro c hc
  cases gap with
  | nil => exact absurd rfl h.2
  | cons d blanks => exact h.1.noLetterAhead c hc

/-! ### Spellings -/

theorem isKeyword_cons {k : Char} {word : Text} (h : isKeyword (k :: word) = true) :
    k.isLower = true ∧ (k = 'k' → word = []) ∧ isKeyword word = true := by
  simp only [isKeyword, Bool.and_eq_true, Bool.or_eq_true, bne_iff_ne, List.isEmpty_iff] at h
  obtain ⟨⟨hk, hlast⟩, hword⟩ := h
  refine ⟨hk, ?_, hword⟩
  intro h
  rcases hlast with hne | hnil
  · exact absurd h hne
  · exact hnil

theorem isLower_of_isKeyword : ∀ {word : Text} {k : Char}, isKeyword word = true → k ∈ word →
    k.isLower = true
  | _ :: word, k, h, hk => by
    obtain ⟨hlower, -, hword⟩ := isKeyword_cons h
    rcases List.mem_cons.mp hk with rfl | hk
    · exact hlower
    · exact isLower_of_isKeyword hword hk

theorem Spells.length_eq {start word : Text} (h : Spells start word) :
    start.length = word.length := by
  rw [← show start.map Char.toLower = word from h, List.length_map]

theorem startsWith_nil (text : Text) : StartsWith [] text text := ⟨[], rfl, rfl⟩

theorem startsWith_cons {c : Char} {word text rest : Text} (h : StartsWith word text rest) :
    StartsWith (c.toLower :: word) (c :: text) rest := by
  obtain ⟨start, hspell, htext⟩ := h
  refine ⟨c :: start, ?_, ?_⟩
  · unfold Spells at hspell ⊢
    rw [List.map_cons, hspell]
  · rw [htext, List.cons_append]

/-- The first letter of a text that starts with a word is the word's. -/
theorem StartsWith.exists_cons {k : Char} {word text rest : Text}
    (h : StartsWith (k :: word) text rest) :
    ∃ c behind, text = c :: behind ∧ c.toLower = k ∧ StartsWith word behind rest := by
  obtain ⟨start, hspell, htext⟩ := h
  cases start with
  | nil => exact absurd hspell (by simp [Spells])
  | cons c start =>
    simp only [Spells, List.map_cons, List.cons.injEq] at hspell
    exact ⟨c, start ++ rest, htext, hspell.1, start, hspell.2, rfl⟩

theorem StartsWith.noBlankAhead {word text rest : Text} (h : StartsWith word text rest)
    (hne : word ≠ []) (hw : isKeyword word = true) : NoBlankAhead text := by
  cases word with
  | nil => exact absurd rfl hne
  | cons k word =>
    obtain ⟨c, behind, rfl, hc, -⟩ := h.exists_cons
    intro d hd
    obtain rfl : c = d := by simpa using hd
    rw [Bool.eq_false_iff]
    intro hblank
    have hlower := not_isLower_of_isBlank hblank
    rw [hc, (isKeyword_cons hw).1] at hlower
    cases hlower

theorem StartsWith.rest_eq {word text rest rest' : Text} (h : StartsWith word text rest)
    (h' : StartsWith word text rest') : rest = rest' := by
  obtain ⟨start, hspell, htext⟩ := h
  obtain ⟨start', hspell', htext'⟩ := h'
  have hlength : start.length = start'.length := by
    rw [hspell.length_eq, hspell'.length_eq]
  exact (List.append_inj (htext.symm.trans htext') hlength).2

/-- Of two words that a text starts with, the one behind which no letter
follows begins with the other. -/
theorem StartsWith.shadowed {word other text rest rest' : Text} (h : StartsWith word text rest)
    (hrest : NoLetterAhead rest) (h' : StartsWith other text rest')
    (hother : isKeyword other = true) : other <+: word := by
  obtain ⟨start, hspell, htext⟩ := h
  obtain ⟨start', hspell', htext'⟩ := h'
  have hlower : word ++ rest.map Char.toLower = other ++ rest'.map Char.toLower := by
    rw [← hspell, ← hspell', ← List.map_append, ← List.map_append, ← htext, ← htext']
  rcases List.append_eq_append_iff.mp hlower with ⟨middle, hmiddle, htail⟩ | ⟨middle, hmiddle, -⟩
  · -- What `other` has beyond `word` would be letters at the start of `rest`.
    cases middle with
    | nil => exact ⟨[], by rw [hmiddle, List.append_nil, List.append_nil]⟩
    | cons k middle =>
      have hk : k.isLower = true := isLower_of_isKeyword hother (by simp [hmiddle])
      cases rest with
      | nil => simp at htail
      | cons c rest =>
        simp only [List.map_cons, List.cons_append, List.cons.injEq] at htail
        have hc : c.toLower.isLower = false := hrest c rfl
        rw [htail.1, hk] at hc
        exact absurd hc (by decide)
  · exact ⟨middle, hmiddle.symm⟩

/-! ### Keywords -/

/-- A character that agrees with the first letter of a keyword is that letter in
either case, or it is the Kelvin sign, and then the keyword ends there. -/
theorem agrees_cons_cases {c k : Char} {text word : Text} (hw : isKeyword (k :: word) = true)
    (h : agrees (c :: text) (k :: word) = true) :
    (c = kelvin ∧ k = 'k' ∧ word = []) ∨
      (c.toLower = k ∧ c.utf8Size = 1 ∧ agrees text word = true) := by
  obtain ⟨hlower, hlast, -⟩ := isKeyword_cons hw
  simp only [agrees, Bool.and_eq_true, beq_iff_eq] at h
  obtain ⟨hfold, hagree⟩ := h
  rw [fold_of_isLower hlower] at hfold
  by_cases hkelvin : c = kelvin
  · have hk : k = 'k' := by rw [← hfold, hkelvin]; decide
    exact Or.inl ⟨hkelvin, hk, hlast hk⟩
  · have hc : c.toLower = k := by
      unfold fold at hfold
      rwa [if_neg hkelvin] at hfold
    have hle : c.toNat ≤ 122 := by
      refine toNat_le_of_isLower_toLower ?_
      rw [hc, hlower]
    exact Or.inr ⟨hc, utf8Size_eq_one hle, hagree⟩

/-- Where the octets of a keyword can be cut off a text that agrees with it,
they are a spelling of it. -/
theorem startsWith_of_agrees : ∀ {word text rest : Text}, isKeyword word = true →
    agrees text word = true → dropOctets (octets word) text = some rest →
    StartsWith word text rest
  | [], text, rest, _, _, hdrop => by
    have hrest : text = rest := by simpa [octets, dropOctets] using hdrop
    rw [← hrest]
    exact startsWith_nil text
  | k :: word, [], rest, hw, _, hdrop => by
    have hk := utf8Size_eq_one (toNat_of_isLower (isKeyword_cons hw).1).2
    rw [octets, hk, Nat.add_comm] at hdrop
    exact absurd hdrop (by simp [dropOctets])
  | k :: word, c :: text, rest, hw, hagree, hdrop => by
    obtain ⟨hlower, -, hword⟩ := isKeyword_cons hw
    have hk := utf8Size_eq_one (toNat_of_isLower hlower).2
    rw [octets, hk, Nat.add_comm, dropOctets] at hdrop
    rcases agrees_cons_cases hw hagree with ⟨rfl, -, rfl⟩ | ⟨hc, hsize, hagree⟩
    · -- The sign agrees with the last letter, whose one octet ends inside the sign.
      rw [if_neg (by decide)] at hdrop
      cases hdrop
    · rw [hsize, if_pos (by omega), Nat.add_sub_cancel] at hdrop
      rw [← hc]
      exact startsWith_cons (startsWith_of_agrees hword hagree hdrop)

theorem octets_and_agrees_of_spells : ∀ {start word : Text}, Spells start word →
    isKeyword word = true → octets start = octets word ∧ agrees start word = true
  | [], word, hspell, _ => by
    rw [← show [] = word from hspell]
    exact ⟨rfl, rfl⟩
  | c :: start, [], hspell, _ => absurd hspell (by simp [Spells])
  | c :: start, k :: word, hspell, hw => by
    simp only [Spells, List.map_cons, List.cons.injEq] at hspell
    obtain ⟨hlower, -, hword⟩ := isKeyword_cons hw
    obtain ⟨hoctets, hagree⟩ := octets_and_agrees_of_spells hspell.2 hword
    have hc : c.toNat ≤ 122 := by
      refine toNat_le_of_isLower_toLower ?_
      rw [hspell.1, hlower]
    have hk := toNat_of_isLower hlower
    refine ⟨?_, ?_⟩
    · rw [octets, octets, utf8Size_eq_one hc, utf8Size_eq_one hk.2, hoctets]
    · rw [agrees, fold_eq_toLower hc, fold_of_isLower hlower, hspell.1, hagree]
      simp

/-- **A keyword is found exactly where it is spelled.** -/
theorem keyword_eq_some_iff {word text rest : Text} (hw : isKeyword word = true) :
    keyword word text = .ok (some rest) ↔ StartsWith word text rest := by
  constructor
  · intro h
    unfold keyword at h
    by_cases hagree : agrees text word = true
    · by_cases hoctets : octets word ≤ octets text
      · rw [if_pos hagree, if_pos hoctets] at h
        cases hdrop : dropOctets (octets word) text with
        | none => simp [hdrop] at h
        | some behind =>
          have hrest : behind = rest := by simpa [hdrop] using h
          rw [← hrest]
          exact startsWith_of_agrees hw hagree hdrop
      · simp [hoctets] at h
    · simp [hagree] at h
  · rintro ⟨start, hspell, htext⟩
    obtain ⟨hoctets, hagree⟩ := octets_and_agrees_of_spells hspell hw
    rw [htext]
    exact keyword_append rest hspell.length_eq hoctets hagree

/-! ### The first of several keywords -/

variable {α : Type}

/-- Either the first keyword is found, or the text does not start with it and
the others decide. -/
theorem oneOf_cons_cases {word text : Text} {a : α} {others : List (Text × α)}
    {found : Option (α × Text)} (hw : isKeyword word = true)
    (h : oneOf ((word, a) :: others) text = .ok found) :
    (∃ rest, StartsWith word text rest ∧ found = some (a, rest)) ∨
      ((∀ rest, ¬ StartsWith word text rest) ∧ oneOf others text = .ok found) := by
  rw [oneOf] at h
  cases hk : keyword word text with
  | error e => simp [hk] at h
  | ok behind =>
    cases behind with
    | none =>
      refine Or.inr ⟨?_, by simpa [hk] using h⟩
      intro rest hrest
      rw [(keyword_eq_some_iff hw).mpr hrest] at hk
      exact absurd hk (by simp)
    | some rest =>
      have hfound : found = some (a, rest) := by simpa [hk] using h.symm
      exact Or.inl ⟨rest, (keyword_eq_some_iff hw).mp hk, hfound⟩

/-- What is found is one of the keywords and what follows it. -/
theorem exists_of_oneOf_eq_some : ∀ {words : List (Text × α)} {text rest : Text} {a : α},
    (∀ p ∈ words, isKeyword p.1 = true) → oneOf words text = .ok (some (a, rest)) →
    ∃ word, (word, a) ∈ words ∧ StartsWith word text rest
  | [], _, _, _, _, h => by simp [oneOf] at h
  | (word, b) :: others, text, rest, a, hw, h => by
    rcases oneOf_cons_cases (hw _ List.mem_cons_self) h with ⟨rest', hs, hfound⟩ | ⟨-, h⟩
    · simp only [Option.some.injEq, Prod.mk.injEq] at hfound
      obtain ⟨rfl, rfl⟩ := hfound
      exact ⟨word, List.mem_cons_self, hs⟩
    · have hothers : ∀ p ∈ others, isKeyword p.1 = true := fun p hp =>
        hw p (List.mem_cons_of_mem _ hp)
      obtain ⟨found, hmem, hs⟩ := exists_of_oneOf_eq_some hothers h
      exact ⟨found, List.mem_cons_of_mem _ hmem, hs⟩

/-- **The keyword behind which no letter follows is the one that is found.** -/
theorem oneOf_eq_of_startsWith : ∀ {words : List (Text × α)} {word text rest : Text} {a : α}
    {found : Option (α × Text)}, (∀ p ∈ words, isKeyword p.1 = true) → Unshadowed words →
    (word, a) ∈ words → StartsWith word text rest → NoLetterAhead rest →
    oneOf words text = .ok found → found = some (a, rest)
  | (first, b) :: others, word, text, rest, a, found, hw, hu, hmem, hs, hrest, h => by
    obtain ⟨hfirst, hothers⟩ := List.pairwise_cons.mp hu
    rcases oneOf_cons_cases (hw _ List.mem_cons_self) h with ⟨rest', hs', hfound⟩ | ⟨hnot, h⟩
    · have hshadow : first <+: word := hs.shadowed hrest hs' (hw _ List.mem_cons_self)
      rcases List.mem_cons.mp hmem with heq | hmem
      · simp only [Prod.mk.injEq] at heq
        obtain ⟨rfl, rfl⟩ := heq
        rw [hfound, hs.rest_eq hs']
      · exact absurd hshadow (hfirst _ hmem)
    · rcases List.mem_cons.mp hmem with heq | hmem
      · simp only [Prod.mk.injEq] at heq
        rw [← heq.1] at hnot
        exact absurd hs (hnot rest)
      · exact oneOf_eq_of_startsWith (fun p hp => hw p (List.mem_cons_of_mem _ hp)) hothers hmem
          hs hrest h

end Text
end DiceTower
