/-
# Messages on which reading breaks off

Reading breaks off where a keyword is cut inside the Kelvin sign, and this
takes a keyword that ends with `k`. Three do: the word for quick rolls and the
names of two occasions. They belong to the first reader, so nothing shields
them, and the others never break off. Behind the command prefix and the blanks
after it the message then spells `quic` and the sign, or it goes on like a
quick roll up to `attac` or `chec` and the sign (`Command.Breaks`).

The roll prefixes, the bodies of rolls and the notations in them are read
without a cut inside a character.

Key definitions: `Command.QuickBreaks`, `Command.Breaks`,
`Command.BodyCutsCleanly`, `Command.keywords`, `Command.brittleKeywords`.
Key theorems: `Command.quickRoll_eq_error_iff`,
`Command.parse_eq_error_iff`, `Command.breaks_off_exactly`.
-/
import DiceTower.Proofs.Bot.Messages
import DiceTower.Proofs.Notation.Cuts

namespace DiceTower
namespace Command

open Text

/-- The text spells `quic` and goes on with the Kelvin sign, or it is a word for
quick rolls, a gap, and a name that spells `attac` or `chec` and goes on with
the sign. -/
def QuickBreaks (t : Text) : Prop :=
  KelvinBehind "quic".toList t ∨
    ∃ word ∈ quickWords, ∃ gap name, StartsWith word t (gap ++ name) ∧ Gap gap ∧
      NoBlankAhead name ∧ (KelvinBehind "attac".toList name ∨ KelvinBehind "chec".toList name)

/-- The message is the command prefix, blanks, and a text on which the reader of
quick rolls breaks off. -/
def Breaks (lead message : Text) : Prop :=
  ∃ blanks t, message = lead ++ (blanks ++ t) ∧ Blanks blanks ∧ NoBlankAhead t ∧ QuickBreaks t

theorem QuickBreaks.kelvin_mem {t : Text} (h : QuickBreaks t) : kelvin ∈ t := by
  rcases h with hquic | ⟨word, -, gap, name, ⟨start, -, rfl⟩, -, -, hname⟩
  · exact hquic.kelvin_mem
  · have hmem : kelvin ∈ name := by
      rcases hname with hattac | hchec
      · exact hattac.kelvin_mem
      · exact hchec.kelvin_mem
    exact List.mem_append_right start (List.mem_append_right gap hmem)

/-- A message on which reading breaks off holds the Kelvin sign. -/
theorem Breaks.kelvin_mem {lead message : Text} (h : Breaks lead message) : kelvin ∈ message := by
  obtain ⟨blanks, t, rfl, -, -, hquick⟩ := h
  exact List.mem_append_right lead (List.mem_append_right blanks hquick.kelvin_mem)

/-- There is a text on which reading breaks off behind every command prefix. -/
theorem breaks_append_quic (lead : Text) : Breaks lead (lead ++ "quic\u212a".toList) := by
  have hnone : Blanks [] := by
    intro c hc
    cases hc
  have hahead : NoBlankAhead "quic\u212a".toList := by
    intro c hc
    obtain rfl := Option.some.inj hc
    rfl
  exact ⟨[], "quic\u212a".toList, rfl, hnone, hahead, Or.inl ⟨[], "quic".toList, rfl, rfl⟩⟩

/-! ### The keywords -/

/-- The keywords of all readers. -/
def keywords : List Text :=
  quickWords ++ QuickRoll.all.map QuickRoll.keyword ++ policyKeywords.map (·.1) ++
    ["help".toList, "h".toList] ++ ["roll".toList, "r".toList]

/-- The keywords that end with `k`. -/
def brittleKeywords : List Text := ["quick".toList, "attack".toList, "check".toList]

/-- A keyword that does not end with `k` is always read to its end. -/
theorem keyword_ne_error_of_mem : ∀ word ∈ keywords, word ∉ brittleKeywords →
    ∀ text, keyword word text ≠ .error ⟨⟩ := by
  have hkeyword : ∀ word ∈ keywords, isKeyword word = true := by decide
  have hlast : ∀ word ∈ keywords, word ∉ brittleKeywords → word.getLast? ≠ some 'k' := by decide
  intro word hword hnot text
  exact keyword_ne_error (hkeyword word hword) (hlast word hword hnot) text

theorem oneOf_ne_error_of_mem {α : Type} {words : List (Text × α)}
    (h : ∀ p ∈ words, p.1 ∈ keywords ∧ p.1 ∉ brittleKeywords) (text : Text) :
    oneOf words text ≠ .error ⟨⟩ :=
  oneOf_ne_error fun p hp => keyword_ne_error_of_mem p.1 (h p hp).1 (h p hp).2 text

/-! ### The reader of quick rolls -/

theorem oneOf_quickKeywords_eq_error_iff {s : Text} :
    oneOf quickKeywords s = .error ⟨⟩ ↔ KelvinBehind "quic".toList s := by
  have hquick : keyword "quick".toList s = .error ⟨⟩ ↔ KelvinBehind "quic".toList s :=
    keyword_stem_eq_error_iff "quic".toList (by decide)
  have hq : oneOf [("q".toList, ())] s ≠ .error ⟨⟩ := oneOf_ne_error_of_mem (by decide) s
  show oneOf [("quick".toList, ()), ("q".toList, ())] s = .error ⟨⟩ ↔ _
  rw [oneOf_cons_eq_error_iff, hquick]
  constructor
  · rintro (hs | ⟨-, h⟩)
    · exact hs
    · exact absurd h hq
  · exact Or.inl

theorem oneOf_occasions_eq_error_iff {name : Text} : oneOf occasions name = .error ⟨⟩ ↔
    KelvinBehind "attac".toList name ∨ KelvinBehind "chec".toList name := by
  have hattack : keyword "attack".toList name = .error ⟨⟩ ↔ KelvinBehind "attac".toList name :=
    keyword_stem_eq_error_iff "attac".toList (by decide)
  have hcheck : keyword "check".toList name = .error ⟨⟩ ↔ KelvinBehind "chec".toList name :=
    keyword_stem_eq_error_iff "chec".toList (by decide)
  have hsave : keyword "save".toList name ≠ .error ⟨⟩ :=
    keyword_ne_error_of_mem _ (by decide) (by decide) name
  have hinitiative : oneOf [("initiative".toList, quick .initiative)] name ≠ .error ⟨⟩ :=
    oneOf_ne_error_of_mem (by decide) name
  show oneOf [("attack".toList, quick .attack), ("save".toList, quick .save),
    ("check".toList, quick .check), ("initiative".toList, quick .initiative)] name = .error ⟨⟩ ↔ _
  rw [oneOf_cons_eq_error_iff, oneOf_cons_eq_error_iff, oneOf_cons_eq_error_iff, hattack, hcheck]
  constructor
  · rintro (ha | ⟨-, hs | ⟨-, hc | ⟨-, hi⟩⟩⟩)
    · exact Or.inl ha
    · exact absurd hs hsave
    · exact Or.inr hc
    · exact absurd hi hinitiative
  · rintro (ha | hc)
    · exact Or.inl ha
    · -- The two names in front of `check` begin with other letters and are passed over.
      obtain ⟨rest, hs⟩ := id hc
      obtain ⟨c, behind, rfl, hlower, -⟩ := StartsWith.exists_cons hs
      have hletter : c.toLower.isLower = true := by rw [hlower]; decide
      have hnone : ∀ k word, isKeyword (k :: word) = true → k ≠ 'c' →
          keyword (k :: word) (c :: behind) = .ok none := by
        intro k word hw hk
        refine keyword_eq_none_of_toLower_ne hw hletter ?_ behind
        rw [hlower]
        exact hk.symm
      exact Or.inr ⟨hnone 'a' "ttack".toList (by decide) (by decide),
        Or.inr ⟨hnone 's' "ave".toList (by decide) (by decide), Or.inl hc⟩⟩

/-- **The reader of quick rolls breaks off exactly on its two shapes.** -/
theorem quickRoll_eq_error_iff {s : Text} : quickRoll s = .error ⟨⟩ ↔ QuickBreaks s := by
  constructor
  · intro h
    unfold quickRoll at h
    cases hword : oneOf [("quick".toList, ()), ("q".toList, ())] s with
    | error e => exact Or.inl (oneOf_quickKeywords_eq_error_iff.mp hword)
    | ok read =>
      rw [hword] at h
      rcases read with _ | ⟨⟨⟩, behind⟩
      · cases h
      obtain ⟨word, hmem, hs⟩ := exists_of_oneOf_eq_some isKeyword_of_mem_quickKeywords hword
      obtain ⟨word', hword', heq⟩ := List.mem_map.mp hmem
      obtain ⟨rfl, -⟩ := Prod.mk.inj heq
      cases hgap : skipBlanks1? behind with
      | none =>
        simp only [hgap] at h
        cases h
      | some name =>
        simp only [hgap] at h
        cases hname : oneOf (QuickRoll.all.map fun q => (q.keyword, quick q)) name with
        | error e =>
          obtain ⟨gap, hblanks, rfl⟩ := exists_gap_of_skipBlanks1? hgap
          exact Or.inr ⟨word', hword', gap, name, hs, hblanks, noBlankAhead_of_skipBlanks1? hgap,
            oneOf_occasions_eq_error_iff.mp hname⟩
        | ok found =>
          rw [hname] at h
          cases h
  · intro h
    cases hquick : quickRoll s with
    | error e => rfl
    | ok found =>
      exfalso
      rcases h with hquic | ⟨word, hword, gap, name, hs, hgap, hahead, hname⟩
      · obtain ⟨read, hread, -⟩ := quickRoll_cases hquick
        rw [oneOf_quickKeywords_eq_error_iff.mpr hquic] at hread
        cases hread
      · have hfound := oneOf_occasions_of_quickRoll hword hs hgap hahead hquick
        rw [oneOf_occasions_eq_error_iff.mpr hname] at hfound
        cases hfound

/-! ### The other readers -/

theorem policyRoll_ne_error (s : Text) : policyRoll s ≠ .error ⟨⟩ := by
  intro h
  unfold policyRoll at h
  cases hword : oneOf policyKeywords s with
  | error e => exact oneOf_ne_error_of_mem (by decide) s hword
  | ok read =>
    rw [hword] at h
    rcases read with _ | ⟨policy, behind⟩
    · cases h
    · cases hgap : skipBlanks1? behind with
      | none =>
        simp only [hgap] at h
        cases h
      | some b =>
        simp only [hgap] at h
        cases h

theorem helpCall_ne_error (s : Text) : helpCall s ≠ .error ⟨⟩ := by
  intro h
  unfold helpCall at h
  cases hword : oneOf [("help".toList, ()), ("h".toList, ())] s with
  | error e => exact oneOf_ne_error_of_mem (by decide) s hword
  | ok read =>
    rw [hword] at h
    rcases read with _ | ⟨⟨⟩, behind⟩ <;> cases h

theorem plainRoll_ne_error (s : Text) : plainRoll s ≠ .error ⟨⟩ := by
  intro h
  unfold plainRoll at h
  cases hword : oneOf [("roll".toList, ()), ("r".toList, ())] s with
  | error e => exact oneOf_ne_error_of_mem (by decide) s hword
  | ok read =>
    rw [hword] at h
    rcases read with _ | ⟨⟨⟩, behind⟩ <;> cases h

/-- The readers behind that of quick rolls never break off. -/
theorem reader_ne_error :
    ∀ reader ∈ [policyRoll, helpCall, plainRoll], ∀ s, reader s ≠ .error ⟨⟩ := by
  intro reader hreader s
  simp only [List.mem_cons, List.not_mem_nil, or_false] at hreader
  rcases hreader with rfl | rfl | rfl
  · exact policyRoll_ne_error s
  · exact helpCall_ne_error s
  · exact plainRoll_ne_error s

/-! ### Messages -/

/-- The first reader breaks off, or it finds nothing and a later one does. -/
theorem firstFound_cons_eq_error_iff {reader : Text → Found} {others : List (Text → Found)}
    {s : Text} : firstFound (reader :: others) s = .error ⟨⟩ ↔
      reader s = .error ⟨⟩ ∨ reader s = .ok none ∧ firstFound others s = .error ⟨⟩ := by
  rw [firstFound]
  cases reader s with
  | error e => simp
  | ok found =>
    cases found with
    | none => simp
    | some p => simp

theorem firstFound_ne_error {s : Text} : ∀ {others : List (Text → Found)},
    (∀ reader ∈ others, reader s ≠ .error ⟨⟩) → firstFound others s ≠ .error ⟨⟩
  | [], _, h => by
    rw [firstFound] at h
    cases h
  | reader :: others, hothers, h => by
    rcases firstFound_cons_eq_error_iff.mp h with h | ⟨-, h⟩
    · exact hothers reader List.mem_cons_self h
    · exact firstFound_ne_error (fun r hr => hothers r (List.mem_cons_of_mem _ hr)) h

theorem firstFound_readers_eq_error_iff {s : Text} :
    firstFound readers s = .error ⟨⟩ ↔ QuickBreaks s := by
  have hothers : firstFound [policyRoll, helpCall, plainRoll] s ≠ .error ⟨⟩ :=
    firstFound_ne_error fun reader hreader => reader_ne_error reader hreader s
  rw [readers, firstFound_cons_eq_error_iff, quickRoll_eq_error_iff]
  constructor
  · rintro (hquick | ⟨-, h⟩)
    · exact hquick
    · exact absurd h hothers
  · exact Or.inl

/-- The blanks behind the command prefix are passed over. -/
theorem breaks_append_iff {lead behind : Text} :
    Breaks lead (lead ++ behind) ↔ QuickBreaks (skipBlanks behind) := by
  constructor
  · rintro ⟨blanks, t, hmessage, hblanks, ht, hbreaks⟩
    rw [List.append_cancel_left hmessage, skipBlanks_append hblanks, skipBlanks_of_noBlankAhead ht]
    exact hbreaks
  · intro hbreaks
    obtain ⟨blanks, hblanks, hbehind⟩ := exists_skipBlanks behind
    exact ⟨blanks, skipBlanks behind, by rw [← hbehind], hblanks, noBlankAhead_skipBlanks behind,
      hbreaks⟩

/-- **Reading a message breaks off exactly on the shapes of `Breaks`.** -/
theorem parse_eq_error_iff {lead : Text} {leads : List Text} {message : Text} :
    parse lead leads message = .error ⟨⟩ ↔ Breaks lead message := by
  cases hlead : lead.isPrefixOf? message with
  | none =>
    rw [parse_of_not_lead hlead]
    constructor
    · intro h
      cases h
    · rintro ⟨blanks, t, hmessage, -⟩
      rw [List.isPrefixOf?_eq_some_iff_append_eq.mpr hmessage.symm] at hlead
      cases hlead
  | some behind =>
    obtain rfl := List.isPrefixOf?_eq_some_iff_append_eq.mp hlead
    rw [parse_of_lead hlead, ofCommandText_eq, breaks_append_iff, ← firstFound_readers_eq_error_iff]
    cases firstFound readers (skipBlanks behind) with
    | error e => exact ⟨fun _ => rfl, fun _ => rfl⟩
    | ok found =>
      constructor
      · intro h
        cases h
      · intro h
        cases h

/-- Reading a body cuts behind its blanks, in front of its first mark and behind
the mark, and each time between two characters. -/
def BodyCutsCleanly (b : Text) : Prop :=
  CutsCleanly b (skipBlanks b) ∧
    CutsCleanly (skipBlanks b) ((skipBlanks b).dropWhile (· ≠ '#')) ∧
    CutsCleanly ((skipBlanks b).dropWhile (· ≠ '#')) (((skipBlanks b).dropWhile (· ≠ '#')).drop 1)

theorem bodyCutsCleanly (b : Text) : BodyCutsCleanly b :=
  ⟨cutsCleanly_dropWhile isBlank b, cutsCleanly_dropWhile _ _, cutsCleanly_drop 1 _⟩

/-- **Where reading breaks off, and where it never does.** A message breaks off
exactly on the shapes of `Breaks`, whatever the roll prefixes. A roll prefix is
cut off at its octets between two characters, and so is what its body is cut
into. The keywords that do not end with `k`, the readers that use no other, and
the readers of notations never cut inside a character. -/
theorem breaks_off_exactly (lead : Text) (leads : List Text) (message : Text) :
    (parse lead leads message = .error ⟨⟩ ↔ Breaks lead message) ∧
      (∀ p behind, p.isPrefixOf? message = some behind →
        dropOctets (octets p) message = some behind ∧ BodyCutsCleanly behind) ∧
      (∀ word ∈ keywords, word ∉ brittleKeywords → ∀ text, keyword word text ≠ .error ⟨⟩) ∧
      (∀ reader ∈ [policyRoll, helpCall, plainRoll], ∀ text, reader text ≠ .error ⟨⟩) ∧
      Notation.ReadersNeverSplit := by
  refine ⟨parse_eq_error_iff, ?_, keyword_ne_error_of_mem, reader_ne_error,
    Notation.readersNeverSplit⟩
  intro p behind hp
  obtain rfl := List.isPrefixOf?_eq_some_iff_append_eq.mp hp
  exact ⟨dropOctets_append p behind, bodyCutsCleanly behind⟩

/-- A quick roll in capitals whose name ends with the Kelvin sign; a roll prefix of
four octets in front of a body with the sign in its reason; and a keyword whose
last letter the sign stands for, though it is no `k`. -/
theorem breaks_off_exactly_in_capitals :
    (parse "🎲".toList ["🎲".toList] "🎲\r\nQ \tCheC\u212a!".toList = .error ⟨⟩ ∧
      Breaks "🎲".toList "🎲\r\nQ \tCheC\u212a!".toList) ∧
      ("🎲".toList.isPrefixOf? "🎲 2d6 # luc\u212a".toList = some " 2d6 # luc\u212a".toList ∧
        dropOctets 4 "🎲 2d6 # luc\u212a".toList = some " 2d6 # luc\u212a".toList ∧
        BodyCutsCleanly " 2d6 # luc\u212a".toList) ∧
      ("roll".toList ∈ keywords ∧ "roll".toList ∉ brittleKeywords ∧
        keyword "roll".toList "rol\u212a".toList ≠ .error ⟨⟩) ∧
      plainRoll ∈ [policyRoll, helpCall, plainRoll] ∧ plainRoll "r\u212a".toList ≠ .error ⟨⟩ := by
  have hbreaks : parse "🎲".toList ["🎲".toList] "🎲\r\nQ \tCheC\u212a!".toList = .error ⟨⟩ := rfl
  have hlead : "🎲".toList.isPrefixOf? "🎲 2d6 # luc\u212a".toList =
      some " 2d6 # luc\u212a".toList := rfl
  have hword : "roll".toList ∈ keywords := by decide
  have hsturdy : "roll".toList ∉ brittleKeywords := by decide
  have hreader : plainRoll ∈ [policyRoll, helpCall, plainRoll] := by simp
  obtain ⟨hiff, -, hkeywords, hreaders, -⟩ :=
    breaks_off_exactly "🎲".toList ["🎲".toList] "🎲\r\nQ \tCheC\u212a!".toList
  obtain ⟨-, hroll, -⟩ := breaks_off_exactly "!".toList [] "🎲 2d6 # luc\u212a".toList
  exact ⟨⟨hbreaks, hiff.mp hbreaks⟩, ⟨hlead, hroll _ _ hlead⟩,
    ⟨hword, hsturdy, hkeywords _ hword hsturdy _⟩, hreader, hreaders _ hreader _⟩

end Command
end DiceTower
