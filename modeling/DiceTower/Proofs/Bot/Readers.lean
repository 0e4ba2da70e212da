/-
# The readers and their forms

Each reader of commands finds exactly the texts of its form: what it finds has
the form, and a text of the form is found as it is, provided that reading does
not break off. No keyword of a reader begins with one that is tried before it,
so that the first keyword found is the one of the form.

Key theorems: `Command.quickForm_of_quickRoll`,
`Command.quickRoll_of_quickForm`, `Command.policyForm_of_policyRoll`,
`Command.policyRoll_of_policyForm`, `Command.plainForm_of_plainRoll`,
`Command.plainRoll_of_plainForm`.
-/
import DiceTower.Proofs.Bot.Grammar

namespace DiceTower
namespace Command

open Text

/-! ### Quick rolls -/

/-- The words for quick rolls, as their reader tries them. -/
def quickKeywords : List (Text × Unit) := quickWords.map fun word => (word, ())

/-- The names of the occasions, as the reader of quick rolls tries them. -/
def occasions : List (Text × Command) := QuickRoll.all.map fun q => (q.keyword, quick q)

theorem isKeyword_of_mem_quickKeywords : ∀ p ∈ quickKeywords, isKeyword p.1 = true := by decide

theorem unshadowed_quickKeywords : Unshadowed quickKeywords := by
  unfold Unshadowed
  decide

theorem isKeyword_of_mem_occasions : ∀ p ∈ occasions, isKeyword p.1 = true := by decide

theorem unshadowed_occasions : Unshadowed occasions := by
  unfold Unshadowed
  decide

theorem mem_occasions (k : QuickRoll) : (k.keyword, quick k) ∈ occasions := by
  cases k <;> decide

theorem keyword_ne_nil (k : QuickRoll) : k.keyword ≠ [] := by
  cases k <;> decide

/-- The steps of the reader of quick rolls. -/
theorem quickRoll_cases {s : Text} {found : Option (Command × Text)}
    (h : quickRoll s = .ok found) :
    ∃ read, oneOf quickKeywords s = .ok read ∧
      ((read = none ∧ found = none) ∨
        ∃ behind, read = some ((), behind) ∧ ((skipBlanks1? behind = none ∧ found = none) ∨
          ∃ name, skipBlanks1? behind = some name ∧ oneOf occasions name = .ok found)) := by
  unfold quickRoll at h
  cases hword : oneOf [("quick".toList, ()), ("q".toList, ())] s with
  | error e =>
    rw [hword] at h
    cases h
  | ok read =>
    rw [hword] at h
    refine ⟨read, hword, ?_⟩
    rcases read with _ | ⟨⟨⟩, behind⟩
    · cases h
      exact Or.inl ⟨rfl, rfl⟩
    · refine Or.inr ⟨behind, rfl, ?_⟩
      cases hgap : skipBlanks1? behind with
      | none =>
        simp only [hgap] at h
        cases h
        exact Or.inl ⟨rfl, rfl⟩
      | some name =>
        simp only [hgap] at h
        refine Or.inr ⟨name, rfl, ?_⟩
        cases hname : oneOf (QuickRoll.all.map fun q => (q.keyword, quick q)) name with
        | error e =>
          rw [hname] at h
          cases h
        | ok read =>
          rw [hname] at h
          exact hname.trans h

/-- What the reader of quick rolls finds has their form. -/
theorem quickForm_of_quickRoll {s rest : Text} {c : Command}
    (h : quickRoll s = .ok (some (c, rest))) : ∃ k, c = quick k ∧ QuickForm s k rest := by
  obtain ⟨read, hword, ⟨-, hnone⟩ | ⟨behind, rfl, ⟨-, hnone⟩ | ⟨name, hgap, hname⟩⟩⟩ :=
    quickRoll_cases h
  · cases hnone
  · cases hnone
  · obtain ⟨word, hmem, hs⟩ := exists_of_oneOf_eq_some isKeyword_of_mem_quickKeywords hword
    obtain ⟨spelled, hoccasion, hrest⟩ := exists_of_oneOf_eq_some isKeyword_of_mem_occasions hname
    obtain ⟨gap, hblanks, rfl⟩ := exists_gap_of_skipBlanks1? hgap
    obtain ⟨word', hword', heq⟩ := List.mem_map.mp hmem
    obtain ⟨k, -, hk⟩ := List.mem_map.mp hoccasion
    obtain ⟨rfl, -⟩ := Prod.mk.inj heq
    obtain ⟨rfl, rfl⟩ := Prod.mk.inj hk
    exact ⟨k, rfl, word', hword', gap, name, hs, hblanks, hrest⟩

theorem opening_of_quickRoll {s : Text} {p : Command × Text} (h : quickRoll s = .ok (some p)) :
    opening s = some 'q' := by
  obtain ⟨k, -, hform⟩ := quickForm_of_quickRoll h
  exact hform.opening

/-- Behind a word for quick rolls and a gap, the reader looks for the name of an occasion. -/
theorem oneOf_occasions_of_quickRoll {s word gap name : Text} {found : Option (Command × Text)}
    (hword : word ∈ quickWords) (hs : StartsWith word s (gap ++ name)) (hgap : Gap gap)
    (hahead : NoBlankAhead name) (h : quickRoll s = .ok found) :
    oneOf occasions name = .ok found := by
  obtain ⟨read, hread, hsteps⟩ := quickRoll_cases h
  have hmem : (word, ()) ∈ quickKeywords := List.mem_map_of_mem hword
  have hfirst : read = some ((), gap ++ name) :=
    oneOf_eq_of_startsWith isKeyword_of_mem_quickKeywords unshadowed_quickKeywords hmem hs
      (hgap.noLetterAhead_append name) hread
  have hskip : skipBlanks1? (gap ++ name) = some name := by
    rw [skipBlanks1?_append hgap, skipBlanks_of_noBlankAhead hahead]
  simpa [hfirst, hskip] using hsteps

/-- A quick roll with blanks behind it is what its reader finds. -/
theorem quickRoll_of_quickForm {s rest : Text} {k : QuickRoll} {found : Option (Command × Text)}
    (hform : QuickForm s k rest) (hrest : Blanks rest) (h : quickRoll s = .ok found) :
    found = some (quick k, rest) := by
  obtain ⟨word, hword, gap, behind, hs, hgap, hname⟩ := hform
  have hahead : NoBlankAhead behind :=
    hname.noBlankAhead (keyword_ne_nil k) (isKeyword_of_mem_occasions _ (mem_occasions k))
  have hfound : oneOf occasions behind = .ok found :=
    oneOf_occasions_of_quickRoll hword hs hgap hahead h
  exact oneOf_eq_of_startsWith isKeyword_of_mem_occasions unshadowed_occasions (mem_occasions k)
    hname hrest.noLetterAhead hfound

/-! ### Policy rolls -/

theorem mem_policyKeywords {word : Text} {policy : Policy} :
    (word, policy) ∈ policyKeywords ↔ word ∈ policyWords policy := by
  cases policy <;> simp [policyKeywords, policyWords]

theorem isKeyword_of_mem_policyKeywords : ∀ p ∈ policyKeywords, isKeyword p.1 = true := by decide

theorem unshadowed_policyKeywords : Unshadowed policyKeywords := by
  unfold Unshadowed
  decide

/-- The steps of the reader of policy rolls. -/
theorem policyRoll_cases {s : Text} {found : Option (Command × Text)}
    (h : policyRoll s = .ok found) :
    ∃ read, oneOf policyKeywords s = .ok read ∧
      ((read = none ∧ found = none) ∨
        ∃ policy behind, read = some (policy, behind) ∧
          found = (skipBlanks1? behind).map fun b => (ofBody b (some policy), [])) := by
  unfold policyRoll at h
  cases hword : oneOf policyKeywords s with
  | error e =>
    rw [hword] at h
    cases h
  | ok read =>
    rw [hword] at h
    refine ⟨read, rfl, ?_⟩
    rcases read with _ | ⟨policy, behind⟩
    · cases h
      exact Or.inl ⟨rfl, rfl⟩
    · refine Or.inr ⟨policy, behind, rfl, ?_⟩
      cases hgap : skipBlanks1? behind with
      | none =>
        simp only [hgap] at h
        cases h
        rfl
      | some b =>
        simp only [hgap] at h
        cases h
        rfl

/-- What the reader of policy rolls finds has their form, and nothing is left. -/
theorem policyForm_of_policyRoll {s rest : Text} {c : Command}
    (h : policyRoll s = .ok (some (c, rest))) :
    rest = [] ∧ ∃ policy b, PolicyForm s policy b ∧ c = ofBody b (some policy) := by
  obtain ⟨read, hword, ⟨-, hnone⟩ | ⟨policy, behind, rfl, hfound⟩⟩ := policyRoll_cases h
  · cases hnone
  · obtain ⟨b, hgap, heq⟩ := Option.map_eq_some_iff.mp hfound.symm
    obtain ⟨rfl, rfl⟩ := Prod.mk.inj heq
    obtain ⟨word, hmem, hs⟩ := exists_of_oneOf_eq_some isKeyword_of_mem_policyKeywords hword
    obtain ⟨gap, hblanks, rfl⟩ := exists_gap_of_skipBlanks1? hgap
    exact ⟨rfl, policy, b, ⟨word, mem_policyKeywords.mp hmem, gap, hs, hblanks⟩, rfl⟩

theorem opening_of_policyRoll {s : Text} {p : Command × Text} (h : policyRoll s = .ok (some p)) :
    opening s = some 'a' ∨ opening s = some 'd' := by
  obtain ⟨-, policy, b, hform, -⟩ := policyForm_of_policyRoll h
  exact hform.opening

/-- A policy roll is what its reader finds. -/
theorem policyRoll_of_policyForm {s b : Text} {policy : Policy} {found : Option (Command × Text)}
    (hform : PolicyForm s policy b) (h : policyRoll s = .ok found) :
    found = some (ofBody b (some policy), []) := by
  obtain ⟨word, hword, gap, hs, hgap⟩ := hform
  obtain ⟨read, hread, hsteps⟩ := policyRoll_cases h
  have hfirst : read = some (policy, gap ++ b) :=
    oneOf_eq_of_startsWith isKeyword_of_mem_policyKeywords unshadowed_policyKeywords
      (mem_policyKeywords.mpr hword) hs (hgap.noLetterAhead_append b) hread
  rw [hfirst] at hsteps
  rcases hsteps with ⟨hnone, -⟩ | ⟨policy', behind, hsome, hfound⟩
  · cases hnone
  · cases hsome
    rw [hfound, skipBlanks1?_append hgap, Option.map_some, ofBody_skipBlanks]

/-! ### Help and plain rolls -/

/-- The reader of calls for help finds them only where the text begins with their letter. -/
theorem opening_of_helpCall {s rest : Text} {c : Command}
    (h : helpCall s = .ok (some (c, rest))) : c = help ∧ opening s = some 'h' := by
  unfold helpCall at h
  cases hword : oneOf [("help".toList, ()), ("h".toList, ())] s with
  | error e =>
    rw [hword] at h
    cases h
  | ok read =>
    rw [hword] at h
    rcases read with _ | ⟨⟨⟩, behind⟩
    · cases h
    · cases h
      have hheads : ∀ p ∈ [("help".toList, ()), ("h".toList, ())], p.1.head? = some 'h' := by
        decide
      obtain ⟨word, hmem, hs⟩ := exists_of_oneOf_eq_some (by decide) hword
      exact ⟨rfl, opening_of_startsWith hs (hheads _ hmem)⟩

/-- The steps of the reader of plain rolls. -/
theorem plainRoll_cases {s : Text} {found : Option (Command × Text)}
    (h : plainRoll s = .ok found) :
    ∃ read, oneOf [("roll".toList, ()), ("r".toList, ())] s = .ok read ∧
      found = read.map fun p => (ofBody p.2 none, []) := by
  unfold plainRoll at h
  cases hword : oneOf [("roll".toList, ()), ("r".toList, ())] s with
  | error e =>
    rw [hword] at h
    cases h
  | ok read =>
    rw [hword] at h
    refine ⟨read, rfl, ?_⟩
    rcases read with _ | ⟨⟨⟩, behind⟩
    · cases h
      rfl
    · cases h
      rw [Option.map_some, ofBody_skipBlanks]

/-- What the reader of plain rolls finds has their form, and nothing is left. -/
theorem plainForm_of_plainRoll {s rest : Text} {c : Command}
    (h : plainRoll s = .ok (some (c, rest))) :
    rest = [] ∧ ∃ b, PlainForm s b ∧ c = ofBody b none := by
  obtain ⟨read, hread, hfound⟩ := plainRoll_cases h
  obtain ⟨⟨⟨⟩, b⟩, rfl, heq⟩ := Option.map_eq_some_iff.mp hfound.symm
  obtain ⟨rfl, rfl⟩ := Prod.mk.inj heq
  refine ⟨rfl, b, plainForm_iff.mpr ?_, rfl⟩
  rcases oneOf_cons_cases (by decide) hread with ⟨behind, hs, heq⟩ | ⟨hnot, hread⟩
  · cases heq
    exact Or.inl hs
  · rcases oneOf_cons_cases (by decide) hread with ⟨behind, hs, heq⟩ | ⟨-, hread⟩
    · cases heq
      exact Or.inr ⟨hnot, hs⟩
    · cases hread

/-- A plain roll is what its reader finds. -/
theorem plainRoll_of_plainForm {s b : Text} {found : Option (Command × Text)}
    (hform : PlainForm s b) (h : plainRoll s = .ok found) : found = some (ofBody b none, []) := by
  obtain ⟨read, hread, rfl⟩ := plainRoll_cases h
  have hfirst : read = some ((), b) := by
    rcases plainForm_iff.mp hform with hroll | ⟨hnot, hs⟩
    · rcases oneOf_cons_cases (by decide) hread with ⟨b', hs, rfl⟩ | ⟨hnot, -⟩
      · rw [hroll.rest_eq hs]
      · exact absurd hroll (hnot b)
    · rcases oneOf_cons_cases (by decide) hread with ⟨b', hroll, -⟩ | ⟨-, hread⟩
      · exact absurd hroll (hnot b')
      · rcases oneOf_cons_cases (by decide) hread with ⟨b', hs', rfl⟩ | ⟨hnot', -⟩
        · rw [hs.rest_eq hs']
        · exact absurd hs (hnot' b)
  rw [hfirst, Option.map_some]

end Command
end DiceTower
