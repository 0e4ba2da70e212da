/-
# What is read is a plain file

Whatever text is read, the table that it stands for is that of a plain file: the
words that are read stand for values without tables, with their numbers in
range (`Draft.inline_of_scalar?`), open arrays collect such values only, and
entries and sections are inserted in the order of their keys. Each token keeps
a draft so (`Draft.IsSound.step`), and so, by induction, does every run of
tokens.

Key definition: `Toml.Draft.IsSound`.
Key theorems: `Toml.Draft.IsSound.step`, `Toml.Draft.IsSound.run`,
`Toml.isFile_of_readPlain?`.
-/
import DiceTower.Toml.Plain
import DiceTower.Toml.Reader

namespace DiceTower

/-- A decimal is read as a number in range. -/
theorem Binary64.inRange_of_ofDecimal? {negative : Bool} {digits : Nat} {exponent : Int}
    {x : Binary64} (h : ofDecimal? negative digits exponent = some x) : x.InRange := by
  unfold ofDecimal? at h
  split at h
  · rw [← Option.some.inj h]
    exact (by decide : 0 < overflow)
  · split at h
    · cases h
    · dsimp only at h
      split at h
      · rename_i hlt
        rw [← Option.some.inj h]
        exact hlt
      · cases h

namespace Toml

open Text

/-! ### Words -/

theorem inline_of_decimal? {negative : Bool} {whole fraction : Text} {exponent : Int} {v : Value}
    (h : decimal? negative whole fraction exponent = some v) : v.Inline := by
  obtain ⟨x, hx, rfl⟩ := Option.map_eq_some_iff.mp h
  exact .float (Binary64.inRange_of_ofDecimal? hx)

theorem inline_of_whole? {negative : Bool} {whole : Text} {v : Value}
    (h : whole? negative whole = some v) : v.Inline := by
  unfold whole? at h
  split at h
  · rename_i hfits
    rw [← Option.some.inj h]
    exact .integer hfits
  · cases h

theorem inline_of_unsigned? {negative : Bool} {text : Text} {v : Value}
    (h : unsigned? negative text = some v) : v.Inline := by
  unfold unsigned? at h
  split at h
  · rw [← Option.some.inj h]
    exact .float trivial
  split at h
  · rw [← Option.some.inj h]
    exact .float trivial
  split at h
  · cases h
  split at h
  · split at h
    · exact inline_of_whole? h
    · split at h
      · cases h
      · split at h
        · cases h
        · exact inline_of_decimal? h
    · split at h
      · cases h
      · exact inline_of_decimal? h
  · cases h

theorem inline_of_number? {text : Text} {v : Value} (h : number? text = some v) : v.Inline := by
  unfold number? signed? at h
  split at h <;> split at h <;> exact inline_of_unsigned? h

/-- **A word stands for a value without tables.** -/
theorem Draft.inline_of_scalar? {word : Text} {v : Value} (h : scalar? word = some v) :
    v.Inline := by
  unfold scalar? at h
  split at h
  · rw [← Option.some.inj h]
    exact .boolean true
  split at h
  · rw [← Option.some.inj h]
    exact .boolean false
  · exact inline_of_number? h

/-! ### Drafts -/

/-- The items of open arrays are values without tables. -/
def InlineArrays (arrays : List (List Value)) : Prop :=
  ∀ items ∈ arrays, ∀ item ∈ items, item.Inline

/-- The items that were read where something is expected are values without tables. -/
def Expected.IsSound : Expected → Prop
  | .value _ arrays => InlineArrays arrays
  | .separator _ arrays => InlineArrays arrays
  | _ => True

namespace Draft

/-- The draft where something else is expected next. -/
def expecting (d : Draft) (e : Expected) : Draft := { d with expected := e }

/-- An entry goes to the file, or to the section that is being filled if its key is new there. -/
theorem store_cases {d next : Draft} {key : Text} {value : Value}
    (h : d.store key value = some next) :
    d.current = none ∧ next = { d with top := d.top.insert key value, expected := .lineEnd } ∨
      ∃ name entries, d.current = some (name, entries) ∧
        next = { d with current := some (name, entries.insert key value), expected := .lineEnd } := by
  unfold store at h
  cases hcurrent : d.current with
  | none =>
    rw [hcurrent] at h
    exact Or.inl ⟨rfl, (Option.some.inj h).symm⟩
  | some found =>
    rw [hcurrent] at h
    by_cases hfound : (found.2.find? key).isSome = true
    · simp [hfound] at h
    · simp only [if_neg hfound] at h
      exact Or.inr ⟨found.1, found.2, rfl, (Option.some.inj h).symm⟩

/-- A section is begun under a name that no other has. -/
theorem openSection_eq_some_iff {d next : Draft} {name : Text} : d.openSection name = some next ↔
    name ∉ d.names ∧ Draft.mk d.table (name :: d.names) (some (name, [])) .lineEnd = next := by
  unfold openSection
  by_cases hmem : name ∈ d.names
  · simp [hmem]
  · simp [hmem]

/-- What was read so far are entries of a plain file. -/
structure IsSound (d : Draft) : Prop where
  top : IsFile d.top
  current : ∀ filled ∈ d.current, IsSection filled.2
  expected : d.expected.IsSound

variable {d next : Draft} {key : Text} {v : Value}

theorem isSound_empty : empty.IsSound := ⟨isFile_nil, by simp [empty], trivial⟩

theorem IsSound.expecting {e : Expected} (h : d.IsSound) (he : e.IsSound) :
    (d.expecting e).IsSound := ⟨h.top, h.current, he⟩

/-- The entries that were read so far are those of a file. -/
theorem IsSound.isFile (h : d.IsSound) : IsFile d.table := by
  unfold table
  cases hcurrent : d.current with
  | none => exact h.top
  | some found => exact h.top.insert (Or.inr ⟨found.2, rfl, h.current found hcurrent⟩)

theorem IsSound.store (h : d.IsSound) (hv : v.Inline) (hs : d.store key v = some next) :
    next.IsSound := by
  rcases store_cases hs with ⟨-, rfl⟩ | ⟨name, entries, hcurrent, rfl⟩
  · exact ⟨h.top.insert (Or.inl hv), h.current, trivial⟩
  · refine ⟨h.top, ?_, trivial⟩
    rintro filled ⟨⟩
    exact (h.current (name, entries) hcurrent).insert hv

theorem IsSound.deliver {arrays : List (List Value)} (h : d.IsSound) (hv : v.Inline)
    (harrays : InlineArrays arrays) (hs : d.deliver key v arrays = some next) : next.IsSound := by
  cases arrays with
  | nil => exact h.store hv hs
  | cons items outer =>
    rw [← Option.some.inj hs]
    refine h.expecting (e := .separator key ((v :: items) :: outer)) ?_
    intro others hothers item hitem
    rcases List.mem_cons.mp hothers with rfl | hothers
    · rcases List.mem_cons.mp hitem with rfl | hitem
      · exact hv
      · exact harrays items List.mem_cons_self item hitem
    · exact harrays others (List.mem_cons_of_mem _ hothers) item hitem

theorem IsSound.close {arrays : List (List Value)} (h : d.IsSound) (harrays : InlineArrays arrays)
    (hs : d.close key arrays = some next) : next.IsSound := by
  cases arrays with
  | nil => cases hs
  | cons items outer =>
    refine h.deliver (.array ?_) ?_ hs
    · intro item hitem
      exact harrays items List.mem_cons_self item (List.mem_reverse.mp hitem)
    · intro others hothers
      exact harrays others (List.mem_cons_of_mem _ hothers)

theorem IsSound.openSection {name : Text} (h : d.IsSound) (hs : d.openSection name = some next) :
    next.IsSound := by
  obtain ⟨-, rfl⟩ := openSection_eq_some_iff.mp hs
  refine ⟨h.isFile, ?_, trivial⟩
  rintro filled ⟨⟩
  exact isSection_nil

theorem IsSound.stepLine {token : Token} (h : d.IsSound) (hs : d.stepLine token = some next) :
    next.IsSound := by
  cases token with
  | newline =>
    rw [← Option.some.inj hs]
    exact h
  | opening =>
    rw [← Option.some.inj hs]
    exact h.expecting trivial
  | word text =>
    obtain ⟨key, -, rfl⟩ := Option.map_eq_some_iff.mp hs
    exact h.expecting trivial
  | quoted text =>
    rw [← Option.some.inj hs]
    exact h.expecting trivial
  | _ => cases hs

theorem IsSound.stepValue {arrays : List (List Value)} {token : Token} (h : d.IsSound)
    (harrays : InlineArrays arrays) (hs : d.stepValue key arrays token = some next) :
    next.IsSound := by
  cases token with
  | quoted text => exact h.deliver (.string text) harrays hs
  | word text =>
    rw [Draft.stepValue] at hs
    cases hscalar : scalar? text with
    | none => simp [hscalar] at hs
    | some v =>
      rw [hscalar] at hs
      exact h.deliver (inline_of_scalar? hscalar) harrays hs
  | opening =>
    rw [← Option.some.inj hs]
    refine h.expecting (e := .value key ([] :: arrays)) ?_
    intro items hitems item hitem
    rcases List.mem_cons.mp hitems with rfl | hitems
    · cases hitem
    · exact harrays items hitems item hitem
  | closing => exact h.close harrays hs
  | newline =>
    rw [Draft.stepValue] at hs
    split at hs
    · cases hs
    · rw [← Option.some.inj hs]
      exact h
  | _ => cases hs

theorem IsSound.stepSeparator {arrays : List (List Value)} {token : Token} (h : d.IsSound)
    (harrays : InlineArrays arrays) (hs : d.stepSeparator key arrays token = some next) :
    next.IsSound := by
  cases token with
  | comma =>
    rw [← Option.some.inj hs]
    exact h.expecting (e := .value key arrays) harrays
  | closing => exact h.close harrays hs
  | newline =>
    rw [← Option.some.inj hs]
    exact h
  | _ => cases hs

/-- **A token keeps a draft sound.** -/
theorem IsSound.step {token : Token} (h : d.IsSound) (hs : d.step token = some next) :
    next.IsSound := by
  have hexpected := h.expected
  unfold Draft.step at hs
  cases he : d.expected with
  | line =>
    rw [he] at hs
    exact h.stepLine hs
  | headingName =>
    rw [he] at hs
    obtain ⟨name, -, rfl⟩ := Option.map_eq_some_iff.mp hs
    exact h.expecting trivial
  | headingEnd name =>
    rw [he] at hs
    exact h.openSection (Option.ite_none_right_eq_some.mp hs).2
  | lineEnd =>
    rw [he] at hs
    rw [← Option.some.inj (Option.ite_none_right_eq_some.mp hs).2]
    exact h.expecting trivial
  | equals key =>
    rw [he] at hs
    rw [← Option.some.inj (Option.ite_none_right_eq_some.mp hs).2]
    refine h.expecting (e := .value key []) ?_
    intro items hitems
    cases hitems
  | value key arrays =>
    rw [he] at hs hexpected
    exact h.stepValue hexpected hs
  | separator key arrays =>
    rw [he] at hs hexpected
    exact h.stepSeparator hexpected hs

/-- **Tokens keep a draft sound.** -/
theorem IsSound.run : ∀ {tokens : List Token} {d next : Draft}, d.IsSound →
    d.run? tokens = some next → next.IsSound
  | [], _, _, h, hs => Option.some.inj hs ▸ h
  | token :: rest, d, next, h, hs => by
    rw [run?] at hs
    cases hstep : d.step token with
    | none => simp [hstep] at hs
    | some middle =>
      rw [hstep] at hs
      exact (h.step hstep).run hs

end Draft

/-- **What is read is a plain file.** -/
theorem isFile_of_readPlain? {text : Text} {t : Table} (h : readPlain? text = some t) : IsFile t := by
  unfold readPlain? at h
  cases htokens : tokens? text with
  | none => simp [htokens] at h
  | some tokens =>
    rw [htokens] at h
    cases hrun : Draft.empty.run? tokens with
    | none => simp [hrun] at h
    | some draft =>
      have hfile := (Draft.isSound_empty.run hrun).isFile
      simp only [hrun, Draft.finish] at h
      split at h
      · rw [← Option.some.inj h]
        exact hfile
      · rw [← Option.some.inj h]
        exact hfile
      · cases h

end Toml
end DiceTower
