/-
# Plain files that read back

In a plain file each entry is a value without tables or a section, whose
entries are values without tables (`IsFile`). What is written of it is a line
for each entry of the first kind and then, for each section, a heading and the
lines of its entries (`IsSection.renderAt_eq`). A line is read as its entry
and a heading as the beginning of its section (`Draft.readOn?_line`,
`Draft.readOn?_heading`), and as the keys are in order each entry is stored
behind those that were read before it. So by induction on the entries the
whole text is read as the file (`readPlain?_of_write?`).

Key definitions: `Toml.line`, `Toml.Draft.Holds`.
Key theorems: `Toml.Draft.readOn?_section`, `Toml.Draft.readOn?_renderEntries`,
`Toml.readPlain?_of_write?`.
-/
import DiceTower.Proofs.Toml.Inline

namespace DiceTower
namespace Toml

open Text

/-! ### Files -/

/-- Entries without tables are in the order of writing. -/
theorem IsSection.grouped_eq {entries : Table} (h : IsSection entries) :
    Table.grouped entries = entries := by
  have hplain : entries.filter (fun e => e.2.isPlain) = entries :=
    List.filter_eq_self.mpr fun e he => (h.inline e he).isPlain_eq
  have harrays : entries.filter (fun e => e.2.isTableArray) = [] := by
    refine List.filter_eq_nil_iff.mpr fun e he => ?_
    have hplain := (h.inline e he).isPlain_eq
    simp only [Value.isPlain, Bool.and_eq_true, Bool.not_eq_true'] at hplain
    simp [hplain.2]
  have htables : entries.filter (fun e => e.2.isTable) = [] :=
    List.filter_eq_nil_iff.mpr fun e he => by simp [(h.inline e he).isTable_eq]
  rw [Table.grouped, hplain, harrays, htables, List.append_nil, List.append_nil]

theorem IsEntry.arranged_eq {v : Value} (h : IsEntry v) : v.arranged = v := by
  rcases h with h | ⟨entries, rfl, h⟩
  · exact h.arranged_eq
  · have hentries := arrangedEntries_eq_self fun e he => (h.inline e he).arranged_eq
    rw [Value.arranged, hentries, h.grouped_eq]

/-- A file is written as it stands. -/
theorem IsFile.eq_of_write? {t : Table} {text : Text} (h : IsFile t) (hw : write? t = some text) :
    Table.KeysFirst t ∧ text = renderEntries [] true t := by
  have harranged := arrangedEntries_eq_self fun e he => (h.isEntry e he).arranged_eq
  rw [write?, harranged, Value.text?] at hw
  by_cases hwritable : (Value.table t).isWritable = true
  · rw [if_pos hwritable, Option.some.injEq] at hw
    rw [Value.isWritable, Bool.and_eq_true, decide_eq_true_eq] at hwritable
    exact ⟨hwritable.1, hw.symm⟩
  · rw [if_neg hwritable] at hw
    cases hw

/-! ### Lines -/

/-- The line of an entry. -/
def line (e : Text × Value) : Text := writeKey e.1 ++ " = ".toList ++ e.2.renderAt [] ++ ['\n']

/-- A value without tables is written on a line of its own. -/
theorem Value.Inline.renderAt_entry {v : Value} (h : v.Inline) (key : Text) (first : Bool) :
    v.renderAt [.entry key first] = line (key, v) := by
  rw [h.placedText, line]
  cases first <;> simp [Place.opening, Place.lineEnd, Place.headings]

/-- What is written of entries without tables: the headings around them, and
a line for each. -/
theorem renderEntries_eq {entries : Table} (h : ∀ e ∈ entries, e.2.Inline) (place : Place)
    (first : Bool) : renderEntries place first entries =
      (if first then place.headings else []) ++ entries.flatMap line := by
  induction entries generalizing first with
  | nil => simp [renderEntries]
  | cons e rest ih =>
    obtain ⟨key, value⟩ := e
    have hvalue := (h (key, value) List.mem_cons_self).placedText (.entry key first :: place)
    rw [renderEntries_cons, ih (fun e he => h e (List.mem_cons_of_mem _ he)), hvalue,
      List.flatMap_cons, line]
    simp [Place.opening, Place.lineEnd]

/-- The heading of a section of the file. -/
theorem headings_section (name : Text) (first : Bool) : Place.headings [.entry name first] =
    (if first then [] else ['\n']) ++ '[' :: (writeKey name ++ [']', '\n']) := by
  cases first <;>
    simp [Place.headings, Place.missing, Place.heading, Place.gap, Place.path, Place.keyOf?, writePath]

/-- What is written of a section: its heading, and a line for each of its entries. -/
theorem IsSection.renderAt_eq {entries : Table} (h : IsSection entries) (name : Text)
    (first : Bool) : (Value.table entries).renderAt [.entry name first] =
      (if first then [] else ['\n']) ++ '[' :: (writeKey name ++ [']', '\n']) ++
        entries.flatMap line := by
  rw [Value.renderAt, renderEntries_eq h.inline, if_pos rfl, headings_section]

namespace Draft

variable {d : Draft} {text rest : Text}

theorem readOn?_key (key : Text) (hrest : NoWordAhead rest) : ∃ token, key? token = some key ∧
    d.readOn? (writeKey key ++ rest) = (d.step token).bind (·.readOn? rest) := by
  obtain ⟨token, hkey, htoken⟩ := exists_token_of_writeKey key
  exact ⟨token, hkey, readOn?_of_token (htoken rest hrest)⟩

/-- A key is read where a line is expected. -/
theorem stepLine_of_key? {token : Token} {key : Text} (h : key? token = some key) (d : Draft) :
    d.stepLine token = some (d.expecting (.equals key)) := by
  cases token with
  | word text =>
    rw [stepLine, h]
    · rfl
    · simp
    · simp
  | quoted text =>
    obtain rfl : text = key := Option.some.inj h
    rfl
  | _ => cases h

/-- An empty line changes nothing. -/
theorem readOn?_emptyLine (d : Draft) (rest : Text) :
    (d.expecting .line).readOn? ('\n' :: rest) = (d.expecting .line).readOn? rest := by
  rw [readOn?_sign rfl]
  rfl

/-- Behind the end of a line another is expected. -/
theorem readOn?_lineEnd (h : d.expected = .lineEnd) (rest : Text) :
    d.readOn? ('\n' :: rest) = (d.expecting .line).readOn? rest := by
  have hstep : d.step .newline = some (d.expecting .line) := by
    rw [step, h]
    rfl
  rw [readOn?_sign rfl, hstep, Option.bind_some]

theorem expected_of_store {next : Draft} {key : Text} {value : Value}
    (h : d.store key value = some next) : next.expected = .lineEnd := by
  rcases store_cases h with ⟨-, rfl⟩ | ⟨name, entries, -, rfl⟩ <;> rfl

/-- **A line is read as its entry.** -/
theorem readOn?_line {e : Text × Value} (h : e.2.Inline) (d : Draft) (rest : Text) :
    (d.expecting .line).readOn? (line e ++ rest) =
      (d.store e.1 e.2).bind fun d => (d.expecting .line).readOn? rest := by
  obtain ⟨key, value⟩ := e
  have htext : line (key, value) ++ rest =
      writeKey key ++ (' ' :: '=' :: ' ' :: (value.renderAt [] ++ '\n' :: rest)) := by
    simp [line]
  obtain ⟨token, hkey, htoken⟩ := readOn?_key (d := d.expecting .line) key
    (noWordAhead_cons (c := ' ') (by decide) ('=' :: ' ' :: (value.renderAt [] ++ '\n' :: rest)))
  have hstep : (d.expecting .line).step token = some (d.expecting (.equals key)) :=
    stepLine_of_key? hkey (d.expecting .line)
  have hequals : (d.expecting (.equals key)).step .equals = some (d.expecting (.value key [])) := rfl
  have hvalue := readsBack h d key [] (noWordAhead_cons (c := '\n') (by decide) rest)
  rw [htext, htoken, hstep, Option.bind_some, readOn?_space, readOn?_sign rfl, hequals,
    Option.bind_some, readOn?_space, hvalue]
  show (d.store key value).bind _ = _
  cases hstore : d.store key value with
  | none => rfl
  | some next =>
    simp only [Option.bind_some]
    exact readOn?_lineEnd (expected_of_store hstore) rest

/-- **A heading is read as the beginning of its section.** -/
theorem readOn?_heading (d : Draft) (name rest : Text) :
    (d.expecting .line).readOn? ('[' :: (writeKey name ++ [']', '\n']) ++ rest) =
      (d.openSection name).bind fun d => (d.expecting .line).readOn? rest := by
  have htext : '[' :: (writeKey name ++ [']', '\n']) ++ rest =
      '[' :: (writeKey name ++ (']' :: '\n' :: rest)) := by
    simp
  have hopen : (d.expecting .line).step .opening = some (d.expecting .headingName) := rfl
  obtain ⟨token, hkey, htoken⟩ := readOn?_key (d := d.expecting .headingName) name
    (noWordAhead_cons (c := ']') (by decide) ('\n' :: rest))
  have hname : (d.expecting .headingName).step token = some (d.expecting (.headingEnd name)) := by
    show (key? token).map _ = _
    rw [hkey]
    rfl
  have hclose : (d.expecting (.headingEnd name)).step .closing = d.openSection name := rfl
  rw [htext, readOn?_sign rfl, hopen, Option.bind_some, htoken, hname, Option.bind_some,
    readOn?_sign rfl, hclose]
  cases hsection : d.openSection name with
  | none => rfl
  | some next =>
    simp only [Option.bind_some]
    obtain ⟨-, rfl⟩ := openSection_eq_some_iff.mp hsection
    exact readOn?_lineEnd rfl rest

/-! ### Sections -/

/-- The draft in which a section is being filled and has the given entries. -/
def filling (d : Draft) (name : Text) (entries : Table) : Draft :=
  { d with current := some (name, entries) }

/-- An entry behind those of the section is stored behind them. -/
theorem store_filling {read : Table} {key : Text} {value : Value}
    (h : Table.Sorted (read ++ [(key, value)])) (d : Draft) (name : Text) :
    (d.filling name read).store key value =
      some ((d.filling name (read ++ [(key, value)])).expecting .lineEnd) := by
  have hbefore := Table.before_of_sorted h
  have hnew : read.find? key = none :=
    Table.find?_eq_none fun e he => Table.ne_of_before (hbefore e he)
  simp [store, filling, expecting, hnew, Table.insert_eq_append hbefore]

/-- The lines of a section are read one behind the other. -/
theorem readOn?_lines (d : Draft) (name rest : Text) : ∀ {entries read : Table},
    (∀ e ∈ entries, e.2.Inline) → Table.Sorted (read ++ entries) →
    ((d.filling name read).expecting .line).readOn? (entries.flatMap line ++ rest) =
      ((d.filling name (read ++ entries)).expecting .line).readOn? rest
  | [], read, _, _ => by rw [List.flatMap_nil, List.nil_append, List.append_nil]
  | e :: others, read, hinline, hsorted => by
    have hassoc : read ++ e :: others = read ++ [e] ++ others := by simp
    rw [hassoc] at hsorted ⊢
    have ih := readOn?_lines d name rest
      (fun other hother => hinline other (List.mem_cons_of_mem _ hother)) hsorted
    have hstore := store_filling (List.pairwise_append.mp hsorted).1 d name
    rw [List.flatMap_cons, List.append_assoc, readOn?_line (hinline e List.mem_cons_self), hstore,
      Option.bind_some, ← ih]
    rfl

/-- **A section is read as it was written,** if no other has its name. -/
theorem readOn?_section {entries : Table} (h : IsSection entries) {name : Text}
    (hname : name ∉ d.names) (first : Bool) (rest : Text) :
    (d.expecting .line).readOn? ((Value.table entries).renderAt [.entry name first] ++ rest) =
      (Draft.mk d.table (name :: d.names) (some (name, entries)) .line).readOn? rest := by
  have hopen : d.openSection name =
      some (Draft.mk d.table (name :: d.names) (some (name, [])) .lineEnd) :=
    openSection_eq_some_iff.mpr ⟨hname, rfl⟩
  have hgap : ∀ text : Text,
      (d.expecting .line).readOn? ((if first then [] else ['\n']) ++ text) =
        (d.expecting .line).readOn? text := by
    intro text
    cases first with
    | true => rfl
    | false => exact readOn?_emptyLine d text
  rw [h.renderAt_eq, List.append_assoc, List.append_assoc, hgap, readOn?_heading, hopen,
    Option.bind_some]
  exact readOn?_lines (Draft.mk d.table (name :: d.names) none .line) name rest h.inline h.sorted

/-! ### Whole files -/

/-- The draft holds the entries of the table, sections among them. -/
structure Holds (d : Draft) (t : Table) : Prop where
  table_eq : d.table = t
  names : ∀ name ∈ d.names, ∃ e ∈ t, e.1 = name

theorem Holds.exists_entry {read : Table} (h : d.Holds read) (more : Table) :
    ∀ name ∈ d.names, ∃ e ∈ read ++ more, e.1 = name := by
  intro name hname
  obtain ⟨e, he, hkey⟩ := h.names name hname
  exact ⟨e, List.mem_append_left _ he, hkey⟩

theorem top_eq_of_current (h : d.current = none) : d.table = d.top := by
  rw [table, h]

/-- Another entry is held once it is stored, as long as no section is being filled. -/
theorem Holds.exists_store {read : Table} {key : Text} {value : Value} (h : d.Holds read)
    (hnone : d.current = none) (hsorted : Table.Sorted (read ++ [(key, value)])) :
    ∃ next, d.store key value = some next ∧ next.Holds (read ++ [(key, value)]) ∧
      next.current = none := by
  have htop : d.top = read := by
    rw [← top_eq_of_current hnone, h.table_eq]
  have hinsert : d.top.insert key value = read ++ [(key, value)] := by
    rw [htop, Table.insert_eq_append (Table.before_of_sorted hsorted)]
  refine ⟨{ d with top := read ++ [(key, value)], expected := .lineEnd }, ?_, ?_, hnone⟩
  · simp only [store, hnone, hinsert]
  · exact ⟨top_eq_of_current hnone, h.exists_entry _⟩

/-- Another section is held once it is filled. -/
theorem Holds.fill {read entries : Table} {name : Text} (h : d.Holds read)
    (hsorted : Table.Sorted (read ++ [(name, .table entries)])) : name ∉ d.names ∧
      (Draft.mk d.table (name :: d.names) (some (name, entries)) .line).Holds
        (read ++ [(name, .table entries)]) := by
  have hbefore := Table.before_of_sorted hsorted
  constructor
  · intro hmem
    obtain ⟨e, he, hkey⟩ := h.names name hmem
    exact Table.ne_of_before (hbefore e he) hkey
  · refine ⟨?_, ?_⟩
    · show d.table.insert name (.table entries) = _
      rw [h.table_eq, Table.insert_eq_append hbefore]
    · intro other hother
      rcases List.mem_cons.mp hother with rfl | hother
      · exact ⟨_, List.mem_append_right _ List.mem_cons_self, rfl⟩
      · exact h.exists_entry _ other hother

/-- **Entries are read one behind the other.** Once a section was read, no
entry without tables may follow. -/
theorem readOn?_renderEntries : ∀ {t read : Table} {d : Draft} (first : Bool), d.Holds read →
    Table.Sorted (read ++ t) → (∀ e ∈ t, IsEntry e.2) → Table.KeysFirst t →
    (d.current = none ∨ ∀ e ∈ t, e.2.isKeyed = false) →
    (d.expecting .line).readOn? (renderEntries [] first t) = some (read ++ t)
  | [], read, d, first, hholds, _, _, _, _ => by
    have htext : renderEntries [] first [] = [] := by
      cases first <;> rfl
    rw [htext, List.append_nil, ← hholds.table_eq]
    rfl
  | (key, value) :: rest, read, d, first, hholds, hsorted, hentries, hkeys, hcurrent => by
    have hassoc : read ++ (key, value) :: rest = read ++ [(key, value)] ++ rest := by simp
    rw [hassoc] at hsorted ⊢
    have hlast : Table.Sorted (read ++ [(key, value)]) := (List.pairwise_append.mp hsorted).1
    obtain ⟨hbehind, hkeysRest⟩ := List.pairwise_cons.mp hkeys
    have hrest : ∀ e ∈ rest, IsEntry e.2 := fun e he => hentries e (List.mem_cons_of_mem _ he)
    rw [renderEntries_cons]
    rcases hentries (key, value) List.mem_cons_self with hinline | ⟨entries, rfl, hsection⟩
    -- behind a section it could not stand, as it is written behind its key
    · have hnone : d.current = none := by
        refine hcurrent.resolve_right fun hkeyed => ?_
        have hfalse := hkeyed (key, value) List.mem_cons_self
        rw [hinline.isKeyed_eq] at hfalse
        cases hfalse
      obtain ⟨next, hstore, hnext, hcurrent⟩ := hholds.exists_store hnone hlast
      rw [hinline.renderAt_entry, readOn?_line hinline, hstore, Option.bind_some]
      exact readOn?_renderEntries false hnext hsorted hrest hkeysRest (Or.inl hcurrent)
    -- a section holds a table, so nothing behind it is written behind a key
    · obtain ⟨hname, hnext⟩ := hholds.fill hlast
      rw [readOn?_section hsection hname]
      exact readOn?_renderEntries false hnext hsorted hrest hkeysRest
        (Or.inr fun e he => hbehind e he rfl)

end Draft

/-- What is read on from the start is what is read, without marks and line ends to drop. -/
theorem readPlain?_of_readOn? {text : Text} {t : Table} (h : Draft.empty.readOn? text = some t) :
    readPlain? text = some t := by
  unfold Draft.readOn? at h
  cases htokens : tokensFrom? .between text with
  | none => simp [htokens] at h
  | some tokens =>
    rw [htokens, Option.bind_some] at h
    rw [readPlain?, tokens?_of_tokensFrom? htokens]
    cases hrun : Draft.empty.run? tokens with
    | none => simp [hrun] at h
    | some draft => simpa [hrun] using h

/-- **What is written of a file reads back.** -/
theorem readPlain?_of_write? {t : Table} {text : Text} (h : IsFile t) (hw : write? t = some text) :
    readPlain? text = some t := by
  obtain ⟨hkeys, rfl⟩ := h.eq_of_write? hw
  have hempty : Draft.empty.Holds [] := ⟨rfl, by simp [Draft.empty]⟩
  exact readPlain?_of_readOn?
    (Draft.readOn?_renderEntries true hempty h.sorted h.isEntry hkeys (Or.inl rfl))

end Toml
end DiceTower
