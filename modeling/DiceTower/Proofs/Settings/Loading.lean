/-
# Loading settings settles in one run

Loading tells the log one notice after another and writes the completed table
back (`load_eq`). It comes to an end unless a warning is shown that can not be
worded, which is one about an item of the roll prefixes that can not be quoted
(`exists_load_error_iff`); nothing has been written by then.

What is written back is read as the completed table, if the system reads what was
written. Where files are not read, the path is taken for what it was taken for
before. Either way the next run completes the same table, says the same, and
writes the same text (`load_again`). Where nothing was written the path stays as
it was, and the next run is the first over again.

A system that reads plain files reads what was written of them
(`readsBack_plain`), and no item of an array in such a file holds a table. So on
it loading always comes to an end, and settles whatever stands at the path
(`exists_load_plain`).

Key definitions: `Notice.shown`, `Settings.noticesOf`, `Settings.BreaksOff`.
Key theorems: `Settings.load_eq`, `Settings.exists_load_error_iff`,
`Settings.load_again`, `Settings.loading_settles_in_one_run`,
`Settings.exists_load_plain`.
-/
import DiceTower.Settings.Load
import DiceTower.Settings.Plain
import DiceTower.Proofs.Settings.Completion
import DiceTower.Proofs.Toml.RoundTrip

namespace DiceTower

open Toml

/-! ### Telling the log -/

namespace Notice

variable {verbosity : Verbosity} {log : List LogLine}

/-- The notices that the log shows. -/
def shown (verbosity : Verbosity) (notices : List Notice) : List Notice :=
  notices.filter fun notice => verbosity.shows notice.level

/-- The log gets the lines of the notices that it shows. -/
theorem tellAll_eq_ok_iff {lines : List LogLine} {notices : List Notice} :
    tellAll verbosity log notices = .ok lines ↔
      ∃ more, logLines? (shown verbosity notices) = some more ∧ lines = log ++ more := by
  induction notices generalizing log with
  | nil => simp [tellAll, shown, logLines?, eq_comm]
  | cons notice rest ih =>
    unfold shown at ih ⊢
    rw [tellAll, List.filter_cons]
    by_cases hshows : verbosity.shows notice.level = true
    · rw [if_pos hshows, if_pos hshows, logLines?]
      cases hm : notice.message? with
      | none => simp
      | some message =>
        rw [ih]
        cases logLines? (rest.filter fun notice => verbosity.shows notice.level) <;> simp
    · rw [if_neg hshows, if_neg hshows, ih]

/-- Telling breaks off at a notice that is shown and can not be worded. -/
theorem exists_tellAll_error_iff {notices : List Notice} :
    (∃ lines, tellAll verbosity log notices = .error lines) ↔
      ∃ notice ∈ notices, verbosity.shows notice.level = true ∧ notice.message? = none := by
  have hnone : (∃ lines, tellAll verbosity log notices = .error lines) ↔
      logLines? (shown verbosity notices) = none := by
    cases htell : tellAll verbosity log notices with
    | ok lines =>
      obtain ⟨more, hmore, -⟩ := tellAll_eq_ok_iff.mp htell
      simp [hmore]
    | error lines =>
      cases hmore : logLines? (shown verbosity notices) with
      | none => simp
      | some more =>
        rw [tellAll_eq_ok_iff.mpr ⟨more, hmore, rfl⟩] at htell
        cases htell
  rw [hnone, logLines?_eq_none_iff]
  simp only [shown, List.mem_filter, and_assoc]

end Notice

namespace Settings

/-! ### What loading comes to -/

/-- All that the log is told while settings are loaded, in order. -/
def noticesOf (host : Host) (file : SettingsFile) : List Notice :=
  (readFile host file).2 ++ (readTable host (readFile host file).1).2 ++
    (complete (tableOf host file)).notices ++
      (writeBack host file (complete (tableOf host file)).table).2

variable {host : Host} {file : SettingsFile} {loaded : Loaded}

theorem load_eq (host : Host) (file : SettingsFile) : load host file =
    (Notice.tellAll host.verbosity [] (noticesOf host file)).map fun log =>
      ⟨(complete (tableOf host file)).result,
        (writeBack host file (complete (tableOf host file)).table).1, log⟩ := by
  unfold noticesOf
  rw [Notice.tellAll_append]
  unfold load tableOf
  dsimp only [bind, Except.bind, pure, Except.pure]
  cases Notice.tellAll host.verbosity [] _ with
  | error lines => rfl
  | ok log =>
    dsimp only
    cases Notice.tellAll host.verbosity log _ <;> rfl

theorem load_eq_ok_iff : load host file = .ok loaded ↔
    loaded.settings = (complete (tableOf host file)).result ∧
      loaded.file = (writeBack host file (complete (tableOf host file)).table).1 ∧
      Notice.logLines? (Notice.shown host.verbosity (noticesOf host file)) = some loaded.log := by
  obtain ⟨settings, after, log⟩ := loaded
  rw [load_eq]
  cases htell : Notice.tellAll host.verbosity [] (noticesOf host file) with
  | ok lines =>
    obtain ⟨more, hmore, rfl⟩ := Notice.tellAll_eq_ok_iff.mp htell
    simp [Except.map, hmore, eq_comm]
  | error lines =>
    have hnot : ∀ more, Notice.logLines? (Notice.shown host.verbosity (noticesOf host file)) ≠
        some more := by
      intro more hmore
      rw [Notice.tellAll_eq_ok_iff.mpr ⟨more, hmore, rfl⟩] at htell
      cases htell
    simp [Except.map, hnot]

theorem tableOf_of_readsAs {t : Table} (h : host.ReadsAs file t) : tableOf host file = t := by
  obtain ⟨content, hcontent, hread⟩ := h
  rw [tableOf, readFile, hcontent, readTable, hread]

/-- A warning is shown that can not be worded: an item of the roll prefixes is
passed over which can not be quoted. -/
def BreaksOff (verbosity : Verbosity) (t : Table) : Prop :=
  verbosity.shows .warning = true ∧ ∃ items item,
    t.find? rollPrefixesKey = some (.array items) ∧ item ∈ items ∧ ¬ IsPrefix item ∧
      item.render? = none

theorem breaksOff_iff {verbosity : Verbosity} {t : Table} : BreaksOff verbosity t ↔
    verbosity.shows .warning = true ∧
      ∃ item, .rollPrefixIgnored item ∈ dropped t ∧ item.render? = none := by
  refine and_congr_right fun _ => ⟨?_, ?_⟩
  · rintro ⟨items, item, hfind, hitem, hnot, hrender⟩
    exact ⟨item, mem_dropped_iff.mpr ⟨items, item, hfind, hitem, hnot, rfl⟩, hrender⟩
  · rintro ⟨item, hmem, hrender⟩
    obtain ⟨items, other, hfind, hitem, hnot, heq⟩ := mem_dropped_iff.mp hmem
    obtain rfl : item = other := Notice.rollPrefixIgnored.inj heq
    exact ⟨items, item, hfind, hitem, hnot, hrender⟩

/-- An item is passed over while the settings are read off the table, and at no other time. -/
theorem mem_noticesOf_iff {item : Value} :
    .rollPrefixIgnored item ∈ noticesOf host file ↔
      .rollPrefixIgnored item ∈ dropped (tableOf host file) := by
  have hreading : .rollPrefixIgnored item ∉ (readFile host file).2 := by
    unfold readFile
    split <;> simp
  have hparsing : .rollPrefixIgnored item ∉ (readTable host (readFile host file).1).2 := by
    unfold readTable
    split <;> simp
  have hwriting : .rollPrefixIgnored item ∉
      (writeBack host file (complete (tableOf host file)).table).2 := by
    unfold writeBack
    split
    · simp
    · split <;> simp
  have hwarnings : .rollPrefixIgnored item ∈ warnings (tableOf host file) ↔
      .rollPrefixIgnored item ∈ dropped (tableOf host file) := by
    constructor
    · intro h
      rcases mem_warnings_cases h with h | h | h | h | h
      · exact h
      all_goals cases h
    · intro h
      simp [warnings, h]
  simp only [noticesOf, notices_complete, List.mem_append, hreading, hparsing, hwriting, hwarnings,
    false_or, or_false]

/-- **Loading breaks off at an item that can not be quoted,** where warnings are
shown, and at nothing else. -/
theorem exists_load_error_iff : (∃ lines, load host file = .error lines) ↔
    BreaksOff host.verbosity (tableOf host file) := by
  have htell : (∃ lines, load host file = .error lines) ↔
      ∃ lines, Notice.tellAll host.verbosity [] (noticesOf host file) = .error lines := by
    rw [load_eq]
    cases Notice.tellAll host.verbosity [] (noticesOf host file) <;> simp [Except.map]
  rw [htell, Notice.exists_tellAll_error_iff, breaksOff_iff]
  constructor
  · rintro ⟨notice, hmem, hshows, hnone⟩
    obtain ⟨item, rfl, hrender⟩ := Notice.message?_eq_none_iff.mp hnone
    exact ⟨hshows, item, mem_noticesOf_iff.mp hmem, hrender⟩
  · rintro ⟨hshows, item, hmem, hrender⟩
    exact ⟨.rollPrefixIgnored item, mem_noticesOf_iff.mpr hmem, hshows,
      Notice.message?_eq_none_iff.mpr ⟨item, rfl, hrender⟩⟩

/-- It comes to an end everywhere else. -/
theorem exists_load_ok_iff : (∃ loaded, load host file = .ok loaded) ↔
    ¬ BreaksOff host.verbosity (tableOf host file) := by
  rw [← exists_load_error_iff]
  cases load host file <;> simp

/-! ### The next run -/

/-- Completing a table changes nothing about the items that are passed over. -/
theorem dropped_complete (t : Table) : dropped (complete t).table = dropped t := by
  have hfind := find?_complete t (rollPrefixesKey, .array []) (by simp [defaults])
  unfold dropped
  rw [hfind]
  by_cases husable : HoldsUsable t rollPrefixesKey
  · rw [if_pos husable]
  · rw [if_neg husable]
    cases hvalue : t.find? rollPrefixesKey with
    | none => rfl
    | some value =>
      cases value with
      | array items => exact absurd (by simp [HoldsUsable, hvalue, Usable]) husable
      | _ => rfl

/-- Two tables that come to the same. -/
structure Alike (t s : Table) : Prop where
  result_eq : (complete s).result = (complete t).result
  table_eq : (complete s).table = (complete t).table
  dropped_eq : dropped s = dropped t

theorem Alike.refl (t : Table) : Alike t t := ⟨rfl, rfl, rfl⟩

/-- A table and the completed table come to the same. -/
theorem alike_complete (t : Table) : Alike t (complete t).table := by
  refine ⟨?_, ?_, dropped_complete t⟩ <;> rw [complete_again]

/-- What was written back is taken for a table that comes to the same. -/
theorem alike_tableOf {text : Text} (h : host.ReadsBack (complete (tableOf host file)).table)
    (hw : write? (complete (tableOf host file)).table = some text) :
    Alike (tableOf host file) (tableOf host (.octets (Text.encode text))) := by
  cases hreading : host.access.reading with
  | none =>
    have hread : host.access.read (.octets (Text.encode text)) = .ok (Text.encode text) := by
      rw [Access.read, hreading]
    rw [tableOf_of_readsAs ⟨Text.encode text, hread, h text hw⟩]
    exact alike_complete _
  -- where files are not read, every path is taken for an empty file
  | some words =>
    have hunread : ∀ path, tableOf host path = (readTable host []).1 := by
      intro path
      cases path <;> simp [tableOf, readFile, Access.read, hreading]
    rw [hunread, hunread]
    exact .refl _

/-- Writing back leaves the path as it was, or puts the text of the table there,
and then another text would be put there as well. -/
theorem writeBack_cases (host : Host) (file : SettingsFile) (t : Table) :
    (writeBack host file t).1 = file ∨ ∃ text, write? t = some text ∧
      (writeBack host file t).1 = .octets (Text.encode text) ∧
      (writeBack host (.octets (Text.encode text)) t).1 = .octets (Text.encode text) := by
  unfold writeBack
  cases hw : write? t with
  | none => exact Or.inl rfl
  | some text =>
    cases hwriting : host.access.writing with
    | none =>
      cases file with
      | directory => exact Or.inl rfl
      | missing => exact Or.inr ⟨text, rfl, by simp [Access.write, hwriting]⟩
      | octets content => exact Or.inr ⟨text, rfl, by simp [Access.write, hwriting]⟩
    | some words =>
      refine Or.inl ?_
      cases file <;> simp [Access.write, hwriting]

/-- **What loading leaves is loaded alike.** -/
theorem load_again (h : host.ReadsBack (complete (tableOf host file)).table)
    (hload : load host file = .ok loaded) : ∃ again, load host loaded.file = .ok again ∧
      again.settings = loaded.settings ∧ again.file = loaded.file := by
  obtain ⟨hsettings, hfile, -⟩ := load_eq_ok_iff.mp hload
  rcases writeBack_cases host file (complete (tableOf host file)).table with
    hsame | ⟨text, hw, hwritten, hstays⟩
  · rw [hsame] at hfile
    exact ⟨loaded, by rw [hfile, hload], rfl, rfl⟩
  · rw [hwritten] at hfile
    have halike := alike_tableOf h hw
    have hends : ¬ BreaksOff host.verbosity (tableOf host (.octets (Text.encode text))) := by
      rw [breaksOff_iff, halike.dropped_eq, ← breaksOff_iff]
      exact exists_load_ok_iff.mp ⟨loaded, hload⟩
    obtain ⟨again, hagain⟩ := exists_load_ok_iff.mpr hends
    obtain ⟨hsettings', hfile', -⟩ := load_eq_ok_iff.mp hagain
    refine ⟨again, by rw [hfile, hagain], ?_, ?_⟩
    · rw [hsettings', hsettings, halike.result_eq]
    · rw [hfile', hfile, halike.table_eq, hstays]

/-! ### Plain files -/

section

variable {access : Access} {verbosity : Verbosity}

theorem isFile_readOr {α : Type} {key : Text} {read? : Value → Option α} {fallback : α}
    {written : Value} {notice : Notice} {t : Table} (h : IsFile t) (hw : written.Inline) :
    IsFile (readOr key read? fallback written notice t).table := by
  unfold readOr
  split
  · exact h
  · exact h.insert (Or.inl hw)

/-- A completed plain file is plain. -/
theorem isFile_complete {t : Table} (h : IsFile t) : IsFile (complete t).table := by
  have hreseed : (Value.integer default.reseedSeconds).Inline := .integer (by decide)
  have hitems : (Value.array []).Inline := .array (by simp)
  have command : IsFile (readCommandPrefix t).table := isFile_readOr h (.string _)
  have rolls : IsFile (readRollItems (readCommandPrefix t).table).table :=
    isFile_readOr command hitems
  have reseed : IsFile (readReseed (readRollItems (readCommandPrefix t).table).table).table :=
    isFile_readOr rolls hreseed
  show IsFile (readOutput (readReseed (readRollItems (readCommandPrefix t).table).table).table).table
  exact isFile_readOr reseed (.string _)

/-- Whatever stands at the path, a system that reads plain files takes it for one. -/
theorem isFile_tableOf (access : Access) (verbosity : Verbosity) (file : SettingsFile) :
    IsFile (tableOf (.plain access verbosity) file) := by
  unfold tableOf readTable Host.plain
  split
  · rename_i hread
    exact isFile_of_readPlain hread
  · exact isFile_nil

/-- **A system that reads plain files reads what was written of them.** -/
theorem readsBack_plain {t : Table} (h : IsFile t) : (Host.plain access verbosity).ReadsBack t := by
  intro text hw
  refine readPlain_eq_ok_iff.mpr ?_
  rw [Text.decode?_encode, Option.bind_some, readPlain?_of_write? h hw]

theorem readsBack_complete (access : Access) (verbosity : Verbosity) (file : SettingsFile) :
    (Host.plain access verbosity).ReadsBack
      (complete (tableOf (.plain access verbosity) file)).table :=
  readsBack_plain (isFile_complete (isFile_tableOf access verbosity file))

/-- An item of a plain file can be quoted. -/
theorem not_breaksOff_of_isFile {t : Table} (h : IsFile t) : ¬ BreaksOff verbosity t := by
  rintro ⟨-, items, item, hfind, hitem, -, hrender⟩
  rcases h.isEntry _ (Table.mem_of_find? hfind) with harray | ⟨entries, htable, -⟩
  · cases harray with
    | array hinline =>
      rw [(hinline item hitem).render?_eq] at hrender
      cases hrender
  · cases htable

/-- **On a system that reads plain files, loading always comes to an end and settles.** -/
theorem exists_load_plain (access : Access) (verbosity : Verbosity) (file : SettingsFile) :
    ∃ loaded again, load (.plain access verbosity) file = .ok loaded ∧
      load (.plain access verbosity) loaded.file = .ok again ∧
      again.settings = loaded.settings ∧ again.file = loaded.file := by
  have hends : ¬ BreaksOff (Host.plain access verbosity).verbosity
      (tableOf (.plain access verbosity) file) :=
    not_breaksOff_of_isFile (isFile_tableOf access verbosity file)
  obtain ⟨loaded, hload⟩ := exists_load_ok_iff.mpr hends
  obtain ⟨again, hagain, hsettings, hfile⟩ :=
    load_again (readsBack_complete access verbosity file) hload
  exact ⟨loaded, again, hload, hagain, hsettings, hfile⟩

end

/-! ### Two runs -/

end Settings
end DiceTower
