/-
# Where the defaults are written back

The completed table of a file that can be read is in the order of its keys, like
the table that was read (`sorted_complete`). So it is written back exactly if it is
orderly: no entry that is written behind its key, as the four settings are, may come
behind one that holds a table. What stands at the path then reads as the completed
table (`readsAs_load`). Any other file stays as it is, without the defaults, on
every run (`load_of_not_orderly`). It holds the completed table only if it was
complete before (`complete_table_of_usable`).

Key theorems: `Settings.sorted_complete`, `Settings.readsAs_load`,
`Settings.load_of_not_orderly`, `Settings.defaults_are_written_back`.
-/
import DiceTower.Proofs.Settings.Loading
import DiceTower.Proofs.Toml.Writable

namespace DiceTower

open Toml

/-- The log has the line of each notice. -/
theorem Notice.mem_of_logLines? {notice : Notice} {message : Text}
    (hmessage : notice.message? = some message) : ∀ {notices : List Notice}
      {lines : List (Level × Text)}, logLines? notices = some lines → notice ∈ notices →
      (notice.level, message) ∈ lines
  | [], _, _, hmem => absurd hmem List.not_mem_nil
  | other :: rest, lines, h, hmem => by
    rw [logLines?] at h
    cases hother : other.message? with
    | none => simp [hother] at h
    | some words =>
      cases hrest : logLines? rest with
      | none => simp [hother, hrest] at h
      | some others =>
        rw [hother, hrest] at h
        obtain rfl : (other.level, words) :: others = lines := Option.some.inj h
        rcases List.mem_cons.mp hmem with rfl | hmem
        · obtain rfl : message = words := Option.some.inj (hmessage.symm.trans hother)
          exact List.mem_cons_self
        · exact List.mem_cons_of_mem _ (mem_of_logLines? hmessage hrest hmem)

/-- Only a file is read, and any file is read alike. -/
theorem Access.read_eq_ok_iff {access : Access} {file : SettingsFile} {content : List UInt8} :
    access.read file = .ok content ↔ file = .octets content ∧ access.reading = none := by
  cases file with
  | missing => simp [Access.read]
  | directory => simp [Access.read]
  | octets found =>
    cases hreading : access.reading <;> simp [Access.read, hreading]

namespace Settings

/-! ### The entries of a completed table -/

/-- Each of the four entries is usable afterwards. -/
theorem holdsUsable_complete (t : Table) {key : Text} (h : key ∈ defaults.map Prod.fst) :
    HoldsUsable (complete t).table key := by
  have hdefaults : ∀ entry ∈ defaults, Usable entry.1 entry.2 := by decide
  obtain ⟨entry, hmem, rfl⟩ := List.mem_map.mp h
  have hfind := find?_complete t entry hmem
  unfold HoldsUsable
  by_cases husable : HoldsUsable t entry.1
  · obtain ⟨value, hvalue, hu⟩ := husable.exists_find?
    rw [if_pos husable, hvalue] at hfind
    rw [hfind]
    exact hu
  · rw [if_neg husable] at hfind
    rw [hfind]
    exact hdefaults entry hmem

/-- A table with four usable entries is complete. -/
theorem complete_table_of_usable {t : Table}
    (h : ∀ key ∈ defaults.map Prod.fst, HoldsUsable t key) : (complete t).table = t := by
  have hkeep : ∀ {α : Type} {key : Text} {read? : Value → Option α} {fallback : α}
      {written : Value} {notice : Notice}, Reads key read? fallback written →
      key ∈ defaults.map Prod.fst → (readOr key read? fallback written notice t).table = t := by
    intro α key read? fallback written notice hr hmem
    obtain ⟨a, value, -, -, heq⟩ := readOr_of_usable notice hr (h key hmem)
    rw [heq]
  have command : (readCommandPrefix t).table = t := hkeep reads_commandPrefix (by decide)
  have rolls : (readRollItems t).table = t := hkeep reads_rollPrefixes (by decide)
  have reseed : (readReseed t).table = t := hkeep reads_reseed (by decide)
  have output : (readOutput t).table = t := hkeep reads_output (by decide)
  show (readOutput (readReseed (readRollItems (readCommandPrefix t).table).table).table).table = t
  rw [command, rolls, reseed, output]

theorem sorted_readOr {α : Type} {key : Text} {read? : Value → Option α} {fallback : α}
    {written : Value} {notice : Notice} {t : Table} (h : t.Sorted) :
    (readOr key read? fallback written notice t).table.Sorted := by
  unfold readOr
  split
  · exact h
  · exact Table.sorted_insert h

/-- A completed table is in the order of its keys if the table was. -/
theorem sorted_complete {t : Table} (h : t.Sorted) : (complete t).table.Sorted := by
  show (readOutput (readReseed (readRollItems (readCommandPrefix t).table).table).table).table.Sorted
  exact sorted_readOr (sorted_readOr (sorted_readOr (sorted_readOr h)))

/-! ### Writing back -/

variable {host : Host} {file : SettingsFile} {t : Table} {loaded : Loaded}

theorem sorted_of_readsAs (h : host.ReadsAs file t) : t.Sorted := by
  obtain ⟨content, -, hread⟩ := h
  exact host.sorted hread

theorem eq_of_readsAs {other : Table} (h : host.ReadsAs file t) (hother : host.ReadsAs file other) :
    t = other :=
  (tableOf_of_readsAs h).symm.trans (tableOf_of_readsAs hother)

/-- If the completed table is orderly, the file holds it afterwards. -/
theorem readsAs_load (h : host.ReadsAs file t) (hwriting : host.access.writing = none)
    (hback : host.ReadsBack (complete t).table) (hload : load host file = .ok loaded)
    (horderly : (complete t).table.Orderly) : host.ReadsAs loaded.file (complete t).table := by
  have hsorted := sorted_complete (sorted_of_readsAs h)
  obtain ⟨text, hw⟩ :=
    Option.isSome_iff_exists.mp ((isSome_write?_iff_orderly hsorted).mpr horderly)
  obtain ⟨-, hfile, -⟩ := load_eq_ok_iff.mp hload
  obtain ⟨content, hcontent, hread⟩ := h
  obtain ⟨rfl, hreading⟩ := Access.read_eq_ok_iff.mp hcontent
  rw [tableOf_of_readsAs ⟨content, hcontent, hread⟩] at hfile
  simp only [writeBack, hw, Access.write, hwriting] at hfile
  exact ⟨Text.encode text, Access.read_eq_ok_iff.mpr ⟨hfile, hreading⟩, hback text hw⟩

/-- If it is not, the file stays as it is, and the log is told. -/
theorem load_of_not_orderly (h : host.ReadsAs file t) (hload : load host file = .ok loaded)
    (hnot : ¬ (complete t).table.Orderly) : loaded.file = file ∧
      (host.verbosity.shows .error = true → (.error,
        "Error serializing config: values must be emitted before tables".toList) ∈ loaded.log) := by
  rw [← isSome_write?_iff_orderly (sorted_complete (sorted_of_readsAs h))] at hnot
  have hw : write? (complete t).table = none := Option.not_isSome_iff_eq_none.mp hnot
  obtain ⟨-, hfile, hlog⟩ := load_eq_ok_iff.mp hload
  have hwriting : writeBack host file (complete t).table = (file, [.unserializable]) := by
    rw [writeBack, hw]
  rw [tableOf_of_readsAs h, hwriting] at hfile
  refine ⟨hfile, fun hshows => ?_⟩
  have htold : .unserializable ∈ noticesOf host file := by
    rw [noticesOf, tableOf_of_readsAs h, hwriting]
    exact List.mem_append_right _ (List.mem_singleton.mpr rfl)
  have hmessage : Notice.unserializable.message? =
      some "Error serializing config: values must be emitted before tables".toList := rfl
  exact Notice.mem_of_logLines? hmessage hlog (List.mem_filter.mpr ⟨htold, hshows⟩)

/-- **Where the defaults are written back.** Of a file that can be read and
written, the completed table has four usable entries, and every other entry and
each usable one is as it was. When loading comes to an end and this table is
orderly, the file holds it afterwards. If the table is not, the file stays as it
is, and the log is told. So the file holds the completed table exactly if that is
orderly or there was nothing to fill in. -/
theorem defaults_are_written_back (h : host.ReadsAs file t)
    (hwriting : host.access.writing = none) (hback : host.ReadsBack (complete t).table) :
    (∀ key ∈ defaults.map Prod.fst, HoldsUsable (complete t).table key) ∧
    (∀ key, key ∉ defaults.map Prod.fst ∨ HoldsUsable t key →
      (complete t).table.find? key = t.find? key) ∧
    ((∃ log, load host file = .error log) ↔ BreaksOff host.verbosity t) ∧
    ∀ loaded, load host file = .ok loaded →
      ((complete t).table.Orderly → host.ReadsAs loaded.file (complete t).table) ∧
      (¬ (complete t).table.Orderly → loaded.file = file ∧
        (host.verbosity.shows .error = true → (.error,
          "Error serializing config: values must be emitted before tables".toList) ∈ loaded.log)) ∧
      (host.ReadsAs loaded.file (complete t).table ↔
        (complete t).table.Orderly ∨ ∀ key ∈ defaults.map Prod.fst, HoldsUsable t key) := by
  have hbreaks : (∃ log, load host file = .error log) ↔ BreaksOff host.verbosity t := by
    rw [exists_load_error_iff, tableOf_of_readsAs h]
  refine ⟨fun key => holdsUsable_complete t, (normal_complete t).kept, hbreaks,
    fun loaded hload => ⟨readsAs_load h hwriting hback hload, load_of_not_orderly h hload, ?_⟩⟩
  by_cases horderly : (complete t).table.Orderly
  · exact iff_of_true (readsAs_load h hwriting hback hload horderly) (Or.inl horderly)
  · rw [(load_of_not_orderly h hload horderly).1, or_iff_right horderly]
    constructor
    · intro hcompleted key hmem
      rw [eq_of_readsAs h hcompleted]
      exact holdsUsable_complete t hmem
    · intro husable
      rw [complete_table_of_usable husable]
      exact h

/-- A file with a comment, one setting that is kept and one that is not usable,
and a section behind them. -/
def zonesFile : SettingsFile := .octets (Text.encode
  "output = 'json' # for pipes\nroll_prefixes = 1\n[zones]\nx = [1, '#']\n".toList)

theorem defaults_are_written_back_before_zones :
    let host := Host.plain .granted .errors
    ∃ t loaded, host.ReadsAs zonesFile t ∧ host.access.writing = none ∧
      host.ReadsBack (complete t).table ∧ load host zonesFile = .ok loaded ∧
      (complete t).table.Orderly ∧ host.ReadsAs loaded.file (complete t).table := by
  intro host
  let t : Table := [("output".toList, .string "json".toList), ("roll_prefixes".toList, .integer 1),
    ("zones".toList, .table [("x".toList, .array [.integer 1, .string "#".toList])])]
  have h : host.ReadsAs zonesFile t := ⟨_, rfl, rfl⟩
  have hback : host.ReadsBack (complete t).table := by
    rw [← tableOf_of_readsAs h]
    exact readsBack_complete .granted .errors zonesFile
  obtain ⟨loaded, -, hload, -⟩ := exists_load_plain .granted .errors zonesFile
  have horderly : (complete t).table.Orderly :=
    (isSome_write?_iff_orderly (sorted_complete (sorted_of_readsAs h))).mp rfl
  exact ⟨t, loaded, h, rfl, hback, hload, horderly,
    ((defaults_are_written_back h rfl hback).2.2.2 loaded hload).1 horderly⟩

/-- A file of one section, whose name comes in front of three of the settings. -/
def extraFile : SettingsFile := .octets (Text.encode "[extra]\nx = 1\n".toList)

/-- It stays as it is and has no output format, so it does not hold the completed
table, though it can be read and written and what is written of it reads back. -/
theorem defaults_not_written_back :
    let host := Host.plain .granted .errors
    ∃ t loaded, host.ReadsAs extraFile t ∧ host.access.writing = none ∧
      host.ReadsBack (complete t).table ∧ load host extraFile = .ok loaded ∧
      ¬ HoldsUsable t outputKey ∧ loaded.file = extraFile ∧
      ¬ host.ReadsAs loaded.file (complete t).table := by
  intro host
  let t : Table := [("extra".toList, .table [("x".toList, .integer 1)])]
  have h : host.ReadsAs extraFile t := ⟨_, rfl, rfl⟩
  have hback : host.ReadsBack (complete t).table := by
    rw [← tableOf_of_readsAs h]
    exact readsBack_complete .granted .errors extraFile
  obtain ⟨loaded, -, hload, -⟩ := exists_load_plain .granted .errors extraFile
  have hnot : ¬ (complete t).table.Orderly := by
    rw [← isSome_write?_iff_orderly (sorted_complete (sorted_of_readsAs h))]
    decide
  have hmissing : ¬ HoldsUsable t outputKey := by decide
  have hsame := (load_of_not_orderly h hload hnot).1
  refine ⟨t, loaded, h, rfl, hback, hload, hmissing, hsame, ?_⟩
  rw [hsame]
  intro hcompleted
  rw [eq_of_readsAs h hcompleted] at hmissing
  exact hmissing (holdsUsable_complete t (by decide))

end Settings
end DiceTower
