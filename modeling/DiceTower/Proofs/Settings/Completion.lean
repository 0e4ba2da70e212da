/-
# Settings in normal form

Each of the four settings is read from its own entry, so the entry decides
alone: a usable one stays as it is and says what the setting is, and any other
is replaced by the default, with one notice (`Settings.readOr_of_usable`,
`Settings.readOr_of_not_usable`). Only the items of the roll prefixes are
passed over one by one, with a notice each, and stay in the table.

A completed table has four usable entries. Completing it again gives the same
settings, changes nothing, and repeats the notices about passed-over items
only (`Settings.complete_again`).

A notice about an item quotes it, and an item in which a plain value would
have to stand behind a table can not be quoted. Where the log shows warnings,
completion then breaks off, and at such items only
(`Settings.outcome?_eq_none_iff`).

Key definitions: `Settings.Usable`, `Settings.HoldsUsable`,
`Settings.warnings`, `Settings.Normal`, `Settings.outcome?`.
Key theorems: `Settings.complete_again`, `Settings.normal_complete`,
`Settings.completion_is_normal`.
-/
import DiceTower.Settings.Complete

namespace DiceTower

open Toml

/-! ### The words of several notices -/

namespace Notice

/-- Notices are worded together unless one of them has no words. -/
theorem logLines?_eq_none_iff : ∀ {notices : List Notice},
    logLines? notices = none ↔ ∃ notice ∈ notices, notice.message? = none
  | [] => by simp [logLines?]
  | notice :: rest => by
    have ih := @logLines?_eq_none_iff rest
    rw [logLines?]
    cases hm : notice.message? with
    | none => simp [hm]
    | some message =>
      cases hr : logLines? rest with
      | none =>
        obtain ⟨other, hmem, hother⟩ := ih.mp hr
        simp only [true_iff]
        exact ⟨other, List.mem_cons_of_mem _ hmem, hother⟩
      | some lines =>
        have hworded : ∀ other ∈ rest, other.message? ≠ none := by
          intro other hmem hother
          have hnone := ih.mpr ⟨other, hmem, hother⟩
          rw [hr] at hnone
          cases hnone
        simpa [hm] using hworded

/-- Only a notice that quotes an item can lack words. -/
theorem message?_eq_none_iff {notice : Notice} : notice.message? = none ↔
    ∃ item, notice = .rollPrefixIgnored item ∧ item.render? = none := by
  cases notice with
  | rollPrefixIgnored item => simp [message?]
  | _ => simp [message?]

/-- Each line of the log has the level of its notice. -/
theorem map_level_of_logLines? : ∀ {notices : List Notice} {lines : List (Level × Text)},
    logLines? notices = some lines → lines.map Prod.fst = notices.map level
  | [], lines, h => by
    obtain rfl : [] = lines := Option.some.inj h
    rfl
  | notice :: rest, lines, h => by
    rw [logLines?] at h
    cases hm : notice.message? with
    | none => simp [hm] at h
    | some message =>
      cases hr : logLines? rest with
      | none => simp [hm, hr] at h
      | some others =>
        rw [hm, hr] at h
        obtain rfl : (notice.level, message) :: others = lines := Option.some.inj h
        rw [List.map_cons, List.map_cons, map_level_of_logLines? hr]

end Notice

namespace Settings

/-! ### Usable entries -/

/-- The value is a string that may be used as a prefix. -/
def IsPrefix : Value → Prop
  | .string text => IsUsablePrefix text
  | _ => False

instance (value : Value) : Decidable (IsPrefix value) := by
  unfold IsPrefix
  cases value <;> infer_instance

/-- The setting of the key can be read from the value. -/
def Usable (key : Text) : Value → Prop
  | .string text => key = commandPrefixKey ∧ IsUsablePrefix text ∨
      key = outputKey ∧ (text = "text".toList ∨ text = "json".toList)
  | .array _ => key = rollPrefixesKey
  | .integer n => key = reseedKey ∧ 0 ≤ n
  | _ => False

instance (key : Text) (value : Value) : Decidable (Usable key value) := by
  unfold Usable
  cases value <;> infer_instance

/-- The table has an entry of the key from which the setting can be read. -/
def HoldsUsable (t : Table) (key : Text) : Prop :=
  match t.find? key with
  | some value => Usable key value
  | none => False

instance (t : Table) (key : Text) : Decidable (HoldsUsable t key) := by
  unfold HoldsUsable
  cases t.find? key <;> infer_instance

/-- The four settings' keys with their defaults, in the order of reading. -/
def defaults : List (Text × Value) :=
  [(commandPrefixKey, .string "!".toList), (rollPrefixesKey, .array []),
    (reseedKey, .integer 300), (outputKey, .string "text".toList)]

/-! ### The expected notices -/

/-- The notice about a key, if its entry is replaced or added. -/
def overwritten (t : Table) (key : Text) (notice : Notice) : List Notice :=
  if HoldsUsable t key then [] else [notice]

/-- A notice for each item of the roll prefixes that is no prefix, in order. -/
def dropped (t : Table) : List Notice :=
  match t.find? rollPrefixesKey with
  | some (.array items) => (items.filter fun item => ¬ IsPrefix item).map Notice.rollPrefixIgnored
  | _ => []

/-- All notices about a table, in order. -/
def warnings (t : Table) : List Notice :=
  overwritten t commandPrefixKey .commandPrefixReplaced ++
    (overwritten t rollPrefixesKey .rollPrefixesReplaced ++ dropped t) ++
    overwritten t reseedKey .reseedReplaced ++ overwritten t outputKey .outputReplaced

/-- The strings among the items of the roll prefixes that may be used as prefixes. -/
def listedPrefixes (t : Table) : List Text :=
  match t.find? rollPrefixesKey with
  | some (.array items) => (items.filterMap Value.string?).filter fun text => IsUsablePrefix text
  | _ => []

/-- The settings are those of the table, and the completed table differs from
it by the defaults alone. -/
structure Normal (t : Table) (settings : Settings) (completed : Table) : Prop where
  commandPrefix_usable : IsUsablePrefix settings.commandPrefix
  rollPrefixes_usable : ∀ lead ∈ settings.rollPrefixes, IsUsablePrefix lead
  rollPrefixes_eq : settings.rollPrefixes = listedPrefixes t
  /-- Other entries and usable ones stay. -/
  kept : ∀ key, key ∉ defaults.map Prod.fst ∨ HoldsUsable t key →
    completed.find? key = t.find? key
  /-- Missing and unusable entries are filled in. -/
  filled : ∀ entry ∈ defaults, ¬ HoldsUsable t entry.1 → completed.find? entry.1 = some entry.2
  /-- The completed table says what the settings are. -/
  commandPrefix_written : completed.find? commandPrefixKey = some (.string settings.commandPrefix)
  reseed_written : completed.find? reseedKey = some (.integer settings.reseedSeconds)
  output_written : completed.find? outputKey = some (.string settings.output.name)

/-! ### One entry -/

section

variable {α : Type} {key : Text} {read? : Value → Option α} {fallback : α} {written : Value}
  {notice : Notice} {t : Table}

/-- What is read from the values of a key: something from the usable ones, and
the default from the value that is written for it. -/
structure Reads (key : Text) (read? : Value → Option α) (fallback : α) (written : Value) : Prop where
  isSome_iff : ∀ value, (read? value).isSome = true ↔ Usable key value
  written_eq : read? written = some fallback

theorem HoldsUsable.exists_find? (h : HoldsUsable t key) :
    ∃ value, t.find? key = some value ∧ Usable key value := by
  unfold HoldsUsable at h
  cases hf : t.find? key with
  | none => rw [hf] at h; exact h.elim
  | some value => rw [hf] at h; exact ⟨value, rfl, h⟩

/-- A usable entry is read, and the table stays as it is. -/
theorem readOr_of_usable (notice : Notice) (hr : Reads key read? fallback written)
    (h : HoldsUsable t key) :
    ∃ a value, t.find? key = some value ∧ read? value = some a ∧
      readOr key read? fallback written notice t = ⟨a, t, []⟩ := by
  obtain ⟨value, hf, husable⟩ := h.exists_find?
  obtain ⟨a, ha⟩ := Option.isSome_iff_exists.mp ((hr.isSome_iff value).mpr husable)
  refine ⟨a, value, hf, ha, ?_⟩
  unfold readOr
  rw [hf, Option.bind_some, ha]

/-- Any other entry is replaced by the default, with a notice. -/
theorem readOr_of_not_usable (hr : Reads key read? fallback written) (h : ¬ HoldsUsable t key) :
    readOr key read? fallback written notice t =
      ⟨fallback, t.insert key written, [notice]⟩ := by
  have hnone : (t.find? key).bind read? = none := by
    cases hf : t.find? key with
    | none => rfl
    | some value =>
      have hvalue : ¬ Usable key value := by
        simpa [HoldsUsable, hf] using h
      rw [← hr.isSome_iff, Bool.not_eq_true, Option.isSome_eq_false_iff, Option.isNone_iff_eq_none]
        at hvalue
      rw [Option.bind_some, hvalue]
  unfold readOr
  rw [hnone]

theorem notices_readOr (hr : Reads key read? fallback written) :
    (readOr key read? fallback written notice t).notices = overwritten t key notice := by
  unfold overwritten
  by_cases h : HoldsUsable t key
  · obtain ⟨a, value, -, -, heq⟩ := readOr_of_usable notice hr h
    rw [heq, if_pos h]
  · rw [readOr_of_not_usable hr h, if_neg h]

/-- The entry of the key afterwards stands for what was read. -/
theorem exists_find?_readOr (notice : Notice) (t : Table)
    (hr : Reads key read? fallback written) : ∃ value,
    (readOr key read? fallback written notice t).table.find? key = some value ∧
      read? value = some (readOr key read? fallback written notice t).result := by
  by_cases h : HoldsUsable t key
  · obtain ⟨a, value, hf, ha, heq⟩ := readOr_of_usable notice hr h
    rw [heq]
    exact ⟨value, hf, ha⟩
  · rw [readOr_of_not_usable hr h]
    exact ⟨written, Table.find?_insert_self key written t, hr.written_eq⟩

/-- A usable entry stays. -/
theorem find?_readOr_of_usable (hr : Reads key read? fallback written) (h : HoldsUsable t key) :
    (readOr key read? fallback written notice t).table.find? key = t.find? key := by
  obtain ⟨a, value, -, -, heq⟩ := readOr_of_usable notice hr h
  rw [heq]

/-- Any other entry becomes the default. -/
theorem find?_readOr_of_not_usable (hr : Reads key read? fallback written)
    (h : ¬ HoldsUsable t key) :
    (readOr key read? fallback written notice t).table.find? key = some written := by
  rw [readOr_of_not_usable hr h]
  exact Table.find?_insert_self key written t

/-- Only the entry of the key has a say. -/
theorem readOr_congr {other : Table} (h : other.find? key = t.find? key) :
    (readOr key read? fallback written notice other).result =
        (readOr key read? fallback written notice t).result ∧
      (readOr key read? fallback written notice other).notices =
        (readOr key read? fallback written notice t).notices ∧
      (readOr key read? fallback written notice other).table.find? key =
        (readOr key read? fallback written notice t).table.find? key := by
  unfold readOr
  rw [h]
  cases (t.find? key).bind read? with
  | some a => exact ⟨rfl, rfl, h⟩
  | none => exact ⟨rfl, rfl, by rw [Table.find?_insert_self, Table.find?_insert_self]⟩

/-- What was read is read again from every table with the same entry. -/
theorem readOr_again (hr : Reads key read? fallback written) {other : Table}
    (h : other.find? key = (readOr key read? fallback written notice t).table.find? key) :
    readOr key read? fallback written notice other =
      ⟨(readOr key read? fallback written notice t).result, other, []⟩ := by
  obtain ⟨value, hf, ha⟩ := exists_find?_readOr notice t hr
  rw [readOr, h, hf, Option.bind_some, ha]

end

/-! ### The four readers -/

theorem prefixOf?_eq_some_iff {value : Value} {lead : Text} :
    prefixOf? value = some lead ↔ value = .string lead ∧ IsUsablePrefix lead := by
  cases value with
  | string text =>
    by_cases h : IsUsablePrefix text
    · simp only [prefixOf?, if_pos h, Option.some.injEq, Value.string.injEq]
      constructor
      · rintro rfl
        exact ⟨rfl, h⟩
      · exact And.left
    · simp only [prefixOf?, if_neg h, reduceCtorEq, Value.string.injEq, false_iff, not_and]
      rintro rfl
      exact h
  | _ => simp [prefixOf?]

theorem isSome_prefixOf?_iff (value : Value) : (prefixOf? value).isSome = true ↔ IsPrefix value := by
  cases value with
  | string text =>
    simp only [prefixOf?, IsPrefix, Option.isSome_ite]
  | _ => simp [prefixOf?, IsPrefix]

theorem usable_commandPrefix_iff (value : Value) : Usable commandPrefixKey value ↔ IsPrefix value := by
  have hrolls : commandPrefixKey ≠ rollPrefixesKey := by decide
  have hreseed : commandPrefixKey ≠ reseedKey := by decide
  have houtput : commandPrefixKey ≠ outputKey := by decide
  cases value <;> simp [IsPrefix, Usable, hrolls, hreseed, houtput]

theorem usable_rollPrefixes_iff (value : Value) :
    Usable rollPrefixesKey value ↔ ∃ items, value = .array items := by
  have hcommand : rollPrefixesKey ≠ commandPrefixKey := by decide
  have hreseed : rollPrefixesKey ≠ reseedKey := by decide
  have houtput : rollPrefixesKey ≠ outputKey := by decide
  cases value <;> simp [Usable, hcommand, hreseed, houtput]

theorem usable_reseed_iff (value : Value) :
    Usable reseedKey value ↔ ∃ n : Nat, value = .integer n := by
  have hcommand : reseedKey ≠ commandPrefixKey := by decide
  have hrolls : reseedKey ≠ rollPrefixesKey := by decide
  have houtput : reseedKey ≠ outputKey := by decide
  cases value with
  | integer n =>
    simp only [Usable, true_and, Value.integer.injEq]
    exact ⟨Int.eq_ofNat_of_zero_le, fun ⟨m, hm⟩ => by omega⟩
  | _ => simp [Usable, hcommand, hrolls, houtput]

theorem usable_output_iff (value : Value) :
    Usable outputKey value ↔ ∃ format : OutputFormat, value = .string format.name := by
  have hcommand : outputKey ≠ commandPrefixKey := by decide
  have hrolls : outputKey ≠ rollPrefixesKey := by decide
  have hreseed : outputKey ≠ reseedKey := by decide
  cases value with
  | string text =>
    simp only [Usable, hcommand, false_and, true_and, false_or, Value.string.injEq]
    constructor
    · rintro (rfl | rfl)
      · exact ⟨.text, rfl⟩
      · exact ⟨.json, rfl⟩
    · rintro ⟨format, rfl⟩
      cases format with
      | text => exact Or.inl rfl
      | json => exact Or.inr rfl
  | _ => simp [Usable, hrolls, hreseed]

theorem outputOf?_name (format : OutputFormat) :
    outputOf? (.string format.name) = some format := by
  cases format <;> decide

theorem outputOf?_eq_some_iff {value : Value} {format : OutputFormat} :
    outputOf? value = some format ↔ value = .string format.name := by
  constructor
  · intro h
    cases value with
    | string text =>
      simp only [outputOf?] at h
      by_cases htext : text = OutputFormat.text.name
      · rw [if_pos htext] at h
        rw [← Option.some.inj h, htext]
      · by_cases hjson : text = OutputFormat.json.name
        · rw [if_neg htext, if_pos hjson] at h
          rw [← Option.some.inj h, hjson]
        · rw [if_neg htext, if_neg hjson] at h
          cases h
    | _ => cases h
  · rintro rfl
    exact outputOf?_name format

theorem natOf?_eq_some_iff {value : Value} {n : Nat} :
    natOf? value = some n ↔ value = .integer n := by
  cases value with
  | integer m =>
    simp only [natOf?, Value.integer.injEq]
    by_cases hm : 0 ≤ m
    · rw [if_pos hm, Option.some.injEq]
      omega
    · rw [if_neg hm]
      constructor
      · intro h
        cases h
      · rintro rfl
        omega
  | _ => simp [natOf?]

theorem reads_commandPrefix :
    Reads commandPrefixKey prefixOf? default.commandPrefix (.string default.commandPrefix) where
  isSome_iff value := by
    rw [usable_commandPrefix_iff, isSome_prefixOf?_iff]
  written_eq := by decide

theorem reads_rollPrefixes : Reads rollPrefixesKey Value.array? [] (.array []) where
  isSome_iff value := by
    rw [usable_rollPrefixes_iff]
    cases value <;> simp [Value.array?]
  written_eq := rfl

theorem reads_reseed :
    Reads reseedKey natOf? default.reseedSeconds (.integer default.reseedSeconds) where
  isSome_iff value := by
    simp only [usable_reseed_iff, Option.isSome_iff_exists, natOf?_eq_some_iff]
  written_eq := rfl

theorem reads_output :
    Reads outputKey outputOf? default.output (.string default.output.name) where
  isSome_iff value := by
    simp only [usable_output_iff, Option.isSome_iff_exists, outputOf?_eq_some_iff]
  written_eq := by decide

/-! ### The whole table -/

/-- The items of the roll prefixes, before any is passed over. -/
def readRollItems (t : Table) : Completed (List Value) :=
  readOr rollPrefixesKey Value.array? [] (.array []) .rollPrefixesReplaced t

/-- **Each entry decides alone.** What is read from the tables in between is
what is read from the table as it was, and so are the four completed entries. -/
theorem complete_eq (t : Table) : ∃ completed : Table,
    complete t =
      ⟨⟨(readCommandPrefix t).result, prefixesOf (readRollItems t).result, (readReseed t).result,
          (readOutput t).result⟩, completed,
        (readCommandPrefix t).notices ++
          ((readRollItems t).notices ++ ignoredOf (readRollItems t).result) ++
          (readReseed t).notices ++ (readOutput t).notices⟩ ∧
    completed.find? commandPrefixKey = (readCommandPrefix t).table.find? commandPrefixKey ∧
    completed.find? rollPrefixesKey = (readRollItems t).table.find? rollPrefixesKey ∧
    completed.find? reseedKey = (readReseed t).table.find? reseedKey ∧
    completed.find? outputKey = (readOutput t).table.find? outputKey := by
  let t₁ := (readCommandPrefix t).table
  let t₂ := (readRollItems t₁).table
  let t₃ := (readReseed t₂).table
  have h₁ : ∀ key, key ≠ commandPrefixKey → t₁.find? key = t.find? key :=
    fun key hne => find?_readOr_of_ne hne _ _ _ _ t
  have h₂ : ∀ key, key ≠ rollPrefixesKey → t₂.find? key = t₁.find? key :=
    fun key hne => find?_readOr_of_ne hne _ _ _ _ t₁
  have h₃ : ∀ key, key ≠ reseedKey → t₃.find? key = t₂.find? key :=
    fun key hne => find?_readOr_of_ne hne _ _ _ _ t₂
  have h₄ : ∀ key, key ≠ outputKey → (readOutput t₃).table.find? key = t₃.find? key :=
    fun key hne => find?_readOr_of_ne hne _ _ _ _ t₃
  have hrolls : t₁.find? rollPrefixesKey = t.find? rollPrefixesKey := h₁ _ (by decide)
  have hreseed : t₂.find? reseedKey = t.find? reseedKey := by
    rw [h₂ _ (by decide), h₁ _ (by decide)]
  have houtput : t₃.find? outputKey = t.find? outputKey := by
    rw [h₃ _ (by decide), h₂ _ (by decide), h₁ _ (by decide)]
  obtain ⟨rollsResult, rollsNotices, rollsEntry⟩ : (readRollItems t₁).result = _ ∧
    (readRollItems t₁).notices = _ ∧ t₂.find? rollPrefixesKey = _ := readOr_congr hrolls
  obtain ⟨reseedResult, reseedNotices, reseedEntry⟩ : (readReseed t₂).result = _ ∧
    (readReseed t₂).notices = _ ∧ t₃.find? reseedKey = _ := readOr_congr hreseed
  obtain ⟨outputResult, outputNotices, outputEntry⟩ : (readOutput t₃).result = _ ∧
    (readOutput t₃).notices = _ ∧ (readOutput t₃).table.find? outputKey = _ := readOr_congr houtput
  refine ⟨(readOutput t₃).table, ?_, ?_, ?_, ?_, outputEntry⟩
  · show (⟨⟨(readCommandPrefix t).result, prefixesOf (readRollItems t₁).result,
      (readReseed t₂).result, (readOutput t₃).result⟩, (readOutput t₃).table,
      (readCommandPrefix t).notices ++ ((readRollItems t₁).notices ++
        ignoredOf (readRollItems t₁).result) ++ (readReseed t₂).notices ++
          (readOutput t₃).notices⟩ : Completed Settings) = _
    rw [rollsResult, rollsNotices, reseedResult, reseedNotices, outputResult, outputNotices]
    rfl
  · rw [h₄ _ (by decide), h₃ _ (by decide), h₂ _ (by decide)]
  · rw [h₄ _ (by decide), h₃ _ (by decide), rollsEntry]
    rfl
  · rw [h₄ _ (by decide), reseedEntry]
    rfl

/-- The items that are passed over, whether the roll prefixes are an array or not. -/
theorem ignoredOf_readRollItems (t : Table) : ignoredOf (readRollItems t).result = dropped t := by
  have hitem : ∀ item : Value, (prefixOf? item).isNone = decide (¬ IsPrefix item) := by
    intro item
    simp only [← isSome_prefixOf?_iff]
    cases prefixOf? item <;> simp
  unfold readRollItems readOr dropped ignoredOf
  cases t.find? rollPrefixesKey with
  | none => rfl
  | some value =>
    cases value with
    | array items => simp only [Option.bind_some, Value.array?, hitem]
    | _ => rfl

/-- The prefixes among items are the strings that may be used as prefixes. -/
theorem prefixesOf_eq (items : List Value) : prefixesOf items =
    (items.filterMap Value.string?).filter fun text => IsUsablePrefix text := by
  induction items with
  | nil => rfl
  | cons item rest ih =>
    unfold prefixesOf at ih ⊢
    cases item with
    | string text =>
      by_cases h : IsUsablePrefix text
      · simp [prefixOf?, Value.string?, h, ih]
      · simp [prefixOf?, Value.string?, h, ih]
    | _ => exact ih

/-- The prefixes that are listed, whether the roll prefixes are an array or not. -/
theorem prefixesOf_readRollItems (t : Table) :
    prefixesOf (readRollItems t).result = listedPrefixes t := by
  unfold readRollItems readOr listedPrefixes
  cases t.find? rollPrefixesKey with
  | none => rfl
  | some value =>
    cases value with
    | array items => exact prefixesOf_eq items
    | _ => rfl

theorem notices_complete (t : Table) : (complete t).notices = warnings t := by
  obtain ⟨completed, heq, -⟩ := complete_eq t
  rw [heq]
  unfold warnings
  rw [ignoredOf_readRollItems]
  unfold readCommandPrefix readRollItems readReseed readOutput
  rw [notices_readOr reads_commandPrefix, notices_readOr reads_rollPrefixes,
    notices_readOr reads_reseed, notices_readOr reads_output]

/-- **A completed table is complete.** Completing it again gives the same
settings and the same table, and only the passed-over items are noticed. -/
theorem complete_again (t : Table) : complete (complete t).table =
    ⟨(complete t).result, (complete t).table, dropped t⟩ := by
  obtain ⟨completed, heq, hcommand, hrolls, hreseed, houtput⟩ := complete_eq t
  rw [heq]
  have command : readCommandPrefix completed = ⟨(readCommandPrefix t).result, completed, []⟩ :=
    readOr_again reads_commandPrefix hcommand
  have rolls : readRollItems completed = ⟨(readRollItems t).result, completed, []⟩ :=
    readOr_again reads_rollPrefixes hrolls
  have reseed : readReseed completed = ⟨(readReseed t).result, completed, []⟩ :=
    readOr_again reads_reseed hreseed
  have output : readOutput completed = ⟨(readOutput t).result, completed, []⟩ :=
    readOr_again reads_output houtput
  have prefixes : readRollPrefixes completed = ⟨prefixesOf (readRollItems t).result, completed,
      ignoredOf (readRollItems t).result⟩ := by
    show (⟨prefixesOf (readRollItems completed).result, (readRollItems completed).table,
      (readRollItems completed).notices ++ ignoredOf (readRollItems completed).result⟩ :
        Completed (List Text)) = _
    rw [rolls]
    rfl
  unfold complete
  simp only [command, prefixes, reseed, output, List.nil_append, List.append_nil]
  rw [ignoredOf_readRollItems]

/-- Each of the four entries stays if it is usable, and is the default else. -/
theorem find?_complete (t : Table) : ∀ entry ∈ defaults,
    (complete t).table.find? entry.1 =
      if HoldsUsable t entry.1 then t.find? entry.1 else some entry.2 := by
  obtain ⟨completed, heq, hcommand, hrolls, hreseed, houtput⟩ := complete_eq t
  have hentry : ∀ {α : Type} {key : Text} {read? : Value → Option α} {fallback : α}
      {written : Value} {notice : Notice}, Reads key read? fallback written →
      completed.find? key = (readOr key read? fallback written notice t).table.find? key →
      completed.find? key = if HoldsUsable t key then t.find? key else some written := by
    intro α key read? fallback written notice hr h
    rw [h]
    by_cases husable : HoldsUsable t key
    · rw [if_pos husable, find?_readOr_of_usable hr husable]
    · rw [if_neg husable, find?_readOr_of_not_usable hr husable]
  intro entry hmem
  rw [heq]
  simp only [defaults, List.mem_cons, List.not_mem_nil, or_false] at hmem
  rcases hmem with rfl | rfl | rfl | rfl
  · exact hentry reads_commandPrefix hcommand
  · exact hentry reads_rollPrefixes hrolls
  · exact hentry reads_reseed hreseed
  · exact hentry reads_output houtput

/-- Entries of other keys stay. -/
theorem find?_complete_of_not_mem {t : Table} {key : Text} (h : key ∉ defaults.map Prod.fst) :
    (complete t).table.find? key = t.find? key := by
  simp only [defaults, List.map_cons, List.map_nil, List.mem_cons, List.not_mem_nil, or_false,
    not_or] at h
  obtain ⟨hcommand, hrolls, hreseed, houtput⟩ := h
  exact find?_complete_of_other hcommand hrolls hreseed houtput t

/-- **A completed table is in normal form.** -/
theorem normal_complete (t : Table) : Normal t (complete t).result (complete t).table := by
  obtain ⟨completed, heq, hcommand, hrolls, hreseed, houtput⟩ := complete_eq t
  obtain ⟨command, hcommandEntry, hcommandRead⟩ : ∃ value,
      completed.find? commandPrefixKey = some value ∧
        prefixOf? value = some (readCommandPrefix t).result := by
    rw [hcommand]
    exact exists_find?_readOr _ t reads_commandPrefix
  obtain ⟨seconds, hreseedEntry, hreseedRead⟩ : ∃ value,
      completed.find? reseedKey = some value ∧ natOf? value = some (readReseed t).result := by
    rw [hreseed]
    exact exists_find?_readOr _ t reads_reseed
  obtain ⟨format, houtputEntry, houtputRead⟩ : ∃ value,
      completed.find? outputKey = some value ∧ outputOf? value = some (readOutput t).result := by
    rw [houtput]
    exact exists_find?_readOr _ t reads_output
  obtain ⟨rfl, husable⟩ := prefixOf?_eq_some_iff.mp hcommandRead
  rw [natOf?_eq_some_iff] at hreseedRead
  rw [outputOf?_eq_some_iff] at houtputRead
  subst hreseedRead houtputRead
  have hlisted : (complete t).result.rollPrefixes = listedPrefixes t := by
    rw [heq]
    exact prefixesOf_readRollItems t
  constructor
  case commandPrefix_usable =>
    rw [heq]
    exact husable
  case rollPrefixes_usable =>
    intro lead hlead
    rw [hlisted, ← prefixesOf_readRollItems, prefixesOf_eq] at hlead
    exact of_decide_eq_true (List.mem_filter.mp hlead).2
  case rollPrefixes_eq => exact hlisted
  case kept =>
    rintro key (hother | husable)
    · exact find?_complete_of_not_mem hother
    · by_cases hmem : key ∈ defaults.map Prod.fst
      · obtain ⟨entry, hentry, rfl⟩ := List.mem_map.mp hmem
        rw [find?_complete t entry hentry, if_pos husable]
      · exact find?_complete_of_not_mem hmem
  case filled =>
    intro entry hentry hnot
    rw [find?_complete t entry hentry, if_neg hnot]
  case commandPrefix_written =>
    rw [heq]
    exact hcommandEntry
  case reseed_written =>
    rw [heq]
    exact hreseedEntry
  case output_written =>
    rw [heq]
    exact houtputEntry

/-! ### What is told -/

/-- What the settings of a table come to where the log shows warnings: the
settings, the completed table and the lines of the log, or nothing where a notice
can not be worded. -/
def outcome? (t : Table) : Option (Settings × Table × List (Level × Text)) :=
  (Notice.logLines? (complete t).notices).map fun lines =>
    ((complete t).result, (complete t).table, lines)

theorem eq_of_mem_overwritten {t : Table} {key : Text} {notice told : Notice}
    (h : told ∈ overwritten t key notice) : told = notice := by
  unfold overwritten at h
  by_cases husable : HoldsUsable t key
  · rw [if_pos husable] at h
    exact absurd h List.not_mem_nil
  · rw [if_neg husable] at h
    exact List.mem_singleton.mp h

theorem mem_dropped_iff {t : Table} {told : Notice} : told ∈ dropped t ↔ ∃ items item,
    t.find? rollPrefixesKey = some (.array items) ∧ item ∈ items ∧ ¬ IsPrefix item ∧
      told = .rollPrefixIgnored item := by
  unfold dropped
  cases t.find? rollPrefixesKey with
  | none => simp
  | some value =>
    cases value with
    | array items =>
      simp only [List.mem_map, List.mem_filter, decide_eq_true_eq, Option.some.injEq,
        Value.array.injEq]
      constructor
      · rintro ⟨item, ⟨hmem, hnot⟩, rfl⟩
        exact ⟨items, item, rfl, hmem, hnot, rfl⟩
      · rintro ⟨_, item, rfl, hmem, hnot, rfl⟩
        exact ⟨item, ⟨hmem, hnot⟩, rfl⟩
    | _ => simp

theorem mem_warnings_cases {t : Table} {told : Notice} (h : told ∈ warnings t) :
    told ∈ dropped t ∨ told = .commandPrefixReplaced ∨ told = .rollPrefixesReplaced ∨
      told = .reseedReplaced ∨ told = .outputReplaced := by
  simp only [warnings, List.mem_append] at h
  rcases h with ((h | h | h) | h) | h
  · exact Or.inr (Or.inl (eq_of_mem_overwritten h))
  · exact Or.inr (Or.inr (Or.inl (eq_of_mem_overwritten h)))
  · exact Or.inl h
  · exact Or.inr (Or.inr (Or.inr (Or.inl (eq_of_mem_overwritten h))))
  · exact Or.inr (Or.inr (Or.inr (Or.inr (eq_of_mem_overwritten h))))

theorem level_of_mem_warnings {t : Table} {told : Notice} (h : told ∈ warnings t) :
    told.level = .warning := by
  rcases mem_warnings_cases h with hdropped | rfl | rfl | rfl | rfl
  · obtain ⟨-, item, -, -, -, rfl⟩ := mem_dropped_iff.mp hdropped
    rfl
  all_goals rfl

/-- **Completion breaks off at items that can not be quoted,** and nowhere else. -/
theorem outcome?_eq_none_iff (t : Table) : outcome? t = none ↔ ∃ items item,
    t.find? rollPrefixesKey = some (.array items) ∧ item ∈ items ∧ ¬ IsPrefix item ∧
      item.render? = none := by
  unfold outcome?
  rw [Option.map_eq_none_iff, Notice.logLines?_eq_none_iff, notices_complete]
  constructor
  · rintro ⟨told, hmem, hnone⟩
    obtain ⟨item, rfl, hrender⟩ := Notice.message?_eq_none_iff.mp hnone
    rcases mem_warnings_cases hmem with hdropped | h | h | h | h
    · obtain ⟨items, item', hfind, hitem, hnot, heq⟩ := mem_dropped_iff.mp hdropped
      obtain rfl : item = item' := Notice.rollPrefixIgnored.inj heq
      exact ⟨items, item, hfind, hitem, hnot, hrender⟩
    all_goals cases h
  · rintro ⟨items, item, hfind, hitem, hnot, hrender⟩
    have hdropped := mem_dropped_iff.mpr ⟨items, item, hfind, hitem, hnot, rfl⟩
    refine ⟨.rollPrefixIgnored item, ?_, Notice.message?_eq_none_iff.mpr ⟨item, rfl, hrender⟩⟩
    simp only [warnings, List.mem_append]
    exact Or.inl (Or.inl (Or.inr (Or.inr hdropped)))

/-- Notices about passed-over items are worded if all notices are. -/
theorem exists_lines_of_dropped {t : Table} {lines : List (Level × Text)}
    (h : Notice.logLines? (warnings t) = some lines) :
    ∃ others, Notice.logLines? (dropped t) = some others := by
  cases hd : Notice.logLines? (dropped t) with
  | some others => exact ⟨others, rfl⟩
  | none =>
    obtain ⟨told, hmem, hnone⟩ := Notice.logLines?_eq_none_iff.mp hd
    have hall : Notice.logLines? (warnings t) = none := by
      refine Notice.logLines?_eq_none_iff.mpr ⟨told, ?_, hnone⟩
      simp only [warnings, List.mem_append]
      exact Or.inl (Or.inl (Or.inr (Or.inr hmem)))
    rw [hall] at h
    cases h

/-- **Completion puts settings into normal form.** Where the log shows warnings, it
breaks off exactly at an array of roll prefixes with an item that is passed over
and can not be quoted.
Otherwise the settings and the completed table are in normal form, the log
gets one warning for each entry that is replaced or added and one for each
item that is passed over, in order, and completing the completed table gives
the same settings, changes nothing and repeats the warnings about items. -/
theorem completion_is_normal (t : Table) :
    (outcome? t = none ↔ ∃ items item, t.find? rollPrefixesKey = some (.array items) ∧
      item ∈ items ∧ ¬ IsPrefix item ∧ item.render? = none) ∧
    ∀ settings completed lines, outcome? t = some (settings, completed, lines) →
      Normal t settings completed ∧
      (Notice.logLines? (warnings t) = some lines ∧ ∀ line ∈ lines, line.1 = .warning) ∧
      ∃ others, Notice.logLines? (dropped t) = some others ∧
        outcome? completed = some (settings, completed, others) := by
  refine ⟨outcome?_eq_none_iff t, ?_⟩
  intro settings completed lines h
  obtain ⟨lines', hlines, heq⟩ := Option.map_eq_some_iff.mp h
  obtain ⟨rfl, hrest⟩ := Prod.mk.inj heq
  obtain ⟨rfl, rfl⟩ := Prod.mk.inj hrest
  rw [notices_complete] at hlines
  refine ⟨normal_complete t, ⟨hlines, ?_⟩, ?_⟩
  · intro line hline
    have hlevel : line.1 ∈ (warnings t).map Notice.level := by
      rw [← Notice.map_level_of_logLines? hlines]
      exact List.mem_map_of_mem hline
    obtain ⟨told, hmem, hlevel⟩ := List.mem_map.mp hlevel
    rw [← hlevel, level_of_mem_warnings hmem]
  · obtain ⟨others, hothers⟩ := exists_lines_of_dropped hlines
    refine ⟨others, hothers, ?_⟩
    unfold outcome?
    rw [complete_again, hothers, Option.map_some]

/-- A table with a prefix that holds a space, three items of which one is a
prefix, an output format, and an entry of another key. -/
theorem completion_is_normal_with_leftovers : ∃ t settings completed lines,
    outcome? t = some (settings, completed, lines) ∧ lines.length = 4 ∧
    Normal t settings completed ∧ settings.rollPrefixes = ["/r".toList] ∧
    ∃ others, others.length = 2 ∧ outcome? completed = some (settings, completed, others) := by
  let t : Table := Table.ofEntries [(commandPrefixKey, .string "a b".toList),
    (rollPrefixesKey, .array [.integer 5, .string "/r".toList, .array [.string "x".toList]]),
    (outputKey, .string "json".toList), ("other".toList, .table [("x".toList, .boolean true)])]
  obtain ⟨settings, completed, lines, h, hlength, hrolls⟩ : ∃ settings completed lines,
      outcome? t = some (settings, completed, lines) ∧ lines.length = 4 ∧
        settings.rollPrefixes = ["/r".toList] := ⟨_, _, _, rfl, rfl, rfl⟩
  obtain ⟨hnormal, -, others, hothers, hagain⟩ :=
    (completion_is_normal t).2 settings completed lines h
  have hcount : (Notice.logLines? (dropped t)).map List.length = some 2 := rfl
  rw [hothers, Option.map_some] at hcount
  exact ⟨t, settings, completed, lines, h, hlength, hnormal, hrolls, others,
    Option.some.inj hcount, hagain⟩

/-- A table with a plain value behind an array that holds a table further inside. -/
def unquotable : Value :=
  .table [("a".toList, .array [.array [.table [("x".toList, .integer 1)]]]),
    ("b".toList, .integer 1)]

/-- A table whose four entries are usable, with an item among the roll prefixes
that can not be quoted: one notice is due, and completion gives no settings. -/
theorem completion_breaks_off :
    let t : Table := [(commandPrefixKey, .string "!".toList), (outputKey, .string "json".toList),
      (reseedKey, .integer 60), (rollPrefixesKey, .array [.string "/r".toList, unquotable])]
    (∀ entry ∈ defaults, HoldsUsable t entry.1) ∧ listedPrefixes t = ["/r".toList] ∧
      warnings t = [.rollPrefixIgnored unquotable] ∧ outcome? t = none := by
  refine ⟨?_, rfl, rfl, rfl⟩
  decide

end Settings
end DiceTower
