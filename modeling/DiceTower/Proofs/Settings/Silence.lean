/-
# Messages that no settings answer

A usable prefix has a first character, which is not white space and not one of
the control, format and private-use characters. So a message that is empty or
begins with such a character has no usable prefix in front of it
(`Settings.isPrefixOf?_of_unaddressed`). The settings of a table have usable
prefixes only, whatever the table holds, so none of them answers such a message:
it is neither a command nor a roll, reading it does not break off, and the dealer
stays as it was (`Settings.Ignores`).

These are all the messages of which that can be said. The first character of any
other message may be used as a prefix, and a table that makes it the command
prefix has the message answered (`Settings.unaddressed_iff_ignored`).

Key definitions: `Settings.Unaddressed`, `Settings.Ignores`.
Key theorems: `Settings.PrefixesUsable.parse_eq`, `Settings.ignores_of_parse_eq`,
`Settings.unaddressed_iff_ignored`.
-/
import DiceTower.Bot.Eval
import DiceTower.Proofs.Settings.Completion
import Mathlib.Data.List.Basic

namespace DiceTower
namespace Settings

open Text

/-- The message is empty, or begins with white space or with another character
that no prefix may hold. -/
inductive Unaddressed : Text → Prop
  | empty : Unaddressed []
  | space {c : Char} (h : isSpace c = true) (rest : Text) : Unaddressed (c :: rest)
  | forbidden {c : Char} (h : isForbidden c = true) (rest : Text) : Unaddressed (c :: rest)

/-- The message is not meant for the bot, so there is no answer to it and no
generator is taken for it. -/
structure Ignores (settings : Settings) (message : Text) : Prop where
  parse_eq : Command.parse settings.commandPrefix settings.rollPrefixes message = .ok none
  eval_eq : ∀ d, Bot.eval settings d message = (.silent, d)
  /-- Other messages are answered as they would be without it. -/
  evalAll_eq : ∀ d before behind, ∃ others final,
    Bot.evalAll settings d (before ++ behind) =
      ((Bot.evalAll settings d before).1 ++ others, final) ∧
    Bot.evalAll settings d (before ++ message :: behind) =
      ((Bot.evalAll settings d before).1 ++ .silent :: others, final)

/-- All prefixes of the settings may be used as such. -/
structure PrefixesUsable (settings : Settings) : Prop where
  command : IsUsablePrefix settings.commandPrefix
  rolls : ∀ lead ∈ settings.rollPrefixes, IsUsablePrefix lead

/-- Whatever the table, its settings have usable prefixes. -/
theorem prefixesUsable_complete (t : Toml.Table) : (complete t).result.PrefixesUsable where
  command := (normal_complete t).commandPrefix_usable
  rolls := (normal_complete t).rollPrefixes_usable

/-! ### No prefix in front -/

theorem unaddressed_cons_iff {c : Char} {rest : Text} :
    Unaddressed (c :: rest) ↔ isForbidden c = true := by
  constructor
  · intro h
    cases h with
    | space h => exact isForbidden_of_isSpace h
    | forbidden h => exact h
  · exact fun h => .forbidden h rest

/-- No usable prefix stands in front of the message. -/
theorem isPrefixOf?_of_unaddressed {lead message : Text} (hlead : IsUsablePrefix lead)
    (h : Unaddressed message) : lead.isPrefixOf? message = none := by
  obtain ⟨hne, hallowed⟩ := hlead
  obtain ⟨c, lead, rfl⟩ := List.exists_cons_of_ne_nil hne
  cases message with
  | nil => rfl
  | cons d rest =>
    have hc : isForbidden c = false := hallowed c List.mem_cons_self
    have hd : isForbidden d = true := unaddressed_cons_iff.mp h
    have hcd : (c == d) = false := by
      rw [beq_eq_false_iff_ne]
      rintro rfl
      rw [hc] at hd
      cases hd
    simp [List.isPrefixOf?, hcd]

/-- Settings with usable prefixes find no command and no roll. -/
theorem PrefixesUsable.parse_eq {settings : Settings} (hs : settings.PrefixesUsable)
    {message : Text} (h : Unaddressed message) :
    Command.parse settings.commandPrefix settings.rollPrefixes message = .ok none := by
  rw [Command.parse_of_not_lead (isPrefixOf?_of_unaddressed hs.command h)]
  have hrolls : settings.rollPrefixes.findSome? (Command.ofRollMessage? message) = none := by
    refine List.findSome?_eq_none_iff.mpr fun lead hmem => ?_
    rw [Command.ofRollMessage?, isPrefixOf?_of_unaddressed (hs.rolls lead hmem) h]
  rw [hrolls]

/-! ### No answer -/

/-- A message that asks for nothing leaves no trace in a session. -/
theorem ignores_of_parse_eq {settings : Settings} {message : Text}
    (h : Command.parse settings.commandPrefix settings.rollPrefixes message = .ok none) :
    Ignores settings message := by
  have heval : ∀ d, Bot.eval settings d message = (.silent, d) := by
    intro d
    simp only [Bot.eval, h]
  refine ⟨h, heval, fun d before behind => ?_⟩
  refine ⟨_, _, Bot.evalAll_append settings d before behind, ?_⟩
  rw [Bot.evalAll_append, Bot.evalAll, heval]

/-- A message behind the command prefix asks for something, or reading it breaks off. -/
theorem parse_append_ne_none (lead behind : Text) (leads : List Text) :
    Command.parse lead leads (lead ++ behind) ≠ .ok none := by
  rw [Command.parse_of_lead (List.isPrefixOf?_eq_some_iff_append_eq.mpr rfl)]
  cases Command.ofCommandText behind with
  | error e => simp [Except.map]
  | ok command => simp [Except.map]

/-- Any usable prefix is the command prefix of some table. -/
theorem exists_commandPrefix_eq {lead : Text} (h : IsUsablePrefix lead) :
    ∃ t : Toml.Table, (complete t).result.commandPrefix = lead := by
  let t : Toml.Table := [(commandPrefixKey, .string lead)]
  have hfind : t.find? commandPrefixKey = some (.string lead) := if_pos rfl
  have husable : HoldsUsable t commandPrefixKey := by
    rw [HoldsUsable, hfind]
    exact Or.inl ⟨rfl, h⟩
  have hnormal := normal_complete t
  have hkept := hnormal.kept commandPrefixKey (Or.inr husable)
  rw [hnormal.commandPrefix_written, hfind] at hkept
  exact ⟨t, Toml.Value.string.inj (Option.some.inj hkept)⟩

/-- **Blank and indented lines are never answered.** A message that is empty or
begins with white space, or with another character that no prefix may hold, is
ignored under the settings of every table; and no other message is, for a table
can make its first character the command prefix. -/
theorem unaddressed_iff_ignored (message : Text) :
    Unaddressed message ↔ ∀ t : Toml.Table, Ignores (complete t).result message := by
  constructor
  · exact fun h t => ignores_of_parse_eq ((prefixesUsable_complete t).parse_eq h)
  · intro h
    cases message with
    | nil => exact .empty
    | cons c rest =>
      rw [unaddressed_cons_iff]
      refine Classical.byContradiction fun hc => ?_
      have husable : IsUsablePrefix [c] := by
        refine ⟨by simp, fun d hd => ?_⟩
        rwa [List.mem_singleton.mp hd, ← Bool.not_eq_true]
      obtain ⟨t, ht⟩ := exists_commandPrefix_eq husable
      have hparse := (h t).parse_eq
      rw [ht] at hparse
      exact parse_append_ne_none [c] rest _ hparse

end Settings
end DiceTower
