/-
# Roll prefixes beside the command prefix

The prefixes of a table are checked one at a time, but they compete when a
message is read. The command prefix comes first: a message that begins with it is
a command, and it is a plain roll exactly if the letter `r` follows behind the
blanks (`Command.rollsPlainly_append_iff`). Any other message that one roll
prefix fits is a roll, of this prefix or of one that comes before it
(`Command.rollsPlainly_of_fits`).

So a roll prefix works on every body unless one of the two prefixes begins the
other, and it works on every body even then where the command prefix leaves it
its bodies (`Command.forall_rollsPlainly_iff`).

Key definitions: `Command.RollsPlainly`, `Command.HasNotation`,
`Command.LeavesBodies`.
Key theorems: `Command.rollsPlainly_append_iff`, `Command.rollsPlainly_of_fits`,
`Command.rollsPlainly_iff`, `Command.forall_rollsPlainly_iff`,
`Settings.roll_prefix_always_works_iff`, `Settings.roll_prefix_works_iff`.
-/
import DiceTower.Proofs.Bot.Rereading
import DiceTower.Proofs.Settings.Completion

namespace DiceTower
namespace Command

open Text

/-- The message is read as a roll without a policy. -/
def RollsPlainly (lead : Text) (leads : List Text) (message : Text) : Prop :=
  ∃ text reason, parse lead leads message = .ok (some (.roll text none reason))

/-- A word in front of the first mark of the body is a notation. -/
def HasNotation (b : Text) : Prop := ∃ word ∈ words (b.takeWhile (· ≠ '#')), Notation.HasShape word

/-- The text begins with the letter of plain rolls. -/
def BeginsRoll (s : Text) : Prop := s.head? = some 'r' ∨ s.head? = some 'R'

instance (s : Text) : Decidable (BeginsRoll s) :=
  inferInstanceAs (Decidable (s.head? = some 'r' ∨ s.head? = some 'R'))

variable {lead p b s message : Text} {leads : List Text}

/-! ### Behind the command prefix -/

/-- The letter is enough for a plain roll. -/
theorem exists_plainForm_iff : (∃ b, PlainForm s b) ↔ BeginsRoll s := by
  constructor
  · rintro ⟨b, c, behind, rfl | rfl, rfl, -⟩
    · exact Or.inl rfl
    · exact Or.inr rfl
  · intro h
    obtain ⟨c, behind, hc, rfl⟩ : ∃ c behind, (c = 'r' ∨ c = 'R') ∧ s = c :: behind := by
      cases s with
      | nil => simp [BeginsRoll] at h
      | cons c behind => exact ⟨c, behind, by simpa [BeginsRoll] using h, rfl⟩
    by_cases hroll : ∃ b, StartsWith "roll".toList (c :: behind) b
    · obtain ⟨b, hb⟩ := hroll
      exact ⟨b, c, behind, hc, rfl, Or.inl hb⟩
    · exact ⟨behind, c, behind, hc, rfl, Or.inr ⟨not_exists.mp hroll, rfl⟩⟩

/-- What a text asks for is a plain roll exactly if it has their form. -/
theorem Asks.plain_iff {c : Command} (h : Asks s c) :
    (∃ text reason, c = roll text none reason) ↔ ∃ b, PlainForm s b := by
  cases h with
  | quick hform hrest =>
    have hnone : ∀ b, ¬ PlainForm s b := not_plainForm_of_opening hform.opening (by decide)
    simp [hnone]
  | policy hform hbody =>
    have hnone : ∀ b, ¬ PlainForm s b := by
      rcases hform.opening with ha | hd
      · exact not_plainForm_of_opening ha (by decide)
      · exact not_plainForm_of_opening hd (by decide)
    simp [hnone]
  | plain hform hbody => simp [show ∃ b, PlainForm s b from ⟨_, hform⟩]
  | help hquick hpolicy hplain => simp [hplain]

/-- **Behind the command prefix the first letter decides.** -/
theorem rollsPlainly_append_iff (lead : Text) (leads : List Text) (behind : Text) :
    RollsPlainly lead leads (lead ++ behind) ↔ BeginsRoll (skipBlanks behind) := by
  rw [← exists_plainForm_iff]
  cases hparse : parse lead leads (lead ++ behind) with
  | error e =>
    have hbreaks := breaks_append_iff.mp (parse_eq_error_iff.mp hparse)
    have hnone := not_plainForm_of_opening hbreaks.opening (by decide)
    simp [RollsPlainly, hparse, hnone]
  | ok answer =>
    have hok : ∀ e, parse lead leads (lead ++ behind) ≠ .error e := by simp [hparse]
    have hanswers := (parse_eq_ok_iff_answers hok _).mp hparse
    cases hanswers with
    | @command blanks s c hsplit hblanks hs hasks =>
      have hskip : skipBlanks behind = s := by
        rw [List.append_cancel_left hsplit, skipBlanks_append hblanks,
          skipBlanks_of_noBlankAhead hs]
      rw [hskip, ← hasks.plain_iff]
      simp [RollsPlainly, hparse]
    | roll hlead => exact absurd (List.prefix_append lead behind) hlead
    | silent hlead => exact absurd (List.prefix_append lead behind) hlead

/-! ### Without the command prefix -/

/-- A body with a notation fits behind every prefix. -/
theorem exists_fits (p : Text) (h : HasNotation b) :
    ∃ text reason, Fits (p ++ b) p text reason := by
  obtain ⟨word, hword, hshape⟩ := h
  refine ⟨(body b).1, (body b).2, b, rfl, bodyReads_body b, word, ?_, hshape⟩
  rw [body, words_trim]
  exact hword

/-- **Without the command prefix the first roll prefix that fits decides,** and it is a roll. -/
theorem rollsPlainly_of_fits (hlead : ¬ lead <+: message) (hp : p ∈ leads) {text : Text}
    {reason : Option Text} (hfits : Fits message p text reason) :
    RollsPlainly lead leads message := by
  have hsilent : lead.isPrefixOf? message = none := by
    rw [Option.eq_none_iff_forall_ne_some]
    intro behind hbehind
    exact hlead ⟨behind, List.isPrefixOf?_eq_some_iff_append_eq.mp hbehind⟩
  unfold RollsPlainly
  rw [parse_of_not_lead hsilent]
  cases hfound : leads.findSome? (ofRollMessage? message) with
  | none =>
    have hnone := List.findSome?_eq_none_iff.mp hfound p hp
    exact absurd hfits (ofRollMessage?_eq_none_iff.mp hnone text reason)
  | some command =>
    obtain ⟨before, first, after, -, hfirst, -⟩ := List.findSome?_eq_some_iff.mp hfound
    obtain ⟨text, reason, -, rfl⟩ := ofRollMessage?_eq_some_iff.mp hfirst
    exact ⟨text, reason, rfl⟩

/-- **A roll prefix works on a body with a notation,** unless the command prefix
begins the message and no plain roll follows it. -/
theorem rollsPlainly_iff (hp : p ∈ leads) (hb : HasNotation b) :
    RollsPlainly lead leads (p ++ b) ↔
      ∀ behind, p ++ b = lead ++ behind → BeginsRoll (skipBlanks behind) := by
  constructor
  · intro hrolls behind hmessage
    rw [hmessage] at hrolls
    exact (rollsPlainly_append_iff lead leads behind).mp hrolls
  · intro h
    by_cases hlead : lead <+: p ++ b
    · obtain ⟨behind, hmessage⟩ := hlead
      rw [← hmessage]
      exact (rollsPlainly_append_iff lead leads behind).mpr (h behind hmessage.symm)
    · obtain ⟨text, reason, hfits⟩ := exists_fits p hb
      exact rollsPlainly_of_fits hlead hp hfits

/-! ### Pairs of prefixes -/

/-- The command prefix leaves a roll prefix its bodies: where it begins the roll
prefix, the letter of plain rolls follows, and where it goes on behind the roll
prefix, no body with a notation begins as it does. -/
def LeavesBodies (lead p : Text) : Prop :=
  (∀ rest, p = lead ++ rest → BeginsRoll rest) ∧
    ∀ rest, lead = p ++ rest → '#' ∈ rest ∧ ¬ HasNotation rest

/-- Only what stands in front of the mark counts. -/
theorem hasNotation_append_of_mem {front : Text} (h : '#' ∈ front) (back : Text) :
    HasNotation (front ++ back) ↔ HasNotation front := by
  have hsame : (front ++ back).takeWhile (· ≠ '#') = front.takeWhile (· ≠ '#') := by
    obtain ⟨before, behind, rfl, hbefore⟩ := List.eq_append_cons_of_mem h
    rw [List.append_assoc, List.takeWhile_append_of_pos (ne_mark hbefore),
      List.takeWhile_append_of_pos (ne_mark hbefore)]
    simp
  rw [HasNotation, HasNotation, hsame]

theorem hasShape_die : Notation.HasShape "d6".toList :=
  Notation.isNotation_iff_hasShape.mp (by decide)

/-- A die behind a text without marks and a blank is a word of its own. -/
theorem hasNotation_append_die {front : Text} (h : '#' ∉ front) :
    HasNotation (front ++ " d6".toList) := by
  have hdie : " d6".toList.takeWhile (· ≠ '#') = " d6".toList := by decide
  have hwords : words (front ++ " d6".toList) = words front ++ ["d6".toList] :=
    words_append_space (by decide) front "d6".toList
  refine ⟨"d6".toList, ?_, hasShape_die⟩
  rw [List.takeWhile_append_of_pos (ne_mark h), hdie, hwords]
  exact List.mem_append_right _ List.mem_cons_self

/-- **A roll prefix works on every body exactly if the command prefix leaves it its bodies.** -/
theorem forall_rollsPlainly_iff (hp : p ∈ leads) (hblank : ∀ c ∈ p, isBlank c = false) :
    (∀ b, HasNotation b → RollsPlainly lead leads (p ++ b)) ↔ LeavesBodies lead p := by
  constructor
  · intro h
    refine ⟨fun rest hrest => ?_, fun rest hrest => ?_⟩
    · have hworks := h "d6".toList ⟨"d6".toList, by decide, hasShape_die⟩
      rw [hrest, List.append_assoc, rollsPlainly_append_iff] at hworks
      cases rest with
      | nil => exact absurd hworks (by decide)
      | cons c rest =>
        have hc : isBlank c = false := hblank c (by simp [hrest])
        simpa [skipBlanks, hc, BeginsRoll] using hworks
    · by_cases hmark : '#' ∈ rest
      · refine ⟨hmark, fun hnotation => ?_⟩
        have hworks : RollsPlainly lead leads (lead ++ []) := by
          rw [List.append_nil]
          simpa only [← hrest] using h rest hnotation
        exact absurd ((rollsPlainly_append_iff lead leads []).mp hworks) (by decide)
      · have hworks := h _ (hasNotation_append_die hmark)
        rw [← List.append_assoc, ← hrest, rollsPlainly_append_iff] at hworks
        exact absurd hworks (by decide)
  · rintro ⟨hbehind, hfront⟩ b hb
    refine (rollsPlainly_iff hp hb).mpr fun behind hmessage => ?_
    rcases List.append_eq_append_iff.mp hmessage with ⟨rest, hlead, hb'⟩ | ⟨rest, hlead, hbehind'⟩
    · obtain ⟨hmark, hnone⟩ := hfront rest hlead
      rw [hb', hasNotation_append_of_mem hmark] at hb
      exact absurd hb hnone
    · have hbegins := hbehind rest hlead
      cases rest with
      | nil => simp [BeginsRoll] at hbegins
      | cons c rest =>
        have hc : isBlank c = false := hblank c (by simp [hlead])
        simpa [hbehind', skipBlanks, hc, BeginsRoll] using hbegins

end Command

namespace Settings

open Text

/-- **When a configured roll prefix works on every body.** -/
theorem roll_prefix_always_works_iff (t : Toml.Table) {p : Text}
    (hp : p ∈ (complete t).result.rollPrefixes) :
    (∀ b, Command.HasNotation b → Command.RollsPlainly (complete t).result.commandPrefix
        (complete t).result.rollPrefixes (p ++ b)) ↔
      Command.LeavesBodies (complete t).result.commandPrefix p := by
  refine Command.forall_rollsPlainly_iff hp fun c hc => ?_
  have hspace := not_isSpace_of_isUsablePrefix ((normal_complete t).rollPrefixes_usable p hp) hc
  by_contra hblank
  simp [isSpace_of_isBlank (eq_true_of_ne_false hblank)] at hspace

/-- **Where a configured roll prefix works.** Whatever table the settings are read
from, a roll prefix in front of a body with a notation is read as a roll without
a policy, unless the message begins with the command prefix, which comes first;
then it is one exactly if the letter of plain rolls follows the command prefix
and its blanks. -/
theorem roll_prefix_works_iff (t : Toml.Table) {p b : Text}
    (hp : p ∈ (complete t).result.rollPrefixes)
    (hb : ∃ word ∈ words (b.takeWhile (· ≠ '#')), Notation.HasShape word) :
    (∃ text reason, Command.parse (complete t).result.commandPrefix
        (complete t).result.rollPrefixes (p ++ b) = .ok (some (.roll text none reason))) ↔
      ∀ behind, p ++ b = (complete t).result.commandPrefix ++ behind →
        (skipBlanks behind).head? = some 'r' ∨ (skipBlanks behind).head? = some 'R' :=
  Command.rollsPlainly_iff hp hb

/-- A roll prefix beside the command prefix, and one that the command prefix and the
letter of plain rolls begin. -/
theorem roll_prefix_works_iff_beside_and_behind : ∃ t : Toml.Table,
    (complete t).result.commandPrefix = "!".toList ∧
    (complete t).result.rollPrefixes = ["/r".toList, "!Roll:".toList] ∧
    (∃ text reason, Command.parse "!".toList ["/r".toList, "!Roll:".toList]
      ("/r".toList ++ " 2d6 # !".toList) = .ok (some (.roll text none reason))) ∧
    ∃ text reason, Command.parse "!".toList ["/r".toList, "!Roll:".toList]
      ("!Roll:".toList ++ "2d6".toList) = .ok (some (.roll text none reason)) := by
  let t : Toml.Table :=
    [(rollPrefixesKey, .array [.string "/r".toList, .string "!Roll:".toList])]
  have hcommand : (complete t).result.commandPrefix = "!".toList := by decide
  have hrolls : (complete t).result.rollPrefixes = ["/r".toList, "!Roll:".toList] := by decide
  have hshape : Notation.HasShape "2d6".toList := Notation.isNotation_iff_hasShape.mp (by decide)
  have hbeside := @roll_prefix_works_iff t "/r".toList " 2d6 # !".toList (by rw [hrolls]; decide)
    ⟨"2d6".toList, by decide, hshape⟩
  have hbehind := @roll_prefix_works_iff t "!Roll:".toList "2d6".toList (by rw [hrolls]; decide)
    ⟨"2d6".toList, by decide, hshape⟩
  rw [hcommand, hrolls] at hbeside hbehind
  refine ⟨t, hcommand, hrolls, hbeside.mpr ?_, hbehind.mpr ?_⟩
  · intro behind hmessage
    exact absurd (List.cons.inj hmessage).1 (by decide)
  · intro behind hmessage
    obtain rfl : "Roll:2d6".toList = behind := (List.cons.inj hmessage).2
    exact Or.inr rfl

/-- The command prefix takes every message from a roll prefix that is the same. -/
theorem roll_prefix_not_always_works : (∃ t : Toml.Table,
      (complete t).result.commandPrefix = "!".toList ∧
      (complete t).result.rollPrefixes = ["!".toList] ∧
      (∃ word ∈ words ("2d6".toList.takeWhile (· ≠ '#')), Notation.HasShape word) ∧
      Command.parse (complete t).result.commandPrefix (complete t).result.rollPrefixes
        ("!".toList ++ "2d6".toList) = .ok (some .help)) ∧
    ¬ ∀ (t : Toml.Table) (p b : Text), p ∈ (complete t).result.rollPrefixes →
      (∃ word ∈ words (b.takeWhile (· ≠ '#')), Notation.HasShape word) →
      ∃ text reason, Command.parse (complete t).result.commandPrefix
        (complete t).result.rollPrefixes (p ++ b) = .ok (some (.roll text none reason)) := by
  let t : Toml.Table := [(rollPrefixesKey, .array [.string "!".toList])]
  have hrolls : (complete t).result.rollPrefixes = ["!".toList] := by decide
  have hnotation : ∃ word ∈ words ("2d6".toList.takeWhile (· ≠ '#')), Notation.HasShape word :=
    ⟨"2d6".toList, by decide, Notation.isNotation_iff_hasShape.mp (by decide)⟩
  have hhelp : Command.parse (complete t).result.commandPrefix (complete t).result.rollPrefixes
      ("!".toList ++ "2d6".toList) = .ok (some .help) := rfl
  refine ⟨⟨t, by decide, hrolls, hnotation, hhelp⟩, fun h => ?_⟩
  obtain ⟨text, reason, hroll⟩ := h t "!".toList "2d6".toList (by rw [hrolls]; decide) hnotation
  rw [hhelp] at hroll
  cases hroll

end Settings
end DiceTower
