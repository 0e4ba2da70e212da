/-
# JSON output has one line for each answer

An answer is shown as one object, and the object tells which answer it is: its
type sets the three kinds apart, and its other members hold everything else of
the answer (`Answer.toJson_injective`). So the compact text of an answer ends
where its object ends, and no other answer has it (`Answer.compact_append_inj`).

The text holds no control character, so it is one line, and the output of a run
splits at its line feeds into the texts of the answers
(`Console.splitOn_flatMap`), whatever titles and reasons the messages hold.

Key definitions: `Console.messages`, `Console.answers`.
Key theorems: `Answer.toJson_injective`, `Answer.compact_append_inj`,
`Console.output_runLines`, `Console.json_output_has_one_line_per_answer`.
-/
import DiceTower.Console
import DiceTower.Proofs.Bot.Outcome
import DiceTower.Proofs.Json.Unambiguous

namespace DiceTower

theorem Json.ofText?_injective {text text' : Option Text} (h : ofText? text = ofText? text') :
    text = text' := by
  cases text <;> cases text' <;> simp_all [ofText?]

theorem Reply.Field.toJson_injective {field field' : Reply.Field}
    (h : field.toJson = field'.toJson) : field = field' := by
  obtain ⟨name, value⟩ := field
  obtain ⟨name', value'⟩ := field'
  simpa [toJson] using h

namespace Answer

/-- The type that an answer carries. -/
def type : Answer → Text
  | help _ => "help".toList
  | roll _ => "roll".toList
  | error _ => "error".toList

/-- An answer is an object, and its type comes first. -/
theorem exists_toJson_eq (a : Answer) :
    ∃ members, a.toJson = .object (("type".toList, .string a.type) :: members) := by
  cases a <;> exact ⟨_, rfl⟩

theorem type_eq_of_toJson_eq {a b : Answer} (h : a.toJson = b.toJson) : a.type = b.type := by
  obtain ⟨members, ha⟩ := exists_toJson_eq a
  obtain ⟨members', hb⟩ := exists_toJson_eq b
  rw [ha, hb] at h
  simp only [Json.object.injEq, List.cons.injEq, Prod.mk.injEq, Json.string.injEq, true_and] at h
  exact h.1

/-- **An object tells which answer it shows.** -/
theorem toJson_injective {a b : Answer} (h : a.toJson = b.toJson) : a = b := by
  have htype := type_eq_of_toJson_eq h
  have hhelproll : "help".toList ≠ "roll".toList := by decide
  have hhelperror : "help".toList ≠ "error".toList := by decide
  have hrollerror : "roll".toList ≠ "error".toList := by decide
  match a, b with
  | help text, help text' =>
    simp only [toJson, Json.object.injEq, List.cons.injEq, Prod.mk.injEq, Json.string.injEq,
      true_and, and_true] at h
    rw [h]
  | error message, error message' =>
    simp only [toJson, Json.object.injEq, List.cons.injEq, Prod.mk.injEq, Json.string.injEq,
      true_and, and_true] at h
    rw [h]
  | roll reply, roll reply' =>
    obtain ⟨title, description, fields, color, quickRolls⟩ := reply
    obtain ⟨title', description', fields', color', quickRolls'⟩ := reply'
    simp only [toJson, Json.object.injEq, List.cons.injEq, Prod.mk.injEq, Json.string.injEq,
      Json.array.injEq, Json.boolean.injEq, Json.ofNat, Json.number.injEq, true_and,
      and_true, Int.natCast_inj] at h
    obtain ⟨htitle, rfl, hfields, rfl, rfl⟩ := h
    have hsame : fields = fields' :=
      List.map_injective_iff.mpr (fun _ _ => Reply.Field.toJson_injective) hfields
    rw [Json.ofText?_injective htitle, hsame]
  | help _, roll _ => exact absurd htype hhelproll
  | roll _, help _ => exact absurd htype.symm hhelproll
  | help _, error _ => exact absurd htype hhelperror
  | error _, help _ => exact absurd htype.symm hhelperror
  | roll _, error _ => exact absurd htype hrollerror
  | error _, roll _ => exact absurd htype.symm hrollerror

/-- **The text of an answer is read off as far as its object goes.** -/
theorem compact_append_inj {a b : Answer} {rest rest' : Text}
    (h : a.compact ++ rest = b.compact ++ rest') : a = b ∧ rest = rest' := by
  obtain ⟨members, ha⟩ := exists_toJson_eq a
  obtain ⟨members', hb⟩ := exists_toJson_eq b
  rw [compact, compact, ha, hb] at h
  obtain ⟨hmembers, hrest⟩ := Json.object_append_inj h
  exact ⟨toJson_injective (by rw [ha, hb, hmembers]), hrest⟩

theorem compact_injective : Function.Injective compact := by
  intro a b h
  exact (compact_append_inj (congrArg (· ++ []) h)).1

theorem lineFeed_not_mem_compact (a : Answer) : '\n' ∉ a.compact :=
  fun h => absurd (Json.le_of_mem_compact a.toJson _ h) (by decide)

end Answer

namespace Console

/-! ### The answers of a run -/

/-- The messages that lines hold, up to the first line that is not UTF-8. -/
def messages (lines : List (List UInt8)) : List Text :=
  ((lines.map Text.decode?).takeWhile Option.isSome).filterMap id

/-- The answers to lines, up to the first message on which the bot breaks off. -/
def answers (settings : Settings) (d : Dealer) (lines : List (List UInt8)) : List Answer :=
  ((Bot.evalAll settings d (messages lines)).1.takeWhile (· ≠ .broken)).filterMap Reaction.answer?

variable {settings : Settings} {d : Dealer} {line : List UInt8}

/-- No line is answered from one on that is not UTF-8. -/
theorem answers_of_unreadable (h : Text.decode? line = none) (rest : List (List UInt8)) :
    answers settings d (line :: rest) = [] := by
  have hnil : messages (line :: rest) = [] := by simp [messages, h]
  rw [answers, hnil]
  rfl

/-- A line that is UTF-8 is answered, and then the others are, unless the bot breaks off. -/
theorem answers_of_message {message : Text} (h : Text.decode? line = some message)
    (rest : List (List UInt8)) : answers settings d (line :: rest) =
      if (Bot.eval settings d message).1 = .broken then [] else
        (Bot.eval settings d message).1.answer?.toList ++
          answers settings (Bot.eval settings d message).2 rest := by
  have hcons : messages (line :: rest) = message :: messages rest := by
    simp [messages, h]
  have hall : (Bot.evalAll settings d (message :: messages rest)).1 =
      (Bot.eval settings d message).1 ::
        (Bot.evalAll settings (Bot.eval settings d message).2 (messages rest)).1 := rfl
  rw [answers, hcons, hall, List.takeWhile_cons]
  by_cases hbroken : (Bot.eval settings d message).1 = .broken
  · rw [if_pos hbroken, if_neg (by simp [hbroken])]
    rfl
  · rw [if_neg hbroken, if_pos (by simp [hbroken]), List.filterMap_cons, answers]
    cases (Bot.eval settings d message).1.answer? <;> rfl

/-- **A run writes its answers, one after another.** -/
theorem output_runLines (settings : Settings) : ∀ (lines : List (List UInt8)) (d : Dealer),
    (runLines settings d lines).output =
      (answers settings d lines).flatMap (display settings.output)
  | [], d => rfl
  | line :: rest, d => by
    have ih := output_runLines settings rest
    unfold runLines answerLine
    cases hread : Text.decode? line with
    | none => rw [answers_of_unreadable hread, List.flatMap_nil]
    | some message =>
      rw [answers_of_message hread]
      simp only
      cases heval : Bot.eval settings d message with
      | mk reaction after =>
        cases reaction with
        | silent => simp [ih, Reaction.answer?]
        | broken => simp
        | answered answer failure => simp [ih, Reaction.answer?]

/-! ### Lines of output -/

/-- Texts without line feeds are split again behind each of them. -/
theorem splitOn_flatMap {α : Type} {write : α → Text} (h : ∀ a, '\n' ∉ write a) :
    ∀ items : List α, (items.flatMap fun a => write a ++ ['\n']).splitOn '\n' =
      items.map write ++ [[]]
  | [] => by simp
  | a :: rest => by
    have ih := splitOn_flatMap h rest
    have hone : List.splitOn '\n' (write a) = [write a] := by
      refine List.splitOnP_eq_singleton fun c hc => ?_
      rw [beq_eq_false_iff_ne]
      rintro rfl
      exact h a hc
    unfold List.splitOn at ih hone ⊢
    rw [List.flatMap_cons, List.append_assoc, List.singleton_append,
      List.splitOnP_append_cons (p := (· == '\n')) _ _ rfl, hone, ih]
    rfl

/-- **JSON output has one line for each answer.** No text of an answer holds a
control character, whatever titles, fields and messages it shows; it ends where
its object ends, and it is the text of no other answer. So the output of a run
splits at its line feeds into exactly the texts of the answers, in their order. -/
theorem json_output_has_one_line_per_answer :
    (∀ a : Answer, ∀ c ∈ a.compact, 32 ≤ c.toNat) ∧
    (∀ (a b : Answer) (rest rest' : Text), a.compact ++ rest = b.compact ++ rest' →
      a = b ∧ rest = rest') ∧
    Function.Injective Answer.compact ∧
    ∀ (settings : Settings) (d : Dealer) (input : List UInt8), settings.output = .json →
      (run settings d input).output.splitOn '\n' =
        (answers settings d (lines input)).map Answer.compact ++ [[]] := by
  refine ⟨fun a => Json.le_of_mem_compact a.toJson,
    fun a b rest rest' h => Answer.compact_append_inj h, Answer.compact_injective, ?_⟩
  intro settings d input hjson
  rw [run, output_runLines, hjson]
  exact splitOn_flatMap Answer.lineFeed_not_mem_compact _

/-- The help text, whose line feeds are escaped, and the error of a roll with a quote
in its reason; the line between them holds no command. -/
theorem json_output_has_one_line_per_answer_for_three_lines :
    ∃ settings input first second, settings.output = .json ∧
    lines input = ["!h".toList, "hi".toList, "!r 0d6 # \"".toList].map Text.encode ∧
    first = Answer.help (helpText "!".toList) ∧ '\n' ∈ helpText "!".toList ∧
    second = Answer.error (Bot.markError
      (DiceError.countOutOfRange "0d6".toList (some 0)).message) ∧
    (run settings (.ofSeed 7) input).output.splitOn '\n' = [first.compact, second.compact, []] ∧
    ∀ rest rest', first.compact ++ rest ≠ second.compact ++ rest' := by
  let settings : Settings := ⟨"!".toList, ["/r".toList], 300, .json⟩
  let input : List UInt8 := Text.encode "!h\nhi\n!r 0d6 # \"".toList
  let first : Answer := .help (helpText "!".toList)
  let second : Answer :=
    .error (Bot.markError (DiceError.countOutOfRange "0d6".toList (some 0)).message)
  have hlines : lines input = ["!h".toList, "hi".toList, "!r 0d6 # \"".toList].map
      Text.encode := by decide
  have hanswers : answers settings (.ofSeed 7) (lines input) = [first, second] := by
    rw [hlines]
    rfl
  have hfeed : '\n' ∈ helpText "!".toList := by
    have hstart : '\n' ∈ helpStart := by decide
    simp only [helpText, List.mem_append, hstart, true_or]
  obtain ⟨-, hread, -, hrun⟩ := json_output_has_one_line_per_answer
  refine ⟨settings, input, first, second, rfl, hlines, rfl, hfeed, rfl, ?_, ?_⟩
  · rw [hrun settings (.ofSeed 7) input rfl, hanswers]
    rfl
  · intro rest rest' h
    exact nomatch (hread first second rest rest' h).1

end Console
end DiceTower
