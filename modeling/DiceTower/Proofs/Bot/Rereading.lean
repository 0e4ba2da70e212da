/-
# Commands are read again as they are written

The text and the reason of a roll that is read from a message are trimmed,
the text holds no `#`, and the reason is not empty (`Command.Sound`). A
command of this kind is written as its keyword, its text, and its reason
behind the mark; and this is of its own form and no other, so that behind
every command prefix it is read as the same command
(`Command.parse_append_render`).

Key definition: `Command.Sound`.
Key theorems: `Command.sound_of_parse`, `Command.asks_render`,
`Command.parse_append_render`.
-/
import DiceTower.Proofs.Bot.Broken

namespace DiceTower
namespace Command

open Text

/-! ### What is read from messages -/

/-- The text of a roll is trimmed and holds no mark; its reason is trimmed and
not empty. -/
def Sound : Command → Prop
  | help => True
  | quick _ => True
  | roll text _ reason => '#' ∉ text ∧ trim text = text ∧ ∀ r, reason = some r → trim r = r ∧ r ≠ []

theorem not_mem_trim {text : Text} {c : Char} (h : c ∉ text) : c ∉ trim text :=
  fun hc => h (mem_of_mem_trim hc)

theorem BodyReads.sound {b text : Text} {reason : Option Text} (h : BodyReads b text reason)
    (policy : Option Policy) : (roll text policy reason).Sound := by
  cases h with
  | plain h =>
    refine ⟨not_mem_trim h, trim_trim _, ?_⟩
    intro r hr
    cases hr
  | unreasoned h he =>
    refine ⟨not_mem_trim h, trim_trim _, ?_⟩
    intro r hr
    cases hr
  | reasoned h he =>
    refine ⟨not_mem_trim h, trim_trim _, ?_⟩
    intro r hr
    rw [← Option.some.inj hr]
    exact ⟨trim_trim _, he⟩

/-- Every command that is read from a message is sound. -/
theorem sound_of_parse {lead message : Text} {leads : List Text} {command : Command}
    (h : parse lead leads message = .ok (some command)) : command.Sound := by
  have hok : ∀ e, parse lead leads message ≠ .error e := by
    rw [h]
    rintro e ⟨⟩
  have hanswers := (parse_eq_ok_iff_answers hok _).mp h
  cases hanswers with
  | command hmessage hblanks hs hasks =>
    cases hasks with
    | quick hform hrest => trivial
    | policy hform hbody => exact hbody.sound _
    | plain hform hbody => exact hbody.sound _
    | help hquick hpolicy hplain => trivial
  | roll hlead hleads hbefore hfits =>
    obtain ⟨b, -, hbody, -⟩ := hfits
    exact hbody.sound _

/-! ### What is written -/

/-- The text of a roll, with the reason behind its mark, is a body that reads as the two. -/
theorem bodyReads_written {text : Text} {policy : Option Policy} {reason : Option Text}
    (h : (roll text policy reason).Sound) : BodyReads (text ++ renderReason reason) text reason := by
  obtain ⟨hmark, htext, hreason⟩ := h
  cases reason with
  | none =>
    have hbody := BodyReads.plain hmark
    rw [htext] at hbody
    rwa [renderReason, List.append_nil]
  | some r =>
    obtain ⟨hr, hne⟩ := hreason r rfl
    have hspace : ∀ c ∈ [' '], isSpace c = true := by
      intro c hc
      rw [List.mem_singleton.mp hc]
      rfl
    have hfront : trim (text ++ [' ']) = text := by rw [trim_append_of_isSpace hspace, htext]
    have hback : trim ([' '] ++ r) = r := by rw [trim_append_of_isSpace_left hspace, hr]
    have hbody : BodyReads ((text ++ [' ']) ++ '#' :: ([' '] ++ r)) (trim (text ++ [' ']))
        (some (trim ([' '] ++ r))) := by
      refine BodyReads.reasoned ?_ (by rwa [hback])
      simpa using hmark
    rw [hfront, hback, List.append_assoc] at hbody
    exact hbody

theorem BodyReads.cons_blank {b text : Text} {reason : Option Text} (h : BodyReads b text reason) :
    BodyReads (' ' :: b) text reason := by
  have hskip : skipBlanks (' ' :: b) = skipBlanks b := rfl
  rw [bodyReads_iff, ← body_skipBlanks, hskip, body_skipBlanks]
  exact bodyReads_iff.mp h

theorem gap_space : Gap [' '] := by
  refine ⟨?_, List.cons_ne_nil _ _⟩
  intro c hc
  rw [List.mem_singleton.mp hc]
  rfl

theorem noBlankAhead_render (command : Command) : NoBlankAhead command.render := by
  have hhead : ∃ c, command.render.head? = some c ∧ isBlank c = false := by
    match command with
    | help => exact ⟨'h', rfl, rfl⟩
    | quick _ => exact ⟨'q', rfl, rfl⟩
    | roll _ none _ => exact ⟨'r', rfl, rfl⟩
    | roll _ (some .advantage) _ => exact ⟨'a', rfl, rfl⟩
    | roll _ (some .disadvantage) _ => exact ⟨'d', rfl, rfl⟩
  obtain ⟨d, hd, hblank⟩ := hhead
  intro c hc
  rw [hd] at hc
  rwa [← Option.some.inj hc]

theorem quickForm_render (k : QuickRoll) : QuickForm (quick k).render k [] := by
  have hkeyword : StartsWith k.keyword k.keyword [] := by
    refine ⟨k.keyword, ?_, (List.append_nil _).symm⟩
    unfold Spells
    cases k <;> decide
  exact ⟨"q".toList, by decide, [' '], k.keyword, ⟨"q".toList, rfl, rfl⟩, gap_space, hkeyword⟩

theorem policyForm_render (text : Text) (policy : Policy) (reason : Option Text) :
    PolicyForm (roll text (some policy) reason).render policy (text ++ renderReason reason) := by
  cases policy with
  | advantage =>
    exact ⟨"adv".toList, by decide, [' '], ⟨"adv".toList, rfl, by simp [render, rollKeyword]⟩,
      gap_space⟩
  | disadvantage =>
    exact ⟨"dis".toList, by decide, [' '], ⟨"dis".toList, rfl, by simp [render, rollKeyword]⟩,
      gap_space⟩

theorem plainForm_render (text : Text) (reason : Option Text) :
    PlainForm (roll text none reason).render (' ' :: (text ++ renderReason reason)) :=
  plainForm_iff.mpr (Or.inl ⟨"roll".toList, rfl, by simp [render, rollKeyword]⟩)

/-- **A command is written in its own form.** -/
theorem asks_render {command : Command} (h : command.Sound) : Asks command.render command := by
  match command with
  | help =>
    have hopening : opening help.render = some 'h' := rfl
    refine Asks.help ?_ ?_ ?_
    · intro k rest _ hform
      rw [hform.opening] at hopening
      cases hopening
    · exact not_policyForm_of_opening hopening (by decide) (by decide)
    · exact not_plainForm_of_opening hopening (by decide)
  | quick k => exact Asks.quick (quickForm_render k) (fun c hc => absurd hc List.not_mem_nil)
  | roll text (some policy) reason =>
    exact Asks.policy (policyForm_render text policy reason) (bodyReads_written h)
  | roll text none reason =>
    exact Asks.plain (plainForm_render text reason) (bodyReads_written h).cons_blank

/-! ### Reading again -/

theorem QuickBreaks.opening {t : Text} (h : QuickBreaks t) : opening t = some 'q' := by
  have hheads : ∀ word ∈ quickWords, word.head? = some 'q' := by decide
  rcases h with ⟨rest, hquic⟩ | ⟨word, hword, gap, name, hs, -⟩
  · exact opening_of_startsWith hquic rfl
  · exact opening_of_startsWith hs (hheads word hword)

/-- Only quick rolls are written with the letter that breaking off takes, and
those are written without the Kelvin sign. -/
theorem not_quickBreaks_render (command : Command) : ¬ QuickBreaks command.render := by
  intro h
  have hopening := h.opening
  match command with
  | help => cases hopening
  | quick k =>
    have hkelvin : kelvin ∉ (quick k).render := by cases k <;> decide
    exact hkelvin h.kelvin_mem
  | roll _ none _ => cases hopening
  | roll _ (some .advantage) _ => cases hopening
  | roll _ (some .disadvantage) _ => cases hopening

theorem parse_append_render_ne_error (lead : Text) (leads : List Text) (command : Command) :
    ∀ e, parse lead leads (lead ++ command.render) ≠ .error e := by
  rintro ⟨⟩ h
  rw [parse_eq_error_iff, breaks_append_iff,
    skipBlanks_of_noBlankAhead (noBlankAhead_render command)] at h
  exact not_quickBreaks_render command h

/-- **Commands are read again as they are written.** A command that is read
from some message, under whatever prefixes, is read again from its writing
behind any command prefix, with its text, policy and reason as they were;
reading does not break off, and the roll prefixes have no say. -/
theorem parse_append_render {lead message : Text} {leads : List Text} {command : Command}
    (h : parse lead leads message = .ok (some command)) (other : Text) (others : List Text) :
    parse other others (other ++ command.render) = .ok (some command) := by
  have hok := parse_append_render_ne_error other others command
  refine (parse_eq_ok_iff_answers hok _).mpr ?_
  have hblanks : Blanks [] := fun c hc => absurd hc List.not_mem_nil
  exact Answers.command rfl hblanks (noBlankAhead_render command) (asks_render (sound_of_parse h))

/-- A roll prefix that is a word of the writing, a text that begins with another
keyword and ends with the Kelvin sign between wide blanks, and a reason with
marks in it; read again behind an empty command prefix. -/
theorem parse_append_render_of_wide_blanks :
    parse "!".toList ["roll".toList]
        "roll\u3000quic\u212a d6\u2003#\u00a0#1 # \n".toList =
        .ok (some (.roll "quic\u212a d6".toList none (some "#1 #".toList))) ∧
      parse [] ["roll".toList] "roll quic\u212a d6 # #1 #".toList =
        .ok (some (.roll "quic\u212a d6".toList none (some "#1 #".toList))) := by
  have h : parse "!".toList ["roll".toList]
      "roll\u3000quic\u212a d6\u2003#\u00a0#1 # \n".toList =
        .ok (some (.roll "quic\u212a d6".toList none (some "#1 #".toList))) := by rfl
  exact ⟨h, parse_append_render h [] ["roll".toList]⟩

end Command
end DiceTower
