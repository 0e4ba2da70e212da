/-
# Criticals and how replies highlight them

A roll is critical for one reason only: it is no batch, and the result that is
highlighted is that of a lone die of 20 sides at its end. The reply to it has
one field and a colour of its own then, and no field and the plain colour
elsewhere, and it offers quick rolls whenever the highlighted result has dice
of 20 sides (`Roll.Highlighted`).

Under a policy the die that is kept decides, and the policies compare faces as
they compare naturals, cut where the total saturates (`Policy.keptFace`). No
face of the die is cut unless the modifier lies within 20 of the end of the
signed range. Up to there, advantage succeeds if either die shows 20 and fails
if both show 1, and disadvantage the other way round (`Kept.CriticalByDice`).

Key definitions: `Result.IsLoneTwenty`, `Roll.Shows`, `Roll.Highlighted`,
`Policy.keptFace`, `Kept.CriticalByDice`.
Key theorems: `Result.Regular.critical_eq_some_iff`, `Roll.Regular.highlighted`,
`Kept.criticalByDice_choose`, `Roller.criticals_are_highlighted`.
-/
import DiceTower.Bot.Reply
import DiceTower.Proofs.Roll.Choice

namespace DiceTower

/-! ### Critical results -/

/-- What the die shows at a critical. -/
def Critical.face : Critical → Nat
  | success => 20
  | failure => 1

namespace Result

/-- The result is that of a lone die of 20 sides, with the given natural. -/
def IsLoneTwenty (r : Result) (natural : Nat) : Prop :=
  r.expression.count = 1 ∧ r.expression.sides = 20 ∧ r.natural = natural

/-- A lone die of 20 sides is critical at its two ends. -/
theorem critical_of_face {r : Result} (hcount : r.expression.count = 1)
    (hsides : r.expression.sides = 20) {face : Nat} (hface : r.faces = [face]) (c : Critical) :
    r.critical = some c ↔ face = c.face := by
  have hdie : r.expression.count = 1 ∧ r.expression.sides = criticalSides := ⟨hcount, hsides⟩
  have hcritical : r.critical =
      if face = 20 then some .success else if face = 1 then some .failure else none := by
    rw [critical, if_pos hdie, hface]
    rfl
  rw [hcritical]
  by_cases hsuccess : face = 20
  · subst hsuccess
    cases c <;> decide
  · rw [if_neg hsuccess]
    by_cases hfailure : face = 1
    · subst hfailure
      cases c <;> decide
    · rw [if_neg hfailure]
      cases c <;> simp [Critical.face, hsuccess, hfailure]

/-- The natural of a lone die is its face, so a regular result is critical by its natural. -/
theorem Regular.critical_eq_some_iff {r : Result} (h : r.Regular) (c : Critical) :
    r.critical = some c ↔ r.IsLoneTwenty c.face := by
  by_cases hdie : r.expression.count = 1 ∧ r.expression.sides = 20
  · obtain ⟨hcount, hsides⟩ := hdie
    obtain ⟨face, hface⟩ := List.length_eq_one_iff.mp (h.length_faces.trans hcount)
    have hnatural : r.natural = face := by rw [h.natural_eq, hface, List.sum_singleton]
    rw [critical_of_face hcount hsides hface, IsLoneTwenty, hnatural]
    exact ⟨fun h => ⟨hcount, hsides, h⟩, fun h => h.2.2⟩
  · have hnone : r.critical = none := if_neg hdie
    rw [hnone]
    constructor
    · intro h
      cases h
    · rintro ⟨hcount, hsides, -⟩
      exact absurd ⟨hcount, hsides⟩ hdie

end Result

/-! ### Highlights of a roll -/

/-- The roll is no batch, and its single or chosen result has the property. -/
def Roll.Shows (P : Result → Prop) : Roll → Prop
  | simple result => P result
  | kept pair => P pair.chosen
  | batch _ => False

/-- The roll is critical, and the reply to it has a field, a colour and quick
rolls, exactly if the result that is highlighted calls for it. -/
structure Roll.Highlighted (made : Roll) : Prop where
  success_iff : made.critical = some .success ↔ made.Shows (·.IsLoneTwenty 20)
  failure_iff : made.critical = some .failure ↔ made.Shows (·.IsLoneTwenty 1)
  /-- One field for a critical, and none otherwise. -/
  field_success : ∀ title, (Reply.ofRoll made title).fields =
    [⟨"⚡ CRITICAL SUCCESS! ⚡".toList, "Natural 20!".toList⟩] ↔ made.Shows (·.IsLoneTwenty 20)
  field_failure : ∀ title, (Reply.ofRoll made title).fields =
    [⟨"💀 CRITICAL FAILURE! 💀".toList, "Natural 1!".toList⟩] ↔ made.Shows (·.IsLoneTwenty 1)
  fields_plain : ∀ title, (Reply.ofRoll made title).fields = [] ↔
    ¬ made.Shows (·.IsLoneTwenty 20) ∧ ¬ made.Shows (·.IsLoneTwenty 1)
  /-- Green and red for a critical, and blue otherwise. -/
  color_success : ∀ title,
    (Reply.ofRoll made title).color = 0x00FF00 ↔ made.Shows (·.IsLoneTwenty 20)
  color_failure : ∀ title,
    (Reply.ofRoll made title).color = 0xFF0000 ↔ made.Shows (·.IsLoneTwenty 1)
  color_plain : ∀ title, (Reply.ofRoll made title).color = 0x3498DB ↔
    ¬ made.Shows (·.IsLoneTwenty 20) ∧ ¬ made.Shows (·.IsLoneTwenty 1)
  quickRolls_iff : ∀ title,
    (Reply.ofRoll made title).quickRolls = true ↔ made.Shows (·.expression.sides = 20)

namespace Reply

/-- The fields tell the criticals apart. -/
theorem eq_of_fieldOf : ∀ {a b : Option Critical},
    (a.map fieldOf).toList = (b.map fieldOf).toList → a = b := by
  intro a b h
  rcases a with _ | (_ | _) <;> rcases b with _ | (_ | _) <;> revert h <;> decide

/-- The colours tell the criticals apart. -/
theorem colorOf_injective : ∀ {a b : Option Critical}, colorOf a = colorOf b → a = b := by
  intro a b h
  rcases a with _ | (_ | _) <;> rcases b with _ | (_ | _) <;> revert h <;> decide

theorem fields_ofRoll_eq_iff {made : Roll} {title : Option Text} (critical : Option Critical) :
    (ofRoll made title).fields = (critical.map fieldOf).toList ↔ made.critical = critical :=
  ⟨eq_of_fieldOf, fun h => by rw [← h, ofRoll]⟩

theorem color_ofRoll_eq_iff {made : Roll} {title : Option Text} (critical : Option Critical) :
    (ofRoll made title).color = colorOf critical ↔ made.critical = critical :=
  ⟨colorOf_injective, fun h => by rw [← h, ofRoll]⟩

end Reply

namespace Roll

theorem quickRolls_ofRoll_iff (made : Roll) (title : Option Text) :
    (Reply.ofRoll made title).quickRolls = true ↔ made.Shows (·.expression.sides = 20) := by
  cases made with
  | simple result => exact beq_iff_eq
  | kept pair => exact beq_iff_eq
  | batch b => simp [Reply.ofRoll, primary, Shows]

/-- The critical of a regular roll is that of the result it highlights. -/
theorem Regular.critical_eq_some_iff {made : Roll} (h : made.Regular) (c : Critical) :
    made.critical = some c ↔ made.Shows (·.IsLoneTwenty c.face) := by
  cases made with
  | simple result => exact Result.Regular.critical_eq_some_iff h c
  | kept pair => exact Result.Regular.critical_eq_some_iff h.1 c
  | batch b => simp [critical, primary, Shows]

theorem Regular.critical_eq_none_iff {made : Roll} (h : made.Regular) : made.critical = none ↔
    ¬ made.Shows (·.IsLoneTwenty 20) ∧ ¬ made.Shows (·.IsLoneTwenty 1) := by
  have hsuccess : _ ↔ made.Shows (·.IsLoneTwenty 20) := h.critical_eq_some_iff .success
  have hfailure : _ ↔ made.Shows (·.IsLoneTwenty 1) := h.critical_eq_some_iff .failure
  rw [← hsuccess, ← hfailure]
  rcases made.critical with _ | (_ | _) <;> decide

/-- **A regular roll is highlighted for what it shows.** -/
theorem Regular.highlighted {made : Roll} (h : made.Regular) : made.Highlighted where
  success_iff := h.critical_eq_some_iff .success
  failure_iff := h.critical_eq_some_iff .failure
  field_success _ :=
    (Reply.fields_ofRoll_eq_iff (some .success)).trans (h.critical_eq_some_iff .success)
  field_failure _ :=
    (Reply.fields_ofRoll_eq_iff (some .failure)).trans (h.critical_eq_some_iff .failure)
  fields_plain _ := (Reply.fields_ofRoll_eq_iff none).trans h.critical_eq_none_iff
  color_success _ :=
    (Reply.color_ofRoll_eq_iff (some .success)).trans (h.critical_eq_some_iff .success)
  color_failure _ :=
    (Reply.color_ofRoll_eq_iff (some .failure)).trans (h.critical_eq_some_iff .failure)
  color_plain _ := (Reply.color_ofRoll_eq_iff none).trans h.critical_eq_none_iff
  quickRolls_iff title := made.quickRolls_ofRoll_iff title

end Roll

/-! ### Criticals under a policy -/

/-- The face that a policy keeps of two, compared after cutting them at a number; the
first on a tie. -/
def Policy.keptFace (policy : Policy) (limit : Int) (first second : Nat) : Nat :=
  if Kept.KeepsFirst policy (min first limit) (min second limit) then first else second

/-- Where neither face is cut, the policy keeps the face it is after. -/
theorem Policy.keptFace_eq_better {policy : Policy} {limit : Int} {first second : Nat}
    (hfirst : first ≤ limit) (hsecond : second ≤ limit) :
    policy.keptFace limit first second = policy.better first second := by
  rw [keptFace, Int.min_eq_left hfirst, Int.min_eq_left hsecond, better_eq_ite]

namespace Kept

/-- What two policies make of two dice of 20 sides, rolled for a lone die with a modifier. -/
structure CriticalByDice (modifier : Int) (first second : Nat) (advantage disadvantage : Kept) :
    Prop where
  /-- Below the end of the range, the higher face decides under advantage. -/
  advantage_success : modifier ≤ 9223372036854775807 - 20 →
    ((Roll.kept advantage).critical = some .success ↔ first = 20 ∨ second = 20)
  advantage_failure : modifier ≤ 9223372036854775807 - 20 →
    ((Roll.kept advantage).critical = some .failure ↔ first = 1 ∧ second = 1)
  /-- Below the end of the range, the lower face decides under disadvantage. -/
  disadvantage_success : modifier ≤ 9223372036854775807 - 20 →
    ((Roll.kept disadvantage).critical = some .success ↔ first = 20 ∧ second = 20)
  disadvantage_failure : modifier ≤ 9223372036854775807 - 20 →
    ((Roll.kept disadvantage).critical = some .failure ↔ first = 1 ∨ second = 1)
  /-- Up to the end of the range, the face decides that is kept after cutting both. -/
  advantage_iff : ∀ c, (Roll.kept advantage).critical = some c ↔
    Policy.keptFace .advantage (9223372036854775807 - modifier) first second = c.face
  disadvantage_iff : ∀ c, (Roll.kept disadvantage).critical = some c ↔
    Policy.keptFace .disadvantage (9223372036854775807 - modifier) first second = c.face

/-- Of two rolls of a lone die the one with the kept face is chosen. -/
theorem chosen_ofFaces (e : Expression) (policy : Policy) (first second : Nat) :
    (choose (Result.ofFaces e [first]) (Result.ofFaces e [second]) policy).chosen =
      Result.ofFaces e [policy.keptFace (Signed64.highest - e.modifier) first second] := by
  have hkeeps : KeepsFirst policy (Result.ofFaces e [first]).total (Result.ofFaces e [second]).total ↔
      KeepsFirst policy (min first (Signed64.highest - e.modifier))
        (min second (Signed64.highest - e.modifier)) :=
    keepsFirst_total_iff (Result.totalIsSum_ofFaces e [first])
      (Result.totalIsSum_ofFaces e [second]) rfl rfl policy
  rcases choose_cases (Result.ofFaces e [first]) (Result.ofFaces e [second]) policy
    with ⟨hkeep, h⟩ | ⟨hkeep, h⟩
  · rw [h, Policy.keptFace, if_pos (hkeeps.mp hkeep)]
  · rw [h, Policy.keptFace, if_neg fun hcut => hkeep (hkeeps.mpr hcut)]

section

variable {e : Expression} {first second : Nat}

theorem critical_ofFaces_iff (hcount : e.count = 1) (hsides : e.sides = 20) (policy : Policy)
    (c : Critical) :
    (Roll.kept (choose (Result.ofFaces e [first]) (Result.ofFaces e [second]) policy)).critical =
        some c ↔
      policy.keptFace (Signed64.highest - e.modifier) first second = c.face := by
  show (choose _ _ policy).chosen.critical = some c ↔ _
  rw [chosen_ofFaces]
  exact Result.critical_of_face hcount hsides rfl c

/-- A face of the die is not cut, so the face that the policy is after decides. -/
theorem critical_ofFaces_iff_of_le (hcount : e.count = 1) (hsides : e.sides = 20)
    (hfirst : first ≤ 20) (hsecond : second ≤ 20) (hmodifier : e.modifier ≤ Signed64.highest - 20)
    (policy : Policy) (c : Critical) :
    (Roll.kept (choose (Result.ofFaces e [first]) (Result.ofFaces e [second]) policy)).critical =
        some c ↔ policy.better first second = c.face := by
  rw [critical_ofFaces_iff hcount hsides,
    Policy.keptFace_eq_better (by omega) (by omega)]

/-- **Two dice settle the criticals under either policy.** -/
theorem criticalByDice_choose (hcount : e.count = 1) (hsides : e.sides = 20)
    (hfirst : 1 ≤ first ∧ first ≤ 20) (hsecond : 1 ≤ second ∧ second ≤ 20) :
    CriticalByDice e.modifier first second
      (choose (Result.ofFaces e [first]) (Result.ofFaces e [second]) .advantage)
      (choose (Result.ofFaces e [first]) (Result.ofFaces e [second]) .disadvantage) := by
  have hplain := @critical_ofFaces_iff_of_le e first second hcount hsides hfirst.2 hsecond.2
  refine ⟨fun hm => ?_, fun hm => ?_, fun hm => ?_, fun hm => ?_,
    critical_ofFaces_iff hcount hsides .advantage, critical_ofFaces_iff hcount hsides .disadvantage⟩
  · rw [hplain hm]
    show max first second = 20 ↔ _
    omega
  · rw [hplain hm]
    show max first second = 1 ↔ _
    omega
  · rw [hplain hm]
    show min first second = 20 ↔ _
    omega
  · rw [hplain hm]
    show min first second = 1 ↔ _
    omega

end

end Kept

namespace Roller

variable {σ : Type} {roller : Roller σ}

/-- The result of a lone die has the one face that the die shows. -/
theorem roll_of_lone (roller : Roller σ) {e : Expression} {sides : Nat} (hcount : e.count = 1)
    (hsides : e.sides = sides) (state : σ) : roller.roll e state =
      (Result.ofFaces e [(roller.die sides state).1], (roller.die sides state).2) := by
  simp only [roll, hcount, hsides, rollDice]

/-- **Criticals and highlights.** With dice that show their own faces, every
roll of a text, of a token under a policy, or of one expression is critical,
and highlighted in its reply, exactly if the result it shows is that of a lone
die of 20 sides at its end. Where such a die is rolled twice under a policy, the
two dice settle the critical. -/
theorem criticals_are_highlighted (hdie : roller.OnDie) (state : σ) :
    (∀ made, roller.Made state made ∨ (∃ e, made = .simple (roller.roll e state).1) →
      made.Highlighted) ∧
    ∀ token e, Expression.parse token = .ok e → e.count = 1 → e.sides = 20 →
      ∃ first second middle final advantage disadvantage,
        roller.die 20 state = (first, middle) ∧ roller.die 20 middle = (second, final) ∧
        roller.rollKept token .advantage state = (.ok advantage, final) ∧
        roller.rollKept token .disadvantage state = (.ok disadvantage, final) ∧
        Kept.CriticalByDice e.modifier first second advantage disadvantage := by
  refine ⟨?_, ?_⟩
  · rintro made (hmade | ⟨e, rfl⟩)
    · exact (hmade.regular hdie).highlighted
    · exact Roll.Regular.highlighted (regular_roll hdie e state)
  · intro token e hparse hcount hsides
    have hkept := roller.rollKept_of_ok hparse
    simp only [roller.roll_of_lone hcount hsides] at hkept
    exact ⟨_, _, _, _, _, _, rfl, rfl, hkept .advantage state, hkept .disadvantage state,
      Kept.criticalByDice_choose hcount hsides (hdie 20 (by decide) _) (hdie 20 (by decide) _)⟩

/-- At the end of the range both dice are cut to nothing: the first is kept, so
a 1 before a 20 is a failure under advantage. -/
theorem criticals_are_highlighted_at_end :
    ∃ e advantage final, Expression.parse "01D020+9223372036854775807".toList = .ok e ∧
      Script.roller.OnDie ∧ e.count = 1 ∧ e.sides = 20 ∧
      Script.roller.rollKept "01D020+9223372036854775807".toList .advantage
        (Script.ofFaces [1, 20]) = (.ok advantage, final) ∧
      advantage.other.natural = 20 ∧ (Roll.kept advantage).critical = some .failure ∧
      (Reply.ofRoll (.kept advantage) none).color = 0xFF0000 := by
  obtain ⟨e, hparse, hcount, hsides, hmodifier⟩ :
      ∃ e, Expression.parse "01D020+9223372036854775807".toList = .ok e ∧ e.count = 1 ∧
        e.sides = 20 ∧ e.modifier = 9223372036854775807 := ⟨_, rfl, rfl, rfl, rfl⟩
  obtain ⟨hmade, hdice⟩ := criticals_are_highlighted onDie_script (Script.ofFaces [1, 20])
  obtain ⟨first, second, middle, final, advantage, disadvantage, hfirst, hsecond, hkept, -, hcritical⟩ :=
    hdice _ e hparse hcount hsides
  obtain ⟨rfl, rfl⟩ : 1 = first ∧ ⟨[1, 20], 1⟩ = middle := Prod.mk.inj hfirst
  obtain ⟨rfl, rfl⟩ : 20 = second ∧ ⟨[1, 20], 2⟩ = final := Prod.mk.inj hsecond
  have hfailure : (Roll.kept advantage).critical = some .failure := by
    rw [hcritical.advantage_iff, hmodifier]
    rfl
  have hother : advantage.other.natural = 20 := by
    obtain ⟨pair, hpair, hnatural⟩ : ∃ pair, (Script.roller.rollKept
        "01D020+9223372036854775807".toList .advantage (Script.ofFaces [1, 20])).1 = .ok pair ∧
          pair.other.natural = 20 := ⟨_, rfl, rfl⟩
    rw [hkept] at hpair
    rw [Except.ok.inj hpair, hnatural]
  have hhighlighted : (Roll.kept advantage).Highlighted :=
    hmade _ (Or.inl (.kept (congrArg Prod.fst hkept)))
  exact ⟨e, advantage, _, hparse, onDie_script, hcount, hsides, hkept, hother, hfailure,
    (hhighlighted.color_failure none).mpr (hhighlighted.failure_iff.mp hfailure)⟩

end Roller
end DiceTower
