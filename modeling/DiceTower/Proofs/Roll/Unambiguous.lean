/-
# The text of a roll is unambiguous

A result that was rolled from a parsed expression can be read off the text it
is written as, whatever follows (`Result.eq_of_render_append`): a notation
holds no asterisk, so it ends where the markup behind it begins; it parses to
one expression only; a face ends where a comma or the bracket follows; and
expression and faces settle the sums. A list of such results is therefore read
off one by one, up to the heading of the grand total.

So the text tells one roll from another, except that it gives no more than the
total of the result that a pair put aside.

Key definitions: `Result.Rolled`, `Roll.Built`, `Roll.Alike`.
Key theorems: `renderFaces_append_inj`, `Result.eq_of_render_append`,
`eq_of_renderResults_append`, `Roll.render_eq_iff_alike`.
-/
import DiceTower.Proofs.Notation.Tokens
import DiceTower.Proofs.Text.Runs
import DiceTower.Roll.Render
import DiceTower.Roll.Script

namespace DiceTower

open Text Notation Expression

/-! ### Faces -/

/-- The first face ends before a comma or the bracket. -/
theorem renderFaces_cons (face : Nat) (others : List Nat) (rest : Text) :
    ∃ behind, renderFaces (face :: others) ++ ']' :: rest = ofNat face ++ behind ∧
      (others = [] ∧ behind = ']' :: rest ∨
        others ≠ [] ∧ behind = ',' :: ' ' :: (renderFaces others ++ ']' :: rest)) := by
  cases others with
  | nil => exact ⟨']' :: rest, rfl, Or.inl ⟨rfl, rfl⟩⟩
  | cons second others =>
    refine ⟨_, ?_, Or.inr ⟨by simp, rfl⟩⟩
    simp [renderFaces]

/-- **Faces are read off one by one.** -/
theorem renderFaces_append_inj : ∀ {faces faces' : List Nat} {rest rest' : Text},
    renderFaces faces ++ ']' :: rest = renderFaces faces' ++ ']' :: rest' →
    faces = faces' ∧ rest = rest'
  | [], [], rest, rest', h => by simpa [renderFaces] using h
  | [], face :: others, rest, rest', h => by
    obtain ⟨behind, hbehind, -⟩ := renderFaces_cons face others rest'
    obtain ⟨c, digits, hdigits, hc⟩ := exists_ofNat_eq_cons face
    rw [hbehind, hdigits] at h
    obtain rfl : ']' = c := (List.cons.inj h).1
    exact absurd hc (by decide)
  | face :: others, [], rest, rest', h => by
    obtain ⟨behind, hbehind, -⟩ := renderFaces_cons face others rest
    obtain ⟨c, digits, hdigits, hc⟩ := exists_ofNat_eq_cons face
    rw [hbehind, hdigits] at h
    obtain rfl : c = ']' := (List.cons.inj h).1
    exact absurd hc (by decide)
  | face :: others, face' :: others', rest, rest', h => by
    obtain ⟨behind, hbehind, hcases⟩ := renderFaces_cons face others rest
    obtain ⟨behind', hbehind', hcases'⟩ := renderFaces_cons face' others' rest'
    have hahead : NoDigitAhead behind := by
      rcases hcases with ⟨-, rfl⟩ | ⟨-, rfl⟩ <;> exact noDigitAhead_cons (by decide) _
    have hahead' : NoDigitAhead behind' := by
      rcases hcases' with ⟨-, rfl⟩ | ⟨-, rfl⟩ <;> exact noDigitAhead_cons (by decide) _
    rw [hbehind, hbehind'] at h
    obtain ⟨rfl, hrest⟩ := ofNat_append_inj hahead hahead' h
    rcases hcases with ⟨rfl, rfl⟩ | ⟨-, rfl⟩
    · rcases hcases' with ⟨rfl, rfl⟩ | ⟨-, rfl⟩
      · exact ⟨rfl, (List.cons.inj hrest).2⟩
      · exact absurd (List.cons.inj hrest).1 (by decide)
    · rcases hcases' with ⟨rfl, rfl⟩ | ⟨-, rfl⟩
      · exact absurd (List.cons.inj hrest).1 (by decide)
      · have htail := (List.cons.inj (List.cons.inj hrest).2).2
        obtain ⟨rfl, hend⟩ := renderFaces_append_inj htail
        exact ⟨rfl, hend⟩

/-! ### Results -/

/-- The result was rolled with some roller from an expression that some token
stands for. -/
def Result.Rolled (r : Result) : Prop :=
  ∃ (σ : Type) (roller : Roller σ) (state : σ) (token : Text) (e : Expression),
    parse token = .ok e ∧ (roller.roll e state).1 = r

/-- It is the result of the expression it is written as and of its faces. -/
theorem Result.Rolled.exists_parse {r : Result} (h : r.Rolled) : ∃ e faces,
    parse r.expression.written = .ok e ∧ r.expression.written = e.written ∧ r = ofFaces e faces := by
  obtain ⟨σ, roller, state, token, e, hp, rfl⟩ := h
  have hw : e.written = token := written_parse hp
  refine ⟨e, (roller.rollDice e.sides e.count state).1, ?_, rfl, rfl⟩
  show parse e.written = .ok e
  rw [hw, hp]

/-- A parsed notation holds no asterisk. -/
theorem Expression.ne_asterisk_of_parse {token : Text} {e : Expression} (h : parse token = .ok e) :
    ∀ c ∈ token, (c != '*') = true := by
  intro c hc
  rcases mem_cases_of_parse h hc with hdigit | (rfl | rfl) | (rfl | rfl)
  · rw [bne_iff_ne]
    rintro rfl
    exact absurd hdigit (by decide)
  all_goals decide

/-- The text of a result, its written form and its faces apart. -/
theorem Result.render_ofFaces (e : Expression) (faces : List Nat) (rest : Text) :
    ∃ behind, (ofFaces e faces).render ++ rest = "🎲 **".toList ++ (e.written ++
      ("**\nRolls: [".toList ++ (renderFaces faces ++ ']' :: behind))) := by
  refine ⟨renderModifier e.modifier ++ ("\n**Total: ".toList ++
    (ofInt (ofFaces e faces).total ++ ("**".toList ++ rest))), ?_⟩
  have hbracket : "]".toList = [']'] := rfl
  unfold render
  rw [hbracket]
  simp only [List.append_assoc, List.cons_append, List.nil_append]
  rfl

/-- **A result is read off its text,** whatever follows. -/
theorem Result.eq_of_render_append {r r' : Result} {rest rest' : Text} (hr : r.Rolled)
    (hr' : r'.Rolled) (h : r.render ++ rest = r'.render ++ rest') : r = r' ∧ rest = rest' := by
  obtain ⟨e, faces, hp, hw, rfl⟩ := hr.exists_parse
  obtain ⟨e', faces', hp', hw', rfl⟩ := hr'.exists_parse
  rw [hw] at hp
  rw [hw'] at hp'
  have hsame : ofFaces e faces = ofFaces e' faces' := by
    obtain ⟨behind, hbehind⟩ := render_ofFaces e faces rest
    obtain ⟨behind', hbehind'⟩ := render_ofFaces e' faces' rest'
    rw [hbehind, hbehind'] at h
    have hmark : ∀ text : Text, ∀ c, ("**\nRolls: [".toList ++ text).head? = some c →
        (c != '*') = false := by
      intro text c hc
      obtain rfl : '*' = c := by simpa using hc
      rfl
    obtain ⟨hwritten, hfaces⟩ := run_append_inj (ne_asterisk_of_parse hp)
      (ne_asterisk_of_parse hp') (hmark _) (hmark _) (List.append_cancel_left h)
    rw [hwritten, hp'] at hp
    obtain rfl : e' = e := Except.ok.inj hp
    obtain ⟨rfl, -⟩ := renderFaces_append_inj (List.append_cancel_left hfaces)
    rfl
  rw [hsame] at h
  exact ⟨hsame, List.append_cancel_left h⟩

theorem Result.head?_render (r : Result) : r.render.head? = some '🎲' := by
  have hmark : "🎲 **".toList = ['🎲', ' ', '*', '*'] := rfl
  unfold render
  rw [hmark]
  simp only [List.cons_append, List.head?_cons]

/-- **Results in a row are read off one by one,** up to the asterisk behind them. -/
theorem eq_of_renderResults_append : ∀ {results results' : List Result} {rest rest' : Text},
    (∀ r ∈ results, r.Rolled) → (∀ r ∈ results', r.Rolled) →
    renderResults results ++ '*' :: rest = renderResults results' ++ '*' :: rest' →
    results = results'
  | [], [], _, _, _, _, _ => rfl
  | [], r :: others, rest, rest', _, _, h => by
    have hhead := congrArg List.head? h
    simp [renderResults, r.head?_render] at hhead
  | r :: others, [], rest, rest', _, _, h => by
    have hhead := congrArg List.head? h
    simp [renderResults, r.head?_render] at hhead
  | r :: others, r' :: others', rest, rest', hall, hall', h => by
    simp only [renderResults, List.append_assoc] at h
    obtain ⟨rfl, hothers⟩ := Result.eq_of_render_append (hall r List.mem_cons_self)
      (hall' r' List.mem_cons_self) h
    have ih := eq_of_renderResults_append (fun r hr => hall r (List.mem_cons_of_mem _ hr))
      (fun r hr => hall' r (List.mem_cons_of_mem _ hr)) (List.append_cancel_left hothers)
    rw [ih]

/-! ### Rolls -/

/-- The roll is built from results that were rolled: it is one of them, the
choice between two, or a batch of any number of them. -/
inductive Roll.Built : Roll → Prop
  | simple {result : Result} (h : result.Rolled) : Built (.simple result)
  | kept {first second : Result} (hfirst : first.Rolled) (hsecond : second.Rolled)
      (policy : Policy) : Built (.kept (Kept.choose first second policy))
  | batch {results : List Result} (h : ∀ r ∈ results, r.Rolled) :
      Built (.batch (Batch.ofResults results))

/-- The two rolls are the same, but for how the other total of a pair came about. -/
def Roll.Alike : Roll → Roll → Prop
  | .simple result, .simple result' => result = result'
  | .kept pair, .kept pair' =>
    pair.policy = pair'.policy ∧ pair.chosen = pair'.chosen ∧ pair.other.total = pair'.other.total
  | .batch b, .batch b' => b = b'
  | _, _ => False

theorem Kept.rolled_choose {first second : Result} (hfirst : first.Rolled) (hsecond : second.Rolled)
    (policy : Policy) : (choose first second policy).chosen.Rolled := by
  unfold choose
  by_cases hkeep : KeepsFirst policy first.total second.total
  · rw [if_pos hkeep]
    exact hfirst
  · rw [if_neg hkeep]
    exact hsecond

/-- The names of the policies differ in their first letters. -/
theorem Policy.eq_of_name_append {policy policy' : Policy} {rest rest' : Text}
    (h : policy.name ++ rest = policy'.name ++ rest') : policy = policy' := by
  cases policy with
  | advantage =>
    cases policy' with
    | advantage => rfl
    | disadvantage => exact absurd (List.cons.inj h).1 (by decide)
  | disadvantage =>
    cases policy' with
    | advantage => exact absurd (List.cons.inj h).1 (by decide)
    | disadvantage => rfl

/-- A pair whose chosen results were rolled is read off its text, but of the
other result only the total. -/
theorem Kept.eq_of_render {pair pair' : Kept} (h : pair.chosen.Rolled) (h' : pair'.chosen.Rolled)
    (heq : pair.render = pair'.render) : pair.policy = pair'.policy ∧ pair.chosen = pair'.chosen ∧
      pair.other.total = pair'.other.total := by
  simp only [render, List.append_assoc] at heq
  obtain ⟨hchosen, hrest⟩ := Result.eq_of_render_append h h' heq
  have hnames := List.append_cancel_left hrest
  have hpolicy := Policy.eq_of_name_append hnames
  rw [hpolicy] at hnames
  have htotal := List.append_cancel_left (List.append_cancel_left hnames)
  exact ⟨hpolicy, hchosen, ofInt_injective (List.append_cancel_right htotal)⟩

theorem Batch.head?_render (b : Batch) : b.render.head? = some '*' := by
  have hheading : "**Multiple Rolls**\n".toList = '*' :: "*Multiple Rolls**\n".toList := rfl
  unfold render
  rw [hheading]
  simp only [List.cons_append, List.head?_cons]

/-- A batch is read off its text. -/
theorem Batch.eq_of_render {results results' : List Result} (h : ∀ r ∈ results, r.Rolled)
    (h' : ∀ r ∈ results', r.Rolled)
    (heq : (ofResults results).render = (ofResults results').render) : results = results' := by
  have hgrand : "**Grand Total: ".toList = '*' :: "*Grand Total: ".toList := rfl
  unfold render ofResults at heq
  rw [hgrand] at heq
  simp only [List.append_assoc, List.cons_append] at heq
  exact eq_of_renderResults_append h h' (List.append_cancel_left heq)

/-! ### Different kinds -/

/-- A pair goes on behind its chosen result. -/
theorem Result.render_ne_kept {r : Result} {pair : Kept} (h : r.Rolled) (h' : pair.chosen.Rolled) :
    r.render ≠ pair.render := by
  intro heq
  rw [← List.append_nil r.render] at heq
  simp only [Kept.render, List.append_assoc] at heq
  have hrest := (Result.eq_of_render_append h h' heq).2
  simp at hrest

/-- A batch begins with its heading. -/
theorem Result.render_ne_batch (r : Result) (b : Batch) : r.render ≠ b.render := by
  intro heq
  have hhead := congrArg List.head? heq
  rw [r.head?_render, b.head?_render] at hhead
  exact absurd (Option.some.inj hhead) (by decide)

theorem Kept.render_ne_batch (pair : Kept) (b : Batch) : pair.render ≠ b.render := by
  intro heq
  have hhead := congrArg List.head? heq
  have hpair : pair.render.head? = some '🎲' := by
    simp [render, pair.chosen.head?_render]
  rw [hpair, b.head?_render] at hhead
  exact absurd (Option.some.inj hhead) (by decide)

namespace Roll

/-- Rolls with the same text are alike. -/
theorem alike_of_render_eq {a b : Roll} (ha : a.Built) (hb : b.Built) (h : a.render = b.render) :
    a.Alike b := by
  cases ha with
  | @simple r hr =>
    cases hb with
    | @simple r' hr' =>
      have htext : r.render ++ [] = r'.render ++ [] := congrArg (· ++ []) h
      exact (Result.eq_of_render_append hr hr' htext).1
    | kept hfirst hsecond policy =>
      exact absurd h (Result.render_ne_kept hr (Kept.rolled_choose hfirst hsecond policy))
    | batch hall => exact absurd h (r.render_ne_batch _)
  | kept hfirst hsecond policy =>
    have hchosen := Kept.rolled_choose hfirst hsecond policy
    cases hb with
    | simple hr => exact absurd h.symm (Result.render_ne_kept hr hchosen)
    | kept hfirst' hsecond' policy' =>
      exact Kept.eq_of_render hchosen (Kept.rolled_choose hfirst' hsecond' policy') h
    | batch hall => exact absurd h (Kept.render_ne_batch _ _)
  | batch hall =>
    cases hb with
    | @simple r hr => exact absurd h.symm (r.render_ne_batch _)
    | kept hfirst hsecond policy => exact absurd h.symm (Kept.render_ne_batch _ _)
    | batch hall' => exact congrArg Batch.ofResults (Batch.eq_of_render hall hall' h)

/-- **The text of a roll is unambiguous.** Two rolls of any size, built from
results of parsed expressions with any rollers, have the same text exactly if
they are of one kind and the same: the same results, sums and order for single
results and batches, and the same policy, the same chosen result and the same
other total for pairs. -/
theorem render_eq_iff_alike {a b : Roll} (ha : a.Built) (hb : b.Built) :
    a.render = b.render ↔ a.Alike b := by
  refine ⟨alike_of_render_eq ha hb, fun h => ?_⟩
  cases a with
  | simple r =>
    cases b with
    | simple r' => exact congrArg Result.render h
    | kept pair => exact h.elim
    | batch b => exact h.elim
  | kept pair =>
    cases b with
    | simple r => exact h.elim
    | kept pair' =>
      obtain ⟨hpolicy, hchosen, htotal⟩ := h
      simp only [Roll.render, Kept.render, hpolicy, hchosen, htotal]
    | batch b => exact h.elim
  | batch first =>
    cases b with
    | simple r => exact h.elim
    | kept pair => exact h.elim
    | batch second => exact congrArg Batch.render h

/-- The pair of two given results, rolled with scripts. -/
theorem built_of_scripts {token : Text} {e : Expression} (h : parse token = .ok e)
    (first second : List Nat) (policy : Policy) :
    (Roll.kept (Kept.choose (Script.roller.roll e (Script.ofFaces first)).1
      (Script.roller.roll e (Script.ofFaces second)).1 policy)).Built :=
  .kept ⟨Script, Script.roller, _, token, e, h, rfl⟩ ⟨Script, Script.roller, _, token, e, h, rfl⟩
    policy

/-- Two pairs of 2d6 with the same text: 6 and 5 are kept, and of the faces put
aside, 4 and 3 or 1 and 6, only the total is written. -/
theorem render_eq_iff_alike_of_pairs : ∃ a b : Roll, a.Built ∧ b.Built ∧ a ≠ b ∧
    a.render = b.render ∧ a.Alike b := by
  obtain ⟨e, he⟩ : ∃ e, parse "2d6".toList = .ok e := ⟨_, rfl⟩
  have ha := built_of_scripts he [6, 5] [4, 3] .advantage
  have hb := built_of_scripts he [6, 5] [1, 6] .advantage
  cases he
  refine ⟨_, _, ha, hb, by decide, ?_, ?_⟩
  · rfl
  · exact (render_eq_iff_alike ha hb).mp rfl

end Roll
end DiceTower
