/-
# Numbers that read back

The words that numbers are written as stand for the same numbers. An integer
is its digits behind a sign (`number?_ofInt`). A finite floating-point number
is a decimal in positional notation: of its digits some stand in front of the
point and some behind it, and the latter count as many places as the exponent
says (`exists_positional`). Read together they are the digits of the decimal,
with a zero behind them where the exponent is not negative, so they stand for
the same number (`number?_render`).

Key definitions: `Toml.Positional`, `Binary64.InRange`.
Key theorems: `Toml.exists_positional`, `Toml.number?_ofInt`,
`Toml.number?_render`.
-/
import DiceTower.Toml.Number
import DiceTower.Toml.Writer
import DiceTower.Proofs.Number.ReadBack
import DiceTower.Proofs.Text.Runs

namespace DiceTower
namespace Toml

open Text

/-! ### Positional notation -/

/-- What is written of a decimal: the digits in front of the point and those
behind it, which stand for the decimal with some zeros behind its digits. -/
structure Positional (digits : Nat) (exponent : Int) (whole fraction : Text) : Prop where
  text_eq : Binary64.positional digits exponent = whole ++ '.' :: fraction
  whole_isDigits : IsDigits whole
  noLeadingZero : NoLeadingZero whole
  fraction_isDigits : IsDigits fraction
  length_eq : (fraction.length : Int) = max 1 (-exponent)
  value_eq : value (whole ++ fraction) = digits * 10 ^ (exponent + fraction.length).toNat

theorem noLeadingZero_append {digits : Nat} (h : digits ≠ 0) (more : Text) :
    NoLeadingZero (ofNat digits ++ more) := by
  intro hhead
  rw [List.head?_append, List.head?_eq_some_head (ofNat_ne_nil _), Option.some_or,
    ← List.head?_eq_some_head (ofNat_ne_nil _)] at hhead
  exact absurd (eq_of_head?_ofNat hhead) h

/-- A decimal without places has a zero behind the point. -/
theorem positional_of_nonneg {digits : Nat} {exponent : Int} (h : digits ≠ 0) (he : 0 ≤ exponent) :
    Positional digits exponent (ofNat digits ++ List.replicate exponent.toNat '0') ['0'] where
  text_eq := by
    rw [Binary64.positional, if_pos he]
  whole_isDigits := (isDigits_ofNat digits).append_left fun _ => isDigit_of_mem_replicate
  noLeadingZero := noLeadingZero_append h _
  fraction_isDigits := ⟨by decide, List.all_eq_true.mp (by decide)⟩
  length_eq := by
    rw [List.length_singleton]
    omega
  value_eq := by
    have hzeros : List.replicate exponent.toNat '0' ++ ['0'] =
        List.replicate (exponent.toNat + 1) '0' := List.replicate_succ'.symm
    have hcount : (exponent + (['0'] : Text).length).toNat = exponent.toNat + 1 := by
      rw [List.length_singleton]
      omega
    rw [List.append_assoc, hzeros, value_append_replicate, value_ofNat, hcount]

/-- The digits of a decimal with places, after as many zeros as it takes for
one digit to stand in front of the point. -/
def padded (digits places : Nat) : Text :=
  List.replicate (places + 1 - (ofNat digits).length) '0' ++ ofNat digits

theorem length_padded (digits places : Nat) :
    (padded digits places).length = max (places + 1) (ofNat digits).length := by
  rw [padded, List.length_append, List.length_replicate]
  omega

theorem isDigits_padded (digits places : Nat) : IsDigits (padded digits places) := by
  refine ⟨by simp [padded, ofNat_ne_nil], ?_⟩
  intro c hc
  rcases List.mem_append.mp hc with hc | hc
  · exact isDigit_of_mem_replicate hc
  · exact isDigit_of_mem_ofNat hc

/-- The padded digits in front of the point. -/
def wholePart (digits places : Nat) : Text :=
  (padded digits places).take ((padded digits places).length - places)

/-- The padded digits behind the point. -/
def fractionPart (digits places : Nat) : Text :=
  (padded digits places).drop ((padded digits places).length - places)

theorem length_wholePart_pos (digits places : Nat) : 0 < (wholePart digits places).length := by
  have := length_padded digits places
  rw [wholePart, List.length_take]
  omega

theorem length_fractionPart (digits places : Nat) :
    (fractionPart digits places).length = places := by
  have := length_padded digits places
  rw [fractionPart, List.length_drop]
  omega

/-- A zero stands in front of the point only where it is alone there. -/
theorem noLeadingZero_wholePart {digits : Nat} (h : digits ≠ 0) (places : Nat) :
    NoLeadingZero (wholePart digits places) := by
  have hlength := length_padded digits places
  by_cases hlong : places < (ofNat digits).length
  -- more digits than places: nothing is padded
  · have hzeros : places + 1 - (ofNat digits).length = 0 := by omega
    have hpadded : padded digits places = ofNat digits := by
      rw [padded, hzeros, List.replicate_zero, List.nil_append]
    intro hhead
    rw [wholePart, List.head?_take, if_neg (by omega), hpadded] at hhead
    exact absurd (eq_of_head?_ofNat hhead) h
  -- else one digit stands in front of the point
  · have hone : (wholePart digits places).length = 1 := by
      rw [wholePart, List.length_take]
      omega
    obtain ⟨c, hc⟩ := List.length_eq_one_iff.mp hone
    intro hhead
    rw [hc, List.head?_cons, Option.some.injEq] at hhead
    rw [hc, hhead]

/-- A decimal with places has them behind the point. -/
theorem positional_of_neg {digits : Nat} {exponent : Int} (h : digits ≠ 0) (he : exponent < 0) :
    Positional digits exponent (wholePart digits (-exponent).toNat)
      (fractionPart digits (-exponent).toNat) := by
  have hdigits := isDigits_padded digits (-exponent).toNat
  have hlength := length_fractionPart digits (-exponent).toNat
  have hjoined : wholePart digits (-exponent).toNat ++ fractionPart digits (-exponent).toNat =
      padded digits (-exponent).toNat := List.take_append_drop _ _
  constructor
  case text_eq =>
    rw [Binary64.positional, if_neg (by omega)]
    rfl
  case whole_isDigits =>
    have hpos := length_wholePart_pos digits (-exponent).toNat
    exact ⟨List.ne_nil_of_length_pos hpos, fun c hc => hdigits.2 c (List.mem_of_mem_take hc)⟩
  case noLeadingZero => exact noLeadingZero_wholePart h _
  case fraction_isDigits =>
    have hpos : 0 < (fractionPart digits (-exponent).toNat).length := by omega
    exact ⟨List.ne_nil_of_length_pos hpos, fun c hc => hdigits.2 c (List.mem_of_mem_drop hc)⟩
  case length_eq => omega
  case value_eq =>
    have hzero : (exponent + (fractionPart digits (-exponent).toNat).length).toNat = 0 := by omega
    rw [hjoined, hzero, Nat.pow_zero, Nat.mul_one, padded, value_replicate_append, value_ofNat]

theorem exists_positional {digits : Nat} (h : digits ≠ 0) (exponent : Int) :
    ∃ whole fraction, Positional digits exponent whole fraction := by
  by_cases he : 0 ≤ exponent
  · exact ⟨_, _, positional_of_nonneg h he⟩
  · exact ⟨_, _, positional_of_neg h (by omega)⟩

/-! ### Reading digits -/

/-- A run of digits is a group where no digit and no underscore follows. -/
theorem digitGroup?_append {run rest : Text} (hrun : IsDigits run)
    (hrest : ∀ c, rest.head? = some c → isDigitOrUnderscore c = false) :
    digitGroup? (run ++ rest) = some (run, rest) := by
  have hdigits : ∀ c ∈ run, isDigitOrUnderscore c = true := by
    intro c hc
    rw [isDigitOrUnderscore, hrun.2 c hc, Bool.true_or]
  obtain ⟨htake, hdrop⟩ := takeWhile_append_run hdigits hrest
  have hsingle : run.splitOnP (· == '_') = [run] := by
    refine List.splitOnP_eq_singleton ?_
    intro c hc
    exact beq_eq_false_iff_ne.mpr (ne_of_isDigit (hrun.2 c hc) (by decide))
  have hfilter : run.filter Char.isDigit = run := List.filter_eq_self.mpr hrun.2
  simp [digitGroup?, htake, hdrop, hsingle, hfilter, hrun.1]

/-- A text that begins with a digit is not one that begins with another character. -/
theorem append_ne_of_isDigits {run : Text} {c : Char} (hrun : IsDigits run) (rest text : Text)
    (hc : c.isDigit = false) : run ++ rest ≠ c :: text := by
  obtain ⟨d, run, rfl⟩ := List.exists_cons_of_ne_nil hrun.1
  intro h
  exact ne_of_isDigit (hrun.2 d List.mem_cons_self) hc (List.cons.inj h).1

/-- Digits alone are a whole number. -/
theorem unsigned?_of_isDigits {run : Text} (hrun : IsDigits run) (hlead : NoLeadingZero run)
    (negative : Bool) : unsigned? negative run = whole? negative run := by
  have hinf : run ++ [] ≠ "inf".toList := append_ne_of_isDigits hrun [] _ (by decide)
  have hnan : run ++ [] ≠ "nan".toList := append_ne_of_isDigits hrun [] _ (by decide)
  have hgroup : digitGroup? (run ++ []) = some (run, []) := digitGroup?_append hrun (by simp)
  rw [List.append_nil] at hinf hnan hgroup
  rw [unsigned?, if_neg hinf, if_neg hnan, hgroup]
  exact if_pos hlead

/-- Digits with a point between them are a decimal. -/
theorem unsigned?_of_point {whole fraction : Text} (hwhole : IsDigits whole)
    (hlead : NoLeadingZero whole) (hfraction : IsDigits fraction) (negative : Bool) :
    unsigned? negative (whole ++ '.' :: fraction) = decimal? negative whole fraction 0 := by
  have hinf : whole ++ '.' :: fraction ≠ "inf".toList := append_ne_of_isDigits hwhole _ _ (by decide)
  have hnan : whole ++ '.' :: fraction ≠ "nan".toList := append_ne_of_isDigits hwhole _ _ (by decide)
  have hgroup : digitGroup? (whole ++ '.' :: fraction) = some (whole, '.' :: fraction) := by
    refine digitGroup?_append hwhole ?_
    intro c hc
    rw [List.head?_cons, Option.some.injEq] at hc
    rw [← hc]
    decide
  have hbehind : digitGroup? (fraction ++ []) = some (fraction, []) :=
    digitGroup?_append hfraction (by simp)
  rw [List.append_nil] at hbehind
  rw [unsigned?, if_neg hinf, if_neg hnan, hgroup]
  simp only [if_pos hlead, hbehind, exponent?]

/-- The sign in front of a number is read off it. -/
theorem number?_renderSign {text : Text} (h : text.head? ≠ some '+' ∧ text.head? ≠ some '-')
    (negative : Bool) :
    number? (Binary64.renderSign negative ++ text) = unsigned? negative text := by
  cases negative with
  | true => rfl
  | false =>
    show number? text = unsigned? false text
    unfold number?
    split
    · exact absurd rfl h.1
    · unfold signed?
      split
      · exact absurd rfl h.2
      · rfl

/-- A text that begins with a digit has no sign in front of it. -/
theorem head?_append_of_isDigits {run : Text} (hrun : IsDigits run) (rest : Text) :
    (run ++ rest).head? ≠ some '+' ∧ (run ++ rest).head? ≠ some '-' := by
  obtain ⟨d, run, rfl⟩ := List.exists_cons_of_ne_nil hrun.1
  have hd : d.isDigit = true := hrun.2 d List.mem_cons_self
  constructor
  · simpa using ne_of_isDigit hd (by decide)
  · simpa using ne_of_isDigit hd (by decide)

/-! ### Numbers that are written -/

/-- **An integer reads back.** -/
theorem number?_ofInt {n : Int} (h : Signed64.Fits n) : number? (ofInt n) = some (.integer n) := by
  have hsigned : ofInt n = Binary64.renderSign (decide (n < 0)) ++ (ofNat n.natAbs ++ []) := by
    rw [List.append_nil, ofInt, Binary64.renderSign]
    by_cases hn : n < 0
    · rw [if_pos hn, if_pos (decide_eq_true hn)]
      rfl
    · rw [if_neg hn, if_neg (by simpa using hn)]
      rfl
  have hvalue : withSign (decide (n < 0)) (value (ofNat n.natAbs)) = n := by
    rw [value_ofNat, withSign]
    by_cases hn : n < 0
    · rw [if_pos (decide_eq_true hn)]
      omega
    · rw [if_neg (by simpa using hn)]
      omega
  have hlead : NoLeadingZero (ofNat n.natAbs) := by
    intro hhead
    rw [eq_of_head?_ofNat hhead]
    rfl
  have hdigits := isDigits_ofNat n.natAbs
  rw [hsigned, number?_renderSign (head?_append_of_isDigits hdigits []), List.append_nil,
    unsigned?_of_isDigits hdigits hlead, whole?, hvalue, if_pos h]

/-- **A finite number reads back.** -/
theorem number?_render_finite {ordinal : Nat} (h : ordinal < Binary64.overflow) (negative : Bool) :
    number? (Binary64.finite negative ordinal).render =
      some (.float (.finite negative ordinal)) := by
  by_cases hzero : ordinal = 0
  · subst hzero
    cases negative <;> rfl
  · have hpos : 0 < ordinal := Nat.pos_of_ne_zero hzero
    obtain ⟨whole, fraction, hp⟩ := exists_positional (Binary64.shortest_fst_ne_zero hpos)
      (Binary64.shortest ordinal).2
    have hrender : (Binary64.finite negative ordinal).render =
        Binary64.renderSign negative ++ (whole ++ '.' :: fraction) := by
      rw [Binary64.render, if_neg hzero, hp.text_eq]
    have hlength := hp.length_eq
    have hbounds := Binary64.shortest_snd_bounds ordinal
    -- the digits on both sides of the point are those of the decimal and `k` zeros
    let k := ((Binary64.shortest ordinal).2 + fraction.length).toNat
    have hexponent : (0 : Int) - fraction.length = (Binary64.shortest ordinal).2 - k := by omega
    have hlow : -Binary64.farthest ≤ (Binary64.shortest ordinal).2 - k := by
      simp only [Binary64.leastExponent, Binary64.farthest] at hbounds ⊢
      omega
    rw [hrender, number?_renderSign (head?_append_of_isDigits hp.whole_isDigits _),
      unsigned?_of_point hp.whole_isDigits hp.noLeadingZero hp.fraction_isDigits, decimal?,
      hp.value_eq, hexponent, Binary64.ofDecimal?_shortest negative hpos h hlow, Option.map_some]

/-- **A floating-point number reads back.** -/
theorem number?_render {x : Binary64} (h : x.InRange) : number? x.render = some (.float x) := by
  cases x with
  | finite negative ordinal => exact number?_render_finite h negative
  | infinite negative => cases negative <;> rfl
  | nan negative => cases negative <;> rfl

end Toml
end DiceTower
