/-
# Dice are exactly fair

The multiples of a die's sides are sorted into blocks of 2³² numbers, one for
each face, and a word is accepted if its multiple falls into the zone at the
start of its block (`Face.accept?_eq_some_iff`). The zone is as long as the
sides times the whole part of their quotient into 2³² (`Face.zone_succ`), so
the same number of multiples falls into it, wherever the block starts
(`Face.mem_zone_iff`). Each face of a die therefore gets the same number of
words, and the words that are left over are rejected. A roller passes over
rejected words and shows the face of the first accepted one.

Key definitions: `Xoshiro.after`, `Xoshiro.word`.
Key theorems: `Xoshiro.die_of_first_accepted`, `Face.card_words_of_face`,
`Face.card_rejected_words`, `Face.dice_are_fair`.
-/
import DiceTower.Random.Face
import Mathlib.Algebra.BigOperators.Group.Finset.Basic
import Mathlib.Order.Interval.Finset.Nat
import Mathlib.SetTheory.Cardinal.Finite

namespace DiceTower

/-! ### The words of a generator -/

namespace Xoshiro

/-- The generator behind its next `n` words. -/
def after (g : Xoshiro) : Nat → Xoshiro
  | 0 => g
  | n + 1 => g.next32.2.after n

/-- The word number `n` of a generator, counted from zero. -/
def word (g : Xoshiro) (n : Nat) : UInt32 := (g.after n).next32.1

theorem word_zero (g : Xoshiro) : g.word 0 = g.next32.1 := rfl

theorem word_succ (g : Xoshiro) (n : Nat) : g.word (n + 1) = g.next32.2.word n := rfl

/-- Rejected words are passed over up to the first accepted one. -/
theorem draw?_of_first_accepted {sides face n : Nat} {g : Xoshiro}
    (hrejected : ∀ k < n, Face.accept? sides (g.word k) = none)
    (haccepted : Face.accept? sides (g.word n) = some face) :
    Face.draw? sides g = some (face, g.after (n + 1)) := by
  induction n generalizing g with
  | zero =>
    rw [word_zero] at haccepted
    exact Face.draw?_of_accepted haccepted
  | succ n ih =>
    have hfirst := hrejected 0 (by omega)
    rw [word_zero] at hfirst
    rw [word_succ] at haccepted
    have hothers : ∀ k < n, Face.accept? sides (g.next32.2.word k) = none := by
      intro k hk
      rw [← word_succ]
      exact hrejected (k + 1) (by omega)
    rw [Face.draw?_of_rejected hfirst]
    exact ih hothers haccepted

/-- **The first accepted word counts.** A die shows its face, and the words up
to it are used. -/
theorem die_of_first_accepted {sides face n : Nat} {g : Xoshiro}
    (hrejected : ∀ k < n, Face.accept? sides (g.word k) = none)
    (haccepted : Face.accept? sides (g.word n) = some face) :
    roller.die sides g = (face, g.after (n + 1)) := by
  have hdraw := draw?_of_first_accepted hrejected haccepted
  show (Face.draw? sides g).getD (1, g) = _
  rw [hdraw, Option.getD_some]

end Xoshiro

namespace Face

/-! ### Multiples in a zone -/

/-- A zone as long as `count` multiples holds just so many, wherever it starts. -/
theorem mem_zone_iff {sides : Nat} (hpos : 0 < sides) (start count n : Nat) :
    (start ≤ n * sides ∧ n * sides < start + sides * count) ↔
      ((start + sides - 1) / sides ≤ n ∧ n < (start + sides - 1) / sides + count) := by
  have hfirst : ∀ m, start ≤ m * sides ↔ (start + sides - 1) / sides ≤ m := by
    intro m
    have hdiv := Nat.div_lt_iff_lt_mul (x := start + sides - 1) (y := m + 1) hpos
    rw [Nat.add_mul, Nat.one_mul] at hdiv
    omega
  generalize (start + sides - 1) / sides = first at hfirst ⊢
  refine and_congr (hfirst n) ?_
  by_cases hn : n < count
  · have hless : n * sides < sides * count := by
      rw [Nat.mul_comm sides]
      exact Nat.mul_lt_mul_of_pos_right hn hpos
    omega
  · obtain ⟨m, rfl⟩ : ∃ m, n = m + count := ⟨n - count, by omega⟩
    have hm := hfirst m
    have hsplit : (m + count) * sides = m * sides + sides * count := by
      rw [Nat.add_mul, Nat.mul_comm count]
    omega

/-- The zone ends behind the last whole multiple of the sides. -/
theorem zone_succ {sides : Nat} (hpos : 0 < sides) (hmax : sides ≤ 4294967295) :
    zone sides + 1 = sides * (4294967296 / sides) := by
  have hmod : 4294967296 % sides = (4294967295 - sides + 1) % sides := by
    rw [Nat.mod_eq_sub_mod (by omega)]
    congr 1
    omega
  have hdiv := Nat.div_add_mod 4294967296 sides
  have hlt := Nat.mod_lt 4294967296 hpos
  unfold zone
  omega

/-- A word is accepted for a face if its multiple of the sides falls into the
zone of the face. -/
theorem accept?_eq_some_iff {sides : Nat} (hpos : 0 < sides) (hmax : sides ≤ 4294967295)
    (word : UInt32) (face : Nat) : accept? sides word = some face ↔ 1 ≤ face ∧
      (face - 1) * 4294967296 ≤ word.toNat * sides ∧
      word.toNat * sides < (face - 1) * 4294967296 + sides * (4294967296 / sides) := by
  have hzone := zone_succ hpos hmax
  have hfits : sides * (4294967296 / sides) ≤ 4294967296 := Nat.mul_div_le _ _
  simp only [accept?]
  generalize word.toNat * sides = product
  by_cases hin : product % 4294967296 ≤ zone sides
  · rw [if_pos hin, Option.some.injEq]
    omega
  · rw [if_neg hin]
    simp only [reduceCtorEq, false_iff]
    omega

/-! ### Counting words -/

/-- Words are counted as the numbers below 2³². -/
theorem card_words (p : UInt32 → Prop) [DecidablePred p] : Nat.card {word // p word} =
    ((Finset.range 4294967296).filter fun n => p (UInt32.ofNat n)).card := by
  have hinj : Set.InjOn UInt32.ofNat
      ((Finset.range 4294967296).filter fun n => p (UInt32.ofNat n)) := by
    intro m hm n hn heq
    simp only [Finset.coe_filter, Finset.mem_range, Set.mem_ofPred_eq] at hm hn
    have htoNat := congrArg UInt32.toNat heq
    rwa [UInt32.toNat_ofNat_of_lt' hm.1, UInt32.toNat_ofNat_of_lt' hn.1] at htoNat
  rw [← Finset.card_image_of_injOn hinj]
  refine Nat.subtype_card _ fun word => ?_
  simp only [Finset.mem_image, Finset.mem_filter, Finset.mem_range]
  constructor
  · rintro ⟨n, ⟨-, hn⟩, rfl⟩
    exact hn
  · intro hword
    have hself : UInt32.ofNat word.toNat = word := UInt32.ofNat_toNat
    exact ⟨word.toNat, ⟨word.toNat_lt, by rwa [hself]⟩, hself⟩

/-- The words of a face stand one behind the other. -/
theorem filter_words_of_face {sides face : Nat} (hpos : 0 < sides) (hmax : sides ≤ 4294967295)
    (hface : 1 ≤ face ∧ face ≤ sides) :
    ((Finset.range 4294967296).filter fun n => accept? sides (UInt32.ofNat n) = some face) =
      Finset.Ico (((face - 1) * 4294967296 + sides - 1) / sides)
        (((face - 1) * 4294967296 + sides - 1) / sides + 4294967296 / sides) := by
  have hfits : sides * (4294967296 / sides) ≤ 4294967296 := Nat.mul_div_le _ _
  ext n
  simp only [Finset.mem_filter, Finset.mem_range, Finset.mem_Ico]
  rw [← mem_zone_iff hpos]
  constructor
  · rintro ⟨hn, haccept⟩
    rw [accept?_eq_some_iff hpos hmax, UInt32.toNat_ofNat_of_lt' hn] at haccept
    exact haccept.2
  · rintro ⟨hlow, hhigh⟩
    have hn : n < 4294967296 := by
      have hbound : n * sides < 4294967296 * sides := by
        calc n * sides < (face - 1) * 4294967296 + 4294967296 := by omega
          _ = face * 4294967296 := by omega
          _ ≤ sides * 4294967296 := Nat.mul_le_mul_right _ hface.2
          _ = 4294967296 * sides := Nat.mul_comm _ _
      exact Nat.lt_of_mul_lt_mul_right hbound
    rw [accept?_eq_some_iff hpos hmax, UInt32.toNat_ofNat_of_lt' hn]
    exact ⟨hn, hface.1, hlow, hhigh⟩

/-- Each face of a die gets the same number of words. -/
theorem card_words_of_face {sides face : Nat} (hpos : 0 < sides) (hmax : sides ≤ 4294967295)
    (hface : 1 ≤ face ∧ face ≤ sides) :
    Nat.card {word : UInt32 // accept? sides word = some face} = 4294967296 / sides := by
  rw [card_words, filter_words_of_face hpos hmax hface, Nat.card_Ico,
    Nat.add_sub_cancel_left]

/-- The words of all faces together. -/
theorem card_accepted_words {sides : Nat} (hpos : 0 < sides) (hmax : sides ≤ 4294967295) :
    ((Finset.range 4294967296).filter fun n =>
      ¬ accept? sides (UInt32.ofNat n) = none).card = sides * (4294967296 / sides) := by
  have hmaps : ∀ n ∈ (Finset.range 4294967296).filter
      (fun n => ¬ accept? sides (UInt32.ofNat n) = none),
      accept? sides (UInt32.ofNat n) ∈ (Finset.Icc 1 sides).image some := by
    intro n hn
    obtain ⟨face, haccept⟩ := Option.ne_none_iff_exists'.mp (Finset.mem_filter.mp hn).2
    rw [haccept]
    have hface := accept?_mem hpos haccept
    exact Finset.mem_image_of_mem _ (Finset.mem_Icc.mpr hface)
  have hfiber : ∀ face ∈ Finset.Icc 1 sides, (((Finset.range 4294967296).filter
      fun n => ¬ accept? sides (UInt32.ofNat n) = none).filter
        fun n => accept? sides (UInt32.ofNat n) = some face).card = 4294967296 / sides := by
    intro face hface
    rw [Finset.filter_filter, ← card_words_of_face hpos hmax (Finset.mem_Icc.mp hface), card_words]
    refine congrArg Finset.card (Finset.filter_congr fun n _ => ?_)
    constructor
    · exact And.right
    · intro haccept
      exact ⟨by rw [haccept]; exact Option.some_ne_none face, haccept⟩
  rw [Finset.card_eq_sum_card_fiberwise hmaps,
    Finset.sum_image fun _ _ _ _ h => Option.some.inj h, Finset.sum_congr rfl hfiber,
    Finset.sum_const, Nat.card_Icc, Nat.add_sub_cancel, Nat.nsmul_eq_mul]

/-- The words that the faces leave over are rejected. -/
theorem card_rejected_words {sides : Nat} (hpos : 0 < sides) (hmax : sides ≤ 4294967295) :
    Nat.card {word : UInt32 // accept? sides word = none} = 4294967296 % sides := by
  have htotal := Finset.card_filter_add_card_filter_not (s := Finset.range 4294967296)
    (fun n => accept? sides (UInt32.ofNat n) = none)
  rw [card_accepted_words hpos hmax, Finset.card_range] at htotal
  have hdiv := Nat.div_add_mod 4294967296 sides
  rw [card_words]
  omega

/-- **Dice are exactly fair.** Of the 2³² words each face of a die gets as many
as the sides go into 2³², no word gives another face, and the remainder is
rejected. The die shows the face of the first word that is accepted. -/
theorem dice_are_fair {sides : Nat} (hleast : 1 ≤ sides) (hgreatest : sides ≤ 4294967295) :
    (∀ face, 1 ≤ face → face ≤ sides →
      Nat.card {word : UInt32 // accept? sides word = some face} = 4294967296 / sides) ∧
    (∀ word face, accept? sides word = some face → 1 ≤ face ∧ face ≤ sides) ∧
    Nat.card {word : UInt32 // accept? sides word = none} = 4294967296 % sides ∧
    ∀ (g : Xoshiro) (n face : Nat), (∀ k < n, accept? sides (g.word k) = none) →
      accept? sides (g.word n) = some face →
      Xoshiro.roller.die sides g = (face, g.after (n + 1)) := by
  refine ⟨?_, ?_, card_rejected_words hleast hgreatest, ?_⟩
  · intro face hlow hhigh
    exact card_words_of_face hleast hgreatest ⟨hlow, hhigh⟩
  · intro word face haccept
    exact accept?_mem hleast haccept
  · intro g n face hrejected haccepted
    exact Xoshiro.die_of_first_accepted hrejected haccepted

/-- A die with 2³¹ + 1 sides, which rejects almost every other word: one word
for each face, and a generator whose first word is rejected. -/
theorem dice_are_fair_at_many_rejections :
    1 ≤ 2147483649 ∧ 2147483649 ≤ 4294967295 ∧
    Nat.card {word : UInt32 // accept? 2147483649 word = some 2147483649} = 1 ∧
    Nat.card {word : UInt32 // accept? 2147483649 word = none} = 2147483647 ∧
    accept? 2147483649 ((Xoshiro.ofSeed 2).word 0) = none ∧
    accept? 2147483649 ((Xoshiro.ofSeed 2).word 1) = some 1153548131 ∧
    Xoshiro.roller.die 2147483649 (Xoshiro.ofSeed 2) = (1153548131, (Xoshiro.ofSeed 2).after 2) := by
  have hleast : 1 ≤ 2147483649 := by decide
  have hgreatest : 2147483649 ≤ 4294967295 := by decide
  obtain ⟨hfaces, -, hrejected, hdie⟩ := dice_are_fair hleast hgreatest
  have hfirst : accept? 2147483649 ((Xoshiro.ofSeed 2).word 0) = none := by decide +kernel
  have hsecond : accept? 2147483649 ((Xoshiro.ofSeed 2).word 1) = some 1153548131 := by
    decide +kernel
  refine ⟨hleast, hgreatest, hfaces 2147483649 (by decide) (by decide), hrejected, hfirst,
    hsecond, hdie _ 1 _ ?_ hsecond⟩
  intro k hk
  obtain rfl : k = 0 := by omega
  exact hfirst

end Face
end DiceTower
