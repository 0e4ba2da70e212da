/-
# The order of the entries of a table

Keys are ordered by their characters, and of two different keys one comes
before the other (`before_trans`, `before_or_before`). An entry that is
inserted takes its place in that order, so a sorted table stays sorted
(`sorted_insert`), and a key that comes behind all others is inserted at the
end (`insert_eq_append`). An entry of a sorted table is the one that is found
(`find?_of_mem`).

Key theorems: `Toml.Table.sorted_insert`, `Toml.Table.insert_eq_append`,
`Toml.Table.find?_eq_none`, `Toml.Table.find?_of_mem`.
-/
import DiceTower.Toml.Value

namespace DiceTower
namespace Toml
namespace Table

/-! ### Keys -/

theorem before_trans : ∀ {r s t : Text}, Before r s → Before s t → Before r t
  | [], [], _, h, _ => h.elim
  | [], _ :: _, [], _, h => h.elim
  | [], _ :: _, _ :: _, _, _ => trivial
  | _ :: _, [], _, h, _ => h.elim
  | _ :: _, _ :: _, [], _, h => h.elim
  | a :: r, b :: s, c :: t, hab, hbc => by
    rcases hab with hab | ⟨rfl, hrs⟩
    · rcases hbc with hbc | ⟨rfl, -⟩
      · exact Or.inl (Nat.lt_trans hab hbc)
      · exact Or.inl hab
    · rcases hbc with hbc | ⟨rfl, hst⟩
      · exact Or.inl hbc
      · exact Or.inr ⟨rfl, before_trans hrs hst⟩

/-- Of two different keys one comes before the other. -/
theorem before_or_before : ∀ {s t : Text}, s ≠ t → Before s t ∨ Before t s
  | [], [], h => absurd rfl h
  | [], _ :: _, _ => Or.inl trivial
  | _ :: _, [], _ => Or.inr trivial
  | a :: s, b :: t, h => by
    rcases Nat.lt_trichotomy a.toNat b.toNat with hab | hab | hab
    · exact Or.inl (Or.inl hab)
    · obtain rfl : a = b := Char.toNat_inj.mp hab
      have hst : s ≠ t := fun heq => h (by rw [heq])
      rcases before_or_before hst with hst | hst
      · exact Or.inl (Or.inr ⟨rfl, hst⟩)
      · exact Or.inr (Or.inr ⟨rfl, hst⟩)
    · exact Or.inr (Or.inl hab)

theorem ne_of_before {s t : Text} (h : Before s t) : s ≠ t := by
  rintro rfl
  exact not_before_self s h

/-! ### Entries -/

variable {key : Text} {value : Value} {t : Table}

/-- An entry of the table with one more is that one or was there. -/
theorem mem_insert {e : Text × Value} (h : e ∈ t.insert key value) : e = (key, value) ∨ e ∈ t := by
  induction t with
  | nil => exact Or.inl (List.mem_singleton.mp h)
  | cons entry rest ih =>
    obtain ⟨k, v⟩ := entry
    unfold insert at h
    by_cases hk : k = key
    · rw [if_pos hk] at h
      rcases List.mem_cons.mp h with h | h
      · exact Or.inl h
      · exact Or.inr (List.mem_cons_of_mem _ h)
    · rw [if_neg hk] at h
      by_cases hb : Before key k
      · rw [if_pos hb] at h
        exact List.mem_cons.mp h
      · rw [if_neg hb] at h
        rcases List.mem_cons.mp h with h | h
        · exact Or.inr (h ▸ List.mem_cons_self)
        · rcases ih h with h | h
          · exact Or.inl h
          · exact Or.inr (List.mem_cons_of_mem _ h)

/-- **A sorted table stays sorted.** -/
theorem sorted_insert (h : Sorted t) : Sorted (t.insert key value) := by
  induction t with
  | nil => exact List.pairwise_singleton _ _
  | cons entry rest ih =>
    obtain ⟨k, v⟩ := entry
    obtain ⟨hfirst, hrest⟩ := List.pairwise_cons.mp h
    unfold insert
    by_cases hk : k = key
    · subst hk
      rw [if_pos rfl]
      exact List.pairwise_cons.mpr ⟨hfirst, hrest⟩
    · rw [if_neg hk]
      by_cases hb : Before key k
      · rw [if_pos hb]
        refine List.pairwise_cons.mpr ⟨?_, h⟩
        intro e he
        rcases List.mem_cons.mp he with rfl | he
        · exact hb
        · exact before_trans hb (hfirst e he)
      · rw [if_neg hb]
        have hkey : Before k key := (before_or_before hk).resolve_right hb
        refine List.pairwise_cons.mpr ⟨?_, ih hrest⟩
        intro e he
        rcases mem_insert he with rfl | he
        · exact hkey
        · exact hfirst e he

/-- **A key behind all others is inserted at the end.** -/
theorem insert_eq_append (h : ∀ e ∈ t, Before e.1 key) :
    t.insert key value = t ++ [(key, value)] := by
  induction t with
  | nil => rfl
  | cons entry rest ih =>
    obtain ⟨k, v⟩ := entry
    have hk : Before k key := h (k, v) List.mem_cons_self
    have hnot : ¬ Before key k := fun hb => not_before_self k (before_trans hk hb)
    rw [insert, if_neg (ne_of_before hk), if_neg hnot,
      ih fun e he => h e (List.mem_cons_of_mem _ he), List.cons_append]

/-- The key of the last of the sorted entries comes behind the others. -/
theorem before_of_sorted (h : Sorted (t ++ [(key, value)])) : ∀ e ∈ t, Before e.1 key :=
  fun e he => (List.pairwise_append.mp h).2.2 e he (key, value) (List.mem_singleton.mpr rfl)

/-- A key that no entry has has no value. -/
theorem find?_eq_none (h : ∀ e ∈ t, e.1 ≠ key) : t.find? key = none := by
  induction t with
  | nil => rfl
  | cons entry rest ih =>
    obtain ⟨k, v⟩ := entry
    rw [find?, if_neg (h (k, v) List.mem_cons_self)]
    exact ih fun e he => h e (List.mem_cons_of_mem _ he)

/-- The value of a key stands at an entry. -/
theorem mem_of_find? (h : t.find? key = some value) : (key, value) ∈ t := by
  induction t with
  | nil => cases h
  | cons entry rest ih =>
    obtain ⟨k, v⟩ := entry
    unfold find? at h
    by_cases hk : k = key
    · rw [if_pos hk] at h
      rw [hk, Option.some.inj h]
      exact List.mem_cons_self
    · rw [if_neg hk] at h
      exact List.mem_cons_of_mem _ (ih h)

/-- An entry of a sorted table is the one that is found. -/
theorem find?_of_mem (hs : Sorted t) (h : (key, value) ∈ t) : t.find? key = some value := by
  induction t with
  | nil => exact absurd h List.not_mem_nil
  | cons entry rest ih =>
    obtain ⟨k, v⟩ := entry
    obtain ⟨hfirst, hrest⟩ := List.pairwise_cons.mp hs
    rw [find?]
    rcases List.mem_cons.mp h with heq | hmem
    · obtain ⟨rfl, rfl⟩ := Prod.mk.inj heq
      rw [if_pos rfl]
    · rw [if_neg (ne_of_before (hfirst _ hmem)), ih hrest hmem]

/-- What holds of the entries of a sorted table in their order is what holds of
any two whose keys are in order. -/
theorem pairwise_iff_of_sorted {R : Text × Value → Text × Value → Prop} (hs : Sorted t) :
    t.Pairwise R ↔ ∀ a ∈ t, ∀ b ∈ t, Before a.1 b.1 → R a b := by
  constructor
  · intro hR a ha b hb h
    obtain ⟨i, hi, rfl⟩ := List.getElem_of_mem ha
    obtain ⟨j, hj, rfl⟩ := List.getElem_of_mem hb
    rcases Nat.lt_trichotomy i j with hij | rfl | hji
    · exact List.pairwise_iff_getElem.mp hR i j hi hj hij
    · exact absurd h (not_before_self _)
    · have hback : Before t[j].1 t[i].1 := List.pairwise_iff_getElem.mp hs j i hj hi hji
      exact absurd (before_trans h hback) (not_before_self _)
  · intro h
    exact List.Pairwise.imp_of_mem (fun ha hb hbefore => h _ ha _ hb hbefore) hs

end Table
end Toml
end DiceTower
