import Mathlib.Data.List.Basic

/-! # Splitting a list at a separator

A list splits at `a` into a first piece and others exactly when it is the first piece, free of `a`,
then `a`, then a list that splits into the others. A piece of a known length stands at known
positions, so a list made of such pieces is described by what stands at each of its positions.
-/

namespace List

variable {α : Type*} {a c : α} {l p q : List α} {rest : List (List α)} {i n : ℕ}

section Pieces

variable [BEq α] [LawfulBEq α]

theorem splitOn_eq_singleton_iff : l.splitOn a = [p] ↔ l = p ∧ a ∉ p := by
  by_cases member : a ∈ l
  · obtain ⟨before, after, rfl, absent⟩ := eq_append_cons_of_mem member
    rw [splitOn_append_cons_self_of_not_mem absent]
    constructor
    · intro single
      exact absurd (List.cons.inj single).2 (splitOn_ne_nil a after)
    · rintro ⟨rfl, absent⟩
      exact absurd member absent
  · rw [splitOn_eq_singleton member]
    constructor
    · intro same
      obtain rfl := List.singleton_inj.mp same
      exact ⟨rfl, member⟩
    · rintro ⟨rfl, _⟩
      rfl

theorem splitOn_eq_cons_cons_iff :
    l.splitOn a = p :: q :: rest ↔
      a ∉ p ∧ ∃ tail, l = p ++ a :: tail ∧ tail.splitOn a = q :: rest := by
  constructor
  · intro pieces
    by_cases member : a ∈ l
    · obtain ⟨before, after, rfl, absent⟩ := eq_append_cons_of_mem member
      rw [splitOn_append_cons_self_of_not_mem absent] at pieces
      obtain ⟨rfl, others⟩ := List.cons.inj pieces
      exact ⟨absent, after, rfl, others⟩
    · rw [splitOn_eq_singleton member] at pieces
      cases (List.cons.inj pieces).2
  · rintro ⟨absent, tail, rfl, others⟩
    rw [splitOn_append_cons_self_of_not_mem absent, others]

end Pieces

/-- A list with `a` at position `n` is what stands before it, `a`, and what stands after it. -/
theorem exists_eq_append_cons_iff {P : List α → List α → Prop} :
    (∃ before, before.length = n ∧ ∃ after, l = before ++ a :: after ∧ P before after) ↔
      l[n]? = some a ∧ P (l.take n) (l.drop (n + 1)) := by
  constructor
  · rintro ⟨before, rfl, after, rfl, holds⟩
    refine ⟨by simp, ?_⟩
    have rest : (before ++ a :: after).drop (before.length + 1) = after := by
      rw [← drop_drop, drop_left, drop_succ_cons, drop_zero]
    rwa [take_left, rest]
  · rintro ⟨found, holds⟩
    obtain ⟨bound, same⟩ := getElem?_eq_some_iff.mp found
    refine ⟨l.take n, ?_, l.drop (n + 1), ?_, holds⟩
    · rw [length_take]
      omega
    · rw [← same, ← drop_eq_getElem_cons, take_append_drop]

/-- What stands in the `n` positions from `i` on. -/
theorem mem_take_drop_iff : c ∈ (l.drop i).take n ↔ ∃ k, i ≤ k ∧ k < i + n ∧ l[k]? = some c := by
  rw [mem_iff_getElem?]
  constructor
  · rintro ⟨k, found⟩
    rw [getElem?_take] at found
    split at found
    · next below =>
      rw [getElem?_drop] at found
      exact ⟨i + k, by omega, by omega, found⟩
    · contradiction
  · rintro ⟨k, above, below, found⟩
    refine ⟨k - i, ?_⟩
    rw [getElem?_take_of_lt (by omega), getElem?_drop]
    rwa [Nat.add_sub_cancel' above]

end List
