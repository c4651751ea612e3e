import Mathlib.Data.List.Forall2

/-! # Checks in sequence and loops that skip the failures they catch

A sequence of checks in `Except` succeeds when each of them does and fails with the first that
fails. Two sequences that make the same checks agree: both succeed, with related values, or both
fail alike. `skipLoop decode caught items out` is the loop that decodes items one by one, appends what
decodes, skips an item whose failure is caught and leaves with the first failure that is not. It
finishes exactly when no item escapes, and then it has kept, in order, the items that decode.
-/

namespace Except

universe u v

variable {ε : Type u} {α β : Type v} {x : Except ε α} {f : α → Except ε β} {value : β} {err : ε}

theorem bind_eq_ok_iff : (x >>= f) = .ok value ↔ ∃ a, x = .ok a ∧ f a = .ok value := by
  cases x with
  | ok a =>
    constructor
    · intro success
      exact ⟨a, rfl, success⟩
    · rintro ⟨_, same, success⟩
      cases same
      exact success
  | error err =>
    constructor
    · intro success
      contradiction
    · rintro ⟨_, absent, _⟩
      contradiction

theorem bind_eq_error_iff :
    (x >>= f) = .error err ↔ x = .error err ∨ ∃ a, x = .ok a ∧ f a = .error err := by
  cases x with
  | ok a =>
    constructor
    · intro failed
      exact .inr ⟨a, rfl, failed⟩
    · rintro (absent | ⟨_, same, failed⟩)
      · contradiction
      · cases same
        exact failed
  | error err' =>
    constructor
    · intro failed
      cases failed
      exact .inl rfl
    · rintro (same | ⟨_, absent, _⟩)
      · cases same
        rfl
      · contradiction

theorem map_map {γ : Type v} (g : β → γ) (h : α → β) (x : Except ε α) :
    (x.map h).map g = x.map (g ∘ h) := (comp_map h g x).symm

/-- A check that raises on a condition succeeds without it. -/
theorem ite_error_eq_ok_iff {c : Prop} [Decidable c] {y : Except ε β} :
    (if c then .error err else y) = .ok value ↔ ¬ c ∧ y = .ok value := by
  by_cases holds : c
  · rw [if_pos holds]
    refine iff_of_false ?_ fun both => both.1 holds
    intro impossible
    contradiction
  · rw [if_neg holds, and_iff_right holds]

/-- `mapM` succeeds with the results of its items, in order. -/
theorem mapM_eq_ok_iff {items : List α} {values : List β} :
    items.mapM f = .ok values ↔ List.Forall₂ (fun a b => f a = .ok b) items values := by
  induction items generalizing values with
  | nil =>
    rw [List.mapM_nil, List.forall₂_nil_left_iff]
    exact ⟨fun same => (Except.ok.inj same).symm, fun same => same ▸ rfl⟩
  | cons item rest ih =>
    simp only [List.mapM_cons, bind_eq_ok_iff, ih, List.forall₂_cons_left_iff]
    constructor
    · rintro ⟨b, first, bs, others, same⟩
      cases same
      exact ⟨b, bs, first, others, rfl⟩
    · rintro ⟨b, bs, first, others, rfl⟩
      exact ⟨b, first, bs, others, rfl⟩

/-- `mapM` succeeds only on items that each do. -/
theorem exists_of_mapM_eq_ok {items : List α} {values : List β} {item : α}
    (done : items.mapM f = .ok values) (member : item ∈ items) : ∃ b, f item = .ok b := by
  induction items generalizing values with
  | nil => cases member
  | cons first rest ih =>
    simp only [List.mapM_cons, bind_eq_ok_iff] at done
    obtain ⟨b, passed, bs, others, _⟩ := done
    rcases List.mem_cons.mp member with rfl | later
    · exact ⟨b, passed⟩
    · exact ih others later

/-- `mapM` fails with the failure of one of its items. -/
theorem exists_of_mapM_eq_error {items : List α} (failed : items.mapM f = .error err) :
    ∃ item ∈ items, f item = .error err := by
  induction items with
  | nil =>
    rw [List.mapM_nil] at failed
    contradiction
  | cons item rest ih =>
    rw [List.mapM_cons] at failed
    rcases bind_eq_error_iff.mp failed with first | ⟨b, _, later⟩
    · exact ⟨item, List.mem_cons_self, first⟩
    · rcases bind_eq_error_iff.mp later with others | ⟨_, _, impossible⟩
      · obtain ⟨other, member, reason⟩ := ih others
        exact ⟨other, List.mem_cons_of_mem item member, reason⟩
      · contradiction

/-- Both succeed, with related values, or both fail with the same failure. -/
inductive Agree {γ : Type v} (R : β → γ → Prop) : Except ε β → Except ε γ → Prop
  | ok {b : β} {c : γ} : R b c → Agree R (.ok b) (.ok c)
  | error (err : ε) : Agree R (.error err) (.error err)

namespace Agree

variable {γ : Type v} {R : β → γ → Prop} {y : Except ε β} {z : Except ε γ}

/-- A check made on both sides keeps what follows it in agreement. -/
theorem bind_same (x : Except ε α) {f : α → Except ε β} {g : α → Except ε γ}
    (each : ∀ a, x = .ok a → Agree R (f a) (g a)) : Agree R (x >>= f) (x >>= g) := by
  cases x with
  | ok a => exact each a rfl
  | error err => exact .error err

theorem exists_ok_iff (agree : Agree R y z) : (∃ b, y = .ok b) ↔ ∃ c, z = .ok c := by
  cases agree with
  | ok related => exact iff_of_true ⟨_, rfl⟩ ⟨_, rfl⟩
  | error err =>
    constructor
    · rintro ⟨_, absent⟩
      contradiction
    · rintro ⟨_, absent⟩
      contradiction

theorem related (agree : Agree R y z) {b : β} {c : γ} (left : y = .ok b) (right : z = .ok c) :
    R b c := by
  cases agree with
  | ok related =>
    cases left
    cases right
    exact related
  | error err => cases left

theorem error_iff (agree : Agree R y z) : y = .error err ↔ z = .error err := by
  cases agree with
  | ok related =>
    constructor
    · intro absent
      contradiction
    · intro absent
      contradiction
  | error err' => rw [Except.error.injEq, Except.error.injEq]

end Agree

end Except

namespace SkipLoop

variable {α β ε : Type*} (decode : α → Except ε β) (caught : ε → Bool)

/-- Decode in order, skipping caught failures; an uncaught failure leaves the loop at once. -/
def skipLoop : List α → List β → Except ε (List β)
  | [], out => .ok out
  | item :: rest, out =>
    match decode item with
    | .ok value => skipLoop rest (out ++ [value])
    | .error err => if caught err then skipLoop rest out else .error err

/-- The item's failure is one the loop does not catch. -/
def Escapes (item : α) : Prop := ∃ err, decode item = .error err ∧ caught err = false

/-- Whether the item decodes. -/
def Decodes (item : α) : Prop := ∃ value, decode item = .ok value

variable {decode caught} {item : α} {rest items : List α} {value : β} {err : ε}

theorem skipLoop_cons_ok (found : decode item = .ok value) (out : List β) :
    skipLoop decode caught (item :: rest) out = skipLoop decode caught rest (out ++ [value]) := by
  simp only [skipLoop, found]

theorem skipLoop_cons_caught (found : decode item = .error err) (how : caught err = true)
    (out : List β) :
    skipLoop decode caught (item :: rest) out = skipLoop decode caught rest out := by
  simp only [skipLoop, found, how, ↓reduceIte]

theorem skipLoop_cons_uncaught (found : decode item = .error err) (how : caught err = false)
    (out : List β) : skipLoop decode caught (item :: rest) out = .error err := by
  simp only [skipLoop, found, how, Bool.false_eq_true, ↓reduceIte]

theorem not_escapes_of_ok (found : decode item = .ok value) : ¬ Escapes decode caught item := by
  rintro ⟨err, failed, _⟩
  rw [found] at failed
  contradiction

theorem not_escapes_of_caught (found : decode item = .error err) (how : caught err = true) :
    ¬ Escapes decode caught item := by
  rintro ⟨err', failed, uncaught⟩
  rw [found] at failed
  cases failed
  exact Bool.noConfusion (uncaught.symm.trans how)

/-- Without an escaping item the loop appends, in order, what decodes. -/
theorem skipLoop_of_forall_not_escapes {keep : α → Bool}
    (exactly : ∀ item, keep item = true ↔ Decodes decode item)
    (safe : ∀ item ∈ items, ¬ Escapes decode caught item) (out : List β) :
    ∃ values, skipLoop decode caught items out = .ok (out ++ values) ∧
      List.Forall₂ (fun item value => decode item = .ok value) (items.filter keep) values := by
  induction items generalizing out with
  | nil => exact ⟨[], by simp [skipLoop], .nil⟩
  | cons item rest ih =>
    have restSafe := fun other member => safe other (List.mem_cons_of_mem item member)
    cases found : decode item with
    | ok value =>
      have kept : keep item = true := (exactly item).mpr ⟨value, found⟩
      obtain ⟨values, loop, decoded⟩ := ih restSafe (out ++ [value])
      refine ⟨value :: values, ?_, ?_⟩
      · rw [skipLoop_cons_ok found, loop, List.append_assoc, List.singleton_append]
      · rw [List.filter_cons_of_pos kept]
        exact .cons found decoded
    | error err =>
      have skipped : caught err = true := by
        by_contra how
        exact safe item List.mem_cons_self ⟨err, found, Bool.eq_false_iff.mpr how⟩
      have dropped : ¬ keep item = true := by
        intro kept
        obtain ⟨value, success⟩ := (exactly item).mp kept
        rw [found] at success
        contradiction
      obtain ⟨values, loop, decoded⟩ := ih restSafe out
      refine ⟨values, ?_, ?_⟩
      · rw [skipLoop_cons_caught found skipped, loop]
      · rwa [List.filter_cons_of_neg dropped]

/-- Everything the loop appends is what some item decodes to. -/
theorem decoded_of_skipLoop {out values : List β}
    (finished : skipLoop decode caught items out = .ok values) (member : value ∈ values) :
    value ∈ out ∨ ∃ item ∈ items, decode item = .ok value := by
  induction items generalizing out with
  | nil =>
    cases finished
    exact .inl member
  | cons item rest ih =>
    cases found : decode item with
    | ok first =>
      rw [skipLoop_cons_ok found] at finished
      rcases ih finished with kept | ⟨other, later, decoded⟩
      · rcases List.mem_append.mp kept with old | new
        · exact .inl old
        · obtain rfl := List.mem_singleton.mp new
          exact .inr ⟨item, List.mem_cons_self, found⟩
      · exact .inr ⟨other, List.mem_cons_of_mem item later, decoded⟩
    | error err =>
      cases how : caught err with
      | false =>
        rw [skipLoop_cons_uncaught found how] at finished
        contradiction
      | true =>
        rw [skipLoop_cons_caught found how] at finished
        rcases ih finished with old | ⟨other, later, decoded⟩
        · exact .inl old
        · exact .inr ⟨other, List.mem_cons_of_mem item later, decoded⟩

/-- One escaping item makes the whole loop fail, with a failure that is not caught. -/
theorem skipLoop_of_escapes (member : item ∈ items) (escapes : Escapes decode caught item)
    (out : List β) :
    ∃ err, skipLoop decode caught items out = .error err ∧ caught err = false := by
  induction items generalizing out with
  | nil => cases member
  | cons head rest ih =>
    cases found : decode head with
    | ok value =>
      have other : item ∈ rest :=
        (List.mem_cons.mp member).resolve_left fun same => not_escapes_of_ok found (same ▸ escapes)
      rw [skipLoop_cons_ok found]
      exact ih other _
    | error err =>
      cases how : caught err with
      | false => exact ⟨err, skipLoop_cons_uncaught found how out, how⟩
      | true =>
        have other : item ∈ rest := (List.mem_cons.mp member).resolve_left
          fun same => not_escapes_of_caught found how (same ▸ escapes)
        rw [skipLoop_cons_caught found how]
        exact ih other _

end SkipLoop
