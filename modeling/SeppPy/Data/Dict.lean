import Mathlib.Data.List.Basic
import Mathlib.Data.List.Nodup

/-! # Insertion-ordered dictionaries

A `Dict` lists its items in insertion order and carries the proof that its keys are distinct. `set`
replaces a value in place or appends a new item, `pop` removes one, and `fill` is the loop that
converts the items of one dictionary into another and stops at the first item that does not
convert. Reading a dictionary is membership of an item (`get?_eq_some_iff`), and `get?_fill_iff` reads
what the loop has filled off what it was given.
-/

/-- Items in insertion order, under distinct keys. -/
structure Dict (κ ν : Type*) where
  items : List (κ × ν)
  nodup : (items.map Prod.fst).Nodup
deriving DecidableEq, Repr

namespace Dict

variable {κ ν μ ε : Type*} [DecidableEq κ]

def empty : Dict κ ν := ⟨[], List.nodup_nil⟩

instance : Inhabited (Dict κ ν) := ⟨empty⟩

def get? (d : Dict κ ν) (key : κ) : Option ν :=
  (d.items.find? fun item => decide (item.1 = key)).map Prod.snd

/-- Replace the value of a key in place. -/
def replaceItem (key : κ) (value : ν) (item : κ × ν) : κ × ν :=
  if item.1 = key then (item.1, value) else item

theorem map_replaceItem_keys (items : List (κ × ν)) (key : κ) (value : ν) :
    (items.map (replaceItem key value)).map Prod.fst = items.map Prod.fst := by
  rw [List.map_map]
  refine List.map_congr_left fun item _ => ?_
  simp only [Function.comp_apply, replaceItem]
  split <;> rfl

def set (d : Dict κ ν) (key : κ) (value : ν) : Dict κ ν :=
  if present : key ∈ d.items.map Prod.fst then
    ⟨d.items.map (replaceItem key value), by rw [map_replaceItem_keys]; exact d.nodup⟩
  else
    ⟨d.items ++ [(key, value)], by
      rw [List.map_append, List.nodup_append]
      refine ⟨d.nodup, List.nodup_singleton _, ?_⟩
      rintro old member new fresh rfl
      obtain rfl := List.mem_singleton.mp fresh
      exact present member⟩

/-- The keys are distinct, so a key is read exactly where its item is. -/
theorem get?_eq_some_iff (d : Dict κ ν) (key : κ) (value : ν) :
    d.get? key = some value ↔ (key, value) ∈ d.items := by
  obtain ⟨items, nodup⟩ := d
  simp only [get?, Option.map_eq_some_iff, Prod.exists, exists_eq_right]
  constructor
  · rintro ⟨found, same⟩
    have matched : found = key := by simpa using List.find?_some same
    exact matched ▸ List.mem_of_find?_eq_some same
  · intro member
    refine ⟨key, ?_⟩
    induction items with
    | nil => cases member
    | cons item rest ih =>
      rw [List.map_cons, List.nodup_cons] at nodup
      rcases List.mem_cons.mp member with rfl | later
      · simp
      · have other : item.1 ≠ key := by
          rintro rfl
          exact nodup.1 (List.mem_map.mpr ⟨_, later, rfl⟩)
        rw [List.find?_cons_of_neg (by simpa using other)]
        exact ih nodup.2 later

/-- Setting a key changes what is read at that key and nowhere else. -/
theorem mem_set (d : Dict κ ν) (key other : κ) (value value' : ν) :
    (other, value') ∈ (d.set key value).items ↔
      other = key ∧ value' = value ∨ other ≠ key ∧ (other, value') ∈ d.items := by
  unfold set
  split
  · next present =>
    simp only [List.mem_map, Prod.exists, replaceItem]
    constructor
    · rintro ⟨k, v, member, replaced⟩
      split at replaced
      · next same =>
        cases replaced
        exact .inl ⟨same, rfl⟩
      · next different =>
        cases replaced
        exact .inr ⟨different, member⟩
    · rintro (⟨rfl, rfl⟩ | ⟨different, member⟩)
      · obtain ⟨⟨_, v⟩, member, rfl⟩ := List.mem_map.mp present
        exact ⟨_, v, member, if_pos rfl⟩
      · exact ⟨other, value', member, if_neg different⟩
  · next absent =>
    simp only [List.mem_append, List.mem_singleton, Prod.mk.injEq]
    constructor
    · rintro (member | same)
      · refine .inr ⟨?_, member⟩
        rintro rfl
        exact absent (List.mem_map_of_mem member)
      · exact .inl same
    · rintro (same | ⟨_, member⟩)
      · exact .inr same
      · exact .inl member

def pop (d : Dict κ ν) (key : κ) : Dict κ ν :=
  ⟨d.items.filter fun item => decide (item.1 ≠ key),
    d.nodup.sublist (List.filter_sublist.map Prod.fst)⟩

/-- Convert items one by one into a dictionary; the first failure ends the loop. -/
def fill (convert : κ → ν → Except ε μ) : List (κ × ν) → Dict κ μ → Except ε (Dict κ μ)
  | [], out => .ok out
  | (key, value) :: rest, out =>
    match convert key value with
    | .ok converted => fill convert rest (out.set key converted)
    | .error err => .error err

variable {convert : κ → ν → Except ε μ}

/-- The loop succeeds exactly when every item converts. -/
theorem fill_ok_iff (items : List (κ × ν)) (out : Dict κ μ) :
    (∃ filled, fill convert items out = .ok filled) ↔
      ∀ item ∈ items, ∃ converted, convert item.1 item.2 = .ok converted := by
  induction items generalizing out with
  | nil => simp [fill]
  | cons item rest ih =>
    obtain ⟨key, value⟩ := item
    cases found : convert key value with
    | ok converted => simp [fill, found, ih]
    | error err => simp [fill, found]

/-- A failure of the loop is the failure of one of the items. -/
theorem fill_error {items : List (κ × ν)} {out : Dict κ μ} {err : ε}
    (failed : fill convert items out = .error err) :
    ∃ item ∈ items, convert item.1 item.2 = .error err := by
  induction items generalizing out with
  | nil => cases failed
  | cons item rest ih =>
    obtain ⟨key, value⟩ := item
    cases found : convert key value with
    | ok converted =>
      rw [fill, found] at failed
      obtain ⟨other, member, reason⟩ := ih failed
      exact ⟨other, List.mem_cons_of_mem _ member, reason⟩
    | error err' =>
      simp only [fill, found, Except.error.injEq] at failed
      exact ⟨(key, value), List.mem_cons_self, failed ▸ found⟩

theorem mem_fill {items : List (κ × ν)} {out filled : Dict κ μ}
    (distinct : (items.map Prod.fst).Nodup) (finished : fill convert items out = .ok filled)
    (key : κ) (converted : μ) :
    (key, converted) ∈ filled.items ↔
      (∃ value, (key, value) ∈ items ∧ convert key value = .ok converted) ∨
        key ∉ items.map Prod.fst ∧ (key, converted) ∈ out.items := by
  induction items generalizing out with
  | nil =>
    cases finished
    simp
  | cons item rest ih =>
    obtain ⟨first, value⟩ := item
    rw [List.map_cons, List.nodup_cons] at distinct
    cases found : convert first value with
    | error err =>
      rw [fill, found] at finished
      contradiction
    | ok done =>
      rw [fill, found] at finished
      rw [ih distinct.2 finished, mem_set]
      by_cases same : key = first
      · subst same
        have absent (other : ν) : (key, other) ∉ rest := fun member =>
          distinct.1 (List.mem_map.mpr ⟨_, member, rfl⟩)
        simp [absent, distinct.1, found, eq_comm]
      · simp [same]

/-- The loop fills in, under every key, what the item at that key converts to. -/
theorem get?_fill_iff {d : Dict κ ν} {filled : Dict κ μ}
    (finished : fill convert d.items .empty = .ok filled) (key : κ) (converted : μ) :
    filled.get? key = some converted ↔
      ∃ value, d.get? key = some value ∧ convert key value = .ok converted := by
  simp only [get?_eq_some_iff, mem_fill d.nodup finished, empty, List.not_mem_nil, and_false,
    or_false]

end Dict
