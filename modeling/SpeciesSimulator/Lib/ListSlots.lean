import Mathlib.Data.List.Basic

/-!
# Slots of a list

A list of pending items whose `i`-th one is changed or taken out.  Both are
read off from one splitting of the list around the item.

Main facts:
* `exists_split`: the splitting, with what `set` and `eraseIdx` make of it;
* `filter_eraseIdx_of_neg`: taking out an item that a filter drops leaves the
  filtered list alone;
* `filter_eq_singleton`: an item a filter keeps, where it keeps only one, is
  that one, and nothing is kept once it is taken out;
* `getElem?_concat_cases`: the items of a list that grew;
* `Every.concat`, `Every.set`, `Every.modify`: what holds of every item and its
  place goes on to hold.
-/

namespace ListSlots

universe u

variable {α : Type u}

/-- Split a list around its `i`-th item. -/
theorem exists_split
    {l : List α} {i : Nat} {a : α}
    (h : l[i]? = some a) :
    ∃ l₁ l₂ : List α,
      l = l₁ ++ a :: l₂ ∧
      l.eraseIdx i = l₁ ++ l₂ ∧
      ∀ b, l.set i b = l₁ ++ b :: l₂ := by
  induction l generalizing i with
  | nil =>
      simp at h
  | cons x l ih =>
      cases i with
      | zero =>
          simp only [List.getElem?_cons_zero, Option.some.injEq] at h
          subst x
          exact ⟨[], l, rfl, rfl, fun _ => rfl⟩
      | succ i =>
          simp only [List.getElem?_cons_succ] at h
          obtain ⟨l₁, l₂, hl, herase, hset⟩ := ih h
          refine ⟨x :: l₁, l₂, ?_, ?_, ?_⟩
          · rw [hl]
            rfl
          · rw [List.eraseIdx_cons_succ, herase]
            rfl
          · intro b
            rw [List.set_cons_succ, hset b]
            rfl

/-- A list with an `i`-th item has items. -/
theorem ne_nil_of_slot
    {l : List α} {i : Nat} {a : α}
    (h : l[i]? = some a) :
    l ≠ [] := by
  rintro rfl
  cases h

/-- The items before and after the `i`-th one. -/
theorem eq_take_cons_drop
    {l : List α} {i : Nat} {a : α}
    (h : l[i]? = some a) :
    l = l.take i ++ a :: l.drop (i + 1) := by
  obtain ⟨hlt, hget⟩ := List.getElem?_eq_some_iff.mp h
  rw [← hget, List.getElem_cons_drop, List.take_append_drop]

/-- Taking out an item that is filtered out anyway. -/
theorem filter_eraseIdx_of_neg
    {p : α → Bool} {l : List α} {i : Nat} {a : α}
    (h : l[i]? = some a)
    (hp : p a = false) :
    (l.eraseIdx i).filter p = l.filter p := by
  obtain ⟨l₁, l₂, hl, herase, _⟩ := exists_split h
  rw [herase, hl]
  simp [List.filter_append, hp]

/-- Changing an item that is filtered out before and after. -/
theorem filter_set_of_neg
    {p : α → Bool} {l : List α} {i : Nat} {a b : α}
    (h : l[i]? = some a)
    (ha : p a = false)
    (hb : p b = false) :
    (l.set i b).filter p = l.filter p := by
  obtain ⟨l₁, l₂, hl, _, hset⟩ := exists_split h
  rw [hset b, hl]
  simp [List.filter_append, ha, hb]

/-- The only item that a filter keeps. -/
theorem filter_eq_singleton
    {p : α → Bool} {l : List α} {i : Nat} {a c : α}
    (h : l[i]? = some a)
    (hp : p a = true)
    (hl : l.filter p = [c]) :
    a = c ∧
      (l.eraseIdx i).filter p = [] ∧
      ∀ b, p b = true → (l.set i b).filter p = [b] := by
  obtain ⟨l₁, l₂, hsplit, herase, hset⟩ := exists_split h
  rw [hsplit, List.filter_append, List.filter_cons_of_pos hp] at hl
  have hparts :
      l₁.filter p = [] ∧ a = c ∧ l₂.filter p = [] := by
    cases hl₁ : l₁.filter p with
    | nil =>
        rw [hl₁, List.nil_append] at hl
        injection hl with hhead htail
        exact ⟨rfl, hhead, htail⟩
    | cons x xs =>
        rw [hl₁] at hl
        simp at hl
  obtain ⟨h₁, hac, h₂⟩ := hparts
  refine ⟨hac, ?_, ?_⟩
  · rw [herase, List.filter_append, h₁, h₂]
    rfl
  · intro b hb
    rw [hset b, List.filter_append, List.filter_cons_of_pos hb, h₁, h₂]
    rfl

/-- The only item of a list that has at most one. -/
theorem eq_singleton
    {l : List α} {i : Nat} {a : α}
    (hlen : l.length ≤ 1)
    (h : l[i]? = some a) :
    l = [a] ∧ l.eraseIdx i = [] ∧ ∀ b, l.set i b = [b] := by
  obtain ⟨l₁, l₂, hsplit, herase, hset⟩ := exists_split h
  have hnil : l₁ = [] ∧ l₂ = [] := by
    rw [hsplit] at hlen
    simp only [List.length_append, List.length_cons] at hlen
    constructor
    · exact List.eq_nil_of_length_eq_zero (by omega)
    · exact List.eq_nil_of_length_eq_zero (by omega)
  obtain ⟨rfl, rfl⟩ := hnil
  exact ⟨hsplit, herase, hset⟩

/-- The item of a list that has one. -/
theorem only_item
    {l : List α} {i : Nat} {a b : α}
    (h : l[i]? = some a)
    (hl : l = [b]) :
    a = b ∧ l.eraseIdx i = [] ∧ ∀ c, l.set i c = [c] := by
  obtain ⟨hone, herase, hset⟩ := eq_singleton (by simp [hl]) h
  refine ⟨?_, herase, hset⟩
  simpa [hone] using hl

/-- An item of a list that grew is an old one or the last. -/
theorem getElem?_concat_cases
    {l : List α} {i : Nat} {a b : α}
    (h : (l ++ [a])[i]? = some b) :
    l[i]? = some b ∨ i = l.length ∧ b = a := by
  rw [List.getElem?_append] at h
  split at h
  · exact Or.inl h
  · next hlen =>
    rw [List.getElem?_singleton] at h
    split at h
    · next hzero =>
      exact Or.inr ⟨by omega, (Option.some.inj h).symm⟩
    · cases h

section Every

/-- Every item is as it should be at its place. -/
def Every (P : Nat → α → Prop) (l : List α) : Prop :=
  ∀ i a, l[i]? = some a → P i a

variable {P Q : Nat → α → Prop} {l : List α}

@[simp] theorem every_nil :
    Every P ([] : List α) := by
  intro i a h
  simp at h

theorem Every.mono
    (h : Every P l)
    (hPQ : ∀ i a, l[i]? = some a → P i a → Q i a) :
    Every Q l :=
  fun i a hi => hPQ i a hi (h i a hi)

theorem Every.concat
    {a : α}
    (h : Every P l)
    (ha : P l.length a) :
    Every P (l ++ [a]) := by
  intro i b hi
  rcases getElem?_concat_cases hi with hold | ⟨rfl, rfl⟩
  · exact h i b hold
  · exact ha

/-- The item at one place is changed, and what should hold at the others. -/
theorem Every.set_mono
    {i : Nat} {a : α}
    (h : Every P l)
    (hPQ : ∀ j b, i ≠ j → P j b → Q j b)
    (ha : i < l.length → Q i a) :
    Every Q (l.set i a) := by
  intro j b hj
  rw [List.getElem?_set] at hj
  split at hj
  · next hij =>
    subst j
    split at hj
    · next hlt =>
      obtain rfl := Option.some.inj hj
      exact ha hlt
    · cases hj
  · next hij => exact hPQ j b hij (h j b hj)

theorem Every.set
    {i : Nat} {a : α}
    (h : Every P l)
    (ha : i < l.length → P i a) :
    Every P (l.set i a) :=
  h.set_mono (fun _ _ _ hb => hb) ha

theorem Every.modify
    {i : Nat} {f : α → α}
    (h : Every P l)
    (hf : ∀ a, l[i]? = some a → P i a → P i (f a)) :
    Every P (l.modify i f) := by
  intro j b hj
  rw [List.getElem?_modify] at hj
  obtain ⟨a, ha, rfl⟩ := Option.map_eq_some_iff.mp hj
  split
  · next hij =>
    subst j
    exact hf a ha (h i a ha)
  · exact h j a ha

end Every

end ListSlots
