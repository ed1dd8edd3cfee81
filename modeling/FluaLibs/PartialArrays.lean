import Mathlib.Data.List.GetD

/-! # Arrays that are written in part

An array in memory holds something before it is written.  A program that writes a list to
its start and then uses more elements than the list has uses what was there before: the
elements are those of the list exactly if there are as many of them
(`PartialArray.elements_eq_self_iff`).
-/
namespace FluaLibs
namespace PartialArray
variable {α : Type} {xs : List α} {stale : Nat → α} {i n : Nat} {x : α}

/-- An element of an array with a list at its start. -/
def read (xs : List α) (stale : Nat → α) (i : Nat) : α := xs.getD i (stale i)

/-- The first elements of the array. -/
def elements (xs : List α) (stale : Nat → α) (n : Nat) : List α :=
  (List.range n).map (read xs stale)

theorem read_of_lt (h : i < xs.length) : read xs stale i = xs[i] := List.getD_eq_getElem _ _ h

theorem read_of_le (h : xs.length ≤ i) : read xs stale i = stale i := List.getD_eq_default _ _ h

/-- Writing the element after the list. -/
theorem read_concat (xs : List α) (stale : Nat → α) (x : α) :
    read (xs ++ [x]) stale = fun i => if i = xs.length then x else read xs stale i := by
  funext i
  unfold read
  split
  · next heq =>
    subst heq
    rw [List.getD_append_right _ _ _ _ (Nat.le_refl _), Nat.sub_self]
    rfl
  · next hne =>
    rcases Nat.lt_or_ge i xs.length with hlt | hge
    · rw [List.getD_append _ _ _ _ hlt]
    · rw [List.getD_eq_default xs _ hge, List.getD_eq_default]
      rw [List.length_append, List.length_singleton]
      omega

@[simp] theorem elements_length (xs : List α) (stale : Nat → α) (n : Nat) :
    (elements xs stale n).length = n := by
  rw [elements, List.length_map, List.length_range]

theorem elements_self (xs : List α) (stale : Nat → α) : elements xs stale xs.length = xs := by
  apply List.ext_getElem
  · exact elements_length ..
  · intro i hi hi'
    simp only [elements, List.getElem_map, List.getElem_range]
    exact read_of_lt hi'

/-- **The elements are the list** exactly if there are as many. -/
theorem elements_eq_self_iff : elements xs stale n = xs ↔ xs.length = n := by
  constructor
  · intro heq
    rw [← heq, elements_length]
  · rintro rfl
    exact elements_self xs stale

/-- The elements are the list, and what was there after it. -/
theorem elements_eq_append (h : xs.length ≤ n) :
    elements xs stale n =
      xs ++ (List.range (n - xs.length)).map (fun i => stale (xs.length + i)) := by
  obtain ⟨d, rfl⟩ := Nat.exists_eq_add_of_le h
  have hself := elements_self xs stale
  rw [elements] at hself
  rw [elements, List.range_add, List.map_append, hself, Nat.add_sub_cancel_left, List.map_map]
  congr 1
  apply List.map_congr_left
  intro i _
  exact read_of_le (Nat.le_add_right _ _)

theorem mem_elements_iff (h : xs.length ≤ n) :
    x ∈ elements xs stale n ↔ x ∈ xs ∨ ∃ i, xs.length ≤ i ∧ i < n ∧ stale i = x := by
  rw [elements_eq_append h, List.mem_append, List.mem_map]
  apply or_congr_right
  constructor
  · rintro ⟨i, hi, heq⟩
    rw [List.mem_range] at hi
    exact ⟨xs.length + i, Nat.le_add_right _ _, by omega, heq⟩
  · rintro ⟨i, hle, hlt, heq⟩
    obtain ⟨d, rfl⟩ := Nat.exists_eq_add_of_le hle
    exact ⟨d, List.mem_range.mpr (by omega), heq⟩

end PartialArray
end FluaLibs
