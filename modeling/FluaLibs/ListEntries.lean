import Mathlib.Algebra.GroupWithZero.Nat
import Mathlib.Data.List.Basic

/-! # Entries of lists

The objects of a system are kept in a list, in the order in which they were made, and an object
changes by being replaced or modified in its place.  What is read of the others stays
(`bind_modify_same`, `getElem?_concat_of_ne`), and what is counted over all of them changes by what
leaves and what comes (`countP_set_add`).
-/
namespace FluaLibs

/-- An entry of a list in which one has been replaced. -/
theorem getElem?_set_cases {α : Type} {l : List α} {i j : Nat} {x y : α}
    (h : (l.set i x)[j]? = some y) : (j = i ∧ y = x) ∨ (j ≠ i ∧ l[j]? = some y) := by
  rw [List.getElem?_set] at h
  by_cases heq : i = j
  · rw [if_pos heq] at h
    split at h
    · exact Or.inl ⟨heq.symm, (Option.some.inj h).symm⟩
    · cases h
  · rw [if_neg heq] at h
    exact Or.inr ⟨Ne.symm heq, h⟩

/-- An entry of a list to which one has been added. -/
theorem getElem?_concat_cases {α : Type} {l : List α} {j : Nat} {x y : α}
    (h : (l ++ [x])[j]? = some y) : l[j]? = some y ∨ y = x := by
  rw [List.getElem?_append] at h
  split at h
  · exact Or.inl h
  · exact Or.inr (List.mem_singleton.mp (List.mem_of_getElem? h))

/-- The other entries of a list to which one has been added. -/
theorem getElem?_concat_of_ne {α : Type*} {l : List α} {j : Nat} {x : α} (hj : j ≠ l.length) :
    (l ++ [x])[j]? = l[j]? := by
  rcases Nat.lt_or_gt_of_ne hj with hlt | hgt
  · exact List.getElem?_append_left hlt
  · -- both lists have ended
    have hlength : (l ++ [x]).length ≤ j := by
      rw [List.length_append]
      exact hgt
    rw [List.getElem?_eq_none hlength, List.getElem?_eq_none (Nat.le_of_lt hgt)]

/-- What is read of the entries is not what is modified in one of them. -/
theorem bind_modify_same {α β : Type*} {l : List α} {f : α → α} {g : α → Option β}
    (hfg : ∀ x, g (f x) = g x) (i j : Nat) : (l.modify i f)[j]?.bind g = l[j]?.bind g := by
  rw [List.getElem?_modify]
  cases l[j]? with
  | none => rfl
  | some x => by_cases hij : i = j <;> simp [hij, hfg]

/-- What is read of the entries is taken away from one of them. -/
theorem bind_modify_none {α β : Type*} {l : List α} {f : α → α} {g : α → Option β}
    (hfg : ∀ x, g (f x) = none) (i j : Nat) :
    (l.modify i f)[j]?.bind g = if j = i then none else l[j]?.bind g := by
  rw [List.getElem?_modify]
  cases l[j]? with
  | none => simp
  | some x => by_cases hij : i = j <;> simp [hij, hfg, Ne.symm]

/-- What is read of the entries when one has been added. -/
theorem bind_concat {α β : Type*} (l : List α) (x : α) (g : α → Option β) (j : Nat) :
    (l ++ [x])[j]?.bind g = if j = l.length then g x else l[j]?.bind g := by
  by_cases hj : j = l.length
  · rw [if_pos hj, hj, List.getElem?_concat_length]
    rfl
  · rw [if_neg hj, getElem?_concat_of_ne hj]

/-- What holds of all entries, and of the one that is modified, holds afterwards. -/
theorem forall_mem_modify {α : Type*} {l : List α} {f : α → α} {p : α → Prop} {i : Nat}
    (hold : ∀ x ∈ l, p x) (hnew : ∀ x, l[i]? = some x → p (f x)) : ∀ x ∈ l.modify i f, p x := by
  intro x hx
  obtain ⟨j, hj⟩ := List.mem_iff_getElem?.mp hx
  rw [List.getElem?_modify] at hj
  obtain ⟨y, hy, rfl⟩ := Option.map_eq_some_iff.mp hj
  by_cases hij : i = j
  · subst hij
    rw [if_pos rfl]
    exact hnew y hy
  · rw [if_neg hij]
    exact hold y (List.mem_of_getElem? hy)

/-- Replacing a holder: what is counted changes by what leaves and what comes. -/
theorem countP_set_add {α : Type} (p : α → Bool) {l : List α} {i : Nat} {x y : α}
    (h : l[i]? = some x) :
    (l.set i y).countP p + (if p x then 1 else 0) = l.countP p + (if p y then 1 else 0) := by
  obtain ⟨hi, rfl⟩ := List.getElem?_eq_some_iff.mp h
  have hle : (if p l[i] then 1 else 0) ≤ l.countP p := List.boole_getElem_le_countP hi
  rw [List.countP_set hi]
  omega

/-- The same for a sum over the holders: the others contribute what they did. -/
theorem exists_sum_map_set {α : Type} (f : α → Nat) {l : List α} {i : Nat} {x : α}
    (h : l[i]? = some x) : ∃ others, (l.map f).sum = others + f x ∧
      ∀ y, ((l.set i y).map f).sum = others + f y := by
  induction l generalizing i with
  | nil => cases h
  | cons z l ih =>
    cases i with
    | zero =>
      obtain rfl := Option.some.inj h
      refine ⟨(l.map f).sum, ?_, fun y => ?_⟩
      · rw [List.map_cons, List.sum_cons, Nat.add_comm]
      · rw [List.set_cons_zero, List.map_cons, List.sum_cons, Nat.add_comm]
    | succ i =>
      obtain ⟨others, hsum, hset⟩ := ih h
      refine ⟨f z + others, ?_, fun y => ?_⟩
      · rw [List.map_cons, List.sum_cons, hsum, Nat.add_assoc]
      · rw [List.set_cons_succ, List.map_cons, List.sum_cons, hset, Nat.add_assoc]

end FluaLibs
