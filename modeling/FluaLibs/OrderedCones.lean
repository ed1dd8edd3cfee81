import Mathlib.Data.Finset.Sort
import Mathlib.Data.List.Lex
import Mathlib.Order.Bounds.Basic
import Mathlib.Tactic.Tauto

/-! # Successors in finite ordered sets

Going from an element of a linear order to the least greater element of a finite set,
again and again, enumerates what is greater in increasing order.  When the elements are
lists in lexicographic order, those that extend a given list are a convex part of it, so
that the enumeration has seen all of them when it first leaves them.
-/
namespace FluaLibs

/-! ## One step of the enumeration -/

section Successor
variable {α : Type*} [LinearOrder α] (s : Finset α) (p : α → Prop) [DecidablePred p]

/-- The elements of a part of the set that come after `x`, in increasing order. -/
def after (x : α) : List α := (s.filter (fun y => p y ∧ x < y)).sort

/-- The number of elements that come after `x`. -/
def countAfter (x : α) : Nat := (s.filter (x < ·)).card

theorem countAfter_le (x : α) : countAfter s x ≤ s.card := Finset.card_filter_le _ _

/-- Either there is a successor, or nothing comes after an element. -/
theorem exists_least_or_none (x : α) :
    (∃ y, IsLeast {z | z ∈ s ∧ x < z} y) ∨ ∀ z ∈ s, ¬ x < z := by
  by_cases h : (s.filter (x < ·)).Nonempty
  · left
    refine ⟨(s.filter (x < ·)).min' h, ?_⟩
    have hleast := Finset.isLeast_min' _ h
    simpa using hleast
  · right
    rw [Finset.not_nonempty_iff_eq_empty, Finset.filter_eq_empty_iff] at h
    exact fun z hz => h hz

theorem mem_after {x y : α} : y ∈ after s p x ↔ y ∈ s ∧ p y ∧ x < y := by
  rw [after, Finset.mem_sort, Finset.mem_filter]

variable {s p} {x y : α} (h : IsLeast {z | z ∈ s ∧ x < z} y)
include h

theorem filter_after_of_least (hp : p y) : s.filter (fun z => p z ∧ x < z) =
    insert y (s.filter (fun z => p z ∧ y < z)) := by
  ext z
  simp only [Finset.mem_filter, Finset.mem_insert]
  constructor
  · rintro ⟨hz, hpz, hxz⟩
    rcases (h.2 ⟨hz, hxz⟩).eq_or_lt with rfl | hlt
    · exact Or.inl rfl
    · exact Or.inr ⟨hz, hpz, hlt⟩
  · rintro (rfl | ⟨hz, hpz, hyz⟩)
    · exact ⟨h.1.1, hp, h.1.2⟩
    · exact ⟨hz, hpz, h.1.2.trans hyz⟩

/-- The successor comes first, and what comes after it follows. -/
theorem after_of_least (hp : p y) : after s p x = y :: after s p y := by
  rw [after, filter_after_of_least h hp, Finset.sort_insert]
  · rfl
  · intro z hz
    exact (Finset.mem_filter.mp hz).2.2.le
  · intro hy
    exact lt_irrefl y (Finset.mem_filter.mp hy).2.2

/-- Once the successor is outside a convex part, nothing of that part comes after. -/
theorem after_of_least_not (hconvex : ∀ z, p z → y ≤ z → p y) (hp : ¬ p y) :
    after s p x = [] := by
  rw [after, Finset.filter_eq_empty_iff.mpr, Finset.sort_empty]
  rintro z hz ⟨hpz, hxz⟩
  exact hp (hconvex z hpz (h.2 ⟨hz, hxz⟩))

omit h in
theorem after_of_none (hnone : ∀ z ∈ s, ¬ x < z) : after s p x = [] := by
  rw [after, Finset.filter_eq_empty_iff.mpr, Finset.sort_empty]
  exact fun z hz hpz => hnone z hz hpz.2

/-- Fewer elements come after the successor. -/
theorem countAfter_lt : countAfter s y < countAfter s x := by
  apply Finset.card_lt_card
  rw [Finset.ssubset_iff_of_subset]
  · exact ⟨y, Finset.mem_filter.mpr h.1, fun hy => lt_irrefl y (Finset.mem_filter.mp hy).2⟩
  · intro z hz
    obtain ⟨hz, hyz⟩ := Finset.mem_filter.mp hz
    exact Finset.mem_filter.mpr ⟨hz, h.1.2.trans hyz⟩

end Successor

/-! ## The extensions of a list -/

section Cone
variable {α : Type*} [LinearOrder α]

theorem cons_le_iff {a b : α} {x y : List α} :
    a :: x ≤ b :: y ↔ a < b ∨ a = b ∧ x ≤ y := by
  rw [le_iff_lt_or_eq, List.cons_lt_cons_iff, le_iff_lt_or_eq, List.cons.injEq]
  tauto

theorem le_of_extends {m x : List α} (h : m <+: x) : m ≤ x := by
  induction m generalizing x with
  | nil => exact not_lt.mp (List.not_lt_nil x)
  | cons a m ih =>
    obtain ⟨x, rfl, hx⟩ := List.cons_prefix_iff.mp h
    exact cons_le_iff.mpr (Or.inr ⟨rfl, ih hx⟩)

/-- What lies between two extensions of a list extends it. -/
theorem extends_of_between {m x y z : List α} (hx : m <+: x) (hz : m <+: z) (hxy : x ≤ y)
    (hyz : y ≤ z) : m <+: y := by
  induction m generalizing x y z with
  | nil => exact List.nil_prefix
  | cons a m ih =>
    obtain ⟨x, rfl, hmx⟩ := List.cons_prefix_iff.mp hx
    obtain ⟨z, rfl, hmz⟩ := List.cons_prefix_iff.mp hz
    cases y with
    | nil => exact absurd hxy (not_le.mpr (List.nil_lt_cons a x))
    | cons b y =>
      rcases cons_le_iff.mp hxy with hab | ⟨rfl, htail⟩
      · rcases cons_le_iff.mp hyz with hba | ⟨rfl, _⟩
        · exact absurd (hab.trans hba) (lt_irrefl a)
        · exact absurd hab (lt_irrefl _)
      · rcases cons_le_iff.mp hyz with hba | ⟨_, htail'⟩
        · exact absurd hba (lt_irrefl a)
        · exact List.cons_prefix_cons.mpr ⟨rfl, ih hmx hmz htail htail'⟩

/-- A list after an extension of `m`, padded with any elements: if it then begins like
`m`, it extends `m`, padding aside. -/
theorem extends_of_take_padded {m x y pad : List α} (hx : m <+: x) (hxy : x < y)
    (h : (y ++ pad).take m.length = m) : m <+: y := by
  induction m generalizing x y with
  | nil => exact List.nil_prefix
  | cons a m ih =>
    obtain ⟨x, rfl, hmx⟩ := List.cons_prefix_iff.mp hx
    cases y with
    | nil => exact absurd hxy (List.not_lt_nil _)
    | cons b y =>
      rw [List.cons_append, List.length_cons, List.take_succ_cons] at h
      obtain ⟨rfl, htake⟩ := List.cons.inj h
      rcases List.cons_lt_cons_iff.mp hxy with hlt | ⟨_, htail⟩
      · exact absurd hlt (lt_irrefl b)
      · exact List.cons_prefix_cons.mpr ⟨rfl, ih hmx htail htake⟩

end Cone
end FluaLibs
