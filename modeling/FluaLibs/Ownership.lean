import Mathlib.Logic.Basic

/-! # Objects with one owner

Some objects are to be released explicitly, and each by the one party that owns it.
`OwnedOnce Owns Live` says that exactly the live objects have an owner, and that nothing
has two.  Then no object is released twice and none is forgotten: an object is released
through its owner, who lets it go at the same time, and when there are no owners left all
objects have been released.
-/
namespace FluaLibs

/-- What is owned is live, by one owner, and what is live is owned. -/
structure OwnedOnce {Owner Object : Type*} (Owns : Owner → Object → Prop)
    (Live : Object → Prop) : Prop where
  live : ∀ o x, Owns o x → Live x
  unique : ∀ o o' x, Owns o x → Owns o' x → o = o'
  owned : ∀ x, Live x → ∃ o, Owns o x

namespace OwnedOnce
variable {Owner Object : Type*} {Owns Owns' : Owner → Object → Prop} {Live Live' : Object → Prop}

/-- In the beginning there is nothing to own. -/
theorem empty (hOwns : ∀ o x, ¬ Owns o x) (hLive : ∀ x, ¬ Live x) : OwnedOnce Owns Live where
  live o x hx := absurd hx (hOwns o x)
  unique o _ x hx _ := absurd hx (hOwns o x)
  owned x hx := absurd hx (hLive x)

variable (h : OwnedOnce Owns Live)
include h

theorem congr (hOwns : ∀ o x, Owns' o x ↔ Owns o x) (hLive : ∀ x, Live' x ↔ Live x) :
    OwnedOnce Owns' Live' where
  live o x hx := (hLive x).mpr (h.live o x ((hOwns o x).mp hx))
  unique o o' x hx hx' := h.unique o o' x ((hOwns o x).mp hx) ((hOwns o' x).mp hx')
  owned x hx := by
    obtain ⟨o, ho⟩ := h.owned x ((hLive x).mp hx)
    exact ⟨o, (hOwns o x).mpr ho⟩

/-- An owner gets new objects. -/
theorem acquire (o₀ : Owner) (new : Object → Prop) (hnew : ∀ x, new x → ¬ Live x)
    (hOwns : ∀ o x, Owns' o x ↔ Owns o x ∨ o = o₀ ∧ new x)
    (hLive : ∀ x, Live' x ↔ Live x ∨ new x) : OwnedOnce Owns' Live' where
  live o x hx := by
    rcases (hOwns o x).mp hx with hx | ⟨_, hx⟩
    · exact (hLive x).mpr (Or.inl (h.live o x hx))
    · exact (hLive x).mpr (Or.inr hx)
  unique o o' x hx hx' := by
    rcases (hOwns o x).mp hx with hx | ⟨rfl, hx⟩ <;>
      rcases (hOwns o' x).mp hx' with hx' | ⟨rfl, hx'⟩
    · exact h.unique o o' x hx hx'
    · exact absurd (h.live o x hx) (hnew x hx')
    · exact absurd (h.live o' x hx') (hnew x hx)
    · rfl
  owned x hx := by
    rcases (hLive x).mp hx with hx | hx
    · obtain ⟨o, ho⟩ := h.owned x hx
      exact ⟨o, (hOwns o x).mpr (Or.inl ho)⟩
    · exact ⟨o₀, (hOwns o₀ x).mpr (Or.inr ⟨rfl, hx⟩)⟩

/-- Objects are released, and let go by their owners. -/
theorem release (gone : Object → Prop) (hOwns : ∀ o x, Owns' o x ↔ Owns o x ∧ ¬ gone x)
    (hLive : ∀ x, Live' x ↔ Live x ∧ ¬ gone x) : OwnedOnce Owns' Live' where
  live o x hx := by
    obtain ⟨hown, hgone⟩ := (hOwns o x).mp hx
    exact (hLive x).mpr ⟨h.live o x hown, hgone⟩
  unique o o' x hx hx' := h.unique o o' x ((hOwns o x).mp hx).1 ((hOwns o' x).mp hx').1
  owned x hx := by
    obtain ⟨hlive, hgone⟩ := (hLive x).mp hx
    obtain ⟨o, ho⟩ := h.owned x hlive
    exact ⟨o, (hOwns o x).mpr ⟨ho, hgone⟩⟩

/-- An owner hands an object over to another one. -/
theorem transfer (o₁ o₂ : Owner) (x₀ : Object) (hx : Owns o₁ x₀)
    (hself : ∀ o, Owns' o x₀ ↔ o = o₂) (hother : ∀ o x, x ≠ x₀ → (Owns' o x ↔ Owns o x))
    (hLive : ∀ x, Live' x ↔ Live x) : OwnedOnce Owns' Live' where
  live o x hox := by
    by_cases heq : x = x₀
    · subst heq
      exact (hLive x).mpr (h.live o₁ x hx)
    · exact (hLive x).mpr (h.live o x ((hother o x heq).mp hox))
  unique o o' x hox hox' := by
    by_cases heq : x = x₀
    · subst heq
      rw [(hself o).mp hox, (hself o').mp hox']
    · exact h.unique o o' x ((hother o x heq).mp hox) ((hother o' x heq).mp hox')
  owned x hlive := by
    by_cases heq : x = x₀
    · subst heq
      exact ⟨o₂, (hself o₂).mpr rfl⟩
    · obtain ⟨o, ho⟩ := h.owned x ((hLive x).mp hlive)
      exact ⟨o, (hother o x heq).mpr ho⟩

/-- Without owners nothing is left. -/
theorem not_live (hnone : ∀ o x, ¬ Owns o x) (x : Object) : ¬ Live x := by
  intro hx
  obtain ⟨o, ho⟩ := h.owned x hx
  exact hnone o x ho

end OwnedOnce
end FluaLibs
