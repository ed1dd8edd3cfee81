import FluaLibs.Transition
import Mathlib.Algebra.GroupWithZero.Nat
import Mathlib.Algebra.Order.BigOperators.Group.Finset
import Mathlib.Algebra.Order.Group.Nat
import Mathlib.Algebra.Ring.Nat

/-! # Runs that cannot go on for ever

A measure that every step lowers bounds the length of a run (`replay_length_add_le`).  The
measure may rely on an invariant, and the steps on a condition.
-/
namespace FluaLibs

namespace System
variable {State Event : Type} {sys : System State Event}

/-- **Bounded runs.**  Steps that keep an invariant and lower a measure are no more than the
measure. -/
theorem replay_length_add_le {ok : State → Event → Prop} {dec : ∀ s e, Decidable (ok s e)}
    {Inv : State → Prop} {μ : State → Nat}
    (hstep : ∀ s e, Inv s → ok s e → sys.Enabled s e → Inv (sys.next s e) ∧
      μ (sys.next s e) < μ s) {es : List Event} {s s' : State} (hs : Inv s)
    (h : (sys.restrict ok dec).replay s es = some s') : Inv s' ∧ es.length + μ s' ≤ μ s := by
  induction es generalizing s with
  | nil =>
    obtain rfl := Option.some.inj h
    exact ⟨hs, by simp⟩
  | cons e es ih =>
    obtain ⟨t, ht, hrest⟩ := Option.bind_eq_some_iff.mp h
    obtain ⟨⟨hok, he⟩, rfl⟩ := (sys.restrict ok dec).step_eq_some.mp ht
    obtain ⟨hkept, hlt⟩ := hstep s e hs hok he
    obtain ⟨hs', hle⟩ := ih hkept hrest
    have hlt' : μ ((sys.restrict ok dec).next s e) < μ s := hlt
    refine ⟨hs', ?_⟩
    rw [List.length_cons]
    omega

theorem replay_of_restrict {ok : State → Event → Prop} {dec : ∀ s e, Decidable (ok s e)}
    {es : List Event} {s s' : State} (h : (sys.restrict ok dec).replay s es = some s') :
    sys.replay s es = some s' := by
  induction es generalizing s with
  | nil => exact h
  | cons e es ih =>
    obtain ⟨t, ht, hrest⟩ := Option.bind_eq_some_iff.mp h
    obtain ⟨he, rfl⟩ := (sys.restrict ok dec).step_eq_some.mp ht
    exact sys.replay_cons_of_enabled he.2 (ih hrest)

end System
end FluaLibs
