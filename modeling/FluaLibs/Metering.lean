import Mathlib.Order.MinMax

/-! # Metered states

A program that works on a bounded resource is run on a state together with a ghost
annotation: the greatest size the state has had so far (`Metered`).  Every operation
records the size of the state that it leads to (`reach`), or that it needs for a while
(`spend`), so the program keeps within a capacity exactly when its final peak does, and
forgetting the annotation gives the program itself.
-/
namespace FluaLibs

/-- A state, and the greatest size so far. -/
structure Metered (σ : Type) where
  state : σ
  peak : Nat

namespace Metered
variable {σ : Type} (size : σ → Nat)

/-- Nothing has been taken yet but what is there. -/
def start (s : σ) : Metered σ := ⟨s, size s⟩

/-- An operation leads to the state `s`. -/
def reach (m : Metered σ) (s : σ) : Metered σ := ⟨s, max m.peak (size s)⟩

/-- For a while the state is larger by `n`. -/
def spend (m : Metered σ) (n : Nat) : Metered σ := ⟨m.state, max m.peak (size m.state + n)⟩

variable {m : Metered σ} {s : σ}

@[simp] theorem start_state : (start size s).state = s := rfl
@[simp] theorem start_peak : (start size s).peak = size s := rfl
@[simp] theorem reach_state : (reach size m s).state = s := rfl
@[simp] theorem reach_peak : (reach size m s).peak = max m.peak (size s) := rfl
@[simp] theorem spend_state (n : Nat) : (spend size m n).state = m.state := rfl
@[simp] theorem spend_peak (n : Nat) :
    (spend size m n).peak = max m.peak (size m.state + n) := rfl

end Metered
end FluaLibs
