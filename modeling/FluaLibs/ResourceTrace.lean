import Mathlib.Data.List.Basic

/-! # What becomes of resources

A function that gets resources, and releases them or hands them on, leaves a trace of
what it did to each.  `Settled` says what may have become of a resource when the
function is over: it was never had, or it was released by the function once, or it was
given to somebody else and not touched after that.  A resource that the function was
never given, such as one of its caller's, may not occur in the trace at all.
-/
namespace FluaLibs

inductive ResourceUse where
  | acquire
  | release
  | give
  deriving DecidableEq

abbrev ResourceTrace (ρ : Type) : Type := List (ρ × ResourceUse)

namespace ResourceTrace
variable {ρ : Type} [DecidableEq ρ]

/-- What was done to a resource. -/
def life (trace : ResourceTrace ρ) (r : ρ) : List ResourceUse :=
  (trace.filter (fun e => e.1 = r)).map Prod.snd

@[simp] theorem life_nil (r : ρ) : life [] r = [] := rfl

theorem life_append (before behind : ResourceTrace ρ) (r : ρ) :
    life (before ++ behind) r = life before r ++ life behind r := by
  rw [life, List.filter_append, List.map_append, life, life]

theorem life_cons_self (use : ResourceUse) (trace : ResourceTrace ρ) (r : ρ) :
    life ((r, use) :: trace) r = use :: life trace r := by
  have hself : decide ((r, use).1 = r) = true := decide_eq_true rfl
  rw [life, List.filter_cons, if_pos hself, List.map_cons, life]

theorem life_cons_of_ne {r' : ρ} (use : ResourceUse) (trace : ResourceTrace ρ) {r : ρ}
    (h : r' ≠ r) : life ((r', use) :: trace) r = life trace r := by
  have hother : ¬ decide ((r', use).1 = r) = true := by rwa [decide_eq_true_eq]
  rw [life, List.filter_cons, if_neg hother, life]

theorem life_eq_nil {trace : ResourceTrace ρ} {r : ρ} (h : ∀ e ∈ trace, e.1 ≠ r) :
    life trace r = [] := by
  rw [life, List.map_eq_nil_iff, List.filter_eq_nil_iff]
  intro e he
  rw [decide_eq_true_eq]
  exact h e he

/-- The same is done to some resources, one after the other. -/
theorem life_range {f : Nat → ρ} (hf : Function.Injective f) (use : ResourceUse) (n k : Nat) :
    life ((List.range n).map (fun i => (f i, use))) (f k) = if k < n then [use] else [] := by
  induction n with
  | zero => rfl
  | succ n ih =>
    rw [List.range_succ, List.map_append, life_append, ih, List.map_singleton]
    rcases Nat.lt_trichotomy k n with hlt | rfl | hlt
    · rw [life_cons_of_ne _ _ (fun h => Nat.ne_of_gt hlt (hf h)), if_pos hlt, if_pos (by omega)]
      rfl
    · rw [life_cons_self, if_neg (Nat.lt_irrefl k), if_pos (Nat.lt_succ_self k)]
      rfl
    · rw [life_cons_of_ne _ _ (fun h => Nat.ne_of_lt hlt (hf h)), if_neg (by omega),
        if_neg (by omega)]
      rfl

/-- Never had, released once, or given away. -/
def Settled (life : List ResourceUse) : Prop :=
  life = [] ∨ life = [.acquire, .release] ∨ life = [.acquire, .give]

instance (life : List ResourceUse) : Decidable (Settled life) :=
  inferInstanceAs (Decidable (_ ∨ _))

/-- No resource is left over, released twice, or released by somebody who does not have it. -/
def Clean (trace : ResourceTrace ρ) : Prop := ∀ r, Settled (trace.life r)

section Clean
variable {trace : ResourceTrace ρ} {r : ρ}

theorem mem_life_iff {use : ResourceUse} : use ∈ trace.life r ↔ (r, use) ∈ trace := by
  simp [life]

/-- What has been given away is not released. -/
theorem Clean.not_released (h : trace.Clean) (hgive : (r, .give) ∈ trace) :
    (r, .release) ∉ trace := by
  rw [← mem_life_iff] at hgive ⊢
  rcases h r with hlife | hlife | hlife
  all_goals
    rw [hlife] at hgive ⊢
    revert hgive
    decide

/-- What has not been acquired is not released. -/
theorem Clean.acquired (h : trace.Clean) (hrelease : (r, .release) ∈ trace) :
    (r, .acquire) ∈ trace := by
  rw [← mem_life_iff] at hrelease ⊢
  rcases h r with hlife | hlife | hlife
  all_goals
    rw [hlife] at hrelease ⊢
    revert hrelease
    decide

/-- What has been acquired is released or given away. -/
theorem Clean.released (h : trace.Clean) (hacquire : (r, .acquire) ∈ trace)
    (hgive : (r, .give) ∉ trace) : (r, .release) ∈ trace := by
  rw [← mem_life_iff] at hacquire hgive ⊢
  rcases h r with hlife | hlife | hlife
  all_goals
    rw [hlife] at hacquire hgive ⊢
    revert hacquire hgive
    decide

end Clean

end ResourceTrace
end FluaLibs
