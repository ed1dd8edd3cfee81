import Mathlib.Data.List.Basic
import Mathlib.Logic.Function.Basic

/-! # What references keep alive

The nodes of a list, each of which may refer to one that is older.  Whoever holds a node also
reaches those that its references lead to, and a collector only takes what nobody reaches.
`chain` is where the references of a node lead, from the node itself on, and `Reach` is what is
reached from the nodes that are held.
-/
namespace FluaLibs
namespace References

/-- The nodes that the references of `u` lead to in so many steps. -/
def chainIn (ref : Nat → Option Nat) : Nat → Nat → List Nat
  | 0, u => [u]
  | k + 1, u => u :: ((ref u).elim [] (chainIn ref k))

/-- The nodes that the references of `u` lead to; each is older than the one before. -/
def chain (ref : Nat → Option Nat) (u : Nat) : List Nat := chainIn ref u u

/-- What is reached from the nodes that are held. -/
def Reach (ref : Nat → Option Nat) (held : List Nat) (u : Nat) : Prop :=
  ∃ h ∈ held, u ∈ chain ref h

instance (ref : Nat → Option Nat) (held : List Nat) (u : Nat) : Decidable (Reach ref held u) :=
  inferInstanceAs (Decidable (∃ h ∈ held, _))

/-- A node refers to an older one. -/
def Backward (ref : Nat → Option Nat) : Prop := ∀ u v, ref u = some v → v < u

variable {ref : Nat → Option Nat}

section Chains
variable (href : Backward ref)
include href

/-- As many steps as there are older nodes are enough. -/
theorem chainIn_eq {k k' u : Nat} (hk : u ≤ k) (hk' : u ≤ k') :
    chainIn ref k u = chainIn ref k' u := by
  induction k generalizing k' u with
  | zero =>
    -- the oldest node refers to none
    obtain rfl : u = 0 := Nat.le_zero.mp hk
    have hnone : ref 0 = none := by
      rw [Option.eq_none_iff_forall_ne_some]
      intro v hv
      exact absurd (href 0 v hv) (Nat.not_lt_zero v)
    cases k' with
    | zero => rfl
    | succ k' => simp [chainIn, hnone]
  | succ k ih =>
    cases hu : ref u with
    | none => cases k' <;> simp [chainIn, hu]
    | some v =>
      have hlt := href u v hu
      obtain ⟨j, rfl⟩ : ∃ j, k' = j + 1 := ⟨k' - 1, by omega⟩
      simp only [chainIn, hu, Option.elim_some]
      have hsame : chainIn ref k v = chainIn ref j v := ih (by omega) (by omega)
      rw [hsame]

theorem chain_eq (u : Nat) : chain ref u = u :: (ref u).elim [] (chain ref) := by
  cases hu : ref u with
  | none => cases u <;> simp [chain, chainIn, hu]
  | some v =>
    have hlt := href u v hu
    obtain ⟨k, rfl⟩ : ∃ k, u = k + 1 := ⟨u - 1, by omega⟩
    simp only [chain, chainIn, hu, Option.elim_some]
    have hsame : chainIn ref k v = chainIn ref v v :=
      chainIn_eq href (by omega) (Nat.le_refl v)
    rw [hsame]

theorem self_mem_chain (u : Nat) : u ∈ chain ref u := by
  rw [chain_eq href]
  exact List.mem_cons_self ..

theorem mem_chain_iff {u w : Nat} :
    w ∈ chain ref u ↔ w = u ∨ ∃ v, ref u = some v ∧ w ∈ chain ref v := by
  rw [chain_eq href, List.mem_cons]
  cases ref u <;> simp

theorem chain_trans {u v w : Nat} (huv : v ∈ chain ref u) (hvw : w ∈ chain ref v) :
    w ∈ chain ref u := by
  induction u using Nat.strongRecOn with
  | _ u ih =>
    rcases (mem_chain_iff href).mp huv with rfl | ⟨x, hx, hv⟩
    · exact hvw
    · exact (mem_chain_iff href).mpr (Or.inr ⟨x, hx, ih x (href u x hx) hv⟩)

/-! ## What is reached -/

variable {held : List Nat}

theorem Reach.of_held {u : Nat} (h : u ∈ held) : Reach ref held u :=
  ⟨u, h, self_mem_chain href u⟩

theorem Reach.trans {u w : Nat} (h : Reach ref held u) (hw : w ∈ chain ref u) :
    Reach ref held w := by
  obtain ⟨x, hx, hu⟩ := h
  exact ⟨x, hx, chain_trans href hu hw⟩

/-- To hold what is reached already reaches nothing else. -/
theorem reach_hold {u : Nat} (h : Reach ref held u) (w : Nat) :
    Reach ref (u :: held) w ↔ Reach ref held w := by
  constructor
  · rintro ⟨x, hx, hw⟩
    rcases List.mem_cons.mp hx with rfl | hx
    · exact h.trans href hw
    · exact ⟨x, hx, hw⟩
  · rintro ⟨x, hx, hw⟩
    exact ⟨x, List.mem_cons_of_mem u hx, hw⟩

end Chains

theorem Reach.mono {held held' : List Nat} {u : Nat} (hle : ∀ h ∈ held, h ∈ held')
    (h : Reach ref held u) : Reach ref held' u := by
  obtain ⟨x, hx, hu⟩ := h
  exact ⟨x, hle x hx, hu⟩

/-! ## A new node -/

/-- The references when one more node has been made. -/
theorem chain_update (href : Backward ref) {n : Nat} {r : Option Nat} {u : Nat} (hu : u < n) :
    chain (Function.update ref n r) u = chain ref u := by
  have general : ∀ k u, u < n →
      chainIn (Function.update ref n r) k u = chainIn ref k u := by
    intro k
    induction k with
    | zero => exact fun u _ => rfl
    | succ k ih =>
      intro u hu
      have hsame : Function.update ref n r u = ref u := Function.update_of_ne (Nat.ne_of_lt hu) ..
      cases hv : ref u with
      | none => simp [chainIn, hsame, hv]
      | some v => simp [chainIn, hsame, hv, ih v (Nat.lt_trans (href u v hv) hu)]
  exact general u u hu

theorem Backward.update (href : Backward ref) {n : Nat} {r : Option Nat}
    (hr : ∀ v, r = some v → v < n) : Backward (Function.update ref n r) := by
  intro u v huv
  by_cases hu : u = n
  · rw [hu, Function.update_self] at huv
    rw [hu]
    exact hr v huv
  · rw [Function.update_of_ne hu] at huv
    exact href u v huv

/-- What is reached when a new node is held that refers to one that is held. -/
theorem reach_update {held : List Nat} {n : Nat} {r : Option Nat} (href : Backward ref)
    (hheld : ∀ h ∈ held, h < n) (hr : ∀ v, r = some v → v ∈ held) (w : Nat) :
    Reach (Function.update ref n r) (n :: held) w ↔ w = n ∨ Reach ref held w := by
  have hback : Backward (Function.update ref n r) := href.update (fun v hv => hheld v (hr v hv))
  have hold : ∀ h ∈ held, ∀ x, x ∈ chain (Function.update ref n r) h ↔ x ∈ chain ref h :=
    fun h hh x => by rw [chain_update href (hheld h hh)]
  constructor
  · rintro ⟨x, hx, hw⟩
    rcases List.mem_cons.mp hx with rfl | hx
    · rcases (mem_chain_iff hback).mp hw with rfl | ⟨v, hv, hw⟩
      · exact Or.inl rfl
      · rw [Function.update_self] at hv
        exact Or.inr ⟨v, hr v hv, (hold v (hr v hv) w).mp hw⟩
    · exact Or.inr ⟨x, hx, (hold x hx w).mp hw⟩
  · rintro (rfl | ⟨x, hx, hw⟩)
    · exact ⟨w, List.mem_cons_self .., self_mem_chain hback w⟩
    · exact ⟨x, List.mem_cons_of_mem n hx, (hold x hx w).mpr hw⟩

end References
end FluaLibs
