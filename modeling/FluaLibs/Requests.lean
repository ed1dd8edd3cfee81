import Mathlib.Order.Nat

/-! # Asking until the answer fits

A program that wants something whose size it does not know asks for it with some room.
What it asks reports the size, and if there was not enough room the program gets more,
as much as the reported size calls for, and asks again.  The size may be another one
each time, so there may be any number of requests, and what the program has in the end
is what the last of them gave.

The run is determined by the room of each request (`Requests.room`): a request is
followed by another exactly if it has reported a size beyond its room and the enlargement
is granted (`Requests.Continues`).
-/
namespace FluaLibs

structure Requests (ε : Type) where
  /-- The size that the `k`-th request reports when it is made with some room, or an error. -/
  report : Nat → Nat → Except ε Nat
  /-- The room for a size that did not fit. -/
  grow : Nat → Nat
  /-- Whether that room is granted after the `k`-th request. -/
  grants : Nat → Nat → Bool

namespace Requests
variable {ε : Type} (r : Requests ε)

inductive Ending (ε : Type) where
  | running
  | refused
  | failed (e : ε)
  | fits (round room size : Nat)

/-- The requests from the `k`-th on, for at most `rounds` of them. -/
def loop : Nat → Nat → Nat → Ending ε
  | 0, _, _ => .running
  | rounds + 1, k, room =>
    match r.report k room with
    | .error e => .failed e
    | .ok size =>
      if size ≤ room then .fits k room size
      else if r.grants k (r.grow size) then loop rounds (k + 1) (r.grow size)
      else .refused

/-- The room of the `k`-th request, if there is one. -/
def room (start : Nat) : Nat → Nat
  | 0 => start
  | k + 1 =>
    match r.report k (room start k) with
    | .error _ => 0
    | .ok size => r.grow size

/-- The `k`-th request is followed by another. -/
def Continues (start k : Nat) : Prop :=
  ∃ size, r.report k (r.room start k) = .ok size ∧ r.room start k < size ∧
    r.grants k (r.grow size) = true

/-- What the `k`-th request reports fits. -/
def Fits (start k size : Nat) : Prop :=
  r.report k (r.room start k) = .ok size ∧ size ≤ r.room start k

variable {r} {start k j size rounds : Nat}

theorem room_succ (h : r.report k (r.room start k) = .ok size) :
    r.room start (k + 1) = r.grow size := by
  simp [room, h]

theorem Fits.not_continues (h : r.Fits start k size) : ¬ r.Continues start k := by
  rintro ⟨size', hreport, hlt, -⟩
  cases h.1.symm.trans hreport
  exact absurd h.2 (by omega)

/-- One round of the loop. -/
theorem loop_succ (r : Requests ε) (start rounds k : Nat) :
    (∃ e, r.report k (r.room start k) = .error e ∧
      r.loop (rounds + 1) k (r.room start k) = .failed e) ∨
    (∃ size, r.Fits start k size ∧
      r.loop (rounds + 1) k (r.room start k) = .fits k (r.room start k) size) ∨
    (r.Continues start k ∧ r.loop (rounds + 1) k (r.room start k) =
      r.loop rounds (k + 1) (r.room start (k + 1))) ∨
    (∃ size, r.report k (r.room start k) = .ok size ∧ r.room start k < size ∧
      r.grants k (r.grow size) = false ∧
      r.loop (rounds + 1) k (r.room start k) = .refused) := by
  cases hreport : r.report k (r.room start k) with
  | error e => exact Or.inl ⟨e, rfl, by simp only [loop, hreport]⟩
  | ok size =>
    right
    by_cases hfits : size ≤ r.room start k
    · exact Or.inl ⟨size, ⟨hreport, hfits⟩, by simp only [loop, hreport, if_pos hfits]⟩
    have hlt : r.room start k < size := Nat.lt_of_not_le hfits
    by_cases hgrants : r.grants k (r.grow size)
    · refine Or.inr (Or.inl ⟨⟨size, hreport, hlt, hgrants⟩, ?_⟩)
      rw [room_succ hreport]
      simp only [loop, hreport, if_neg hfits, if_pos hgrants]
    · refine Or.inr (Or.inr ⟨size, rfl, hlt, by simpa using hgrants, ?_⟩)
      simp only [loop, hreport, if_neg hfits, if_neg hgrants]

/-- The loop ends with the first request whose report fits, if all before it continue. -/
theorem loop_of_fits (hk : k ≤ j) (hj : j < k + rounds)
    (hcontinues : ∀ i, k ≤ i → i < j → r.Continues start i) (hfits : r.Fits start j size) :
    r.loop rounds k (r.room start k) = .fits j (r.room start j) size := by
  induction rounds generalizing k with
  | zero => omega
  | succ rounds ih =>
    rcases loop_succ r start rounds k with ⟨e, herror, -⟩ | ⟨size', hfits', heq⟩ |
      ⟨hcont, heq⟩ | ⟨size', hreport, hlt, hgrants, -⟩
    · rcases Nat.eq_or_lt_of_le hk with rfl | hlt
      · cases herror.symm.trans hfits.1
      · obtain ⟨_, hreport, -⟩ := hcontinues k (Nat.le_refl _) hlt
        cases herror.symm.trans hreport
    · rcases Nat.eq_or_lt_of_le hk with rfl | hlt
      · cases hfits.1.symm.trans hfits'.1
        exact heq
      · exact absurd (hcontinues k (Nat.le_refl _) hlt) hfits'.not_continues
    · rcases Nat.eq_or_lt_of_le hk with rfl | hlt
      · exact absurd hcont hfits.not_continues
      · rw [heq]
        exact ih hlt (by omega) (fun i hi => hcontinues i (by omega))
    · rcases Nat.eq_or_lt_of_le hk with rfl | hlt'
      · cases hreport.symm.trans hfits.1
        exact absurd hfits.2 (by omega)
      · obtain ⟨_, hreport', -, hgrants'⟩ := hcontinues k (Nat.le_refl _) hlt'
        cases hreport.symm.trans hreport'
        rw [hgrants] at hgrants'
        cases hgrants'

/-- What is known of a loop that has ended with an answer that fits. -/
theorem fits_of_loop {m : Nat} (h : r.loop rounds k (r.room start k) = .fits j m size) :
    k ≤ j ∧ j < k + rounds ∧ (∀ i, k ≤ i → i < j → r.Continues start i) ∧
      r.Fits start j size ∧ m = r.room start j := by
  induction rounds generalizing k with
  | zero => cases h
  | succ rounds ih =>
    rcases loop_succ r start rounds k with ⟨e, -, heq⟩ | ⟨size', hfits, heq⟩ |
      ⟨hcont, heq⟩ | ⟨size', -, -, -, heq⟩
    · cases heq.symm.trans h
    · cases heq.symm.trans h
      exact ⟨Nat.le_refl _, by omega, fun i hi hlt => by omega, hfits, rfl⟩
    · obtain ⟨hle, hlt, hrest, hfits, hm⟩ := ih (heq.symm.trans h)
      refine ⟨by omega, by omega, fun i hi hlt => ?_, hfits, hm⟩
      rcases Nat.eq_or_lt_of_le hi with rfl | hi
      · exact hcont
      · exact hrest i hi hlt
    · cases heq.symm.trans h

/-- **The loop from the start.** It ends with the answer to the `j`-th request exactly if
that fits and all before it do not. -/
theorem loop_eq_fits_iff {m : Nat} :
    r.loop rounds 0 start = .fits j m size ↔
      j < rounds ∧ (∀ i < j, r.Continues start i) ∧ r.Fits start j size ∧ m = r.room start j := by
  constructor
  · intro h
    have hloop : r.loop rounds 0 (r.room start 0) = .fits j m size := h
    obtain ⟨-, hlt, hcont, hfits, hm⟩ := fits_of_loop hloop
    exact ⟨by omega, fun i hi => hcont i (Nat.zero_le i) hi, hfits, hm⟩
  · rintro ⟨hlt, hcont, hfits, rfl⟩
    exact loop_of_fits (Nat.zero_le j) (by omega) (fun i _ hi => hcont i hi) hfits

/-- The loop goes on as long as its requests do. -/
theorem continues_of_running (h : r.loop rounds k (r.room start k) = .running) :
    ∀ i, k ≤ i → i < k + rounds → r.Continues start i := by
  induction rounds generalizing k with
  | zero => exact fun i hi hlt => by omega
  | succ rounds ih =>
    intro i hi hlt
    rcases loop_succ r start rounds k with ⟨e, -, heq⟩ | ⟨size, -, heq⟩ |
      ⟨hcont, heq⟩ | ⟨size, -, -, -, heq⟩
    · cases heq.symm.trans h
    · cases heq.symm.trans h
    · rcases Nat.eq_or_lt_of_le hi with rfl | hi
      · exact hcont
      · exact ih (heq.symm.trans h) i hi (by omega)
    · cases heq.symm.trans h

/-- **The loop ends** when the size settles and there is enough room for it. -/
theorem not_running_of_settled {n : Nat}
    (hreport : ∀ k, n ≤ k → ∀ room size', r.report k room = .ok size' → size' = size)
    (hgrow : size ≤ r.grow size) (hrounds : n + 2 ≤ rounds) :
    r.loop rounds 0 start ≠ .running := by
  intro h
  have hcont := continues_of_running (show r.loop rounds 0 (r.room start 0) = .running from h)
  obtain ⟨size₁, hreport₁, -⟩ := hcont n (Nat.zero_le n) (by omega)
  obtain ⟨size₂, hreport₂, hlt, -⟩ := hcont (n + 1) (Nat.zero_le _) (by omega)
  cases hreport n (Nat.le_refl n) _ _ hreport₁
  cases hreport (n + 1) (Nat.le_succ n) _ _ hreport₂
  rw [room_succ hreport₁] at hlt
  omega

/-- A loop that is granted all it asks for, and whose requests do not fail, ends with an
answer or goes on. -/
theorem running_or_fits (hreport : ∀ k room, ∃ size, r.report k room = .ok size)
    (hgrants : ∀ k size, r.grants k size = true) (rounds k : Nat) :
    r.loop rounds k (r.room start k) = .running ∨
      ∃ j size, r.loop rounds k (r.room start k) = .fits j (r.room start j) size := by
  induction rounds generalizing k with
  | zero => exact Or.inl rfl
  | succ rounds ih =>
    rcases loop_succ r start rounds k with ⟨e, herror, -⟩ | ⟨size, -, heq⟩ |
      ⟨-, heq⟩ | ⟨size, -, -, hrefused, -⟩
    · obtain ⟨size, hok⟩ := hreport k (r.room start k)
      cases herror.symm.trans hok
    · exact Or.inr ⟨k, size, heq⟩
    · rw [heq]
      exact ih (k + 1)
    · rw [hgrants] at hrefused
      cases hrefused

end Requests
end FluaLibs
