import FluaLibs.ListEntries
import Mathlib.Data.BitVec

/-! # Reference counts

`refcount.h`: an atomic `unsigned long` that is only ever changed by one
fetch-and-add or fetch-and-sub.  `Counts refs n` says that a count stands for `n`
references; a release reports the last one exactly when it was.
-/
namespace FluaLibs

abbrev Refcount := BitVec 64

namespace Refcount

/-- `refcount_init`. -/
def init (value : Nat) : Refcount := BitVec.ofNat 64 value

/-- `refcount_retain`. -/
def retain (refs : Refcount) : Refcount := refs + 1

/-- `refcount_release`: whether this was the last reference, and the new count. -/
def release (refs : Refcount) : Bool × Refcount := (refs == 1, refs - 1)

/-- The count stands for `n` references. -/
def Counts (refs : Refcount) (n : Nat) : Prop := refs.toNat = n

theorem counts_init : Counts (init 1) 1 := rfl

theorem Counts.eq_zero_iff {refs : Refcount} {n : Nat} (h : Counts refs n) :
    refs = 0 ↔ n = 0 := by
  unfold Counts at h
  constructor
  · intro hrefs
    rw [← h, hrefs]
    rfl
  · intro hn
    apply BitVec.eq_of_toNat_eq
    rw [h, hn]
    rfl

theorem Counts.retain {refs : Refcount} {n : Nat} (h : Counts refs n) (hroom : n + 1 < 2 ^ 64) :
    Counts refs.retain (n + 1) := by
  unfold Counts at h ⊢
  unfold Refcount.retain
  rw [BitVec.toNat_add, h]
  exact Nat.mod_eq_of_lt hroom

theorem Counts.release {refs : Refcount} {n : Nat} (h : Counts refs (n + 1)) :
    Counts refs.release.2 n ∧ (refs.release.1 = true ↔ n = 0) := by
  unfold Counts at h ⊢
  have hlt : refs.toNat < 2 ^ 64 := refs.isLt
  constructor
  · simp only [Refcount.release]
    rw [BitVec.toNat_sub, h]
    have hone : (1 : BitVec 64).toNat = 1 := rfl
    rw [hone]
    omega
  · simp only [Refcount.release, beq_iff_eq]
    constructor
    · intro heq
      rw [heq] at h
      have hone : (1 : BitVec 64).toNat = 1 := rfl
      omega
    · intro hn
      apply BitVec.eq_of_toNat_eq
      rw [h, hn]
      rfl

end Refcount

end FluaLibs
