import Mathlib.Tactic.Ring
import Mathlib.Tactic.Positivity

/-! # Integers of a fixed width

A machine integer type has a width and is signed or not.  Converting an integer to it
keeps the integer modulo two to the width, so what survives the conversion is exactly
what the type holds (`IntType.wrap_eq_iff`).  A program that keeps its integers in 64
signed bits gets back what it converted when the type holds it, and always when the
type has 64 bits itself (`IntType.back_wrap_eq_iff`).
-/
namespace FluaLibs

/-- A machine integer type. -/
structure IntType where
  bits : Nat
  isSigned : Bool
  pos : 0 < bits := by decide
  deriving DecidableEq

namespace IntType

/-- The integers of the type. -/
def Holds (t : IntType) (v : Int) : Prop :=
  if t.isSigned then -2 ^ (t.bits - 1) ≤ v ∧ v < 2 ^ (t.bits - 1) else 0 ≤ v ∧ v < 2 ^ t.bits

instance (t : IntType) (v : Int) : Decidable (t.Holds v) :=
  inferInstanceAs (Decidable (if t.isSigned then _ else _))

/-- The conversion of an integer to the type. -/
def wrap (t : IntType) (v : Int) : Int :=
  if t.isSigned then v.bmod (2 ^ t.bits) else v % 2 ^ t.bits

/-! The integer types of C. -/

def int8 : IntType := ⟨8, true, by decide⟩
def int16 : IntType := ⟨16, true, by decide⟩
def int32 : IntType := ⟨32, true, by decide⟩
def int64 : IntType := ⟨64, true, by decide⟩
def uint8 : IntType := ⟨8, false, by decide⟩
def uint16 : IntType := ⟨16, false, by decide⟩
def uint32 : IntType := ⟨32, false, by decide⟩
def uint64 : IntType := ⟨64, false, by decide⟩
def int : IntType := ⟨32, true, by decide⟩

/-- An integer of the type as a signed integer of 64 bits. -/
def back (v : Int) : Int := int64.wrap v

theorem int64_holds_iff {v : Int} : int64.Holds v ↔ -2 ^ 63 ≤ v ∧ v < 2 ^ 63 := Iff.rfl

variable {t : IntType} {v : Int}

/-- The two halves of a signed type. -/
theorem two_pow_pred (t : IntType) :
    (2 : Int) ^ t.bits = 2 * 2 ^ (t.bits - 1) ∧ (0 : Int) < 2 ^ (t.bits - 1) := by
  obtain ⟨n, hn⟩ : ∃ n, t.bits = n + 1 := ⟨t.bits - 1, by have := t.pos; omega⟩
  rw [hn, Nat.add_sub_cancel, pow_succ]
  exact ⟨by ring, by positivity⟩

theorem two_pow_cast (t : IntType) : ((2 ^ t.bits : Nat) : Int) = 2 ^ t.bits := by
  push_cast
  rfl

theorem wrap_holds (t : IntType) (v : Int) : t.Holds (t.wrap v) := by
  obtain ⟨hhalf, hpos⟩ := two_pow_pred t
  rw [Holds, wrap]
  split
  · have hlo := Int.le_bmod (x := v) (m := 2 ^ t.bits) (by positivity)
    have hhi := Int.bmod_lt (x := v) (m := 2 ^ t.bits) (by positivity)
    rw [two_pow_cast] at hlo hhi
    constructor <;> omega
  · exact ⟨Int.emod_nonneg v (by omega), Int.emod_lt_of_pos v (by omega)⟩

theorem wrap_of_holds (h : t.Holds v) : t.wrap v = v := by
  obtain ⟨hhalf, hpos⟩ := two_pow_pred t
  rw [Holds] at h
  rw [wrap]
  by_cases hsigned : t.isSigned
  · rw [if_pos hsigned] at h ⊢
    apply Int.bmod_eq_of_le
    · rw [two_pow_cast]
      omega
    · rw [two_pow_cast]
      omega
  · rw [if_neg hsigned] at h ⊢
    exact Int.emod_eq_of_lt h.1 h.2

/-- **A conversion keeps what the type holds**, and nothing else. -/
theorem wrap_eq_iff : t.wrap v = v ↔ t.Holds v := by
  constructor
  · intro h
    rw [← h]
    exact wrap_holds t v
  · exact wrap_of_holds

theorem wrap_modEq (t : IntType) (v : Int) : t.wrap v % 2 ^ t.bits = v % 2 ^ t.bits := by
  rw [wrap]
  split
  · have h := Int.bmod_emod (x := v) (m := 2 ^ t.bits)
    rwa [two_pow_cast] at h
  · exact Int.emod_emod_of_dvd v (dvd_refl _)

/-- A conversion depends on the integer modulo two to the width. -/
theorem wrap_congr {w : Int} (h : v % 2 ^ t.bits = w % 2 ^ t.bits) : t.wrap v = t.wrap w := by
  rw [wrap, wrap, h]
  split
  · rw [← two_pow_cast] at h
    rw [← Int.emod_bmod v, ← Int.emod_bmod w, h]
  · rfl

theorem holds_int64_of_holds (h : t.Holds v) (hbits : t.bits < 64 ∨ t.bits = 64 ∧ t.isSigned) :
    int64.Holds v := by
  rw [int64_holds_iff]
  obtain ⟨hhalf, hpos⟩ := two_pow_pred t
  rw [Holds] at h
  rcases hbits with hbits | ⟨hbits, hsigned⟩
  · have hle : (2 : Int) ^ t.bits ≤ 2 ^ 63 := pow_le_pow_right₀ (by decide) (by omega)
    split at h <;> constructor <;> omega
  · rw [if_pos hsigned, hbits] at h
    exact h

/-- What is narrower than 64 bits, or signed, comes back as it is. -/
theorem back_wrap (hbits : t.bits < 64 ∨ t.bits = 64 ∧ t.isSigned) (v : Int) :
    back (t.wrap v) = t.wrap v :=
  wrap_of_holds (holds_int64_of_holds (wrap_holds t v) hbits)

/-- What has 64 bits comes back as the signed integer with its bits. -/
theorem back_wrap_wide (hbits : t.bits = 64) (v : Int) : back (t.wrap v) = int64.wrap v := by
  have hmod := wrap_modEq t v
  rw [hbits] at hmod
  exact wrap_congr hmod

/-- **What comes back**: exactly the integers of the type, unless it has 64 bits. -/
theorem back_wrap_eq_iff (hbits : t.bits ≤ 64) (h : int64.Holds v) :
    back (t.wrap v) = v ↔ t.Holds v ∨ t.bits = 64 := by
  by_cases hwide : t.bits = 64
  · rw [back_wrap_wide hwide, wrap_of_holds h]
    exact iff_of_true rfl (Or.inr hwide)
  · rw [back_wrap (Or.inl (by omega)), wrap_eq_iff]
    exact (or_iff_left hwide).symm

end IntType
end FluaLibs
