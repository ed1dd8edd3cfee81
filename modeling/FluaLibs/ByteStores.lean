import Mathlib.Data.List.Basic
import Mathlib.Data.List.GetD

/-! # Stores of bytes

A memory is a byte at every address.  What a program writes is a list of stores, each
some bytes at an address; a region is a base address and a size.  Bytes outside the
stores keep their values (`ByteStore.run_frame`), and what has been stored is there
(`ByteStore.load_stored`), as long as nothing that is stored later covers it.
-/
namespace FluaLibs

abbrev ByteMemory : Type := Nat → UInt8

/-- The bytes from an address on. -/
def ByteMemory.load (m : ByteMemory) (addr n : Nat) : List UInt8 :=
  (List.range n).map (fun i => m (addr + i))

@[simp] theorem ByteMemory.load_length (m : ByteMemory) (addr n : Nat) :
    (m.load addr n).length = n := by
  rw [load, List.length_map, List.length_range]

theorem ByteMemory.load_add (m : ByteMemory) (addr j k : Nat) :
    m.load addr (j + k) = m.load addr j ++ m.load (addr + j) k := by
  simp only [load, List.range_add, List.map_append, List.map_map, Function.comp_def,
    Nat.add_assoc]

theorem ByteMemory.load_congr {m m' : ByteMemory} {addr n : Nat}
    (h : ∀ a, addr ≤ a → a < addr + n → m a = m' a) : m.load addr n = m'.load addr n := by
  apply List.map_congr_left
  intro i hi
  have hlt : i < n := List.mem_range.mp hi
  exact h _ (by omega) (by omega)

/-- A number of bytes at an address, that are read or written. -/
structure Extent where
  addr : Nat
  size : Nat
  deriving DecidableEq

/-- All of them are in the region of some size at a base address. -/
def Extent.Within (e : Extent) (base size : Nat) : Prop :=
  base ≤ e.addr ∧ e.addr + e.size ≤ base + size

/-- Bytes that are written at an address. -/
structure ByteStore where
  addr : Nat
  bytes : List UInt8
  deriving DecidableEq

namespace ByteStore

def Covers (s : ByteStore) (a : Nat) : Prop := s.addr ≤ a ∧ a < s.addr + s.bytes.length

/-- All bytes are written in the region of some size at a base address. -/
def Within (s : ByteStore) (base size : Nat) : Prop :=
  base ≤ s.addr ∧ s.addr + s.bytes.length ≤ base + size

instance (s : ByteStore) (a : Nat) : Decidable (s.Covers a) :=
  inferInstanceAs (Decidable (_ ∧ _))

instance (s : ByteStore) (base size : Nat) : Decidable (s.Within base size) :=
  inferInstanceAs (Decidable (_ ∧ _))

/-- The memory after a store. -/
def apply (m : ByteMemory) (s : ByteStore) : ByteMemory :=
  fun a => if s.Covers a then s.bytes.getD (a - s.addr) 0 else m a

/-- The memory after some stores, one after the other. -/
def run (m : ByteMemory) (stores : List ByteStore) : ByteMemory := stores.foldl apply m

section Stores
variable {m : ByteMemory} {s : ByteStore} {stores : List ByteStore} {a base size : Nat}

theorem apply_of_not_covers (h : ¬ s.Covers a) : apply m s a = m a := if_neg h

theorem apply_of_covers (h : s.Covers a) : apply m s a = s.bytes.getD (a - s.addr) 0 := if_pos h

theorem run_append (m : ByteMemory) (before behind : List ByteStore) :
    run m (before ++ behind) = run (run m before) behind := List.foldl_append ..

theorem run_concat (m : ByteMemory) (stores : List ByteStore) (s : ByteStore) :
    run m (stores ++ [s]) = apply (run m stores) s := run_append m stores [s]

/-- **Frame.** -/
theorem run_frame (h : ∀ s ∈ stores, ¬ s.Covers a) : run m stores a = m a := by
  induction stores generalizing m with
  | nil => rfl
  | cons s stores ih =>
    obtain ⟨hs, hstores⟩ := List.forall_mem_cons.mp h
    exact (ih hstores).trans (apply_of_not_covers hs)

/-- In front of all stores. -/
theorem run_frame_of_lt (h : ∀ s ∈ stores, a < s.addr) : run m stores a = m a :=
  run_frame fun s hs hcovers => absurd (h s hs) (Nat.not_lt.mpr hcovers.1)

theorem not_covers_of_within (h : s.Within base size) (ha : a < base ∨ base + size ≤ a) :
    ¬ s.Covers a := by
  rintro ⟨hle, hlt⟩
  have hwithin := h
  simp only [Within] at hwithin
  omega

/-- **What has been stored is there.** -/
theorem load_apply (m : ByteMemory) (s : ByteStore) :
    (apply m s).load s.addr s.bytes.length = s.bytes := by
  apply List.ext_getElem
  · exact ByteMemory.load_length ..
  · intro i hi hi'
    have hcovers : s.Covers (s.addr + i) := ⟨by omega, by omega⟩
    simp only [ByteMemory.load, List.getElem_map, List.getElem_range]
    rw [apply_of_covers hcovers, Nat.add_sub_cancel_left, List.getD_eq_getElem _ _ hi']

/-- A store that is followed by others elsewhere. -/
theorem load_stored {behind : List ByteStore}
    (h : ∀ t ∈ behind, ∀ a, s.Covers a → ¬ t.Covers a) :
    (run m (stores ++ s :: behind)).load s.addr s.bytes.length = s.bytes := by
  have hrun : run m (stores ++ s :: behind) = run (apply (run m stores) s) behind := by
    rw [run_append]
    rfl
  refine Eq.trans (ByteMemory.load_congr fun a hle hlt => ?_) (load_apply (run m stores) s)
  rw [hrun]
  exact run_frame fun t ht => h t ht a ⟨hle, hlt⟩

theorem load_stored_first {behind : List ByteStore}
    (h : ∀ t ∈ behind, ∀ a, s.Covers a → ¬ t.Covers a) :
    (run m (s :: behind)).load s.addr s.bytes.length = s.bytes := by
  have hstored : (run m ([] ++ s :: behind)).load s.addr s.bytes.length = s.bytes := load_stored h
  exact hstored

/-- A byte that has been stored. -/
theorem byte_stored {b : UInt8} {behind : List ByteStore} (h : ∀ t ∈ behind, ¬ t.Covers a) :
    run m (stores ++ ⟨a, [b]⟩ :: behind) a = b := by
  have hrun : run m (stores ++ ⟨a, [b]⟩ :: behind) =
      run (apply (run m stores) ⟨a, [b]⟩) behind := by
    rw [run_append]
    rfl
  have hcovers : (⟨a, [b]⟩ : ByteStore).Covers a := ⟨Nat.le_refl a, Nat.lt_succ_self a⟩
  rw [hrun, run_frame h, apply_of_covers hcovers, Nat.sub_self]
  rfl

theorem byte_stored_first {b : UInt8} {behind : List ByteStore} (h : ∀ t ∈ behind, ¬ t.Covers a) :
    run m (⟨a, [b]⟩ :: behind) a = b := by
  have hstored : run m ([] ++ ⟨a, [b]⟩ :: behind) a = b := byte_stored h
  exact hstored

end Stores
end ByteStore
end FluaLibs
