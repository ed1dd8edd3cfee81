import Mathlib.Algebra.Group.Int.Defs
import Mathlib.Algebra.Group.Nat.Defs
import Mathlib.Data.List.Basic

/-! # Numbers in memory

A number of some width is stored as the digits of its value to the base 256, the lowest
first or the highest first.  What has been stored is read back
(`ByteOrder.word_bytes`), at its offset in a longer object (`ByteOrder.word_append`).
-/
namespace FluaLibs

inductive ByteOrder where
  | little
  | big
  deriving DecidableEq

namespace ByteOrder

/-- The lowest digits of a number. -/
def digits : Nat → Nat → List UInt8
  | 0, _ => []
  | width + 1, v => UInt8.ofNat (v % 256) :: digits width (v / 256)

def ofDigits : List UInt8 → Nat
  | [] => 0
  | b :: bs => b.toNat + 256 * ofDigits bs

/-- The bytes of a number. -/
def bytes (o : ByteOrder) (width v : Nat) : List UInt8 :=
  match o with
  | little => digits width v
  | big => (digits width v).reverse

/-- The number of some bytes. -/
def number (o : ByteOrder) (bs : List UInt8) : Nat :=
  match o with
  | little => ofDigits bs
  | big => ofDigits bs.reverse

/-- The number at an offset. -/
def word (o : ByteOrder) (m : List UInt8) (offset width : Nat) : Nat :=
  o.number ((m.drop offset).take width)

theorem digits_length (width v : Nat) : (digits width v).length = width := by
  induction width generalizing v with
  | zero => rfl
  | succ width ih => rw [digits, List.length_cons, ih]

theorem ofDigits_digits (width v : Nat) : ofDigits (digits width v) = v % 256 ^ width := by
  induction width generalizing v with
  | zero => rw [Nat.pow_zero, Nat.mod_one, digits, ofDigits]
  | succ width ih =>
    have hdigit : (UInt8.ofNat (v % 256)).toNat = v % 256 := by
      rw [UInt8.toNat_ofNat']
      exact Nat.mod_mod v 256
    rw [digits, ofDigits, ih, hdigit, Nat.pow_succ', Nat.mod_mul]

@[simp] theorem bytes_length (o : ByteOrder) (width v : Nat) :
    (o.bytes width v).length = width := by
  cases o with
  | little => exact digits_length width v
  | big => exact (List.length_reverse).trans (digits_length width v)

theorem number_bytes (o : ByteOrder) {width v : Nat} (h : v < 256 ^ width) :
    o.number (o.bytes width v) = v := by
  have hdigits : ofDigits (digits width v) = v := by
    rw [ofDigits_digits, Nat.mod_eq_of_lt h]
  cases o with
  | little => exact hdigits
  | big => rwa [number, bytes, List.reverse_reverse]

/-- **What has been stored is read back.** -/
theorem word_bytes (o : ByteOrder) {width v : Nat} (h : v < 256 ^ width) (rest : List UInt8) :
    o.word (o.bytes width v ++ rest) 0 width = v := by
  rw [word, List.drop_zero, List.take_left' (bytes_length o width v), number_bytes o h]

/-- A number behind the first part of an object. -/
theorem word_append (o : ByteOrder) {first : List UInt8} {offset : Nat}
    (h : first.length ≤ offset) (rest : List UInt8) (width : Nat) :
    o.word (first ++ rest) offset width = o.word rest (offset - first.length) width := by
  rw [word, word, List.drop_append, List.drop_of_length_le h, List.nil_append]

theorem digits_ofDigits (bs : List UInt8) : digits bs.length (ofDigits bs) = bs := by
  induction bs with
  | nil => rfl
  | cons b bs ih =>
    have hb := b.toNat_lt
    have hlow : (b.toNat + 256 * ofDigits bs) % 256 = b.toNat := by omega
    have hrest : (b.toNat + 256 * ofDigits bs) / 256 = ofDigits bs := by omega
    rw [List.length_cons, digits, ofDigits, hlow, hrest, ih, UInt8.ofNat_toNat]

/-- Some bytes are those of their number. -/
theorem bytes_number (o : ByteOrder) (bs : List UInt8) : o.bytes bs.length (o.number bs) = bs := by
  cases o with
  | little => exact digits_ofDigits bs
  | big =>
    have hdigits := digits_ofDigits bs.reverse
    rw [List.length_reverse] at hdigits
    rw [bytes, number, hdigits, List.reverse_reverse]

theorem ofDigits_lt (bs : List UInt8) : ofDigits bs < 256 ^ bs.length := by
  induction bs with
  | nil => exact Nat.one_pos
  | cons b bs ih =>
    have hb := b.toNat_lt
    rw [ofDigits, List.length_cons, Nat.pow_succ']
    omega

theorem number_lt (o : ByteOrder) (bs : List UInt8) : o.number bs < 256 ^ bs.length := by
  cases o with
  | little => exact ofDigits_lt bs
  | big =>
    have hlt := ofDigits_lt bs.reverse
    rwa [List.length_reverse] at hlt

/-! ## Stores -/

section Stores
variable (o : ByteOrder) {width : Nat} {v : Int} {m : List UInt8}

/-- An integer is stored at the start of an object. -/
def store (width : Nat) (v : Int) (m : List UInt8) : List UInt8 :=
  o.bytes width (v % 256 ^ width).toNat ++ m.drop width

theorem store_length (h : width ≤ m.length) : (o.store width v m).length = m.length := by
  rw [store, List.length_append, bytes_length, List.length_drop]
  omega

/-- What is behind the integer stays. -/
theorem drop_store (n : Nat) (h : width ≤ n) : (o.store width v m).drop n = m.drop n := by
  have hlength := o.bytes_length width (v % 256 ^ width).toNat
  rw [store, List.drop_append, List.drop_of_length_le (by omega), List.nil_append, hlength,
    List.drop_drop, Nat.add_sub_cancel' h]

/-- A store of what is there, modulo what the width holds, changes nothing. -/
theorem store_word (h : width ≤ m.length)
    (hv : v % 256 ^ width = (o.word m 0 width : Int) % 256 ^ width) :
    o.store width v m = m := by
  have hlength : (m.take width).length = width := by
    rw [List.length_take, Nat.min_eq_left h]
  have hbytes := o.bytes_number (m.take width)
  have hlt := o.number_lt (m.take width)
  rw [hlength] at hbytes hlt
  have hcast : ((256 ^ width : Nat) : Int) = 256 ^ width := Int.natCast_pow 256 width
  have hnumber : (v % 256 ^ width).toNat = o.number (m.take width) := by
    rw [hv, word, List.drop_zero, ← hcast, ← Int.natCast_emod, Nat.mod_eq_of_lt hlt,
      Int.toNat_natCast]
  rw [store, hnumber, hbytes, List.take_append_drop]

/-- What is stored over does not matter. -/
theorem store_congr {m' : List UInt8} (h : m.drop width = m'.drop width) :
    o.store width v m = o.store width v m' := by
  rw [store, store, h]

/-- What has been stored at the start does not matter to a store that covers it. -/
theorem store_store {first : Nat} {w : Int} (h : first ≤ width) :
    o.store width v (o.store first w m) = o.store width v m := by
  rw [store, drop_store o width h, store]

end Stores

end ByteOrder
end FluaLibs
