import Mathlib.Data.List.Basic
import Mathlib.Data.List.GetD

/-! # Base64

Three bytes are written as four characters of six bits each; the last group may have one
or two bytes, and is filled up with pads.  Reading the text gives the bytes back
(`Base64Text.read_write`), and the text of `n` bytes has `4 * ⌈n / 3⌉` characters.
-/
namespace FluaLibs
namespace Base64Text

/-- The characters in the order of their values. -/
def alphabet : List UInt8 :=
  "ABCDEFGHIJKLMNOPQRSTUVWXYZabcdefghijklmnopqrstuvwxyz0123456789+/".toList.map
    (fun c => UInt8.ofNat c.toNat)

def pad : UInt8 := 61

/-- The character of six bits. -/
def digit (n : Nat) : UInt8 := alphabet.getD n pad

/-- The six bits of a character. -/
def value (c : UInt8) : Option Nat := alphabet.idxOf? c

/-- The text of some bytes. -/
def write : List UInt8 → List UInt8
  | [] => []
  | [a] => [digit (a.toNat / 4), digit (a.toNat % 4 * 16), pad, pad]
  | [a, b] =>
    [digit (a.toNat / 4), digit (a.toNat % 4 * 16 + b.toNat / 16), digit (b.toNat % 16 * 4), pad]
  | a :: b :: c :: rest =>
    digit (a.toNat / 4) :: digit (a.toNat % 4 * 16 + b.toNat / 16) ::
      digit (b.toNat % 16 * 4 + c.toNat / 64) :: digit (c.toNat % 64) :: write rest

/-- The bytes of a text, up to its pads. -/
def read : List UInt8 → Option (List UInt8)
  | [] => some []
  | p :: q :: r :: s :: rest => do
    let a ← value p
    let b ← value q
    let first := UInt8.ofNat (a * 4 + b / 16)
    if r = pad then some [first]
    else
      let c ← value r
      let second := UInt8.ofNat (b % 16 * 16 + c / 4)
      if s = pad then some [first, second]
      else
        let d ← value s
        let others ← read rest
        some (first :: second :: UInt8.ofNat (c % 4 * 64 + d) :: others)
  | _ => none

/-! ## The digits -/

theorem value_digit {n : Nat} (h : n < 64) : value (digit n) = some n := by
  have hall : ∀ n < 64, value (digit n) = some n := by decide +kernel
  exact hall n h

theorem digit_ne_pad {n : Nat} (h : n < 64) : digit n ≠ pad := by
  have hall : ∀ n < 64, digit n ≠ pad := by decide +kernel
  exact hall n h

theorem digit_ne_zero (n : Nat) : digit n ≠ 0 := by
  have hall : ∀ c ∈ pad :: alphabet, c ≠ 0 := by decide +kernel
  rcases Nat.lt_or_ge n alphabet.length with hlt | hge
  · rw [digit, List.getD_eq_getElem _ _ hlt]
    exact hall _ (List.mem_cons_of_mem _ (List.getElem_mem hlt))
  · rw [digit, List.getD_eq_default _ _ hge]
    exact hall _ (List.mem_cons_self ..)

section Groups
variable (a b c : UInt8)

/-- The bits of the first byte, of the second and of the third. -/
theorem first_byte (low : Nat) (h : low < 16) :
    UInt8.ofNat (a.toNat / 4 * 4 + (a.toNat % 4 * 16 + low) / 16) = a := by
  have hvalue : a.toNat / 4 * 4 + (a.toNat % 4 * 16 + low) / 16 = a.toNat := by omega
  rw [hvalue, UInt8.ofNat_toNat]

theorem second_byte (high low : Nat) (h : low < 4) :
    UInt8.ofNat ((high * 16 + b.toNat / 16) % 16 * 16 + (b.toNat % 16 * 4 + low) / 4) = b := by
  have hb := b.toNat_lt
  have hvalue : (high * 16 + b.toNat / 16) % 16 * 16 + (b.toNat % 16 * 4 + low) / 4 = b.toNat := by
    omega
  rw [hvalue, UInt8.ofNat_toNat]

theorem third_byte (high : Nat) :
    UInt8.ofNat ((high * 4 + c.toNat / 64) % 4 * 64 + c.toNat % 64) = c := by
  have hc := c.toNat_lt
  have hvalue : (high * 4 + c.toNat / 64) % 4 * 64 + c.toNat % 64 = c.toNat := by omega
  rw [hvalue, UInt8.ofNat_toNat]

end Groups

/-! ## Texts -/

/-- **The bytes come back.** -/
theorem read_write (x : List UInt8) : read (write x) = some x := by
  induction x using write.induct with
  | case1 => rfl
  | case2 a =>
    have ha := a.toNat_lt
    have hp : a.toNat / 4 < 64 := by omega
    have hq : a.toNat % 4 * 16 < 64 := by omega
    have hfirst := first_byte a 0 (by decide)
    rw [Nat.add_zero] at hfirst
    simp only [write, read, value_digit hp, value_digit hq, Option.bind_eq_bind,
      Option.bind_some, if_true, hfirst]
  | case3 a b =>
    have ha := a.toNat_lt
    have hb := b.toNat_lt
    have hp : a.toNat / 4 < 64 := by omega
    have hq : a.toNat % 4 * 16 + b.toNat / 16 < 64 := by omega
    have hr : b.toNat % 16 * 4 < 64 := by omega
    have hfirst := first_byte a (b.toNat / 16) (by omega)
    have hsecond := second_byte b (a.toNat % 4) 0 (by decide)
    rw [Nat.add_zero] at hsecond
    simp only [write, read, value_digit hp, value_digit hq, value_digit hr, digit_ne_pad hr,
      Option.bind_eq_bind, Option.bind_some, if_true, if_false, hfirst, hsecond]
  | case4 a b c rest ih =>
    have ha := a.toNat_lt
    have hb := b.toNat_lt
    have hc := c.toNat_lt
    have hp : a.toNat / 4 < 64 := by omega
    have hq : a.toNat % 4 * 16 + b.toNat / 16 < 64 := by omega
    have hr : b.toNat % 16 * 4 + c.toNat / 64 < 64 := by omega
    have hs : c.toNat % 64 < 64 := by omega
    have hfirst := first_byte a (b.toNat / 16) (by omega)
    have hsecond := second_byte b (a.toNat % 4) (c.toNat / 64) (by omega)
    have hthird := third_byte c (b.toNat % 16)
    simp only [write, read, value_digit hp, value_digit hq, value_digit hr, value_digit hs,
      digit_ne_pad hr, digit_ne_pad hs, Option.bind_eq_bind, Option.bind_some, if_false, ih,
      hfirst, hsecond, hthird]

theorem write_length (x : List UInt8) : (write x).length = 4 * ((x.length + 2) / 3) := by
  induction x using write.induct with
  | case1 => rfl
  | case2 a => simp [write]
  | case3 a b => simp [write]
  | case4 a b c rest ih =>
    rw [write]
    simp only [List.length_cons, ih]
    omega

/-- There is no NUL in a text. -/
theorem zero_not_mem_write (x : List UInt8) : 0 ∉ write x := by
  have hpad : (0 : UInt8) ≠ pad := by decide
  have hdigit (n : Nat) : (0 : UInt8) ≠ digit n := (digit_ne_zero n).symm
  induction x using write.induct with
  | case1 => exact List.not_mem_nil
  | case2 a => simp [write, hdigit, hpad]
  | case3 a b => simp [write, hdigit, hpad]
  | case4 a b c rest ih => simp [write, hdigit, ih]

end Base64Text
end FluaLibs
