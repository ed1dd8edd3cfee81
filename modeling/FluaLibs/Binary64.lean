import Mathlib.Tactic.Ring
import Mathlib.Tactic.Positivity

/-! # Integers as binary64 numbers

A binary64 number is kept as its bits: a sign, 11 bits of exponent and 52 bits of
fraction.  `ofInt` is the conversion of an integer of 64 bits, which rounds to nearest
with ties to even; `toInt?` is the integer that a number is, if it is one.  The integer
that comes back is the rounded one (`toInt?_ofInt`), so a conversion loses nothing
exactly for the integers whose bits below the 53 highest are zero (`toInt?_ofInt_iff`).
-/
namespace FluaLibs
namespace Binary64

/-- Division by `2 ^ s`, to nearest, with ties to even. -/
def roundHalfEven (n s : Nat) : Nat :=
  if 2 * (n % 2 ^ s) < 2 ^ s ∨ (2 * (n % 2 ^ s) = 2 ^ s ∧ n / 2 ^ s % 2 = 0) then n / 2 ^ s
  else n / 2 ^ s + 1

/-- The significand of a number, of 53 bits, or `2 ^ 53` when it was rounded up to that. -/
def significand (n : Nat) : Nat :=
  if n.log2 ≤ 52 then n * 2 ^ (52 - n.log2) else roundHalfEven n (n.log2 - 52)

/-- The bits of a natural number below `2 ^ 64`.  A significand of `2 ^ 53` carries into the
exponent. -/
def ofNat (n : Nat) : Nat :=
  if n = 0 then 0 else (n.log2 + 1023) * 2 ^ 52 + (significand n - 2 ^ 52)

/-- The natural number with these bits, if it is one; the sign is not set. -/
def toNat? (bits : Nat) : Option Nat :=
  let exponent := bits / 2 ^ 52
  let fraction := bits % 2 ^ 52
  if exponent = 0 then if fraction = 0 then some 0 else none
  else if exponent = 2047 then none
  else if 1075 ≤ exponent then some ((2 ^ 52 + fraction) * 2 ^ (exponent - 1075))
  else if (2 ^ 52 + fraction) % 2 ^ (1075 - exponent) = 0 then
    some ((2 ^ 52 + fraction) / 2 ^ (1075 - exponent))
  else none

/-- The bits of an integer of 64 bits. -/
def ofInt (i : Int) : UInt64 :=
  if i < 0 then .ofNat (2 ^ 63 + ofNat i.natAbs) else .ofNat (ofNat i.natAbs)

/-- The integer with these bits, if it is one. -/
def toInt? (bits : UInt64) : Option Int :=
  if bits.toNat < 2 ^ 63 then (toNat? bits.toNat).map (fun n => (n : Int))
  else (toNat? (bits.toNat - 2 ^ 63)).map (fun n => -(n : Int))

/-- A natural number rounded to 53 significant bits. -/
def round (n : Nat) : Nat :=
  if n.log2 ≤ 52 then n else roundHalfEven n (n.log2 - 52) * 2 ^ (n.log2 - 52)

/-- No more than 53 significant bits. -/
def Exact (n : Nat) : Prop := n % 2 ^ (n.log2 - 52) = 0

instance (n : Nat) : Decidable (Exact n) := inferInstanceAs (Decidable (_ = _))

/-! ## Rounding -/

theorem roundHalfEven_eq_iff (n s : Nat) :
    roundHalfEven n s * 2 ^ s = n ↔ n % 2 ^ s = 0 := by
  have hdiv := Nat.div_add_mod' n (2 ^ s)
  have hpos : 0 < 2 ^ s := Nat.two_pow_pos s
  have hlt := Nat.mod_lt n hpos
  rw [roundHalfEven]
  split
  · omega
  · rw [Nat.add_mul, Nat.one_mul]
    omega

theorem round_eq_iff (n : Nat) : round n = n ↔ Exact n := by
  rw [round, Exact]
  split
  · rename_i hsmall
    rw [Nat.sub_eq_zero_of_le hsmall, pow_zero, Nat.mod_one]
    exact iff_of_true rfl rfl
  · exact roundHalfEven_eq_iff n _

/-! ## Conversions -/

theorem significand_bounds {n : Nat} (hn : n ≠ 0) :
    2 ^ 52 ≤ significand n ∧ significand n ≤ 2 ^ 53 := by
  have hlow := Nat.log2_self_le hn
  have hhigh := Nat.lt_log2_self (n := n)
  rw [significand]
  split
  · rename_i hsmall
    have hpow : 2 ^ n.log2 * 2 ^ (52 - n.log2) = 2 ^ 52 := by
      rw [← pow_add]
      congr 1
      omega
    have hpos : 0 < 2 ^ (52 - n.log2) := Nat.two_pow_pos _
    constructor
    · calc 2 ^ 52 = 2 ^ n.log2 * 2 ^ (52 - n.log2) := hpow.symm
        _ ≤ n * 2 ^ (52 - n.log2) := Nat.mul_le_mul_right _ hlow
    · calc n * 2 ^ (52 - n.log2) ≤ 2 ^ (n.log2 + 1) * 2 ^ (52 - n.log2) :=
            Nat.mul_le_mul_right _ hhigh.le
        _ = 2 ^ n.log2 * 2 ^ (52 - n.log2) * 2 := by ring
        _ = 2 ^ 53 := by rw [hpow, ← pow_succ]
  · rename_i hbig
    have hlowDiv : 2 ^ 52 ≤ n / 2 ^ (n.log2 - 52) := by
      rw [Nat.le_div_iff_mul_le (Nat.two_pow_pos _), ← pow_add]
      have heq : 52 + (n.log2 - 52) = n.log2 := by omega
      rwa [heq]
    have hhighDiv : n / 2 ^ (n.log2 - 52) < 2 ^ 53 := by
      rw [Nat.div_lt_iff_lt_mul (Nat.two_pow_pos _), ← pow_add]
      have heq : 53 + (n.log2 - 52) = n.log2 + 1 := by omega
      rwa [heq]
    rw [roundHalfEven]
    split <;> omega

theorem log2_lt_64 {n : Nat} (hn : n ≠ 0) (h : n < 2 ^ 64) : n.log2 < 64 :=
  (Nat.log2_lt hn).mpr h

theorem ofNat_lt {n : Nat} (h : n < 2 ^ 64) : ofNat n < 2 ^ 63 := by
  rw [ofNat]
  split
  · decide
  · rename_i hn
    have hlog := log2_lt_64 hn h
    have hbounds := significand_bounds hn
    omega

/-- The fields of a normal number. -/
theorem toNat?_fields {exponent fraction : Nat} (hlow : 1023 ≤ exponent) (hhigh : exponent < 2047)
    (hfraction : fraction < 2 ^ 52) :
    toNat? (exponent * 2 ^ 52 + fraction) =
      if 1075 ≤ exponent then some ((2 ^ 52 + fraction) * 2 ^ (exponent - 1075))
      else if (2 ^ 52 + fraction) % 2 ^ (1075 - exponent) = 0 then
        some ((2 ^ 52 + fraction) / 2 ^ (1075 - exponent))
      else none := by
  have hexp : (exponent * 2 ^ 52 + fraction) / 2 ^ 52 = exponent := by omega
  have hfrac : (exponent * 2 ^ 52 + fraction) % 2 ^ 52 = fraction := by omega
  rw [toNat?, hexp, hfrac]
  rw [if_neg (by omega), if_neg (by omega)]

/-- **The number that comes back** is the rounded one. -/
theorem toNat?_ofNat {n : Nat} (h : n < 2 ^ 64) : toNat? (ofNat n) = some (round n) := by
  rcases Nat.eq_zero_or_pos n with rfl | hpos
  · decide
  have hn : n ≠ 0 := hpos.ne'
  have hlog := log2_lt_64 hn h
  obtain ⟨hlow, hhigh⟩ := significand_bounds hn
  rw [ofNat, if_neg hn]
  rcases Nat.lt_or_eq_of_le hhigh with hlt | hcarry
  · rw [toNat?_fields (by omega) (by omega) (by omega), Nat.add_sub_cancel' hlow]
    rcases Nat.lt_or_ge n.log2 52 with hsmall | hbig
    · -- the fraction ends in zeros
      have hsig : significand n = n * 2 ^ (52 - n.log2) := if_pos hsmall.le
      have hexp : 1075 - (n.log2 + 1023) = 52 - n.log2 := by omega
      rw [if_neg (by omega), hexp, hsig, Nat.mul_mod_left, if_pos rfl,
        Nat.mul_div_cancel _ (Nat.two_pow_pos _), round, if_pos hsmall.le]
    · have hexp : n.log2 + 1023 - 1075 = n.log2 - 52 := by omega
      rw [if_pos (by omega), hexp]
      rcases Nat.eq_or_lt_of_le hbig with heq | hgt
      · rw [significand, round, if_pos heq.ge, if_pos heq.ge, ← heq]
        simp
      · rw [significand, round, if_neg (by omega), if_neg (by omega)]
  · -- the significand was rounded up to a power of two
    have hbig : ¬ n.log2 ≤ 52 := by
      intro hsmall
      have hsig : significand n = n * 2 ^ (52 - n.log2) := if_pos hsmall
      have hlt : n * 2 ^ (52 - n.log2) < 2 ^ (n.log2 + 1) * 2 ^ (52 - n.log2) :=
        Nat.mul_lt_mul_of_pos_right Nat.lt_log2_self (Nat.two_pow_pos _)
      have hpow : 2 ^ (n.log2 + 1) * 2 ^ (52 - n.log2) = 2 ^ 53 := by
        rw [← pow_add]
        congr 1
        omega
      omega
    have hbits : (n.log2 + 1023) * 2 ^ 52 + (significand n - 2 ^ 52) =
        (n.log2 + 1024) * 2 ^ 52 + 0 := by
      rw [hcarry]
      ring
    have hround : round n = 2 ^ 53 * 2 ^ (n.log2 - 52) := by
      rw [round, if_neg hbig, ← hcarry, significand, if_neg hbig]
    have hexp : n.log2 + 1024 - 1075 = n.log2 - 52 + 1 := by omega
    have hscale : 2 ^ (n.log2 - 52 + 1) = 2 ^ (n.log2 - 52) * 2 := pow_succ _ _
    rw [hbits, toNat?_fields (by omega) (by omega) (by omega), if_pos (by omega), hround, hexp,
      hscale]
    generalize 2 ^ (n.log2 - 52) = scale
    exact congrArg some (by omega)

/-- The integers that `ofInt` is for. -/
def InRange (i : Int) : Prop := -2 ^ 64 < i ∧ i < 2 ^ 64

theorem toInt?_ofInt {i : Int} (h : InRange i) :
    toInt? (ofInt i) = some (if i < 0 then -(round i.natAbs : Int) else round i.natAbs) := by
  have habs : i.natAbs < 2 ^ 64 := by
    obtain ⟨hlow, hhigh⟩ := h
    omega
  have hlt := ofNat_lt habs
  rw [ofInt]
  by_cases hneg : i < 0
  · have hbits : (UInt64.ofNat (2 ^ 63 + ofNat i.natAbs)).toNat = 2 ^ 63 + ofNat i.natAbs :=
      Nat.mod_eq_of_lt (by omega)
    rw [if_pos hneg, if_pos hneg, toInt?, hbits, if_neg (by omega), Nat.add_sub_cancel_left,
      toNat?_ofNat habs]
    rfl
  · have hbits : (UInt64.ofNat (ofNat i.natAbs)).toNat = ofNat i.natAbs :=
      Nat.mod_eq_of_lt (by omega)
    rw [if_neg hneg, if_neg hneg, toInt?, hbits, if_pos hlt, toNat?_ofNat habs]
    rfl

/-- **The integers that are kept**: those of no more than 53 significant bits. -/
theorem toInt?_ofInt_iff {i : Int} (h : InRange i) :
    toInt? (ofInt i) = some i ↔ Exact i.natAbs := by
  rw [toInt?_ofInt h, ← round_eq_iff, Option.some.injEq]
  split <;> omega

end Binary64
end FluaLibs
