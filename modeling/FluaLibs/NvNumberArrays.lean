import FluaLibs.LuaNumbers
import Mathlib.Data.UInt

/-! # Arrays of numbers in libnv

A number of libnv is a `uint64_t`, and a Lua integer keeps its bits.  Three of the four
functions that return an array of numbers push each as an integer;
`cnvlist_get_number_array` pushes a float.  A float is not a Lua integer, so the four never
agree on what they return.  Up to equality of numbers they agree on the arrays whose
numbers are below `2 ^ 63` and have no more than 53 significant bits
(`number_arrays_agree_iff`).
-/
namespace FluaLibs
namespace NvNumberArrays
open LuaNumbers

/-- An array of numbers in an nvlist; libnv makes no empty ones. -/
structure NumberArray where
  values : List UInt64
  nonempty : values ≠ []

/-- `lua_pushinteger` of a `uint64_t`. -/
def pushinteger (value : UInt64) : Value := .integer (IntType.back value.toNat)

/-- `lua_pushnumber` of a `uint64_t`. -/
def pushnumber (value : UInt64) : Value := .number (Binary64.ofInt value.toNat)

/-- `get_number_array`, for both kinds of list. -/
def get_number_array (value : List UInt64) : List Value := value.map pushinteger

def l_nvlist_take_number_array (value : List UInt64) : List Value := value.map pushinteger

def l_cnvlist_get_number_array (value : List UInt64) : List Value := value.map pushnumber

def l_cnvlist_take_number_array (value : List UInt64) : List Value := value.map pushinteger

/-- A Lua integer as a `uint64_t`. -/
def toUInt64 (i : Int) : UInt64 := .ofNat (i % 2 ^ 64).toNat

/-- `l_nvlist_add_number_array`: what it stores; a table that is empty raises an error. -/
def l_nvlist_add_number_array (cvt : StringToNumber) (table : List Value) :
    Option (List UInt64) :=
  if table = [] then none else some (table.map (fun v => toUInt64 (tointeger cvt v)))

/-- The accessors. -/
def accessors : List (List UInt64 → List Value) :=
  [get_number_array, l_nvlist_take_number_array, l_cnvlist_get_number_array,
    l_cnvlist_take_number_array]

/-- Every accessor returns the numbers, as far as `R` tells, and what it returns is stored as
the same array again. -/
def Agree (R : Value → Value → Prop) (cvt : StringToNumber) (a : NumberArray) : Prop :=
  ∀ accessor ∈ accessors, List.Forall₂ R (accessor a.values) (a.values.map pushinteger) ∧
    l_nvlist_add_number_array cvt (accessor a.values) = some a.values

/-! ## Single numbers -/

section Numbers
variable {value : UInt64}

theorem back_of_lt (h : value.toNat < 2 ^ 63) : IntType.back value.toNat = value.toNat := by
  apply IntType.wrap_of_holds
  rw [IntType.int64_holds_iff]
  omega

/-- A number that does not fit a Lua integer is pushed as a negative one. -/
theorem back_of_ge (h : 2 ^ 63 ≤ value.toNat) : IntType.back value.toNat < 0 := by
  have hlt := value.toNat_lt
  have hwrap : IntType.back value.toNat = value.toNat - 2 ^ 64 := by
    have hcongr : IntType.int64.wrap value.toNat = IntType.int64.wrap (value.toNat - 2 ^ 64) := by
      apply IntType.wrap_congr
      show (value.toNat : Int) % 2 ^ 64 = (value.toNat - 2 ^ 64) % 2 ^ 64
      omega
    refine hcongr.trans (IntType.wrap_of_holds ?_)
    rw [IntType.int64_holds_iff]
    omega
  omega

theorem toUInt64_back (value : UInt64) : toUInt64 (IntType.back value.toNat) = value := by
  have hmod := IntType.wrap_modEq .int64 value.toNat
  have hlt := value.toNat_lt
  rw [toUInt64, IntType.back]
  show UInt64.ofNat (IntType.int64.wrap value.toNat % 2 ^ IntType.int64.bits).toNat = value
  rw [hmod]
  show UInt64.ofNat ((value.toNat : Int) % 2 ^ 64).toNat = value
  have hnat : ((value.toNat : Int) % 2 ^ 64).toNat = value.toNat := by omega
  rw [hnat, UInt64.ofNat_toNat]

theorem inRange_toNat (value : UInt64) : Binary64.InRange value.toNat := by
  have hlt := value.toNat_lt
  constructor <;> omega

/-- The float is the same as the integer. -/
theorem same_pushnumber_iff :
    Same (pushnumber value) (pushinteger value) ↔
      value.toNat < 2 ^ 63 ∧ Binary64.Exact value.toNat := by
  rcases Nat.lt_or_ge value.toNat (2 ^ 63) with hlt | hge
  · rw [pushnumber, pushinteger, back_of_lt hlt, same_ofInt_iff (inRange_toNat value)]
    exact (and_iff_right hlt).symm
  · refine iff_of_false (fun hsame => ?_) (fun hlt => by omega)
    have hneg := back_of_ge hge
    have hround : Binary64.toInt? (Binary64.ofInt value.toNat) =
        some (IntType.back value.toNat) := hsame
    rw [Binary64.toInt?_ofInt (inRange_toNat value), if_neg (by omega)] at hround
    have heq := Option.some.inj hround
    omega

theorem tointeger_pushnumber (cvt : StringToNumber) (h : value.toNat < 2 ^ 63)
    (hexact : Binary64.Exact value.toNat) :
    tointeger cvt (pushnumber value) = value.toNat := by
  have hint : Binary64.toInt? (Binary64.ofInt value.toNat) = some (value.toNat : Int) :=
    (Binary64.toInt?_ofInt_iff (inRange_toNat value)).mpr hexact
  have hholds : IntType.int64.Holds value.toNat := by
    rw [IntType.int64_holds_iff]
    omega
  have hfloat : floatToInteger (Binary64.ofInt value.toNat) = some (value.toNat : Int) := by
    rw [floatToInteger, hint, Option.filter_some, if_pos (decide_eq_true hholds)]
  rw [tointeger, pushnumber, tointegerx_number, hfloat, Option.getD_some]

end Numbers

/-! ## Arrays -/

section Arrays
variable {cvt : StringToNumber} {a : NumberArray}

/-- What has been pushed as integers is stored as it was. -/
theorem add_integers (cvt : StringToNumber) (a : NumberArray) :
    l_nvlist_add_number_array cvt (a.values.map pushinteger) = some a.values := by
  have hne : a.values.map pushinteger ≠ [] := fun h => a.nonempty (List.map_eq_nil_iff.mp h)
  rw [l_nvlist_add_number_array, if_neg hne, List.map_map]
  refine congrArg some ((List.map_congr_left (fun value _ => ?_)).trans (List.map_id _))
  show toUInt64 (tointeger cvt (pushinteger value)) = value
  rw [tointeger, pushinteger, tointegerx_integer, Option.getD_some, toUInt64_back]

theorem add_floats (cvt : StringToNumber) (a : NumberArray)
    (h : ∀ value ∈ a.values, value.toNat < 2 ^ 63 ∧ Binary64.Exact value.toNat) :
    l_nvlist_add_number_array cvt (a.values.map pushnumber) = some a.values := by
  have hne : a.values.map pushnumber ≠ [] := fun h => a.nonempty (List.map_eq_nil_iff.mp h)
  rw [l_nvlist_add_number_array, if_neg hne, List.map_map]
  refine congrArg some ((List.map_congr_left (fun value hvalue => ?_)).trans (List.map_id _))
  obtain ⟨hlt, hexact⟩ := h value hvalue
  show toUInt64 (tointeger cvt (pushnumber value)) = value
  rw [tointeger_pushnumber cvt hlt hexact, ← back_of_lt hlt, toUInt64_back]

theorem forall₂_map_iff {R : Value → Value → Prop} {f g : UInt64 → Value} (l : List UInt64) :
    List.Forall₂ R (l.map f) (l.map g) ↔ ∀ value ∈ l, R (f value) (g value) := by
  rw [List.forall₂_map_left_iff, List.forall₂_map_right_iff, List.forall₂_same]

/-- **The accessors agree** on no array as Lua integers, and as numbers on the arrays of
numbers below `2 ^ 63` that a float can hold. -/
theorem number_arrays_agree_iff (cvt : StringToNumber) (a : NumberArray) :
    ¬ Agree (· = ·) cvt a ∧
      (Agree Same cvt a ↔
        ∀ value ∈ a.values, value.toNat < 2 ^ 63 ∧ Binary64.Exact value.toNat) := by
  constructor
  · intro h
    have hfloats := (h l_cnvlist_get_number_array (by simp [accessors])).1
    rw [l_cnvlist_get_number_array, forall₂_map_iff] at hfloats
    obtain ⟨value, hvalue⟩ := List.exists_mem_of_ne_nil _ a.nonempty
    cases hfloats value hvalue
  · constructor
    · intro h
      have hfloats := (h l_cnvlist_get_number_array (by simp [accessors])).1
      rw [l_cnvlist_get_number_array, forall₂_map_iff] at hfloats
      exact fun value hvalue => same_pushnumber_iff.mp (hfloats value hvalue)
    · intro h accessor hmem
      have hintegers : List.Forall₂ Same (a.values.map pushinteger) (a.values.map pushinteger) ∧
          l_nvlist_add_number_array cvt (a.values.map pushinteger) = some a.values :=
        ⟨(forall₂_map_iff _).mpr (fun value _ => same_refl _), add_integers cvt a⟩
      simp only [accessors, List.mem_cons, List.not_mem_nil, or_false] at hmem
      rcases hmem with rfl | rfl | rfl | rfl
      · exact hintegers
      · exact hintegers
      · have hsame : ∀ value ∈ a.values, Same (pushnumber value) (pushinteger value) :=
          fun value hvalue => same_pushnumber_iff.mpr (h value hvalue)
        exact ⟨(forall₂_map_iff _).mpr hsame, add_floats cvt a h⟩
      · exact hintegers

/-- `2 ^ 53 + 1` comes back as `2 ^ 53`, and is stored as that. -/
theorem not_number_arrays_agree :
    l_nvlist_add_number_array (fun _ => none) (l_cnvlist_get_number_array [2 ^ 53 + 1]) =
        some [2 ^ 53] ∧
      ¬ ∀ cvt a, Agree Same cvt a := by
  have hadd : l_nvlist_add_number_array (fun _ => none)
      (l_cnvlist_get_number_array [2 ^ 53 + 1]) = some [2 ^ 53] := by
    decide +kernel
  refine ⟨hadd, fun h => ?_⟩
  have hagain := (h (fun _ => none) ⟨[2 ^ 53 + 1], by decide⟩ l_cnvlist_get_number_array
    (by simp [accessors])).2
  rw [hadd] at hagain
  revert hagain
  decide

end Arrays

end NvNumberArrays
end FluaLibs
