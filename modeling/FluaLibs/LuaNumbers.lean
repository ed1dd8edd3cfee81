import FluaLibs.Binary64
import FluaLibs.FixedWidth
import FluaLibs.LuaState

/-! # Numbers in Lua

A Lua number is an integer of 64 bits or a float, and a string may be converted to one.
The API functions that give a C program a number convert between them: a float is an
integer if it has an integral value in range, and an integer becomes a float by rounding.
An integer and a float of the same value are equal.
-/
namespace FluaLibs

/-- How Lua reads a string as a number, an integer or a float, if it can. -/
abbrev StringToNumber : Type := List UInt8 → Option Value

namespace LuaNumbers
variable (cvt : StringToNumber)

/-- `lua_Number` to `lua_Integer`, when the value is integral and in range. -/
def floatToInteger (bits : UInt64) : Option Int :=
  (Binary64.toInt? bits).filter (fun i => IntType.int64.Holds i)

/-- The integer that a number is. -/
def numberToInteger : Value → Option Int
  | .integer i => some i
  | .number bits => floatToInteger bits
  | _ => none

/-- `lua_tointegerx` -/
def tointegerx : Value → Option Int
  | .string s => (cvt s).bind numberToInteger
  | v => numberToInteger v

/-- `lua_tointeger` -/
def tointeger (v : Value) : Int := (tointegerx cvt v).getD 0

@[simp] theorem tointegerx_integer (i : Int) : tointegerx cvt (.integer i) = some i := rfl

@[simp] theorem tointegerx_number (bits : UInt64) :
    tointegerx cvt (.number bits) = floatToInteger bits := rfl

/-- The float that a number is, or is rounded to. -/
def numberToFloat : Value → Option UInt64
  | .integer i => some (Binary64.ofInt i)
  | .number bits => some bits
  | _ => none

/-- `lua_tonumberx` -/
def tonumberx : Value → Option UInt64
  | .string s => (cvt s).bind numberToFloat
  | v => numberToFloat v

/-- The same value: equal, or an integer and a float of that value. -/
def Same : Value → Value → Prop
  | .integer i, .number bits | .number bits, .integer i => Binary64.toInt? bits = some i
  | v, w => v = w

instance (v w : Value) : Decidable (Same v w) := by
  unfold Same
  split <;> infer_instance

theorem same_refl (v : Value) : Same v v := by
  cases v <;> rfl

/-- An integer that was rounded to a float is still the same if it has no more than 53
significant bits. -/
theorem same_ofInt_iff {i : Int} (h : Binary64.InRange i) :
    Same (.number (Binary64.ofInt i)) (.integer i) ↔ Binary64.Exact i.natAbs :=
  Binary64.toInt?_ofInt_iff h

theorem same_integer_iff {i j : Int} : Same (.integer i) (.integer j) ↔ i = j := by
  show Value.integer i = Value.integer j ↔ i = j
  exact ⟨Value.integer.inj, congrArg Value.integer⟩

theorem same_boolean_iff {v : Value} {b : Bool} : Same v (.boolean b) ↔ v = .boolean b := by
  cases v <;> exact Iff.rfl

theorem same_string_iff {v : Value} {s : List UInt8} : Same v (.string s) ↔ v = .string s := by
  cases v <;> exact Iff.rfl

/-- A number is the same as an integer if that is the integer it is. -/
theorem same_integer_of_number {v : Value} {i j : Int} (h : numberToInteger v = some i) :
    Same v (.integer j) ↔ i = j := by
  cases v with
  | integer k =>
    cases h
    exact same_integer_iff
  | number bits =>
    obtain ⟨hbits, -⟩ := Option.filter_eq_some_iff.mp h
    show Binary64.toInt? bits = some j ↔ i = j
    rw [hbits, Option.some.injEq]
  | _ => cases h

end LuaNumbers
end FluaLibs
