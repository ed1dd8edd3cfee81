import FluaLibs.LuaNumbers
import FluaLibs.StackCapacity
import Mathlib.Data.List.TakeWhile

/-! # The values of nvpairs

The functions of libnvpair that add a value, and those that give one back, are generated from
two tables, one of scalar types and one of types of arrays.  A row has the C type of the value,
the function that takes it from the Lua stack and the function that pushes it.  What is taken
and what is pushed again is the same value for some values of each type only
(`equal_lpush_iff`): a conversion to a C integer keeps the low bits, a Lua string is cut off at
its first NUL, `lua_toboolean` takes any value, and strings and numbers are taken for each
other.
-/
namespace FluaLibs
namespace NvpairValues

open Capacity (ArrayType toboolean)
open LuaArguments (Raised)

/-- A C string. -/
@[ext] structure CString where
  bytes : List UInt8
  noNul : 0 ∉ bytes
  deriving DecidableEq

/-- What C reads of a Lua string. -/
def cstring (s : List UInt8) : CString where
  bytes := s.takeWhile (· ≠ 0)
  noNul h := by simpa using List.mem_takeWhile_imp h

/-- Lua integers have 64 bits. -/
def IsLua (v : Value) : Prop := ∀ i, v = .integer i → IntType.int64.Holds i

abbrev LuaValue := { v : Value // IsLua v }

/-! ## The C types -/

inductive CType where
  | boolean_t
  | integer (t : IntType) (narrow : t.bits ≤ 64 := by decide)
  | string
  | nvlist_t
  | double
  deriving DecidableEq

/-- The values of a C type; `C` is what an nvlist holds. -/
def CType.Val (C : Type) : CType → Type
  | .boolean_t => Bool
  | .integer t _ => { i : Int // t.Holds i }
  | .string => CString
  | .nvlist_t => C
  | .double => UInt64

/-- A value that is pushed: one that Lua has by itself, or a userdata of a list. -/
inductive Pushed (C : Type) where
  | plain (v : Value)
  | nvlist (contents : C)

/-- The value of a pair as Lua gets it. -/
inductive Result (C : Type) where
  | one (v : Pushed C)
  | table (vs : List (Pushed C))

/-- What the functions meet in Lua: the conversions of strings and numbers, what the list of a
userdata holds, and tables, whose metamethods may give any values or raise errors. -/
structure Lua (C : Type) where
  cvt : StringToNumber
  numeral : Value → List UInt8
  contents : Value → Option C
  notNvlist : Int → Value → Raised
  len : Nat → Except Raised Int
  geti : Nat → Nat → Except Raised LuaValue

section Conversions
variable {C : Type} (lua : Lua C) (arg : Int)

/-- `luaL_checkinteger` -/
def checkinteger (v : Value) : Except Raised Int :=
  match LuaNumbers.tointegerx lua.cvt v with
  | some i => .ok i
  | none =>
    if (LuaNumbers.tonumberx lua.cvt v).isSome then
      .error (.argerror arg "number has no integer representation")
    else .error (.typeerror arg "number")

/-- `luaL_checknumber` -/
def checknumber (v : Value) : Except Raised UInt64 :=
  match LuaNumbers.tonumberx lua.cvt v with
  | some bits => .ok bits
  | none => .error (.typeerror arg "number")

/-- `luaL_checkstring` -/
def checkstring (v : Value) : Except Raised (List UInt8) :=
  match v with
  | .string s => .ok s
  | .integer _ | .number _ => .ok (lua.numeral v)
  | _ => .error (.typeerror arg "string")

/-- `checknvlist` -/
def checknvlist (v : Value) : Except Raised C :=
  match lua.contents v with
  | some contents => .ok contents
  | none => .error (lua.notNvlist arg v)

/-- The `lcheck` of a C type, on the value at the index `arg`. -/
def lcheck (v : Value) : (c : CType) → Except Raised (c.Val C)
  | .boolean_t => .ok (toboolean v)
  | .integer t _ => (checkinteger lua arg v).map (fun i => ⟨t.wrap i, t.wrap_holds i⟩)
  | .string => (checkstring lua arg v).map cstring
  | .nvlist_t => checknvlist lua arg v
  | .double => checknumber lua arg v

/-- The `lpush` of a C type. -/
def lpush : (c : CType) → c.Val C → Pushed C
  | .boolean_t, b => .plain (.boolean b)
  | .integer _ _, i => .plain (.integer (IntType.back i.val))
  | .string, s => .plain (.string s.bytes)
  | .nvlist_t, contents => .nvlist contents
  | .double, bits => .plain (.number bits)

/-! ## The tables -/

/-- `NVPAIR_SCALAR_TYPES` -/
inductive ScalarType where
  | boolean_value | byte | int8 | uint8 | int16 | uint16 | int32 | uint32 | int64 | uint64
  | string | nvlist | hrtime | double
  deriving DecidableEq

def ScalarType.ctype : ScalarType → CType
  | .boolean_value => .boolean_t
  | .byte => .integer .uint8
  | .int8 => .integer .int8
  | .uint8 => .integer .uint8
  | .int16 => .integer .int16
  | .uint16 => .integer .uint16
  | .int32 => .integer .int32
  | .uint32 => .integer .uint32
  | .int64 => .integer .int64
  | .uint64 => .integer .uint64
  | .string => .string
  | .nvlist => .nvlist_t
  | .hrtime => .integer .uint64
  | .double => .double

/-- The part of the names of the functions for a scalar type. -/
def ScalarType.ftype : ScalarType → String
  | .boolean_value => "boolean_value"
  | .byte => "byte"
  | .int8 => "int8"
  | .uint8 => "uint8"
  | .int16 => "int16"
  | .uint16 => "uint16"
  | .int32 => "int32"
  | .uint32 => "uint32"
  | .int64 => "int64"
  | .uint64 => "uint64"
  | .string => "string"
  | .nvlist => "nvlist"
  | .hrtime => "hrtime"
  | .double => "double"

deriving instance DecidableEq for Capacity.ArrayType

/-- `NVPAIR_ARRAY_TYPES` -/
def arrayCtype : ArrayType → CType
  | .boolean => .boolean_t
  | .byte => .integer .uint8
  | .int8 => .integer .int8
  | .uint8 => .integer .uint8
  | .int16 => .integer .int16
  | .uint16 => .integer .uint16
  | .int32 => .integer .int32
  | .uint32 => .integer .uint32
  | .int64 => .integer .int64
  | .uint64 => .integer .uint64
  | .string => .string
  | .nvlist => .nvlist_t

/-- `NVPAIR_ARRAY_LOOKUP_TYPES`: the types of arrays that have a lookup function. -/
def hasLookup : ArrayType → Bool
  | .string | .nvlist => false
  | _ => true

/-- `data_type_t`, less the values that are no types of pairs. -/
inductive DataType where
  | BOOLEAN
  | scalar (type : ScalarType)
  | array (type : ArrayType)
  deriving DecidableEq

/-- The value of a pair, by its type. -/
def DataType.Data (C : Type) : DataType → Type
  | .BOOLEAN => Unit
  | .scalar type => type.ctype.Val C
  | .array type => List ((arrayCtype type).Val C)

/-- The type and the value of a pair. -/
structure Stored (C : Type) where
  type : DataType
  data : type.Data C

/-- `pushvalue` -/
def pushvalue : Stored C → Result C
  | ⟨.BOOLEAN, _⟩ => .one (.plain (.boolean true))
  | ⟨.scalar type, value⟩ => .one (lpush type.ctype value)
  | ⟨.array type, values⟩ => .table (values.map (lpush (arrayCtype type)))

/-! ## What comes back -/

/-- The Lua value is the one that was pushed: the same to Lua, or a list with these contents. -/
def Equal (v : Value) : Pushed C → Prop
  | .plain w => LuaNumbers.Same v w
  | .nvlist contents => lua.contents v = some contents

/-- The values that a C type keeps. -/
def Kept (v : Value) : CType → Prop
  | .boolean_t => ∃ b, v = .boolean b
  | .integer t _ => ∃ i, LuaNumbers.numberToInteger v = some i ∧ (t.Holds i ∨ t.bits = 64)
  | .string => ∃ s, v = .string s ∧ 0 ∉ s
  | .nvlist_t => True
  | .double => (∃ bits, v = .number bits) ∨ ∃ i, v = .integer i ∧ Binary64.Exact i.natAbs

variable {lua arg}

theorem cstring_bytes_iff {s : List UInt8} : (cstring s).bytes = s ↔ 0 ∉ s := by
  constructor
  · intro h hmem
    rw [← h] at hmem
    exact (cstring s).noNul hmem
  · intro h
    refine List.takeWhile_eq_self_iff.mpr (fun b hb => ?_)
    simp only [ne_eq, decide_not, Bool.not_eq_eq_eq_not, Bool.not_true, decide_eq_false_iff_not]
    rintro rfl
    exact h hb

theorem equal_boolean_iff {v : Value} :
    Equal lua v (.plain (.boolean (toboolean v))) ↔ Kept v .boolean_t := by
  show LuaNumbers.Same v (.boolean (toboolean v)) ↔ ∃ b, v = .boolean b
  rw [LuaNumbers.same_boolean_iff]
  constructor
  · exact fun hv => ⟨toboolean v, hv⟩
  · rintro ⟨b, rfl⟩
    rfl

/-- A value that is converted to a Lua integer is a number that is one, or a string. -/
theorem tointegerx_cases {v : Value} {i : Int} (h : LuaNumbers.tointegerx lua.cvt v = some i) :
    LuaNumbers.numberToInteger v = some i ∨ ∃ s, v = .string s := by
  unfold LuaNumbers.tointegerx at h
  split at h
  · exact Or.inr ⟨_, rfl⟩
  · exact Or.inl h

/-- The integers that a number is are of Lua's own type. -/
theorem holds_of_number {v : LuaValue} {i : Int}
    (hi : LuaNumbers.numberToInteger v.val = some i) : IntType.int64.Holds i := by
  obtain ⟨v, hv⟩ := v
  cases v with
  | integer j =>
    cases hi
    exact hv i rfl
  | number bits =>
    obtain ⟨-, hholds⟩ := Option.filter_eq_some_iff.mp hi
    exact of_decide_eq_true hholds
  | _ => cases hi

/-- An integer comes back if its type holds it or has the 64 bits of Lua's own integers. -/
theorem equal_integer_iff {t : IntType} {narrow : t.bits ≤ 64} {v : LuaValue} {i : Int}
    (h : LuaNumbers.tointegerx lua.cvt v.val = some i) :
    Equal lua v.val (.plain (.integer (IntType.back (t.wrap i)))) ↔
      Kept v.val (.integer t narrow) := by
  show LuaNumbers.Same v.val (.integer _) ↔ ∃ j, _
  rcases tointegerx_cases h with hnumber | ⟨s, hs⟩
  · rw [LuaNumbers.same_integer_of_number hnumber, eq_comm,
      IntType.back_wrap_eq_iff narrow (holds_of_number hnumber), hnumber]
    simp
  · rw [hs]
    refine iff_of_false (fun hsame => nomatch hsame) ?_
    rintro ⟨j, hj, -⟩
    cases hj

theorem equal_string_iff {v : Value} {s : List UInt8} (h : checkstring lua arg v = .ok s) :
    Equal lua v (.plain (.string (cstring s).bytes)) ↔ Kept v .string := by
  show LuaNumbers.Same v (.string _) ↔ ∃ s', v = .string s' ∧ 0 ∉ s'
  rw [LuaNumbers.same_string_iff]
  constructor
  · exact fun hv => ⟨_, hv, (cstring s).noNul⟩
  · rintro ⟨s', rfl, hnul⟩
    cases h
    rw [cstring_bytes_iff.mpr hnul]

/-- A float comes back, and an integer if a float has room for it. -/
theorem equal_double_iff {v : LuaValue} {bits : UInt64}
    (h : LuaNumbers.tonumberx lua.cvt v.val = some bits) :
    Equal lua v.val (.plain (.number bits)) ↔ Kept v.val .double := by
  show LuaNumbers.Same v.val (.number bits) ↔
    (∃ x, v.val = .number x) ∨ ∃ i, v.val = .integer i ∧ Binary64.Exact i.natAbs
  obtain ⟨v, hv⟩ := v
  cases v with
  | integer i =>
    cases h
    obtain ⟨hlow, hhigh⟩ := IntType.int64_holds_iff.mp (hv i rfl)
    have hrange : Binary64.InRange i := ⟨by omega, by omega⟩
    simp only [reduceCtorEq, exists_false, false_or, Value.integer.injEq, exists_eq_left']
    exact LuaNumbers.same_ofInt_iff hrange
  | number x =>
    cases h
    exact iff_of_true rfl (Or.inl ⟨bits, rfl⟩)
  | string s =>
    refine iff_of_false (fun hsame => nomatch hsame) ?_
    rintro (⟨x, hx⟩ | ⟨i, hi, -⟩)
    · cases hx
    · cases hi
  | _ => cases h

/-- **What is pushed is what was taken**, for the values that the type keeps. -/
theorem equal_lpush_iff {v : LuaValue} {c : CType} {x : c.Val C}
    (h : lcheck lua arg v.val c = .ok x) : Equal lua v.val (lpush c x) ↔ Kept v.val c := by
  cases c with
  | boolean_t =>
    cases h
    exact equal_boolean_iff
  | integer t narrow =>
    unfold lcheck checkinteger at h
    cases hi : LuaNumbers.tointegerx lua.cvt v.val with
    | some i =>
      rw [hi] at h
      cases h
      exact equal_integer_iff hi
    | none =>
      rw [hi] at h
      dsimp only at h
      split at h <;> cases h
  | string =>
    cases hs : checkstring lua arg v.val with
    | ok s =>
      rw [lcheck, hs] at h
      cases h
      exact equal_string_iff hs
    | error e =>
      rw [lcheck, hs] at h
      cases h
  | nvlist_t =>
    unfold lcheck checknvlist at h
    cases hcontents : lua.contents v.val with
    | some contents =>
      rw [hcontents] at h
      cases h
      exact iff_of_true hcontents trivial
    | none =>
      rw [hcontents] at h
      cases h
  | double =>
    unfold lcheck checknumber at h
    cases hbits : LuaNumbers.tonumberx lua.cvt v.val with
    | some bits =>
      rw [hbits] at h
      cases h
      exact equal_double_iff hbits
    | none =>
      rw [hbits] at h
      cases h

/-- The values that the check of a C type refuses. -/
def Refused (lua : Lua C) (v : Value) : CType → Prop
  | .boolean_t => False
  | .integer _ _ => LuaNumbers.tointegerx lua.cvt v = none
  | .string => ∀ arg s, checkstring lua arg v ≠ .ok s
  | .nvlist_t => lua.contents v = none
  | .double => LuaNumbers.tonumberx lua.cvt v = none

theorem checkstring_ok_arg {v : Value} {s : List UInt8} (h : checkstring lua arg v = .ok s)
    (arg' : Int) : checkstring lua arg' v = .ok s := by
  unfold checkstring at h ⊢
  split at h
  · exact h
  · exact h
  · exact h
  · cases h

theorem refused_iff (arg : Int) {v : Value} {c : CType} :
    Refused lua v c ↔ ∀ x, lcheck lua arg v c ≠ .ok x := by
  cases c with
  | boolean_t => exact iff_of_false id (fun h => h _ rfl)
  | integer t narrow =>
    unfold Refused lcheck checkinteger
    cases LuaNumbers.tointegerx lua.cvt v with
    | some i => exact iff_of_false nofun (fun h => h _ rfl)
    | none =>
      refine iff_of_true rfl (fun x => ?_)
      dsimp only
      split <;> exact nofun
  | string =>
    unfold Refused lcheck
    constructor
    · intro h x
      cases hs : checkstring lua arg v with
      | ok s => exact absurd hs (h arg s)
      | error e => exact nofun
    · intro h arg' s hs
      rw [checkstring_ok_arg hs arg] at h
      exact h _ rfl
  | nvlist_t =>
    unfold Refused lcheck checknvlist
    cases lua.contents v with
    | some contents => exact iff_of_false nofun (fun h => h _ rfl)
    | none => exact iff_of_true rfl (fun _ => nofun)
  | double =>
    unfold Refused lcheck checknumber
    cases LuaNumbers.tonumberx lua.cvt v with
    | some bits => exact iff_of_false nofun (fun h => h _ rfl)
    | none => exact iff_of_true rfl (fun _ => nofun)

end Conversions

/-- The elements of arrays are converted as `Capacity` has it. -/
theorem cast_eq_wrap {type : ArrayType} {t : IntType} {narrow : t.bits ≤ 64}
    (h : arrayCtype type = .integer t narrow) {i : Int} (hi : IntType.int64.Holds i) :
    type.cast i = t.wrap i := by
  cases type with
  | int64 =>
    cases h
    exact (IntType.wrap_of_holds hi).symm
  | _ => cases h <;> rfl

end NvpairValues
end FluaLibs
