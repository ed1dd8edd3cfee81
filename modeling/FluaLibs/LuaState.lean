import Mathlib.Data.List.Basic

/-! # Lua states as the C API sees them

A C function works on a `lua_State` through a stack of values addressed by
absolute (positive) or relative (negative) indices.  This module models the
values, the stack and the API functions the bindings use, one definition for
each.  Tables, full userdata, C functions and coroutines occur only as opaque
references; Lua functions are references into the state's heap of closures, so
that shared and cyclic closures can be expressed.

What the bindings rely on in the Lua runtime itself — prototypes, their debug
names, and `lua_dump` and `lua_load` on them — is a parameter (`Runtime`), whose
only assumption is that loading a dumped prototype gives that prototype back.
The stack has no capacity here: what is shown over these states is shown with enough
Lua stack.  `StackCapacity` counts the slots.
-/
namespace FluaLibs

/-- The part of the Lua runtime that is not in this repository. -/
structure Runtime where
  /-- Function prototypes. -/
  Proto : Type
  /-- The names `lua_getupvalue` reports, in upvalue order. -/
  upvalueNames : Proto → List String
  /-- The bytes `lua_dump` writes, debug information included. -/
  dump : Proto → List UInt8
  /-- What `lua_load` makes of a chunk: a prototype, or an error message. -/
  load : List UInt8 → Except (List UInt8) Proto
  load_dump : ∀ p, load (dump p) = .ok p

/-- A runtime without functions. -/
def noFunctions : Runtime where
  Proto := Empty
  upvalueNames := nofun
  dump := nofun
  load _ := .error []
  load_dump := nofun

/-- A Lua value.  Numbers are given by their bit pattern, strings by their
bytes, and the types that the bindings never look into by a reference. -/
inductive Value where
  | nil
  | boolean (b : Bool)
  | lightuserdata (p : Nat)
  | integer (i : Int)
  | number (bits : UInt64)
  | string (s : List UInt8)
  | table (ref : Nat)
  | function (ref : Nat)
  | cfunction (ref : Nat)
  | userdata (ref : Nat)
  | thread (ref : Nat)
  deriving DecidableEq, Repr

namespace Value

/-- The bytes of an ASCII literal of the source. -/
def literal (s : String) : Value := .string (s.toList.map (fun c => UInt8.ofNat c.toNat))

/-- Values that are copied without looking anything up: everything but
functions and the opaque types. -/
def isScalar : Value → Bool
  | nil | boolean _ | lightuserdata _ | integer _ | number _ | string _ => true
  | table _ | function _ | cfunction _ | userdata _ | thread _ => false

/-- `lua_tointeger`, on the values the bindings apply it to: the integers they
pushed themselves.  Any other value reads as 0. -/
def tointeger : Value → Int
  | integer i => i
  | _ => 0

end Value

/-- A Lua closure: its prototype and its upvalues, each with the name the
prototype gives it. -/
structure Closure (R : Runtime) where
  proto : R.Proto
  upvalues : List (String × Value)
  names_eq : upvalues.map Prod.fst = R.upvalueNames proto

namespace Closure
variable {R : Runtime}

@[ext] theorem ext {c d : Closure R} (hp : c.proto = d.proto)
    (hu : c.upvalues = d.upvalues) : c = d := by
  cases c
  cases d
  simp only at hp hu
  subst hp hu
  rfl

/-- The upvalues of a freshly loaded function: the first is the globals table,
the others are nil. -/
def freshUpvalues (globals : Nat) : List String → List (String × Value)
  | [] => []
  | name :: names => (name, .table globals) :: names.map (fun n => (n, .nil))

theorem freshUpvalues_names (globals : Nat) (names : List String) :
    (freshUpvalues globals names).map Prod.fst = names := by
  cases names with
  | nil => rfl
  | cons name names => simp [freshUpvalues, Function.comp_def]

/-- What `lua_load` makes of a prototype. -/
def fresh (globals : Nat) (p : R.Proto) : Closure R where
  proto := p
  upvalues := freshUpvalues globals (R.upvalueNames p)
  names_eq := freshUpvalues_names _ _

/-- Replace the value of the upvalue at position `i`, keeping its name. -/
def setUpvalue (c : Closure R) (i : Nat) (v : Value) : Closure R where
  proto := c.proto
  upvalues := c.upvalues.modify i (fun p => (p.1, v))
  names_eq := by
    rw [← c.names_eq]
    apply List.ext_getElem?
    intro j
    simp only [List.getElem?_map, List.getElem?_modify]
    cases c.upvalues[j]? with
    | none => rfl
    | some p => by_cases h : i = j <;> simp [h]

end Closure

/-- A Lua state: the stack from the bottom up, the heap of closures, and the
table in the globals slot of the registry. -/
structure LuaState (R : Runtime) where
  stack : List Value
  closures : List (Closure R)
  globals : Nat

namespace LuaState
variable {R : Runtime} (L : LuaState R)

def gettop : Nat := L.stack.length

/-- The position of an index in `stack`: absolute indices count from 1 at the
bottom, relative ones from -1 at the top. -/
def pos (idx : Int) : Nat :=
  if 0 < idx then (idx - 1).toNat else (L.gettop + idx).toNat

/-- The value at an index, if the index is valid. -/
def index (idx : Int) : Option Value := L.stack[L.pos idx]?

def push (v : Value) : LuaState R := { L with stack := L.stack ++ [v] }

def pop (n : Nat) : LuaState R := { L with stack := L.stack.take (L.gettop - n) }

/-- `lua_pushvalue`. -/
def pushvalue (idx : Int) : LuaState R :=
  match L.index idx with
  | some v => L.push v
  | none => L

/-- `lua_remove` at a valid index. -/
def remove (idx : Int) : LuaState R := { L with stack := L.stack.eraseIdx (L.pos idx) }

/-- `lua_insert`: move the top value to a valid index. -/
def insert (idx : Int) : LuaState R :=
  match L.stack.getLast? with
  | some v => { L with stack := L.stack.dropLast.insertIdx (L.pos idx) v }
  | none => L

/-- `lua_tointeger(L, -1)`. -/
def topInteger : Int := ((L.index (-1)).map Value.tointeger).getD 0

/-- The closure of the Lua function at an index. -/
def closureAt (idx : Int) : Option (Closure R) :=
  match L.index idx with
  | some (.function r) => L.closures[r]?
  | _ => none

/-- `lua_getupvalue`: the name of upvalue `uv`, counted from 1, with its value
pushed; `none` models the NULL it returns past the last upvalue. -/
def getupvalue (idx : Int) (uv : Nat) : Option (String × LuaState R) :=
  match L.closureAt idx with
  | some c => (c.upvalues[uv - 1]?).map (fun p => (p.1, L.push p.2))
  | none => none

/-- `lua_setupvalue`: pop the top value into upvalue `uv` of the function. -/
def setupvalue (idx : Int) (uv : Nat) : LuaState R :=
  match L.index idx, L.stack.getLast? with
  | some (.function r), some v =>
      { L with
        stack := L.stack.dropLast
        closures := L.closures.modify r (fun c => c.setUpvalue (uv - 1) v) }
  | _, _ => L

/-- The size up to which a `luaL_Buffer` keeps its contents in C memory. -/
def bufferSize : Nat := 1024

/-- The address of the `luaL_Buffer`, pushed as the buffer's placeholder. -/
def bufferAddress : Nat := 1

/-- The userdata that holds the contents of a larger buffer. -/
def bufferBox : Nat := 1

/-- `luaL_buffinit`: the buffer takes a stack slot. -/
def buffinit : LuaState R := L.push (.lightuserdata bufferAddress)

/-- `luaL_addlstring` on an empty buffer.  A chunk that does not fit moves the
contents to a box, which replaces whatever value is on top of the stack. -/
def addlstring (s : List UInt8) : LuaState R :=
  if s.length ≤ bufferSize then L else (L.pop 1).push (.userdata bufferBox)

/-- `luaL_pushresult`: push the contents and remove the value below them. -/
def pushresult (s : List UInt8) : LuaState R := (L.push (.string s)).remove (-2)

/-- `lua_dump` of the value on top of the stack; `none` models a nonzero
result, which it gives for anything but a Lua function. -/
def dump : Option (List UInt8) := (L.closureAt (-1)).map (fun c => R.dump c.proto)

/-- `luaL_loadbuffer`: push the loaded function, or an error message. -/
def loadbuffer (s : List UInt8) : Bool × LuaState R :=
  match R.load s with
  | .ok p =>
      (true,
        { L with
          stack := L.stack ++ [.function L.closures.length]
          closures := L.closures ++ [Closure.fresh L.globals p] })
  | .error msg => (false, L.push (.string msg))

/-! ## The stack operations on a known stack -/

section Stack
variable {L}

@[simp] theorem push_stack (v : Value) : (L.push v).stack = L.stack ++ [v] := rfl
@[simp] theorem push_closures (v : Value) : (L.push v).closures = L.closures := rfl
@[simp] theorem push_globals (v : Value) : (L.push v).globals = L.globals := rfl
@[simp] theorem pop_closures (n : Nat) : (L.pop n).closures = L.closures := rfl
@[simp] theorem pop_globals (n : Nat) : (L.pop n).globals = L.globals := rfl

@[simp] theorem push_pop (v : Value) : (L.push v).pop 1 = L := by
  simp [pop, push, gettop]

@[simp] theorem push_push_pop (v w : Value) : ((L.push v).push w).pop 2 = L := by
  simp [pop, push, gettop]

theorem index_top {v : Value} {vs : List Value} (h : L.stack = vs ++ [v]) :
    L.index (-1) = some v := by
  have hpos : ((vs.length + 1 : Nat) + (-1) : Int).toNat = vs.length := by omega
  simp only [index, pos, gettop, h, List.length_append, List.length_singleton, hpos]
  simp

@[simp] theorem index_push_top (v : Value) : (L.push v).index (-1) = some v :=
  index_top rfl

/-- The value that has `above` on it. -/
theorem index_below {v : Value} {below above : List Value} (h : L.stack = below ++ v :: above) :
    L.index (-(above.length + 1 : Nat)) = some v := by
  have hneg : ¬ (0 : Int) < -(above.length + 1 : Nat) := by omega
  have hpos : L.pos (-(above.length + 1 : Nat)) = below.length := by
    simp only [pos, gettop, h, List.length_append, List.length_cons, hneg, ite_false]
    omega
  rw [index, hpos, h, List.getElem?_append_right (Nat.le_refl _), Nat.sub_self]
  rfl

/-- Removing the value below the top. -/
theorem remove_below_top (v w : Value) : ((L.push v).push w).remove (-2) = L.push w := by
  have hpos : ((L.push v).push w).pos (-2) = L.stack.length := by
    have hneg : ¬ (0 : Int) < -2 := by omega
    simp only [pos, gettop, push_stack, List.length_append, List.length_singleton, hneg, ite_false]
    omega
  have herase : (L.stack ++ [v] ++ [w]).eraseIdx L.stack.length = L.stack ++ [w] := by
    rw [List.append_assoc, List.eraseIdx_append_of_length_le (Nat.le_refl _), Nat.sub_self]
    rfl
  simp only [remove, hpos, push_stack, herase]
  rfl

/-- Absolute indices are not moved by what is pushed above them. -/
theorem index_of_prefix {L' : LuaState R} {idx : Int} {rest : List Value} (hidx : 0 < idx)
    (h : L'.stack = L.stack ++ rest) (hv : L.index idx ≠ none) :
    L'.index idx = L.index idx := by
  simp only [index, pos, hidx, ite_true, h] at hv ⊢
  rw [List.getElem?_append_left]
  exact Nat.lt_of_not_le fun hle => hv (List.getElem?_eq_none hle)

theorem insertIdx_append_length (below above : List Value) (v : Value) :
    (below ++ above).insertIdx below.length v = below ++ v :: above := by
  induction below with
  | nil => simp
  | cons b below ih =>
    rw [List.cons_append, List.length_cons, List.insertIdx_succ_cons, ih, List.cons_append]

theorem insert_of_stack {idx : Int} {v : Value} {below above : List Value}
    (hs : L.stack = below ++ above ++ [v]) (hidx : L.pos idx = below.length) :
    (L.insert idx).stack = below ++ v :: above := by
  simp only [insert, hs, List.getLast?_concat, hidx, List.dropLast_concat,
    insertIdx_append_length]

@[simp] theorem insert_closures (idx : Int) : (L.insert idx).closures = L.closures := by
  unfold insert
  split <;> rfl

@[simp] theorem insert_globals (idx : Int) : (L.insert idx).globals = L.globals := by
  unfold insert
  split <;> rfl

end Stack
end LuaState
end FluaLibs
