import FluaLibs.CopyCapacity
import FluaLibs.LuaArguments
import Mathlib.Tactic.Ring

/-! # The capacity of the Lua stack

A C function may use `LUA_MINSTACK` stack slots beyond its arguments unless it asks for
more, and none of the converters that work through a list asks: `copyn`, the readers of
I/O vectors, the functions that add an array to an nvlist, and `setsourcefilter`.  The
ones that read a table leave every element they have read on the stack, and
`setsourcefilter` leaves its two fields as well.

Each of them is run here on an observed stack (`Gauge`).  The functions of Lua's auxiliary
library work in the same frame: `luaL_len` takes a slot for the length, `luaL_checkudata`
two for metatables, and a function that raises an error some for the message; how many these
take is a parameter (`Auxiliary`).  `within_iff_room` says exactly which arguments keep a
converter within the slots that are free.  What the elements of a table are, and what the C
library answers, is a parameter as well (`Env`); metamethods may give any values or raise
errors.
-/
namespace FluaLibs
namespace Capacity
open LuaArguments
variable {R : Runtime}

/-- `LUA_MINSTACK` -/
def minstack : Nat := 20

/-- An element of the C array that is added to an nvlist. -/
inductive Element where
  | boolean (b : Bool)
  | integer (i : Int)
  | string (s : List UInt8)
  | nvlist (p : Nat)

/-- The slots that functions of the auxiliary library take for a while, beyond what is on the
stack when they are called: `luaL_checkudata` those of the metatables of a userdata, and
`luaL_argerror`, `luaL_typeerror` and `luaL_error` those of the message and of the function's
name, never more than a dozen. -/
structure Auxiliary where
  checkudata : Option Value → Nat
  raise : Raised → Nat
  checkudata_le : ∀ v, checkudata v ≤ 2
  raise_le : ∀ e, raise e ≤ 12

/-- What the converters are given from outside. -/
structure Env where
  host : Host
  aux : Auxiliary
  /-- `luaL_len` of a table. -/
  len : Nat → Except Raised Int
  /-- `lua_geti` on a table. -/
  geti : Nat → Nat → Except Raised Value
  /-- `lua_getfield` on a table, for the group (0) or the source with the given number. -/
  getfield : Nat → Nat → String → Except Raised Value
  /-- The cookie of a userdata with the metatable of nvlists. -/
  nvlist : Value → Option Value
  /-- Whether there is memory for an array of so many elements, and for the buffer of an
  element. -/
  array : Nat → Bool
  element : Nat → Nat → Bool
  /-- The error numbers that the system calls give, 0 for none. -/
  nvlistAdd : Nat → List UInt8 → List Element → Nat
  setsourcefilter : Int → Int → Int × List UInt8 → Int → List (Int × List UInt8) → Nat
  strerror : Nat → List UInt8

/-- The result of a call, or the error it raises, and the stack then. -/
abbrev Ran (R : Runtime) (α : Type) := Except Raised α × Gauge R

/-- One part of a function after the other, unless the first one raises an error. -/
def Ran.bind {α β : Type} (x : Ran R α) (f : α → Gauge R → Ran R β) : Ran R β :=
  match x with
  | (.ok a, L) => f a L
  | (.error e, L) => (.error e, L)

section Bind
variable {α β γ : Type}

@[simp] theorem Ran.ok_bind (a : α) (L : Gauge R) (f : α → Gauge R → Ran R β) :
    Ran.bind (.ok a, L) f = f a L := rfl

@[simp] theorem Ran.error_bind (e : Raised) (L : Gauge R) (f : α → Gauge R → Ran R β) :
    Ran.bind (.error e, L) f = (.error e, L) := rfl

theorem Ran.bind_assoc (x : Ran R α) (f : α → Gauge R → Ran R β) (g : β → Gauge R → Ran R γ) :
    (x.bind f).bind g = x.bind (fun a L => (f a L).bind g) := by
  rcases x with ⟨_ | _, _⟩ <;> rfl

theorem Ran.bind_ok (x : Ran R α) : (x.bind fun a L => (.ok a, L)) = x := by
  rcases x with ⟨_ | _, _⟩ <;> rfl

end Bind

/-! ## The code -/

section Arguments
variable (env : Env)

/-- An error is raised. -/
def raise {α : Type} (L : Gauge R) (e : Raised) : Ran R α := (.error e, L.spend (env.aux.raise e))

/-- A check that needs the stack only to raise. -/
def checked {α : Type} (x : Except Raised α) (L : Gauge R) : Ran R α :=
  match x with
  | .ok a => (.ok a, L)
  | .error e => raise env L e

/-- `checkfd` -/
def checkfd (v : Option Value) (L : Gauge R) : Ran R Int :=
  match v with
  | some (.integer _) => checked env (LuaArguments.checkfd env.host 1 v) L
  | _ => checked env (LuaArguments.checkfd env.host 1 v) (L.spend (env.aux.checkudata v))

/-- A table among the arguments, and its length. -/
structure TableArgument where
  ref : Nat
  len : Nat

/-- `luaL_checktype` for a table and `luaL_len`, which pushes the length for a while, stored in
an unsigned integer. -/
def tableArgument (L : Gauge R) (idx : Int) (type : IntType) : Ran R TableArgument :=
  match L.state.index idx with
  | some (.table r) =>
    match env.len r with
    | .ok len => (.ok ⟨r, (type.wrap len).toNat⟩, L.spend 1)
    | .error e => (.error e, L.spend (1 + env.aux.raise e))
  | _ => raise env L (.typeerror idx "table")

end Arguments

/-- The loop over the elements of a table, for a number of elements from the one after `i`
on: `lua_geti`, and a check of the value that is then on top. -/
def readElements {α : Type} (geti : Nat → Except Raised Value)
    (check : Nat → Value → Gauge R → Ran R α) : Nat → Nat → Gauge R → Ran R (List α)
  | 0, _, L => (.ok [], L)
  | n + 1, i, L =>
    match geti (i + 1) with
    | .error e => (.error e, L)
    | .ok v =>
      (check i v (L.push v)).bind fun a L =>
        (readElements geti check n (i + 1) L).bind fun as L => (.ok (a :: as), L)

/-! ### I/O vectors -/

/-- `checkriovecs` and `checkwiovecs`, which differ in the check of an element. -/
def checkiovecs {α : Type} (env : Env) (check : Nat → Value → Gauge R → Ran R α) (L : Gauge R)
    (idx : Int) : Ran R (List α) :=
  (tableArgument env L idx .uint64).bind fun t L =>
    if env.array t.len then readElements (env.geti t.ref) check t.len 0 L
    else raise env L (.fatal "calloc" ENOMEM)

/-- A buffer of the given length. -/
def riovec (env : Env) (idx : Int) (i : Nat) (v : Value) (L : Gauge R) : Ran R Nat :=
  match v with
  | .integer len =>
    if env.element i (IntType.uint64.wrap len).toNat then
      (.ok (IntType.uint64.wrap len).toNat, L)
    else raise env L (.fatal "malloc" ENOMEM)
  | _ => raise env L (.argerror idx "expected iovec buffer lengths")

def wiovec (env : Env) (idx : Int) (_ : Nat) (v : Value) (L : Gauge R) : Ran R (List UInt8) :=
  match v with
  | .string s => (.ok s, L)
  | _ => raise env L (.argerror idx "expected strings")

def checkriovecs (env : Env) (L : Gauge R) (idx : Int) : Ran R (List Nat) :=
  checkiovecs env (riovec env idx) L idx

def checkwiovecs (env : Env) (L : Gauge R) (idx : Int) : Ran R (List (List UInt8)) :=
  checkiovecs env (wiovec env idx) L idx

/-! ### Arrays of an nvlist -/

/-- `checknvlist`, which is `checkcookie`. -/
def checknvlist (env : Env) (arg : Int) (v : Option Value) (L : Gauge R) : Ran R Nat :=
  let L := L.spend (env.aux.checkudata v)
  match v.bind env.nvlist with
  | none => raise env L (.typeerror arg "nvlist_t*")
  | some (.lightuserdata p) =>
    let L := (L.push (.lightuserdata p)).pop 1
    if p = 0 then raise env L (.argerror arg "cookie expired") else (.ok p, L)
  | some cookie => raise env (L.push cookie) (.argerror arg "invalid cookie")

/-- `NVPAIR_ARRAY_TYPES` -/
inductive ArrayType where
  | boolean | byte | int8 | uint8 | int16 | uint16 | int32 | uint32 | int64 | uint64
  | string | nvlist

/-- The part of the names of the functions for an array type. -/
def ArrayType.ftype : ArrayType → String
  | .boolean => "boolean"
  | .byte => "byte"
  | .int8 => "int8"
  | .uint8 => "uint8"
  | .int16 => "int16"
  | .uint16 => "uint16"
  | .int32 => "int32"
  | .uint32 => "uint32"
  | .int64 => "int64"
  | .uint64 => "uint64"
  | .string => "string"
  | .nvlist => "nvlist"

/-- An integer as the C type of the elements has it. -/
def ArrayType.cast (type : ArrayType) (i : Int) : Int :=
  match type with
  | .byte | .uint8 => i % 2 ^ 8
  | .int8 => i.bmod (2 ^ 8)
  | .uint16 => i % 2 ^ 16
  | .int16 => i.bmod (2 ^ 16)
  | .uint32 => i % 2 ^ 32
  | .int32 => i.bmod (2 ^ 32)
  | .uint64 => i % 2 ^ 64
  | _ => i

/-- `lua_toboolean` -/
def toboolean : Value → Bool
  | .nil => false
  | .boolean b => b
  | _ => true

/-- The `lcheck` of an array type that is not `checknvlist`. -/
def lcheckPlain (env : Env) (type : ArrayType) (v : Value) : Except Raised Element :=
  match type with
  | .boolean => .ok (.boolean (toboolean v))
  | .string => (checklstring env.host (-1) (some v)).map .string
  | _ => (checkinteger env.host (-1) (some v)).map (fun i => .integer (type.cast i))

/-- The `lcheck` of an array type, on the value on top of the stack. -/
def lcheck (env : Env) (type : ArrayType) (_ : Nat) (v : Value) (L : Gauge R) : Ran R Element :=
  match type with
  | .nvlist => (checknvlist env (-1) (some v) L).bind fun p L => (.ok (.nvlist p), L)
  | _ => checked env (lcheckPlain env type v) L

/-- The arguments of `NVLIST_ADD_ARRAY`: the nvlist, the name, and the table. -/
structure ArrayArguments where
  nvl : Nat
  name : List UInt8
  table : TableArgument

def arrayArguments (env : Env) (L : Gauge R) : Ran R ArrayArguments :=
  (checknvlist env 1 (L.state.index 1) L).bind fun nvl L =>
    (checked env (checklstring env.host 2 (L.state.index 2)) L).bind fun name L =>
      (tableArgument env L 3 .uint32).bind fun table L => (.ok ⟨nvl, name, table⟩, L)

/-- The error for a call of the C library that has failed. -/
def nvlistAddError (type : ArrayType) (error : Nat) : Raised :=
  .fatal ("nvlist_add_" ++ type.ftype ++ "_array") error

/-- `NVLIST_ADD_ARRAY` -/
def nvlistAddArray (env : Env) (type : ArrayType) (L : Gauge R) : Ran R Nat :=
  (arrayArguments env L).bind fun a L =>
    if env.array a.table.len then
      (readElements (env.geti a.table.ref) (lcheck env type) a.table.len 0 L).bind fun values L =>
        if env.nvlistAdd a.nvl a.name values = 0 then (.ok 0, L)
        else raise env L (nvlistAddError type (env.nvlistAdd a.nvl a.name values))
    else raise env L (.fatal "malloc" ENOMEM)

/-! ### Source filters -/

/-- `checkaddr` -/
def checkaddr (env : Env) (idx : Int) (L : Gauge R) : Ran R (Int × List UInt8) :=
  match L.state.index idx with
  | some (.table r) =>
    match env.getfield 0 r "family" with
    | .error e => (.error e, L)
    | .ok (.integer family) =>
      match env.getfield 0 r "data" with
      | .error e => (.error e, L.push (.integer family))
      | .ok v =>
        let L := (L.push (.integer family)).push v
        match tolstring env.host v with
        | some data => (.ok (IntType.uint8.wrap family, data), L.pop 2)
        | none => raise env L (.argerror idx "invalid address data")
    | .ok v => raise env (L.push v) (.argerror idx "invalid address family")
  | _ => raise env L (.typeerror idx "table")

/-- The table of sources, if there is one. -/
def sourcesArgument (env : Env) (L : Gauge R) : Ran R TableArgument :=
  if isnoneornil (L.state.index 5) then (.ok ⟨0, 0⟩, L) else tableArgument env L 5 .uint32

/-- The arguments of `setsourcefilter`. -/
structure FilterArguments where
  s : Int
  interface : Int
  group : Int × List UInt8
  fmode : Int
  sources : TableArgument

def filterArguments (env : Env) (L : Gauge R) : Ran R FilterArguments :=
  (checkfd env (L.state.index 1) L).bind fun s L =>
    (checked env (checkinteger env.host 2 (L.state.index 2)) L).bind fun interface L =>
      (checkaddr env 3 L).bind fun group L =>
        (checked env (checkinteger env.host 4 (L.state.index 4)) L).bind fun fmode L =>
          (sourcesArgument env L).bind fun sources L =>
            (.ok ⟨s, IntType.uint32.wrap interface, group, IntType.uint32.wrap fmode, sources⟩, L)

def badSource : Raised := .argerror 5 "invalid sockaddr"

/-- A round of the loop over the sources: the two fields stay on the stack. -/
def sourceAddr (env : Env) (i : Nat) (v : Value) (L : Gauge R) : Ran R (Int × List UInt8) :=
  match v with
  | .table r =>
    match env.getfield (i + 1) r "family" with
    | .error e => (.error e, L)
    | .ok (.integer family) =>
      match env.getfield (i + 1) r "data" with
      | .error e => (.error e, L.push (.integer family))
      | .ok (.string data) =>
        (.ok (IntType.uint8.wrap family, data), (L.push (.integer family)).push (.string data))
      | .ok v => raise env ((L.push (.integer family)).push v) badSource
    | .ok v => raise env (L.push v) badSource
  | _ => raise env L badSource

/-- `l_setsourcefilter` -/
def setsourcefilter (env : Env) (L : Gauge R) : Ran R Nat :=
  (filterArguments env L).bind fun a L =>
    if a.sources.len = 0 ∨ env.array a.sources.len then
      (readElements (env.geti a.sources.ref) (sourceAddr env) a.sources.len 0 L).bind
        fun slist L =>
          let L := L.pop a.sources.len
          match env.setsourcefilter a.s a.interface a.group a.fmode slist with
          | 0 => (.ok 1, L.push (.integer 1))
          | error =>
            (.ok 3, ((L.push .nil).push (.string (env.strerror error))).push (.integer error))
    else raise env L (.fatal "malloc" ENOMEM)

/-! ## The loop over the elements -/

@[simp] theorem gettop_push (L : Gauge R) (v : Value) :
    (L.push v).state.gettop = L.state.gettop + 1 := LuaState.gettop_push ..

@[simp] theorem push_peak (L : Gauge R) (v : Value) :
    (L.push v).peak = max L.peak (L.state.gettop + 1) := by
  rw [Gauge.push, Gauge.reach_peak, LuaState.gettop_push]

@[simp] theorem raise_peak {α : Type} (env : Env) (L : Gauge R) (e : Raised) :
    (raise (α := α) env L e).2.peak = max L.peak (L.state.gettop + env.aux.raise e) := rfl

/-- What is known of the check of an element: which values it accepts and what it makes of
them, how many slots it takes, and how many of them it keeps when it accepts. -/
structure Checks {α : Type} (check : Nat → Value → Gauge R → Ran R α)
    (read : Nat → Value → Option α) (slots : Nat → Value → Nat) (kept : Nat) : Prop where
  peak : ∀ i v (L : Gauge R), L.state.gettop ≤ L.peak →
    (check i v L).2.peak = max L.peak (L.state.gettop + slots i v)
  ok : ∀ i v (L : Gauge R) a, read i v = some a →
    ∃ L', check i v L = (.ok a, L') ∧ L'.state.gettop = L.state.gettop + kept
  error : ∀ i v (L : Gauge R), read i v = none → ∃ e L', check i v L = (.error e, L')
  kept_le : ∀ i v a, read i v = some a → kept ≤ slots i v

/-- The free slots are enough for the elements that the loop reads: the first one that
is not accepted, or cannot be read, is the last.  When all are accepted, `after` says what is
left to be asked. -/
def ReadRoom {α : Type} (geti : Nat → Except Raised Value) (read : Nat → Value → Option α)
    (slots : Nat → Value → Nat) (kept free : Nat) : (List α → Prop) → Nat → Nat → Prop
  | after, 0, _ => after []
  | after, n + 1, i =>
    match geti (i + 1) with
    | .error _ => True
    | .ok v =>
      (1 + kept) * i + 1 + slots i v ≤ free ∧
        ∀ a ∈ read i v, ReadRoom geti read slots kept free (fun as => after (a :: as)) n (i + 1)

section Elements
variable {α β : Type} {geti : Nat → Except Raised Value}
  {check : Nat → Value → Gauge R → Ran R α} {read : Nat → Value → Option α}
  {slots : Nat → Value → Nat} {kept : Nat}

/-- **The loop and what follows it**, when this needs the slots that `after` says. -/
theorem readElements_within (h : Checks check read slots kept) (base free n : Nat) :
    ∀ (i : Nat) (L : Gauge R) (rest : List α → Gauge R → Ran R β) (after : List α → Prop),
      L.state.gettop = base + (1 + kept) * i → L.state.gettop ≤ L.peak →
      (∀ as (L' : Gauge R), L'.state.gettop = base + (1 + kept) * (i + n) →
        L'.state.gettop ≤ L'.peak →
        ((rest as L').2.peak ≤ base + free ↔ L'.peak ≤ base + free ∧ after as)) →
      (((readElements geti check n i L).bind rest).2.peak ≤ base + free ↔
        L.peak ≤ base + free ∧ ReadRoom geti read slots kept free after n i) := by
  induction n with
  | zero => intro i L rest after htop hL hrest; exact hrest [] L htop hL
  | succ n ih =>
    intro i L rest after htop hL hrest
    cases hget : geti (i + 1) with
    | error e => simp only [readElements, ReadRoom, hget, Ran.error_bind, and_true]
    | ok v =>
      have hpeak := h.peak i v (L.push v) (by rw [gettop_push, push_peak]; omega)
      rw [gettop_push, push_peak] at hpeak
      -- every element before has left what it keeps, so the room is that of its position
      have hfree : max (max L.peak (L.state.gettop + 1)) (L.state.gettop + 1 + slots i v) ≤
          base + free ↔
            L.peak ≤ base + free ∧ (1 + kept) * i + 1 + slots i v ≤ free := by omega
      cases hread : read i v with
      | none =>
        obtain ⟨e, L', hcheck⟩ := h.error i v (L.push v) hread
        rw [hcheck] at hpeak
        rw [← hpeak] at hfree
        simp only [readElements, ReadRoom, hget, hcheck, hread, Ran.error_bind, Option.mem_def,
          reduceCtorEq, false_implies, implies_true, and_true]
        exact hfree
      | some a =>
        obtain ⟨L', hcheck, htop'⟩ := h.ok i v (L.push v) a hread
        have hkept := h.kept_le i v a hread
        rw [hcheck] at hpeak
        rw [gettop_push] at htop'
        have hnext : (1 + kept) * (i + 1) = (1 + kept) * i + 1 + kept := by ring
        have hloop := ih (i + 1) L' (fun as => rest (a :: as)) (fun as => after (a :: as))
          (by omega) (by dsimp only at hpeak; omega)
          (fun as L'' => by
            rw [show i + 1 + n = i + (n + 1) by omega]
            exact hrest (a :: as) L'')
        rw [hpeak, hfree, and_assoc] at hloop
        rw [readElements]
        simp only [ReadRoom, hget, hcheck, hread, Option.mem_def, Option.some.injEq,
          forall_eq']
        rw [← hloop, Ran.ok_bind, Ran.bind_assoc]
        rfl

/-- When every element can be read and is accepted, and takes no slots beyond its own, the
number of elements is the condition. -/
theorem readRoom_of_all {free : Nat}
    (hall : ∀ i, ∃ v a, geti (i + 1) = .ok v ∧ read i v = some a ∧ slots i v = 0) (n : Nat) :
    ∀ i, i ≤ free →
      (ReadRoom geti read slots 0 free (fun _ => True) n i ↔ i + n ≤ free) := by
  induction n with
  | zero => intro i hi; simpa [ReadRoom] using hi
  | succ n ih =>
    intro i hi
    obtain ⟨v, a, hv, hread, hslots⟩ := hall i
    simp only [ReadRoom, hv, hread, hslots, Option.mem_def, Option.some.injEq, forall_eq']
    constructor
    · rintro ⟨hroom, hrest⟩
      have := (ih (i + 1) (by omega)).mp hrest
      omega
    · intro hroom
      exact ⟨by omega, (ih (i + 1) (by omega)).mpr (by omega)⟩

end Elements

/-! ## The checks of the elements -/

/-- The slots that a check takes which needs the stack only to raise. -/
def raiseSlots {α : Type} (env : Env) (x : Except Raised α) : Nat :=
  match x with
  | .ok _ => 0
  | .error e => env.aux.raise e

theorem checked_peak {α : Type} (env : Env) (x : Except Raised α) {L : Gauge R}
    (hL : L.state.gettop ≤ L.peak) :
    (checked env x L).2.peak = max L.peak (L.state.gettop + raiseSlots env x) := by
  cases x with
  | ok a => exact (max_eq_left hL).symm
  | error e => rfl

/-- A check that needs the stack only to raise. -/
theorem checks_of_checked {α : Type} {env : Env} {check : Nat → Value → Gauge R → Ran R α}
    {f : Nat → Value → Except Raised α} (hcheck : ∀ i v L, check i v L = checked env (f i v) L) :
    Checks check (fun i v => (f i v).toOption) (fun i v => raiseSlots env (f i v)) 0 where
  peak i v L hL := by rw [hcheck, checked_peak env (f i v) hL]
  ok i v L a h := by
    rw [hcheck]
    cases hf : f i v with
    | ok b =>
      rw [hf] at h
      cases h
      exact ⟨L, rfl, rfl⟩
    | error e => rw [hf] at h; cases h
  error i v L h := by
    rw [hcheck]
    cases hf : f i v with
    | ok a => rw [hf] at h; cases h
    | error e => exact ⟨e, L.spend (env.aux.raise e), rfl⟩
  kept_le _ _ _ _ := Nat.zero_le _

/-- What the checks of I/O vectors make of an element. -/
def readRiovec (env : Env) (idx : Int) (i : Nat) : Value → Except Raised Nat
  | .integer len =>
    if env.element i (IntType.uint64.wrap len).toNat then .ok (IntType.uint64.wrap len).toNat
    else .error (.fatal "malloc" ENOMEM)
  | _ => .error (.argerror idx "expected iovec buffer lengths")

theorem riovec_eq (env : Env) (idx : Int) (i : Nat) (v : Value) (L : Gauge R) :
    riovec env idx i v L = checked env (readRiovec env idx i v) L := by
  unfold riovec readRiovec
  cases v with
  | integer len => dsimp only; split <;> rfl
  | _ => rfl

def readWiovec (idx : Int) (_ : Nat) : Value → Except Raised (List UInt8)
  | .string s => .ok s
  | _ => .error (.argerror idx "expected strings")

theorem wiovec_eq (env : Env) (idx : Int) (i : Nat) (v : Value) (L : Gauge R) :
    wiovec env idx i v L = checked env (readWiovec idx i v) L := by
  cases v <;> rfl

/-- The slots of `checknvlist`: the two metatables, the cookie, and the error. -/
def nvlistSlots (env : Env) (arg : Int) (v : Option Value) : Nat :=
  max (env.aux.checkudata v)
    (match v.bind env.nvlist with
    | none => env.aux.raise (.typeerror arg "nvlist_t*")
    | some (.lightuserdata p) =>
      if p = 0 then max 1 (env.aux.raise (.argerror arg "cookie expired")) else 1
    | some _ => 1 + env.aux.raise (.argerror arg "invalid cookie"))

/-- The nvlist of a value. -/
def readNvlist (env : Env) (v : Option Value) : Option Nat :=
  match v.bind env.nvlist with
  | some (.lightuserdata p) => if p = 0 then none else some p
  | _ => none

theorem push_pop_peak {L : Gauge R} (v : Value) :
    ((L.push v).pop 1).peak = max L.peak (L.state.gettop + 1) ∧
      ((L.push v).pop 1).state = L.state := by
  have hstate : ((L.push v).pop 1).state = L.state := LuaState.push_pop ..
  refine ⟨?_, hstate⟩
  have hpeak : ((L.push v).pop 1).peak = max (L.push v).peak ((L.push v).pop 1).state.gettop := rfl
  rw [hpeak, hstate, push_peak]
  omega

theorem checknvlist_peak (env : Env) (arg : Int) (v : Option Value) {L : Gauge R}
    (hL : L.state.gettop ≤ L.peak) :
    (checknvlist env arg v L).2.peak = max L.peak (L.state.gettop + nvlistSlots env arg v) := by
  unfold checknvlist nvlistSlots
  cases v.bind env.nvlist with
  | none =>
    simp only [raise_peak, Gauge.spend_peak, Gauge.spend_state]
    omega
  | some cookie =>
    cases cookie with
    | lightuserdata p =>
      obtain ⟨hpeak, hstate⟩ :=
        push_pop_peak (L := L.spend (env.aux.checkudata v)) (.lightuserdata p)
      rw [Gauge.spend_peak, Gauge.spend_state] at hpeak
      by_cases hp : p = 0
      · simp only [hp, ite_true] at hpeak hstate ⊢
        rw [raise_peak, hpeak, hstate, Gauge.spend_state]
        omega
      · simp only [hp, ite_false]
        rw [hpeak]
        omega
    | _ =>
      simp only [raise_peak, push_peak, gettop_push, Gauge.spend_peak, Gauge.spend_state]
      omega

/-- `checknvlist` leaves the stack as it was when it accepts. -/
theorem checknvlist_ok {env : Env} (arg : Int) {v : Option Value} {p : Nat} (L : Gauge R)
    (h : readNvlist env v = some p) :
    ∃ L', checknvlist env arg v L = (.ok p, L') ∧ L'.state = L.state := by
  unfold readNvlist at h
  unfold checknvlist
  cases hv : v.bind env.nvlist with
  | none => rw [hv] at h; cases h
  | some cookie =>
    rw [hv] at h
    cases cookie with
    | lightuserdata q =>
      by_cases hq : q = 0
      · simp only [hq, ite_true, reduceCtorEq] at h
      · simp only [hq, ite_false, Option.some.injEq] at h
        subst h
        simp only [hq, ite_false]
        exact ⟨_, rfl, LuaState.push_pop ..⟩
    | _ => cases h

theorem checknvlist_error {env : Env} (arg : Int) {v : Option Value} (L : Gauge R)
    (h : readNvlist env v = none) : ∃ e L', checknvlist env arg v L = (.error e, L') := by
  unfold readNvlist at h
  unfold checknvlist
  cases hv : v.bind env.nvlist with
  | none => exact ⟨_, _, rfl⟩
  | some cookie =>
    rw [hv] at h
    cases cookie with
    | lightuserdata q =>
      by_cases hq : q = 0
      · simp only [hq, ite_true]
        exact ⟨_, _, rfl⟩
      · simp only [hq, ite_false, reduceCtorEq] at h
    | _ => exact ⟨_, _, rfl⟩

/-- What `lcheck` makes of a value, and the slots it takes. -/
def ArrayType.read (env : Env) (type : ArrayType) (_ : Nat) (v : Value) : Option Element :=
  match type with
  | .nvlist => (readNvlist env (some v)).map .nvlist
  | _ => (lcheckPlain env type v).toOption

def ArrayType.slots (env : Env) (type : ArrayType) (_ : Nat) (v : Value) : Nat :=
  match type with
  | .nvlist => nvlistSlots env (-1) (some v)
  | _ => raiseSlots env (lcheckPlain env type v)

theorem lcheck_nvlist_checks (env : Env) :
    Checks (R := R) (lcheck env .nvlist) (ArrayType.nvlist.read env)
      (ArrayType.nvlist.slots env) 0 where
  peak i v L hL := by
    rw [ArrayType.slots, ← checknvlist_peak env (-1) (some v) hL, lcheck]
    rcases checknvlist env (-1) (some v) L with ⟨_ | _, _⟩ <;> rfl
  ok i v L a h := by
    obtain ⟨p, hp, rfl⟩ := Option.map_eq_some_iff.mp h
    obtain ⟨L', hcheck, hstate⟩ := checknvlist_ok (-1) L hp
    exact ⟨L', by rw [lcheck, hcheck]; rfl, congrArg LuaState.gettop hstate⟩
  error i v L h := by
    obtain ⟨e, L', hcheck⟩ := checknvlist_error (-1) L (Option.map_eq_none_iff.mp h)
    exact ⟨e, L', by rw [lcheck, hcheck]; rfl⟩
  kept_le _ _ _ _ := Nat.zero_le _

theorem lcheck_checks (env : Env) (type : ArrayType) :
    Checks (R := R) (lcheck env type) (type.read env) (type.slots env) 0 := by
  have plain : ∀ t : ArrayType,
      (∀ i v (L : Gauge R), lcheck env t i v L = checked env (lcheckPlain env t v) L) →
      t.read env = (fun _ v => (lcheckPlain env t v).toOption) →
      t.slots env = (fun _ v => raiseSlots env (lcheckPlain env t v)) →
      Checks (R := R) (lcheck env t) (t.read env) (t.slots env) 0 := by
    intro t hcheck hread hslots
    rw [hread, hslots]
    exact checks_of_checked hcheck
  cases type with
  | nvlist => exact lcheck_nvlist_checks env
  | _ => exact plain _ (fun _ _ _ => rfl) rfl rfl

/-- What the loop over the sources makes of one. -/
def sourceRead (env : Env) (i : Nat) : Value → Option (Int × List UInt8)
  | .table r =>
    match env.getfield (i + 1) r "family", env.getfield (i + 1) r "data" with
    | .ok (.integer family), .ok (.string data) => some (IntType.uint8.wrap family, data)
    | _, _ => none
  | _ => none

/-- The fields that are read from a source, and the slots of the error. -/
def sourceSlots (env : Env) (i : Nat) : Value → Nat
  | .table r =>
    match env.getfield (i + 1) r "family" with
    | .error _ => 0
    | .ok (.integer _) =>
      match env.getfield (i + 1) r "data" with
      | .error _ => 1
      | .ok (.string _) => 2
      | .ok _ => 2 + env.aux.raise badSource
    | .ok _ => 1 + env.aux.raise badSource
  | _ => env.aux.raise badSource

/-- A round of the loop over the sources, by what is read. -/
theorem sourceAddr_peak (env : Env) (i : Nat) (v : Value) {L : Gauge R}
    (hL : L.state.gettop ≤ L.peak) :
    (sourceAddr env i v L).2.peak = max L.peak (L.state.gettop + sourceSlots env i v) := by
  cases v with
  | table r =>
    cases hfamily : env.getfield (i + 1) r "family" with
    | error e =>
      simp only [sourceAddr, sourceSlots, hfamily]
      omega
    | ok family =>
      cases family with
      | integer n =>
        cases hdata : env.getfield (i + 1) r "data" with
        | error e => simp only [sourceAddr, sourceSlots, hfamily, hdata, push_peak]
        | ok data =>
          cases data with
          | string s =>
            simp only [sourceAddr, sourceSlots, hfamily, hdata, push_peak, gettop_push]
            omega
          | _ =>
            simp only [sourceAddr, sourceSlots, hfamily, hdata, raise_peak, push_peak, gettop_push]
            omega
      | _ =>
        simp only [sourceAddr, sourceSlots, hfamily, raise_peak, push_peak, gettop_push]
        omega
  | _ => simp only [sourceAddr, sourceSlots, raise_peak]

theorem sourceRead_eq_some {env : Env} {i : Nat} {v : Value} {a : Int × List UInt8} :
    sourceRead env i v = some a ↔ ∃ r n s, v = .table r ∧
      env.getfield (i + 1) r "family" = .ok (.integer n) ∧
      env.getfield (i + 1) r "data" = .ok (.string s) ∧ a = (IntType.uint8.wrap n, s) := by
  constructor
  · intro h
    cases v with
    | table r =>
      simp only [sourceRead] at h
      split at h
      · exact ⟨r, _, _, rfl, ‹_›, ‹_›, (Option.some.inj h).symm⟩
      · cases h
    | _ => cases h
  · rintro ⟨r, n, s, rfl, hfamily, hdata, rfl⟩
    simp only [sourceRead, hfamily, hdata]

theorem sourceAddr_checks (env : Env) :
    Checks (R := R) (sourceAddr env) (sourceRead env) (sourceSlots env) 2 where
  peak i v L hL := sourceAddr_peak env i v hL
  ok i v L a h := by
    obtain ⟨r, n, s, rfl, hfamily, hdata, rfl⟩ := sourceRead_eq_some.mp h
    refine ⟨(L.push (.integer n)).push (.string s), ?_, ?_⟩
    · simp only [sourceAddr, hfamily, hdata]
    · rw [gettop_push, gettop_push]
  error i v L h := by
    cases v with
    | table r =>
      cases hfamily : env.getfield (i + 1) r "family" with
      | error e => exact ⟨e, L, by simp only [sourceAddr, hfamily]⟩
      | ok family =>
        cases family with
        | integer n =>
          cases hdata : env.getfield (i + 1) r "data" with
          | error e => exact ⟨e, L.push (.integer n), by simp only [sourceAddr, hfamily, hdata]⟩
          | ok data =>
            cases data with
            | string s => simp [sourceRead, hfamily, hdata] at h
            | _ => exact ⟨badSource, _, by simp only [sourceAddr, hfamily, hdata]; rfl⟩
        | _ => exact ⟨badSource, _, by simp only [sourceAddr, hfamily]; rfl⟩
    | _ => exact ⟨badSource, _, rfl⟩
  kept_le i v a h := by
    obtain ⟨r, n, s, rfl, hfamily, hdata, rfl⟩ := sourceRead_eq_some.mp h
    simp only [sourceSlots, hfamily, hdata]
    exact Nat.le_refl _

/-! ## The checks of the arguments -/

/-- A part of a function takes at most `k` slots, all of which are free again when it does
not raise. -/
structure Balanced {α : Type} (k : Nat) (L : Gauge R) (x : Ran R α) : Prop where
  peak_le : x.2.peak ≤ max L.peak (L.state.gettop + k)
  le_peak : L.peak ≤ x.2.peak
  state : ∀ a, x.1 = .ok a → x.2.state = L.state

section Balanced
variable {α β : Type} {k : Nat} {L : Gauge R}

theorem balanced_ok (a : α) : Balanced k L (.ok a, L) :=
  ⟨Nat.le_max_left .., Nat.le_refl _, fun _ _ => rfl⟩

theorem balanced_error (e : Raised) {L' : Gauge R} (hle : L'.peak ≤ max L.peak (L.state.gettop + k))
    (hge : L.peak ≤ L'.peak) : Balanced (α := α) k L (.error e, L') :=
  ⟨hle, hge, fun _ h => by cases h⟩

theorem balanced_spend {n : Nat} (hn : n ≤ k) (x : Except Raised α) :
    Balanced k L (x, L.spend n) :=
  ⟨by rw [Gauge.spend_peak]; omega, Nat.le_max_left .., fun _ _ => rfl⟩

/-- Raising an error on top of a few values. -/
theorem balanced_raise (env : Env) (e : Raised) {L' : Gauge R} {n : Nat} (hn : n + 12 ≤ k)
    (htop : L'.state.gettop = L.state.gettop + n)
    (hle : L'.peak ≤ max L.peak (L.state.gettop + k)) (hge : L.peak ≤ L'.peak) :
    Balanced (α := α) k L (raise env L' e) := by
  have hraise := env.aux.raise_le e
  refine balanced_error e ?_ ?_
  · rw [Gauge.spend_peak, htop]
    omega
  · rw [Gauge.spend_peak]
    omega

/-- One part after the other. -/
theorem Balanced.bind {x : Ran R α} {f : α → Gauge R → Ran R β} (h : Balanced k L x)
    (hf : ∀ a L', L'.state = L.state → Balanced k L' (f a L')) : Balanced k L (x.bind f) := by
  obtain ⟨result, L'⟩ := x
  cases result with
  | error e => exact balanced_error e h.peak_le h.le_peak
  | ok a =>
    have hstate : L'.state = L.state := h.state a rfl
    have hrest := hf a L' hstate
    have hle := h.peak_le
    refine ⟨Nat.le_trans hrest.peak_le ?_, Nat.le_trans h.le_peak hrest.le_peak,
      fun b hb => (hrest.state b hb).trans hstate⟩
    rw [hstate]
    dsimp only at hle
    omega

theorem checked_balanced (env : Env) (hk : 12 ≤ k) (x : Except Raised α) :
    Balanced k L (checked env x L) := by
  cases x with
  | ok a => exact balanced_ok a
  | error e =>
    exact balanced_raise env e (n := 0) (by omega) rfl (Nat.le_max_left ..) (Nat.le_refl _)

theorem tableArgument_balanced (env : Env) (hk : 13 ≤ k) (idx : Int) (type : IntType) :
    Balanced k L (tableArgument env L idx type) := by
  unfold tableArgument
  split
  · split
    · exact balanced_spend (by omega) _
    · rename_i e _
      have hraise := env.aux.raise_le e
      exact balanced_spend (by omega) _
  · exact balanced_raise env _ (n := 0) (by omega) rfl (Nat.le_max_left ..) (Nat.le_refl _)

end Balanced

section Arguments
variable (env : Env) {L : Gauge R}

theorem checkfd_balanced (v : Option Value) : Balanced 14 L (checkfd env v L) := by
  have hudata := env.aux.checkudata_le v
  unfold checkfd
  split
  · exact checked_balanced env (by decide) _
  · cases LuaArguments.checkfd env.host 1 v with
    | ok fd => exact balanced_spend (by omega) _
    | error e =>
      refine balanced_raise env e (n := 0) (by decide) rfl ?_ ?_
      · rw [Gauge.spend_peak]
        omega
      · rw [Gauge.spend_peak]
        omega

theorem nvlistSlots_le (arg : Int) (v : Option Value) : nvlistSlots env arg v ≤ 14 := by
  have hudata := env.aux.checkudata_le v
  unfold nvlistSlots
  split
  · have hraise := env.aux.raise_le (.typeerror arg "nvlist_t*")
    omega
  · have hraise := env.aux.raise_le (.argerror arg "cookie expired")
    split <;> omega
  · have hraise := env.aux.raise_le (.argerror arg "invalid cookie")
    omega

theorem checknvlist_balanced (arg : Int) (v : Option Value) (hL : L.state.gettop ≤ L.peak) :
    Balanced 14 L (checknvlist env arg v L) := by
  have hpeak := checknvlist_peak env arg v hL
  have hslots := nvlistSlots_le env arg v
  refine ⟨by omega, by omega, fun p hp => ?_⟩
  cases hread : readNvlist env v with
  | none =>
    obtain ⟨e, L', hcheck⟩ := checknvlist_error arg L hread
    rw [hcheck] at hp
    cases hp
  | some q =>
    obtain ⟨L', hcheck, hstate⟩ := checknvlist_ok arg L hread
    rw [hcheck]
    exact hstate

theorem arrayArguments_balanced (hL : L.state.gettop ≤ L.peak) :
    Balanced 14 L (arrayArguments env L) := by
  refine (checknvlist_balanced env 1 _ hL).bind (fun nvl L₁ _ => ?_)
  refine (checked_balanced env (by decide) _).bind (fun name L₂ _ => ?_)
  exact (tableArgument_balanced env (by decide) 3 _).bind (fun _ _ _ => balanced_ok _)

theorem checkaddr_balanced (idx : Int) : Balanced 14 L (checkaddr env idx L) := by
  have hpush : ∀ v : Value, L.peak ≤ (L.push v).peak ∧
      (L.push v).peak ≤ max L.peak (L.state.gettop + 14) := by
    intro v
    rw [push_peak]
    omega
  unfold checkaddr
  split
  · split
    · exact balanced_error _ (Nat.le_max_left ..) (Nat.le_refl _)
    · rename_i family _
      split
      · exact balanced_error _ (hpush _).2 (hpush _).1
      · rename_i v _
        have hpeak : ((L.push (.integer family)).push v).peak =
            max L.peak (L.state.gettop + 2) := by
          rw [push_peak, push_peak, gettop_push]
          omega
        dsimp only
        split
        · have hstate : (((L.push (.integer family)).push v).pop 2).state = L.state :=
            LuaState.push_push_pop ..
          have hpop : (((L.push (.integer family)).push v).pop 2).peak =
              max L.peak (L.state.gettop + 2) := by
            rw [Gauge.pop, Gauge.reach_peak, hpeak]
            have htop : (((L.push (.integer family)).push v).state.pop 2).gettop =
                L.state.gettop := congrArg LuaState.gettop hstate
            omega
          exact ⟨by dsimp only; omega, by dsimp only; omega, fun _ _ => hstate⟩
        · exact balanced_raise env _ (n := 2) (by decide)
            (by rw [gettop_push, gettop_push]) (by omega) (by omega)
    · exact balanced_raise env _ (n := 1) (by decide) (gettop_push ..) (hpush _).2 (hpush _).1
  · exact balanced_raise env _ (n := 0) (by decide) rfl (Nat.le_max_left ..) (Nat.le_refl _)

theorem sourcesArgument_balanced : Balanced 14 L (sourcesArgument env L) := by
  unfold sourcesArgument
  split
  · exact balanced_ok _
  · exact tableArgument_balanced env (by decide) 5 _

theorem filterArguments_balanced : Balanced 14 L (filterArguments env L) := by
  refine (checkfd_balanced env _).bind (fun s L₁ _ => ?_)
  refine (checked_balanced env (by decide) _).bind (fun interface L₂ _ => ?_)
  refine (checkaddr_balanced env 3).bind (fun group L₃ _ => ?_)
  refine (checked_balanced env (by decide) _).bind (fun fmode L₄ _ => ?_)
  exact (sourcesArgument_balanced env).bind (fun _ _ _ => balanced_ok _)

end Arguments

/-! ## The converters -/

@[simp] theorem gauge_state (L : LuaState R) : L.gauge.state = L :=
  Metered.start_state LuaState.gettop

@[simp] theorem gauge_peak (L : LuaState R) : L.gauge.peak = L.gettop :=
  Metered.start_peak LuaState.gettop

/-- The free slots are enough for the I/O vectors in the table at an index: for its length,
for its elements, or for the error. -/
def IovecRoom {α : Type} (env : Env) (read : Nat → Value → Except Raised α) (L : LuaState R)
    (idx : Int) (free : Nat) : Prop :=
  match L.index idx with
  | some (.table r) =>
    match env.len r with
    | .error e => 1 + env.aux.raise e ≤ free
    | .ok len =>
      let n := (IntType.uint64.wrap len).toNat
      1 ≤ free ∧
        if env.array n then
          ReadRoom (env.geti r) (fun i v => (read i v).toOption)
            (fun i v => raiseSlots env (read i v)) 0 free (fun _ => True) n 0
        else env.aux.raise (.fatal "calloc" ENOMEM) ≤ free
  | _ => env.aux.raise (.typeerror idx "table") ≤ free

theorem checkiovecs_within {α : Type} {check : Nat → Value → Gauge R → Ran R α}
    {env : Env} {read : Nat → Value → Except Raised α}
    (h : ∀ i v L, check i v L = checked env (read i v) L) (L : LuaState R) (idx : Int)
    (free : Nat) :
    (checkiovecs env check L.gauge idx).2.peak ≤ L.gettop + free ↔
      IovecRoom env read L idx free := by
  have hraise : ∀ e, (raise (α := List α) env L.gauge e).2.peak ≤ L.gettop + free ↔
      env.aux.raise e ≤ free := by
    intro e
    simp only [raise_peak, gauge_peak, gauge_state]
    omega
  unfold checkiovecs IovecRoom tableArgument
  rw [gauge_state]
  cases hv : L.index idx with
  | none => exact hraise _
  | some v =>
    cases v with
    | table r =>
      cases hlen : env.len r with
      | error e =>
        simp only [hlen, Ran.error_bind, Gauge.spend_peak, gauge_peak, gauge_state]
        omega
      | ok len =>
        simp only [hlen, Ran.ok_bind]
        split
        · have hread := @readElements_within R α (List α) (env.geti r) check _ _ 0
            (checks_of_checked h) L.gettop free (IntType.uint64.wrap len).toNat 0 (L.gauge.spend 1)
            (fun as L => (.ok as, L)) (fun _ => True) (by simp) (by simp)
            (fun as L' _ _ => by simp)
          rw [Ran.bind_ok] at hread
          rw [hread, Gauge.spend_peak, gauge_peak, gauge_state]
          refine and_congr_left' ?_
          omega
        · simp only [raise_peak, Gauge.spend_peak, Gauge.spend_state, gauge_peak, gauge_state]
          omega
    | _ => exact hraise _

/-- The free slots are enough for the array in the third argument, and for the error when the
C library does not take it. -/
def ArrayRoom (env : Env) (type : ArrayType) (L : LuaState R) : Prop :=
  ∀ a, (arrayArguments env L.gauge).1 = .ok a → env.array a.table.len = true →
    ReadRoom (env.geti a.table.ref) (type.read env) (type.slots env) 0 minstack
      (fun values =>
        let error := env.nvlistAdd a.nvl a.name values
        error = 0 ∨ a.table.len + env.aux.raise (nvlistAddError type error) ≤ minstack)
      a.table.len 0

theorem nvlistAddArray_within (env : Env) (type : ArrayType) (L : LuaState R) :
    (nvlistAddArray env type L.gauge).2.peak ≤ L.gettop + minstack ↔ ArrayRoom env type L := by
  have hargs := arrayArguments_balanced env (L := L.gauge) (Nat.le_refl _)
  have hfree := hargs.peak_le
  have hle := hargs.le_peak
  rw [gauge_peak, gauge_state] at hfree
  rw [gauge_peak] at hle
  unfold nvlistAddArray ArrayRoom
  generalize arrayArguments env L.gauge = x at hargs hfree hle ⊢
  obtain ⟨result, L'⟩ := x
  dsimp only at hfree hle
  have hmin : minstack = 20 := rfl
  cases result with
  | error e =>
    refine iff_of_true ?_ (fun a ha => by cases ha)
    show L'.peak ≤ _
    omega
  | ok a =>
    have hstate : L'.state = L := hargs.state a rfl
    have hroom : ∀ P : ArrayArguments → Prop,
        (∀ b, (Except.ok a : Except Raised ArrayArguments) = .ok b → P b) ↔ P a :=
      fun P => ⟨fun h => h a rfl, fun h b hb => by cases hb; exact h⟩
    simp only [hroom, Ran.ok_bind]
    cases harray : env.array a.table.len with
    | false =>
      have hraise := env.aux.raise_le (.fatal "malloc" ENOMEM)
      refine iff_of_true ?_ (fun h => by cases h)
      rw [if_neg Bool.false_ne_true, raise_peak, hstate]
      omega
    | true =>
      simp only [ite_true, true_implies]
      refine (readElements_within (lcheck_checks env type) L.gettop minstack a.table.len 0 L' _ _
        (by rw [hstate]; rfl) (by rw [hstate]; exact hle) ?_).trans (and_iff_right (by omega))
      intro values L'' htop hcovers
      split
      · rename_i hzero
        simp only [hzero, true_or, and_true]
      · rename_i hzero
        simp only [hzero, false_or, raise_peak]
        omega

/-- The free slots are enough for the sources in the fifth argument. -/
def FilterRoom (env : Env) (L : LuaState R) : Prop :=
  ∀ a, (filterArguments env L.gauge).1 = .ok a →
    a.sources.len = 0 ∨ env.array a.sources.len = true →
      ReadRoom (env.geti a.sources.ref) (sourceRead env) (sourceSlots env) 2 minstack
        (fun _ => True) a.sources.len 0

theorem pop_peak {L : Gauge R} (h : L.state.gettop ≤ L.peak) (n : Nat) :
    (L.pop n).peak = L.peak ∧ (L.pop n).state.gettop = L.state.gettop - n := by
  have htop : (L.pop n).state.gettop = L.state.gettop - n := by
    simp [Gauge.pop, LuaState.pop, LuaState.gettop]
  refine ⟨?_, htop⟩
  have hpeak : (L.pop n).peak = max L.peak (L.pop n).state.gettop := rfl
  rw [hpeak, htop]
  omega

/-- After the loop there is room for the three results of a failed call. -/
theorem filter_results {L : LuaState R} {L' : Gauge R} {n : Nat}
    (htop : L'.state.gettop = L.gettop + (1 + 2) * (0 + n)) (hcovers : L'.state.gettop ≤ L'.peak)
    (u v w : Value) :
    (((L'.pop n).push u).peak ≤ L.gettop + minstack ↔ L'.peak ≤ L.gettop + minstack) ∧
      (((((L'.pop n).push u).push v).push w).peak ≤ L.gettop + minstack ↔
        L'.peak ≤ L.gettop + minstack) := by
  obtain ⟨hpeak, hpop⟩ := pop_peak hcovers n
  simp only [push_peak, gettop_push, hpeak, hpop, minstack]
  omega

theorem setsourcefilter_within (env : Env) (L : LuaState R) :
    (setsourcefilter env L.gauge).2.peak ≤ L.gettop + minstack ↔ FilterRoom env L := by
  have hargs := filterArguments_balanced env (L := L.gauge)
  have hfree := hargs.peak_le
  have hle := hargs.le_peak
  rw [gauge_peak, gauge_state] at hfree
  rw [gauge_peak] at hle
  unfold setsourcefilter FilterRoom
  generalize filterArguments env L.gauge = x at hargs hfree hle ⊢
  obtain ⟨result, L'⟩ := x
  dsimp only at hfree hle
  have hmin : minstack = 20 := rfl
  cases result with
  | error e =>
    refine iff_of_true ?_ (fun a ha => by cases ha)
    show L'.peak ≤ _
    omega
  | ok a =>
    have hstate : L'.state = L := hargs.state a rfl
    have hroom : ∀ P : FilterArguments → Prop,
        (∀ b, (Except.ok a : Except Raised FilterArguments) = .ok b → P b) ↔ P a :=
      fun P => ⟨fun h => h a rfl, fun h b hb => by cases hb; exact h⟩
    simp only [hroom, Ran.ok_bind]
    by_cases hmalloc : a.sources.len = 0 ∨ env.array a.sources.len = true
    · simp only [hmalloc, ite_true, true_implies]
      refine (readElements_within (sourceAddr_checks env) L.gettop minstack a.sources.len 0 L' _
        (fun _ => True) (by rw [hstate]; rfl) (by rw [hstate]; exact hle) ?_).trans
          (and_iff_right (by omega))
      intro slist L'' htop hcovers
      rw [and_true]
      split
      · exact (filter_results htop hcovers _ .nil .nil).1
      · exact (filter_results htop hcovers _ _ _).2
    · have hraise := env.aux.raise_le (.fatal "malloc" ENOMEM)
      rw [if_neg hmalloc]
      refine iff_of_true ?_ (fun h => absurd h hmalloc)
      rw [raise_peak, hstate]
      omega

/-! ## Every conversion -/

/-- A call of a converter: the stacks, the arguments, and the free slots where the callers
differ in them. -/
inductive Conversion (R : Runtime) where
  | copyn (box : Nat) (src dst : LuaState R) (below vs above : List Value)
      (stack_eq : src.stack = below ++ vs ++ above) (srcFree dstFree : Nat)
  | checkriovecs (env : Env) (L : LuaState R) (idx : Int) (free : Nat)
  | checkwiovecs (env : Env) (L : LuaState R) (idx : Int) (free : Nat)
  | nvlistAddArray (env : Env) (type : ArrayType) (L : LuaState R)
  | setsourcefilter (env : Env) (L : LuaState R)

namespace Conversion

/-- The conversion keeps within the free slots of each stack. -/
def Within : Conversion R → Prop
  | copyn box src dst below vs _ _ srcFree dstFree =>
    ∃ c, gaugedCopyn box 2 src.gauge dst.gauge (below.length + 1) vs.length = some c ∧
      c.src.peak ≤ src.gettop + srcFree ∧ c.dst.peak ≤ dst.gettop + dstFree
  | checkriovecs env L idx free =>
    (Capacity.checkriovecs env L.gauge idx).2.peak ≤ L.gettop + free
  | checkwiovecs env L idx free =>
    (Capacity.checkwiovecs env L.gauge idx).2.peak ≤ L.gettop + free
  | nvlistAddArray env type L =>
    (Capacity.nvlistAddArray env type L.gauge).2.peak ≤ L.gettop + minstack
  | setsourcefilter env L =>
    (Capacity.setsourcefilter env L.gauge).2.peak ≤ L.gettop + minstack

/-- The lists it works through are short enough. -/
def Room : Conversion R → Prop
  | copyn box src _ _ vs _ _ srcFree dstFree => CopyRoom box src.closures srcFree dstFree 0 vs
  | checkriovecs env L idx free => IovecRoom env (readRiovec env idx) L idx free
  | checkwiovecs env L idx free => IovecRoom env (readWiovec idx) L idx free
  | nvlistAddArray env type L => ArrayRoom env type L
  | setsourcefilter env L => FilterRoom env L

theorem copyn_within (box : Nat) (src dst : LuaState R) (below vs above : List Value)
    (stack_eq : src.stack = below ++ vs ++ above) (srcFree dstFree : Nat) :
    (∃ c, gaugedCopyn box 2 src.gauge dst.gauge (below.length + 1) vs.length = some c ∧
      c.src.peak ≤ src.gettop + srcFree ∧ c.dst.peak ≤ dst.gettop + dstFree) ↔
        CopyRoom box src.closures srcFree dstFree 0 vs := by
  obtain ⟨c, hloop, hiff⟩ := gaugedLoop_peaks box 0 dst.gettop srcFree dstFree vs below above
    src.gauge dst.gauge 0 stack_eq (Nat.le_refl _) rfl (Nat.le_refl _)
  have hcopyn : gaugedCopyn box 2 src.gauge dst.gauge (below.length + 1) vs.length = some c := by
    rw [gaugedCopyn, Int.toNat_natCast]
    exact hloop
  have hpeaks : src.gauge.peak ≤ src.gettop + srcFree ∧ dst.gauge.peak ≤ dst.gettop + dstFree :=
    ⟨Nat.le_add_right .., Nat.le_add_right ..⟩
  constructor
  · rintro ⟨c', hc', hwithin⟩
    cases hcopyn.symm.trans hc'
    exact (hiff.mp hwithin).2.2
  · intro hroom
    exact ⟨c, hcopyn, hiff.mpr ⟨hpeaks.1, hpeaks.2, hroom⟩⟩

/-- **A conversion keeps within the stack exactly when its lists are short enough.** -/
theorem within_iff_room (c : Conversion R) : c.Within ↔ c.Room := by
  cases c with
  | copyn box src dst below vs above stack_eq srcFree dstFree =>
    exact copyn_within box src dst below vs above stack_eq srcFree dstFree
  | checkriovecs env L idx free => exact checkiovecs_within (riovec_eq env idx) L idx free
  | checkwiovecs env L idx free => exact checkiovecs_within (wiovec_eq env idx) L idx free
  | nvlistAddArray env type L => exact nvlistAddArray_within env type L
  | setsourcefilter env L => exact setsourcefilter_within env L

/-- An environment in which every table is a list of empty strings of the given length. -/
def stringsEnv (len : Nat) : Env where
  host := .plain
  aux := ⟨fun _ => 2, fun _ => 5, fun _ => Nat.le_refl _, fun _ => by decide⟩
  len _ := .ok len
  geti _ _ := .ok (.string [])
  getfield _ _ _ := .error (.metamethod .nil)
  nvlist _ := none
  array _ := true
  element _ _ := true
  nvlistAdd _ _ _ := 0
  setsourcefilter _ _ _ _ _ := 0
  strerror _ := []

/-- `writev` of 21 strings takes 21 slots. -/
theorem not_all_within : ¬ ∀ c : Conversion sampleRuntime, c.Within := by
  intro h
  let L : LuaState sampleRuntime := ⟨[.integer 1, .table 0], [], 0⟩
  have hwithin : (Capacity.checkwiovecs (stringsEnv 21) L.gauge 2).2.peak ≤ L.gettop + minstack :=
    h (.checkwiovecs (stringsEnv 21) L 2 minstack)
  have hroom := ((checkiovecs_within (wiovec_eq (stringsEnv 21) 2) L 2 minstack).mp hwithin).2
  rw [if_pos (show (stringsEnv 21).array _ = true from rfl)] at hroom
  refine absurd ((readRoom_of_all (fun _ => ?_) 21 0 (Nat.zero_le _)).mp hroom) (by decide)
  exact ⟨.string [], [], rfl, rfl, rfl⟩

end Conversion
end Capacity
end FluaLibs
