import FluaLibs.LuaArguments

/-! # Designators of ZFS properties

The methods that take a property take a string, an integer or a userdata for it, and
`checkprop` finds out which.  It asks first whether the value is a string, and to Lua an
integer is one too: what `zfs.prop` returns for a name is looked up as if its digits were
the name.  Only a userdata is used as the property that it holds, and there is none: `pushprop`
is never called.  For a string that names nothing `zfs.prop` returns nothing, and `checkprop`
asks the user value of a value that has none.
-/
namespace FluaLibs
namespace ZfsProps
open LuaArguments
variable {R : Runtime}

/-- `zfs_prop_t` -/
abbrev PropId : Type := Int32

def ZPROP_INVAL : PropId := -1

def ZFS_PROP_METATABLE : String := "zfs_prop_t"
def ZFS_HANDLE_METATABLE : String := "zfs_handle_t"

/-! ## Userdata -/

/-- A full userdata: the name of its metatable, and its first user value. -/
structure Userdata where
  metatable : Option String
  uservalue : Value

structure PropState (R : Runtime) extends LuaState R where
  userdata : List Userdata

namespace PropState
variable (U : PropState R)

def push (v : Value) : PropState R := { U with toLuaState := U.toLuaState.push v }
def pop (n : Nat) : PropState R := { U with toLuaState := U.toLuaState.pop n }
def withStack (vs : List Value) : PropState R := { U with stack := vs }

/-- `lua_newuserdatauv(L, 0, 1)` -/
def newuserdatauv : PropState R :=
  { U.push (.userdata U.userdata.length) with userdata := U.userdata ++ [⟨none, .nil⟩] }

/-- Change the userdata at an index. -/
def modify (idx : Int) (f : Userdata → Userdata) : PropState R :=
  match U.index idx with
  | some (.userdata r) => { U with userdata := U.userdata.modify r f }
  | _ => U

/-- `lua_setiuservalue(L, idx, 1)` -/
def setiuservalue (idx : Int) : PropState R :=
  (U.modify idx (fun u => { u with uservalue := (U.index (-1)).getD .nil })).pop 1

/-- `luaL_setmetatable` -/
def setmetatable (name : String) : PropState R :=
  U.modify (-1) (fun u => { u with metatable := some name })

def userdataAt (idx : Int) : Option Userdata :=
  match U.index idx with
  | some (.userdata r) => U.userdata[r]?
  | _ => none

/-- `lua_getiuservalue(L, idx, 1)`, which is undefined for a value that is no userdata. -/
def getiuservalue (idx : Int) : Option (PropState R) :=
  (U.userdataAt idx).map (fun u => U.push u.uservalue)

/-- `checkcookie` -/
def checkcookie (idx : Int) (metatable : String) : Except Raised Nat :=
  match U.userdataAt idx with
  | none => .error (.typeerror idx metatable)
  | some u =>
    if u.metatable = some metatable then
      match u.uservalue with
      | .lightuserdata p => if p = 0 then .error (.argerror idx "cookie expired") else .ok p
      | _ => .error (.argerror idx "invalid cookie")
    else .error (.typeerror idx metatable)

/-- `checkzfs` -/
def checkzfs (idx : Int) : Except Raised Nat := U.checkcookie idx ZFS_HANDLE_METATABLE

/-- `lua_toboolean` -/
def toboolean (idx : Int) : Bool :=
  match U.index idx with
  | none | some .nil | some (.boolean false) => false
  | _ => true

end PropState

/-! ## The code -/

/-- What the methods use of libzfs: a string is a C string, or there is none. -/
structure Libzfs where
  zfs_name_to_prop : List UInt8 → PropId
  zfs_prop_get : Nat → PropId → Bool → Except Int (List UInt8 × Int × List UInt8)
  zfs_prop_get_numeric : Nat → PropId → Except Int (UInt64 × Int × List UInt8)
  getprop_uint64 : Nat → PropId → UInt64 × Option (List UInt8)
  zfs_prop_get_int : Nat → PropId → UInt64
  zfs_prop_default_string : PropId → Option (List UInt8)
  zfs_prop_default_numeric : PropId → UInt64
  zfs_prop_column_name : PropId → Option (List UInt8)
  zfs_prop_align_right : PropId → Bool
  zfs_prop_to_name : PropId → Option (List UInt8)
  zfs_prop_values : PropId → Option (List UInt8)
  zfs_prop_is_string : PropId → Bool

/-- The property that a Lua string names. -/
def Libzfs.named (lib : Libzfs) (s : List UInt8) : PropId := lib.zfs_name_to_prop (cstr s)

/-- `pushprop` -/
def pushprop (U : PropState R) (prop : PropId) : PropState R :=
  ((U.newuserdatauv.push (.integer prop.toInt)).setiuservalue (-2)).setmetatable
    ZFS_PROP_METATABLE

/-- `lua_isinteger` and `lua_tointeger` -/
def integer : Value → Option Int
  | .integer i => some i
  | _ => none

/-- `lua_pushstring` -/
def pushstring : Option (List UInt8) → Value
  | some s => .string s
  | none => .nil

/-- `lua_pushinteger` of a `uint64_t`. -/
def uint64 (n : UInt64) : Value := .integer (IntType.int64.wrap n.toNat)

/-- The name of the source of a property is returned if it is not empty. -/
def sourcename (s : List UInt8) : List Value := if s = [] then [] else [.string s]

section Functions
variable (host : Host) (lib : Libzfs) (U : PropState R)

/-- `checkprop`; `none` where the behaviour is undefined. -/
def checkprop (idx : Int) : Option PropId :=
  match (U.index idx).bind (tolstring host) with
  | some propname => some (lib.named propname)
  | none =>
    match (U.index idx).bind integer with
    | some prop => some (Int32.ofInt prop)
    | none =>
      match U.getiuservalue idx with
      | none => none
      | some U' =>
        match (U'.index (-1)).bind integer with
        | some prop => some (Int32.ofInt prop)
        | none => some ZPROP_INVAL

/-- `l_zfs_name_to_prop` -/
def l_zfs_name_to_prop : Except Raised (List Value) :=
  match checklstring host 1 (U.index 1) with
  | .error e => .error e
  | .ok name =>
    if lib.named name = ZPROP_INVAL then .ok [] else .ok [.integer (lib.named name).toInt]

inductive Outcome where
  | returned (vs : List Value)
  | failed (error : Int) (source : String)
  | raised (e : Raised)
  | undefined

/-- A call of a method: the property that libzfs is asked about, if it is asked, and how the
call ends. -/
structure Call where
  asked : Option PropId
  outcome : Outcome

/-- A method of a handle. -/
def zfsMethod (ask : Nat → PropId → Outcome) : Call :=
  match U.checkzfs 1 with
  | .error e => ⟨none, .raised e⟩
  | .ok zhp =>
    match checkprop host lib U 2 with
    | none => ⟨none, .undefined⟩
    | some prop => ⟨some prop, ask zhp prop⟩

/-- A method of a property. -/
def propMethod (ask : PropId → Outcome) : Call :=
  match checkprop host lib U 1 with
  | none => ⟨none, .undefined⟩
  | some prop => ⟨some prop, ask prop⟩

def l_zfs_prop_get : Call :=
  zfsMethod host lib U fun zhp prop =>
    match lib.zfs_prop_get zhp prop (U.toboolean 3) with
    | .error error => .failed error "zfs_prop_get"
    | .ok (property, source, name) =>
      .returned ([.string property, .integer source] ++ sourcename name)

def l_zfs_prop_get_numeric : Call :=
  zfsMethod host lib U fun zhp prop =>
    match lib.zfs_prop_get_numeric zhp prop with
    | .error error => .failed error "zfs_prop_get_numeric"
    | .ok (value, source, name) =>
      .returned ([uint64 value, .integer source] ++ sourcename name)

def l_getprop_uint64 : Call :=
  zfsMethod host lib U fun zhp prop =>
    .returned [uint64 (lib.getprop_uint64 zhp prop).1, pushstring (lib.getprop_uint64 zhp prop).2]

def l_zfs_prop_get_int : Call :=
  zfsMethod host lib U fun zhp prop => .returned [uint64 (lib.zfs_prop_get_int zhp prop)]

def l_zfs_prop_default_string : Call :=
  propMethod host lib U fun prop =>
    match lib.zfs_prop_default_string prop with
    | none => .returned []
    | some string => .returned [.string string]

def l_zfs_prop_default_numeric : Call :=
  propMethod host lib U fun prop => .returned [uint64 (lib.zfs_prop_default_numeric prop)]

def l_zfs_prop_column_name : Call :=
  propMethod host lib U fun prop => .returned [pushstring (lib.zfs_prop_column_name prop)]

def l_zfs_prop_align_right : Call :=
  propMethod host lib U fun prop => .returned [.boolean (lib.zfs_prop_align_right prop)]

def l_zfs_prop_to_name : Call :=
  propMethod host lib U fun prop => .returned [pushstring (lib.zfs_prop_to_name prop)]

def l_zfs_prop_values : Call :=
  propMethod host lib U fun prop =>
    match lib.zfs_prop_values prop with
    | none => .returned []
    | some values => .returned [.string values]

def l_zfs_prop_is_string : Call :=
  propMethod host lib U fun prop => .returned [.boolean (lib.zfs_prop_is_string prop)]

end Functions

/-- The methods that take a property. -/
inductive Method where
  | prop_get
  | prop_get_numeric
  | getprop_uint64
  | prop_get_int
  | default_string
  | default_numeric
  | column_name
  | align_right
  | to_name
  | values
  | is_string
  deriving DecidableEq

namespace Method

/-- The tables of methods: `l_zfs_meta` and `l_prop_meta`. -/
def run (host : Host) (lib : Libzfs) (U : PropState R) : Method → Call
  | prop_get => l_zfs_prop_get host lib U
  | prop_get_numeric => l_zfs_prop_get_numeric host lib U
  | getprop_uint64 => l_getprop_uint64 host lib U
  | prop_get_int => l_zfs_prop_get_int host lib U
  | default_string => l_zfs_prop_default_string host lib U
  | default_numeric => l_zfs_prop_default_numeric host lib U
  | column_name => l_zfs_prop_column_name host lib U
  | align_right => l_zfs_prop_align_right host lib U
  | to_name => l_zfs_prop_to_name host lib U
  | values => l_zfs_prop_values host lib U
  | is_string => l_zfs_prop_is_string host lib U

/-- The methods of handles, where the property is the second argument. -/
def onHandle : Method → Bool
  | prop_get | prop_get_numeric | getprop_uint64 | prop_get_int => true
  | default_string | default_numeric | column_name | align_right | to_name | values
  | is_string => false

/-- The arguments before the property: an open handle, or none. -/
def Ready (m : Method) (U : PropState R) (before : List Value) : Prop :=
  if m.onHandle then
    ∃ r p, before = [.userdata r] ∧ p ≠ 0 ∧
      U.userdata[r]? = some ⟨some ZFS_HANDLE_METATABLE, .lightuserdata p⟩
  else before = []

end Method

/-- A method takes a value for a property, whatever its other arguments are. -/
def Resolves (host : Host) (lib : Libzfs) (m : Method) (U : PropState R) (d : Value)
    (prop : PropId) : Prop :=
  ∀ before after, m.Ready U before →
    (m.run host lib (U.withStack (before ++ d :: after))).asked = some prop

/-! ## What designates a property -/

/-- The property that a userdata holds. -/
def Userdata.prop (u : Userdata) : PropId :=
  match integer u.uservalue with
  | some prop => Int32.ofInt prop
  | none => ZPROP_INVAL

section Designators
variable {host : Host} {lib : Libzfs} {U : PropState R} {d : Value}

@[simp] theorem push_userdata (v : Value) : (U.push v).userdata = U.userdata := rfl
@[simp] theorem withStack_userdata (vs : List Value) : (U.withStack vs).userdata = U.userdata := rfl

@[simp] theorem push_index_top (v : Value) : (U.push v).index (-1) = some v :=
  LuaState.index_push_top v

/-- The property that a value designates. -/
def designated (host : Host) (lib : Libzfs) (userdata : List Userdata) (d : Value) :
    Option PropId :=
  match tolstring host d with
  | some propname => some (lib.named propname)
  | none =>
    match d with
    | .userdata r => (userdata[r]?).map Userdata.prop
    | _ => none

/-- **The order of the tests**: what is asked about integers comes too late. -/
theorem checkprop_eq {idx : Int} (h : U.index idx = some d) :
    checkprop host lib U idx = designated host lib U.userdata d := by
  rw [checkprop, h, Option.bind_some, Option.bind_some]
  cases d with
  | userdata r =>
    simp only [tolstring, integer, designated, PropState.getiuservalue, PropState.userdataAt, h]
    cases U.userdata[r]? with
    | none => rfl
    | some u =>
      simp only [Option.map_some, push_index_top, Option.bind_some, Userdata.prop]
      show (match integer u.uservalue with | some prop => _ | none => _) = _
      cases integer u.uservalue with
      | none => rfl
      | some prop => rfl
  | _ => simp [tolstring, integer, designated, PropState.getiuservalue, PropState.userdataAt, h]

/-- The argument after some others. -/
theorem index_withStack (U : PropState R) (before after : List Value) (d : Value) :
    (U.withStack (before ++ d :: after)).index (before.length + 1 : Nat) = some d := by
  have hpos : (U.withStack (before ++ d :: after)).pos (before.length + 1 : Nat) =
      before.length := by
    rw [LuaState.pos, if_pos (by omega)]
    omega
  rw [LuaState.index, hpos]
  show (before ++ d :: after)[before.length]? = some d
  rw [List.getElem?_append_right (Nat.le_refl _), Nat.sub_self]
  rfl

theorem propMethod_asked (ask : PropId → Outcome) :
    (propMethod host lib U ask).asked = checkprop host lib U 1 := by
  unfold propMethod
  split
  · next h => exact h.symm
  · next h => exact h.symm

theorem zfsMethod_asked {zhp : Nat} (hzfs : U.checkzfs 1 = .ok zhp) (ask : Nat → PropId → Outcome) :
    (zfsMethod host lib U ask).asked = checkprop host lib U 2 := by
  simp only [zfsMethod, hzfs]
  split
  · next h => exact h.symm
  · next h => exact h.symm

theorem run_onHandle {m : Method} (h : m.onHandle = true) (host : Host) (lib : Libzfs)
    (U : PropState R) : ∃ ask, m.run host lib U = zfsMethod host lib U ask := by
  cases m with
  | prop_get => exact ⟨_, rfl⟩
  | prop_get_numeric => exact ⟨_, rfl⟩
  | getprop_uint64 => exact ⟨_, rfl⟩
  | prop_get_int => exact ⟨_, rfl⟩
  | _ => cases h

theorem run_of_not_onHandle {m : Method} (h : ¬ m.onHandle = true) (host : Host) (lib : Libzfs)
    (U : PropState R) : ∃ ask, m.run host lib U = propMethod host lib U ask := by
  cases m with
  | prop_get => exact absurd rfl h
  | prop_get_numeric => exact absurd rfl h
  | getprop_uint64 => exact absurd rfl h
  | prop_get_int => exact absurd rfl h
  | _ => exact ⟨_, rfl⟩

theorem checkzfs_of_handle {r p : Nat} (h : U.index 1 = some (.userdata r)) (hp : p ≠ 0)
    (hhandle : U.userdata[r]? = some ⟨some ZFS_HANDLE_METATABLE, .lightuserdata p⟩) :
    U.checkzfs 1 = .ok p := by
  have hat : U.userdataAt 1 = some ⟨some ZFS_HANDLE_METATABLE, .lightuserdata p⟩ := by
    simp only [PropState.userdataAt, h, hhandle]
  simp only [PropState.checkzfs, PropState.checkcookie, hat, if_neg hp, ite_true]

/-- **A method asks about the property that its argument designates.** -/
theorem run_asked {m : Method} {before : List Value} (hready : m.Ready U before)
    (after : List Value) :
    (m.run host lib (U.withStack (before ++ d :: after))).asked =
      designated host lib U.userdata d := by
  unfold Method.Ready at hready
  split at hready
  · next honHandle =>
    obtain ⟨r, p, rfl, hp, hhandle⟩ := hready
    have hsecond : (U.withStack ([.userdata r] ++ d :: after)).index 2 = some d :=
      index_withStack U [.userdata r] after d
    have hfirst : (U.withStack ([.userdata r] ++ d :: after)).index 1 = some (.userdata r) :=
      index_withStack U [] (d :: after) (.userdata r)
    obtain ⟨ask, hrun⟩ :=
      run_onHandle honHandle host lib (U.withStack ([.userdata r] ++ d :: after))
    rw [hrun, zfsMethod_asked (checkzfs_of_handle hfirst hp hhandle), checkprop_eq hsecond,
      withStack_userdata]
  · next honProp =>
    subst hready
    have hfirst : (U.withStack ([] ++ d :: after)).index 1 = some d :=
      index_withStack U [] after d
    obtain ⟨ask, hrun⟩ := run_of_not_onHandle honProp host lib (U.withStack ([] ++ d :: after))
    rw [hrun, propMethod_asked, checkprop_eq hfirst, withStack_userdata]

/-- A value that designates a property is taken for it by all methods. -/
theorem resolves_of_designated {prop : PropId} (m : Method)
    (h : designated host lib U.userdata d = some prop) : Resolves host lib m U d prop :=
  fun _ after hready => (run_asked hready after).trans h

/-- What a method of a property takes a value for. -/
theorem designated_of_resolves {prop : PropId} {m : Method} (hm : m.onHandle = false)
    (h : Resolves host lib m U d prop) : designated host lib U.userdata d = some prop := by
  have hready : m.Ready U [] := by
    rw [Method.Ready, hm]
    rfl
  exact (run_asked hready []).symm.trans (h [] [] hready)

/-! ### The three forms -/

/-- **A string** designates the property that it names. -/
@[simp] theorem designated_string (userdata : List Userdata) (s : List UInt8) :
    designated host lib userdata (.string s) = some (lib.named s) := rfl

/-- **An integer** designates the property that its digits name. -/
@[simp] theorem designated_integer (userdata : List Userdata) (i : Int) :
    designated host lib userdata (.integer i) = some (lib.named (decimal i)) := rfl

@[simp] theorem designated_nil (userdata : List Userdata) :
    designated host lib userdata .nil = none := rfl

theorem modify_of_index {idx : Int} {r : Nat} (h : U.index idx = some (.userdata r))
    (f : Userdata → Userdata) :
    U.modify idx f = { U with userdata := U.userdata.modify r f } := by
  simp only [PropState.modify, h]

theorem modify_last (us : List Userdata) (u : Userdata) (f : Userdata → Userdata) :
    (us ++ [u]).modify us.length f = us ++ [f u] := by
  induction us with
  | nil => rfl
  | cons u' us ih =>
    rw [List.cons_append, List.length_cons, List.modify_succ_cons, ih, List.cons_append]

/-- **What `pushprop` makes**: one more userdata, on top of the stack. -/
theorem pushprop_eq (U : PropState R) (prop : PropId) :
    pushprop U prop =
      ⟨U.toLuaState.push (.userdata U.userdata.length),
        U.userdata ++ [⟨some ZFS_PROP_METATABLE, .integer prop.toInt⟩]⟩ := by
  have hstack : (U.newuserdatauv.push (.integer prop.toInt)).stack =
      U.stack ++ .userdata U.userdata.length :: [.integer prop.toInt] := List.append_assoc ..
  have hbelow : (U.newuserdatauv.push (.integer prop.toInt)).index (-2) =
      some (.userdata U.userdata.length) := LuaState.index_below hstack
  have hset : (U.newuserdatauv.push (.integer prop.toInt)).setiuservalue (-2) =
      ⟨U.toLuaState.push (.userdata U.userdata.length),
        U.userdata ++ [⟨none, .integer prop.toInt⟩]⟩ := by
    rw [PropState.setiuservalue, modify_of_index hbelow, push_index_top]
    simp only [PropState.pop, PropState.push, PropState.newuserdatauv, LuaState.push_pop,
      modify_last, Option.getD_some]
  rw [pushprop, hset, PropState.setmetatable, modify_of_index (LuaState.index_push_top _)]
  simp only [modify_last]

/-- **A property userdata** designates the property that it holds. -/
theorem designated_pushprop (U : PropState R) (prop : PropId) :
    designated host lib (pushprop U prop).userdata (.userdata U.userdata.length) = some prop := by
  rw [pushprop_eq]
  simp [designated, tolstring, Userdata.prop, integer]

end Designators

/-- The three forms of a designator are taken for the same property by all methods: a string,
what `zfs.prop` returns for it, and a userdata that is made of its property. -/
structure Agrees (R : Runtime) (host : Host) (lib : Libzfs) (s : List UInt8) : Prop where
  string : ∀ (m : Method) (U : PropState R), Resolves host lib m U (.string s) (lib.named s)
  returned : ∀ (m : Method) (U : PropState R) (results : List Value),
    l_zfs_name_to_prop host lib (U.withStack [.string s]) = .ok results →
      Resolves host lib m U (results.headD .nil) (lib.named s)
  userdata : ∀ (m : Method) (U : PropState R),
    Resolves host lib m (pushprop U (lib.named s)) (.userdata U.userdata.length) (lib.named s)

section Forms
variable {host : Host} {lib : Libzfs} {s : List UInt8}

/-- `zfs.prop` of a name. -/
theorem l_zfs_name_to_prop_of_named (U : PropState R) (h : lib.named s ≠ ZPROP_INVAL) :
    l_zfs_name_to_prop host lib (U.withStack [.string s]) =
      .ok [.integer (lib.named s).toInt] := by
  show (if lib.named s = ZPROP_INVAL then _ else _) = _
  rw [if_neg h]

/-- `zfs.prop` of a string that is no name. -/
theorem l_zfs_name_to_prop_of_invalid (U : PropState R) (h : lib.named s = ZPROP_INVAL) :
    l_zfs_name_to_prop host lib (U.withStack [.string s]) = .ok [] := by
  show (if lib.named s = ZPROP_INVAL then _ else _) = _
  rw [if_pos h]

theorem named_of_agrees (h : Agrees R host lib s) : lib.named s ≠ ZPROP_INVAL := by
  intro hinval
  have hnil := designated_of_resolves (m := .is_string) rfl
    (h.returned .is_string ⟨⟨[], [], 0⟩, []⟩ [] (l_zfs_name_to_prop_of_invalid _ hinval))
  cases hnil

theorem digits_of_agrees (h : Agrees R host lib s) :
    lib.named (decimal (lib.named s).toInt) = lib.named s := by
  have hinteger := designated_of_resolves (m := .is_string) rfl
    (h.returned .is_string ⟨⟨[], [], 0⟩, []⟩ _ (l_zfs_name_to_prop_of_named _ (named_of_agrees h)))
  exact Option.some.inj hinteger

/-- **When the forms agree**: the string names a property, and the digits of the property
are a name of it too. -/
theorem agrees_iff (R : Runtime) (host : Host) (lib : Libzfs) (s : List UInt8) :
    Agrees R host lib s ↔
      lib.named s ≠ ZPROP_INVAL ∧ lib.named (decimal (lib.named s).toInt) = lib.named s := by
  constructor
  · exact fun h => ⟨named_of_agrees h, digits_of_agrees h⟩
  · rintro ⟨hnamed, hdigits⟩
    constructor
    · exact fun m U => resolves_of_designated m (designated_string U.userdata s)
    · intro m U results hresults
      cases (l_zfs_name_to_prop_of_named U hnamed).symm.trans hresults
      apply resolves_of_designated
      show designated host lib U.userdata (.integer (lib.named s).toInt) = _
      rw [designated_integer, hdigits]
    · exact fun m U => resolves_of_designated m (designated_pushprop U (lib.named s))

/-- The forms of a name agree only if some digits are a name. -/
theorem exists_numeral_of_agrees (h : Agrees R host lib s) :
    ∃ i, lib.named (decimal i) ≠ ZPROP_INVAL :=
  ⟨_, fun hinval => named_of_agrees h ((digits_of_agrees h).symm.trans hinval)⟩

end Forms

/-! ## Examples -/

/-- A libzfs with the one property `type`, which is property 0. -/
def typeOnly : Libzfs where
  zfs_name_to_prop s := if s = [116, 121, 112, 101] then 0 else ZPROP_INVAL
  zfs_prop_get _ _ _ := .error 0
  zfs_prop_get_numeric _ _ := .error 0
  getprop_uint64 _ _ := (0, none)
  zfs_prop_get_int _ _ := 0
  zfs_prop_default_string _ := none
  zfs_prop_default_numeric _ := 0
  zfs_prop_column_name _ := none
  zfs_prop_align_right _ := false
  zfs_prop_to_name _ := none
  zfs_prop_values _ := none
  zfs_prop_is_string _ := false

/-- `zfs.prop('type')` is 0, and `'0'` is no name. -/
theorem not_agrees : ¬ ∀ (host : Host) (lib : Libzfs) (s : List UInt8),
    Agrees noFunctions host lib s := by
  intro hall
  have hreturned := (hall .plain typeOnly [116, 121, 112, 101]).returned .is_string
    ⟨⟨[], [], 0⟩, []⟩ [.integer 0] rfl
  have hasked : some ZPROP_INVAL = some (0 : PropId) := hreturned [] [] rfl
  exact absurd hasked (by decide)

end ZfsProps
end FluaLibs
