import FluaLibs.CountedReads
import FluaLibs.FixedWidth
import FluaLibs.LuaArguments

/-! # Lists in the arguments

The functions that limit what a Casper service may do, the ones that open files through Casper
and `kvm.nlist2` take a table with a list.  They make an array for it, and read the table into
the array, element by element; nothing takes the elements from the Lua stack again, where the
strings have to stay, and nothing asks whether there is room for them.  The size of the array is
a product that may overflow, since a `__len` metamethod may give any length.
-/
namespace FluaLibs
namespace ListArguments
open LuaArguments Held

abbrev Bytes : Type := List UInt8

/-- `LUA_MINSTACK` -/
def minstack : Nat := 20

/-- What the functions find: a table is known by its number.  `malloc` is asked with the number
of the array and its size. -/
structure ListEnv where
  host : Host
  len : Nat → Except Raised Int
  geti : Nat → Nat → Except Raised Value
  /-- The user value with the cookie, if the userdata has the metatable. -/
  cookie : String → Nat → Option Value
  isRights : Nat → Bool
  malloc : Nat → Nat → Bool
  /-- `sizeof (struct kvm_nlist)` -/
  nlistSize : Nat

section Code
variable (env : ListEnv) (args : Nat → Option Value)

/-- `checkcookie` -/
def checkcookie (arg : Nat) (metatable : String) : Except Raised Nat :=
  match args arg with
  | some (.userdata u) =>
    match env.cookie metatable u with
    | some (.lightuserdata p) =>
      if p = 0 then .error (.argerror arg "cookie expired") else .ok p
    | some _ => .error (.argerror arg "invalid cookie")
    | none => .error (.typeerror arg metatable)
  | _ => .error (.typeerror arg metatable)

def checktable (arg : Nat) : Except Raised Nat :=
  match args arg with
  | some (.table t) => .ok t
  | _ => .error (.typeerror arg "table")

def checkrights (arg : Nat) : Except Raised Nat :=
  match args arg with
  | some (.userdata u) =>
    if env.isRights u = true then .ok u else .error (.typeerror arg "cap_rights_t *")
  | _ => .error (.typeerror arg "cap_rights_t *")

/-! ## Reading the list -/

/-- A list that is read: the table, the number of elements as the loop has it, which elements are
accepted, and whether there is a place for one behind those so far. -/
structure Reading (α : Type) where
  table : Nat
  count : Nat
  accept : Value → Except Raised α
  fits : List α → α → Bool

/-- The loop: an element that is not accepted ends it, and the arrays are freed. -/
def readList {α : Type} (r : Reading α) (arrays : List Nat) :
    Nat → Nat → List α → Code Raised (List α)
  | 0, _, done => pure done
  | n + 1, i, done => do
    Code.demand (decide (i + 1 ≤ minstack))
    let v ← Code.ofExcept (env.geti r.table (i + 1))
    match r.accept v with
    | .error e => do
      Code.freeAll arrays
      Code.raise e
    | .ok a => do
      Code.demand (r.fits done a)
      readList r arrays n (i + 1) (done ++ [a])

/-- The list is read into the arrays and used, and the arrays are freed.  What is returned then
takes `slots`. -/
def withArrays {α β : Type} (r : Reading α) (arrays : List Nat) (finish : List α → β)
    (slots : β → Nat) : Code Raised β := do
  let as ← readList env r arrays r.count 0 []
  Code.touchAll arrays
  Code.freeAll arrays
  Code.demand (decide (slots (finish as) ≤ minstack))
  pure (finish as)

/-- An array of some size is made for a list. -/
def withArray {α β : Type} (r : Reading α) (name : String) (size : Nat) (finish : List α → β)
    (slots : β → Nat) : Code Raised β := do
  match ← Code.malloc (env.malloc 0 size) with
  | none => Code.raise (.fatal name ENOMEM)
  | some array => withArrays env r [array] finish slots

/-- An element of some size has a place in an array. -/
def hasPlace (size element : Nat) (done : Nat) : Bool := decide ((done + 1) * element ≤ size)

def sizeT (i : Int) : Nat := (i % 2 ^ 64).toNat

/-- `n * sizeof(...)` in a `size_t`. -/
def product (n element : Nat) : Nat := n * element % 2 ^ 64

/-- What a function answers: whether the library has accepted the list, and which list that was. -/
structure Reply (α : Type) where
  given : α
  error : Option Nat
  deriving DecidableEq

/-- The slots of `success` and of `fail`. -/
def Reply.slots {α : Type} (r : Reply α) : Nat :=
  match r.error with
  | none => 1
  | some _ => 3

/-! ### Limits of strings -/

/-- The arguments of the functions that limit a service. -/
def channelArguments : Except Raised (Nat × Nat × Nat) := do
  let chan ← checkcookie env args 1 "cap_channel_t *"
  let t ← checktable args 2
  let n ← env.len t
  pure (chan, t, sizeT n)

def acceptString : Value → Except Raised Bytes
  | .string s => .ok (cstr s)
  | _ => .error (.argerror 2 "expected strings")

def stringsReading (t n size element : Nat) : Reading Bytes :=
  ⟨t, n, acceptString, fun done _ => hasPlace size element done.length⟩

def limitStrings (api : Nat → List Bytes → Option Nat) : Code Raised (Reply (List Bytes)) := do
  let (chan, t, n) ← Code.ofExcept (channelArguments env args)
  let size := product n 8
  withArray env (stringsReading t n size 8) "malloc" size
    (fun strings => ⟨strings, api chan strings⟩) (fun r => n + r.slots)

def l_cap_grp_limit_cmds (cap_grp_limit_cmds : Nat → List Bytes → Option Nat) :
    Code Raised (Reply (List Bytes)) := limitStrings env args cap_grp_limit_cmds

def l_cap_grp_limit_fields (cap_grp_limit_fields : Nat → List Bytes → Option Nat) :
    Code Raised (Reply (List Bytes)) := limitStrings env args cap_grp_limit_fields

def l_cap_pwd_limit_cmds (cap_pwd_limit_cmds : Nat → List Bytes → Option Nat) :
    Code Raised (Reply (List Bytes)) := limitStrings env args cap_pwd_limit_cmds

def l_cap_pwd_limit_fields (cap_pwd_limit_fields : Nat → List Bytes → Option Nat) :
    Code Raised (Reply (List Bytes)) := limitStrings env args cap_pwd_limit_fields

/-! ### Limits of names and numbers -/

/-- A name, or a number. -/
inductive Id where
  | name (s : Bytes)
  | id (i : Int)
  deriving DecidableEq

def acceptId : Value → Except Raised Id
  | .string s => .ok (.name (cstr s))
  | .integer i => .ok (.id (IntType.uint32.wrap i))
  | _ => .error (.argerror 2 "expected strings or integers")

def Id.name? : Id → Option Bytes
  | .name s => some s
  | .id _ => none

def Id.id? : Id → Option Int
  | .name _ => none
  | .id i => some i

def names (ids : List Id) : List Bytes := ids.filterMap Id.name?

def numbers (ids : List Id) : List Int := ids.filterMap Id.id?

/-- Names go to one array and numbers to the other one. -/
def idFits (nameSize idSize : Nat) (done : List Id) : Id → Bool
  | .name _ => hasPlace nameSize 8 (names done).length
  | .id _ => hasPlace idSize 4 (numbers done).length

def idsReading (t n nameSize idSize : Nat) : Reading Id :=
  ⟨t, n, acceptId, idFits nameSize idSize⟩

def limitIds (api : Nat → List Bytes → List Int → Option Nat) :
    Code Raised (Reply (List Bytes × List Int)) := do
  let (chan, t, n) ← Code.ofExcept (channelArguments env args)
  let nameSize := product n 8
  let idSize := product n 4
  match ← Code.malloc (env.malloc 0 nameSize) with
  | none => Code.raise (.fatal "malloc" ENOMEM)
  | some nameArray =>
    match ← Code.malloc (env.malloc 1 idSize) with
    | none => do
      Code.free nameArray
      Code.raise (.fatal "malloc" ENOMEM)
    | some idArray =>
      withArrays env (idsReading t n nameSize idSize) [idArray, nameArray]
        (fun ids => ⟨(names ids, numbers ids), api chan (names ids) (numbers ids)⟩)
        (fun r => n + r.slots)

def l_cap_grp_limit_groups (cap_grp_limit_groups : Nat → List Bytes → List Int → Option Nat) :
    Code Raised (Reply (List Bytes × List Int)) := limitIds env args cap_grp_limit_groups

def l_cap_pwd_limit_users (cap_pwd_limit_users : Nat → List Bytes → List Int → Option Nat) :
    Code Raised (Reply (List Bytes × List Int)) := limitIds env args cap_pwd_limit_users

/-! ### Address families -/

/-- `lua_tointeger`, stored in an `int`. -/
def family (v : Value) : Int :=
  IntType.int.wrap ((LuaNumbers.tointegerx env.host.cvt v).getD 0)

/-- Anything in the list is taken for a number. -/
def familiesReading (t n size : Nat) : Reading Int :=
  ⟨t, n, fun v => .ok (family env v), fun done _ => hasPlace size 4 done.length⟩

/-- The elements are popped before the limit is returned, which is the first argument. -/
def limitFamilies : Code Raised (List Int) := do
  let _ ← Code.ofExcept (checkcookie env args 1 "cap_net_limit_t *")
  let t ← Code.ofExcept (checktable args 2)
  let len ← Code.ofExcept (env.len t)
  let n := sizeT len
  let size := product n 4
  withArray env (familiesReading env t n size) "malloc" size id (fun _ => 1)

def l_cap_net_limit_addr2name_family : Code Raised (List Int) := limitFamilies env args

def l_cap_net_limit_name2addr_family : Code Raised (List Int) := limitFamilies env args

/-! ### Files -/

/-- What `fileargs_init` and `fileargs_cinit` are given beside the list. -/
structure FileArguments where
  chan : Option Nat
  table : Nat
  flags : Int
  mode : Int
  rights : Nat
  operations : Int
  deriving DecidableEq

/-- The arguments from the table on, which is at `arg`. -/
def fileArguments (chan : Option Nat) (arg : Nat) : Except Raised FileArguments := do
  let t ← checktable args arg
  let flags ← checkinteger env.host (arg + 1) (args (arg + 1))
  let mode ← checkinteger env.host (arg + 2) (args (arg + 2))
  let rights ← checkrights env args (arg + 3)
  let operations ← checkinteger env.host (arg + 4) (args (arg + 4))
  pure ⟨chan, t, IntType.int.wrap flags, IntType.uint16.wrap mode, rights,
    IntType.int.wrap operations⟩

/-- An element that has no string is a null pointer. -/
def argvReading (t n size : Nat) : Reading (Option Bytes) :=
  ⟨t, n, fun v => .ok ((tolstring env.host v).map cstr),
    fun done _ => hasPlace size 8 done.length⟩

/-- A handle, or an error; the slots are those of `new` and of `fail`. -/
def handleSlots : Except Nat Nat → Nat
  | .ok _ => 2
  | .error _ => 3

/-- The length is kept in an `int`. -/
def openFiles (api : FileArguments → List (Option Bytes) → Except Nat Nat) (a : FileArguments) :
    Code Raised (List (Option Bytes) × Except Nat Nat) := do
  let len ← Code.ofExcept (env.len a.table)
  let argc := IntType.int.wrap len
  let size := sizeT (argc * 8)
  withArray env (argvReading env a.table argc.toNat size) "malloc" size
    (fun argv => (argv, api a argv)) (fun r => argc.toNat + handleSlots r.2)

def l_fileargs_init (fileargs_init : FileArguments → List (Option Bytes) → Except Nat Nat) :
    Code Raised (List (Option Bytes) × Except Nat Nat) := do
  let a ← Code.ofExcept (fileArguments env args none 1)
  openFiles env fileargs_init a

def l_fileargs_cinit (fileargs_cinit : FileArguments → List (Option Bytes) → Except Nat Nat) :
    Code Raised (List (Option Bytes) × Except Nat Nat) := do
  let chan ← Code.ofExcept (checkcookie env args 1 "cap_channel_t *")
  let a ← Code.ofExcept (fileArguments env args (some chan) 2)
  openFiles env fileargs_cinit a

/-! ### Symbols -/

/-- A symbol as it is found. -/
structure Symbol where
  name : Bytes
  type : Int
  value : Int
  deriving DecidableEq

/-- The table of what was found, and the number of names that were not; or nothing. -/
abbrev Symbols : Type := Option (List Symbol × Int)

/-- Those with a value go to the table. -/
def found (answer : Option (List Symbol × Int)) : Symbols :=
  answer.map (fun p => (p.1.filter (fun s => s.value ≠ 0), p.2))

/-- The slots of the table, of one of its elements, and of what is written into that; or of the
table and the number. -/
def symbolSlots (n : Nat) : Symbols → Nat
  | none => n + 2
  | some ([], _) => n + 2
  | some _ => n + 3

/-- `calloc` looks for an overflow itself, but one more name than the length is asked for. -/
def l_kvm_nlist2 (kvm_nlist2 : Nat → List Bytes → Option (List Symbol × Int)) :
    Code Raised Symbols := do
  let kd ← Code.ofExcept (checkcookie env args 1 "kvm_t *")
  let t ← Code.ofExcept (checktable args 2)
  let len ← Code.ofExcept (env.len t)
  let n := sizeT len
  let size := (n + 1) % 2 ^ 64 * env.nlistSize
  withArray env (stringsReading t n size env.nlistSize) "calloc" size
    (fun names => found (kvm_nlist2 kd names)) (symbolSlots n)

end Code

end ListArguments
end FluaLibs
