import FluaLibs.LuaNumbers

/-! # The arguments of a C function

A C function finds its arguments on the stack from index 1 on and checks them before it
uses them; an argument that is missing is like nil to most checks.  `Host` is what the
checks need from outside: how Lua reads and writes numbers, and the open files.
-/
namespace FluaLibs

namespace LuaArguments

/-- The errors that a C function raises. -/
inductive Raised where
  | argerror (arg : Int) (message : String)
  | typeerror (arg : Int) (expected : String)
  | fatal (source : String) (error : Nat)
  | error (message : String)
  | metamethod (value : Value)
  deriving DecidableEq

/-- `ENOMEM` -/
def ENOMEM : Nat := 12

/-- `MAX_SIZE`: Lua refuses a string of that size. -/
def MAX_SIZE : Nat := 2 ^ 63 - 1

/-- A `luaL_Stream`: whether its `FILE *` is there, and what `fileno` gives for it. -/
structure Stream where
  isOpen : Bool
  fileno : Except Nat Int

structure Host where
  /-- How a string reads as a number. -/
  cvt : StringToNumber
  /-- How a float is written. -/
  fmt : UInt64 → List UInt8
  /-- The userdata that are file handles. -/
  stream : Nat → Option Stream

/-- A host that reads no numbers and has no files. -/
def Host.plain : Host where
  cvt _ := none
  fmt _ := []
  stream _ := none

/-- `LUA_INTEGER_FMT` -/
def decimal (i : Int) : List UInt8 := (toString i).toList.map (fun c => UInt8.ofNat c.toNat)

section Checks
variable (host : Host)

/-- `lua_tolstring`, which takes strings and numbers. -/
def tolstring : Value → Option (List UInt8)
  | .string s => some s
  | .integer i => some (decimal i)
  | .number bits => some (host.fmt bits)
  | _ => none

/-- `lua_isnumber` -/
def isnumber (v : Value) : Bool := (LuaNumbers.tonumberx host.cvt v).isSome

/-- `luaL_checkinteger` -/
def checkinteger (arg : Int) (v : Option Value) : Except Raised Int :=
  match v.bind (LuaNumbers.tointegerx host.cvt) with
  | some i => .ok i
  | none =>
    if v.any (isnumber host) then .error (.argerror arg "number has no integer representation")
    else .error (.typeerror arg "number")

/-- `luaL_checklstring` -/
def checklstring (arg : Int) (v : Option Value) : Except Raised (List UInt8) :=
  match v.bind (tolstring host) with
  | some s => .ok s
  | none => .error (.typeerror arg "string")

/-- `luaL_checkudata` for a file handle. -/
def checkstream (arg : Int) (v : Option Value) : Except Raised Stream :=
  match v with
  | some (.userdata u) =>
    match host.stream u with
    | some s => .ok s
    | none => .error (.typeerror arg "FILE*")
  | _ => .error (.typeerror arg "FILE*")

/-- `checkfd` -/
def checkfd (arg : Int) (v : Option Value) : Except Raised Int :=
  match v with
  | some (.integer fd) => .ok (IntType.int.wrap fd)
  | v => do
    let s ← checkstream host arg v
    if s.isOpen then
      match s.fileno with
      | .ok fd => .ok fd
      | .error errno => .error (.fatal "fileno" errno)
    else .error (.argerror arg "invalid file handle (closed)")

end Checks

/-- `lua_isnoneornil` -/
def isnoneornil : Option Value → Bool
  | none | some .nil => true
  | _ => false

/-- What a string is to a C function that is not told its length: the part before the first
NUL. -/
def cstr (s : List UInt8) : List UInt8 := s.takeWhile (fun b => b ≠ 0)

/-- A check that is followed by something else. -/
theorem bind_eq_ok_iff {α β : Type} {x : Except Raised α} {f : α → Except Raised β} {b : β} :
    (x >>= f) = .ok b ↔ ∃ a, x = .ok a ∧ f a = .ok b := by
  cases x with
  | error e =>
    constructor
    · intro h
      cases h
    · rintro ⟨a, ha, -⟩
      cases ha
  | ok a =>
    constructor
    · exact fun h => ⟨a, rfl, h⟩
    · rintro ⟨a, ha, hf⟩
      cases ha
      exact hf

@[simp] theorem checkinteger_integer (host : Host) (arg i : Int) :
    checkinteger host arg (some (.integer i)) = .ok i := rfl

@[simp] theorem checkfd_integer (host : Host) (arg fd : Int) :
    checkfd host arg (some (.integer fd)) = .ok (IntType.int.wrap fd) := rfl

end LuaArguments
end FluaLibs
