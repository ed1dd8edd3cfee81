import FluaLibs.ListArguments

/-! # Headers and trailers

`socket.sendfile` takes a table with two lists of strings, and makes an array for each of them
before the flags are looked at.  Both lists are read onto the stack, where every string takes two
slots: one for the element, and one for what `luaL_tolstring` makes of it.
-/
namespace FluaLibs
namespace Sendfile
open LuaArguments Held ListArguments

/-- `tostring` is what `luaL_tolstring` makes of a string, whose metatable may have a
`__tostring`. -/
structure SendEnv extends ListEnv where
  getfield : Nat → String → Except Raised Value
  tostring : Bytes → Except Raised Bytes

/-- One of the two vectors of `struct sf_hdtr`: how many strings there are, and the strings. -/
structure Half where
  count : Int
  strings : List Bytes
  deriving DecidableEq

/-- A vector, and the array if there is one. -/
structure Iovecs where
  array : List Nat
  half : Half

/-- What `sendfile` is given. -/
structure Given where
  fd : Int
  s : Int
  offset : Int
  nbytes : Nat
  hdtr : Option (Half × Half)
  readahead : Int
  flags : Int
  deriving DecidableEq

section Code
variable (env : SendEnv) (args : Nat → Option Value)

/-- What `luaL_tolstring` makes of the element after `i`, which is on the stack; it needs two
slots more to look for a metamethod. -/
def takeString (size : Nat) (message : String) (arrays : List Nat) (below i : Nat) :
    Value → Code Raised Bytes
  | .string s => do
    Code.demand (decide (below + 2 * i + 3 ≤ minstack))
    Code.demand (hasPlace size 16 i)
    Code.ofExcept (env.tostring s)
  | _ => do
    Code.freeAll arrays
    Code.raise (.error message)

/-- The element after `i`.  There are `below` values under the list's strings on the stack. -/
def readString (t size : Nat) (message : String) (arrays : List Nat) (below i : Nat) :
    Code Raised Bytes := do
  Code.demand (decide (below + 2 * i + 1 ≤ minstack))
  let v ← Code.ofExcept (env.geti t (i + 1))
  takeString env size message arrays below i v

def readStrings (t size : Nat) (message : String) (arrays : List Nat) (below : Nat) :
    Nat → Nat → Code Raised (List Bytes)
  | 0, _ => pure []
  | n + 1, i => do
    let string ← readString env t size message arrays below i
    let strings ← readStrings t size message arrays below n (i + 1)
    pure (string :: strings)

/-- An array of some number of strings, which is not zero. -/
def makeIovecs (t : Nat) (message : String) (which : Nat) (earlier : List Nat) (below : Nat)
    (count : Int) : Code Raised Iovecs := do
  let size := sizeT (count * 16)
  match ← Code.malloc (env.malloc which size) with
  | none => do
    Code.freeAll earlier
    Code.raise (.fatal "malloc" ENOMEM)
  | some array => do
    let strings ← readStrings env t size message (array :: earlier) below count.toNat 0
    pure ⟨[array], count, strings⟩

/-- The vector of a list.  No array is made for an empty one. -/
def listIovecs (message : String) (which : Nat) (earlier : List Nat) (below t : Nat) :
    Code Raised Iovecs := do
  let len ← Code.ofExcept (env.len t)
  let count := IntType.int.wrap len
  if count = 0 then pure ⟨[], 0, []⟩
  else makeIovecs env t message which earlier below count

/-- One half of `get_hdtr` when its field has been read.  It finds `earlier` in memory. -/
def takeIovecs (message : String) (which : Nat) (earlier : List Nat) (below : Nat) :
    Value → Code Raised Iovecs
  | .table t => do
    Code.demand (decide (below + 2 ≤ minstack))
    listIovecs env message which earlier (below + 1) t
  | _ => pure ⟨[], 0, []⟩

def getIovecs (hdtr : Nat) (field message : String) (which : Nat) (earlier : List Nat)
    (below : Nat) : Code Raised Iovecs := do
  Code.demand (decide (below + 1 ≤ minstack))
  let v ← Code.ofExcept (env.getfield hdtr field)
  takeIovecs env message which earlier below v

/-- The slots of a vector: the field, and two for each string. -/
def Half.slots (half : Half) : Nat := 1 + 2 * half.strings.length

def get_hdtr (hdtr : Nat) : Code Raised (Iovecs × Iovecs) := do
  let headers ← getIovecs env hdtr "headers" "headers must be strings" 0 [] 0
  let trailers ← getIovecs env hdtr "trailers" "trailers must be strings" 1 headers.array
    headers.half.slots
  pure (headers, trailers)

/-- `luaL_optinteger` -/
def optinteger (arg : Nat) (default : Int) : Except Raised Int :=
  if isnoneornil (args arg) = true then .ok default else checkinteger env.host arg (args arg)

/-- The flags, which are at `arg`, and the readahead behind them. -/
def lastArguments (arg : Nat) : Except Raised (Int × Int) := do
  let flags ← optinteger env args arg 0
  let readahead ← optinteger env args (arg + 1) 0
  pure (IntType.int.wrap flags, IntType.int.wrap readahead)

/-- The slots of a number, or of `fail`. -/
def resultSlots : Except Nat Int → Nat
  | .ok _ => 1
  | .error _ => 3

def Given.withLast (given : Given) (last : Int × Int) : Given :=
  { given with flags := last.1, readahead := last.2 }

/-- `l_sendfile` from the flags on, with `slots` values on the stack. -/
def callSendfile (sendfile : Given → Except Nat Int) (given : Given) (arrays : List Nat)
    (arg slots : Nat) : Code Raised (Given × Except Nat Int) := do
  let last ← Code.ofExcept (lastArguments env args arg)
  Code.touchAll arrays
  let result := sendfile (given.withLast last)
  Code.demand (decide (slots + resultSlots result ≤ minstack))
  pure (given.withLast last, result)

/-- `lua_istable`, and which table it is. -/
def istable : Option Value → Option Nat
  | some (.table t) => some t
  | _ => none

/-- The arguments before the table. -/
def firstArguments : Except Raised Given := do
  let fd ← checkfd env.host 1 (args 1)
  let s ← checkfd env.host 2 (args 2)
  let offset ← checkinteger env.host 3 (args 3)
  let nbytes ← checkinteger env.host 4 (args 4)
  pure ⟨fd, s, offset, sizeT nbytes, none, 0, 0⟩

/-- `l_sendfile` with a table. -/
def callTable (sendfile : Given → Except Nat Int) (given : Given) (t : Nat) :
    Code Raised (Given × Except Nat Int) := do
  let (headers, trailers) ← get_hdtr env t
  callSendfile env args sendfile { given with hdtr := some (headers.half, trailers.half) }
    (trailers.array ++ headers.array) 6 (headers.half.slots + trailers.half.slots)

def l_sendfile (sendfile : Given → Except Nat Int) : Code Raised (Given × Except Nat Int) := do
  let given ← Code.ofExcept (firstArguments env args)
  match istable (args 5) with
  | some t => callTable env args sendfile given t
  | none => callSendfile env args sendfile given [] 5 0

end Code

end Sendfile
end FluaLibs
