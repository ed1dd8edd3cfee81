import FluaLibs.OracleProgram
import FluaLibs.SysctlIteration

/-! # The casper sysctl binding

A `struct cap_mib` remembers the channel it was created from.  Each method is a
program that may ask that channel (`cap_sysctl(3)`), the kernel directly (`sysctl(3)`,
`sysctlnametomib(3)`), and the allocator.  In capability mode the direct queries are
the ones that must not happen: with them, what the process sees depends on more than
its channels.

The answers are arbitrary.  A failed allocation is one of them, so the error paths of
`strdup` and `malloc` are here too.
-/
namespace FluaLibs
namespace CasperSysctl
open Sysctl (CInt Oid maxname intSize fill memcmp ctlSysctl ctlSysctlNext
  ctlSysctlNextnoskip ctlKern ENOENT ENOMEM)

abbrev Bytes : Type := List UInt8

/-- Who can be asked. -/
inductive Oracle where
  | memory
  | direct
  | channel (chan : Nat)
  deriving DecidableEq

/-- The old value of a query: not wanted, its length only, or a buffer for it. -/
inductive Old where
  | unwanted
  | length
  | buffer (room : Nat)
  deriving DecidableEq

inductive Query where
  | malloc (size : Nat)
  | sysctlnametomib (name : Bytes) (room : Nat)
  | sysctl (name : Oid) (old : Old) (new : Option Bytes)
  deriving DecidableEq

/-- An answer: `errno` when the call fails, the length and the bytes it writes. -/
structure Reply where
  errno : Option Nat
  size : Nat
  data : Bytes
  deriving DecidableEq

/-- A C function of the module. -/
abbrev Code (α : Type) : Type := Program Oracle Query Reply α

def cap_sysctl (chan : Nat) (name : Oid) (old : Old) (new : Option Bytes) : Code Reply :=
  .ask (.channel chan) (.sysctl name old new) .ret

def sysctl (name : Oid) (old : Old) (new : Option Bytes) : Code Reply :=
  .ask .direct (.sysctl name old new) .ret

def sysctlnametomib (name : Bytes) (room : Nat) : Code Reply :=
  .ask .direct (.sysctlnametomib name room) .ret

def malloc (size : Nat) : Code Reply := .ask .memory (.malloc size) .ret

/-- A C string: up to the first NUL. -/
def cstring (s : Bytes) : Bytes := s.takeWhile (fun b => b ≠ 0)

/-- `strdup`, or its `errno`. -/
def strdup (s : Bytes) : Code (Except Nat Bytes) := do
  let reply ← malloc ((cstring s).length + 1)
  match reply.errno with
  | none => pure (.ok (cstring s))
  | some errno => pure (.error errno)

/-! ## Numbers in memory -/

/-- A little-endian number. -/
def littleEndian : Bytes → Nat
  | [] => 0
  | b :: bs => b.toNat + 2 ^ 8 * littleEndian bs

/-- The bytes of a number of `width` bytes. -/
def numberBytes (width : Nat) (v : Int) : Bytes :=
  (List.range width).map (fun i =>
    UInt8.ofNat ((v % 2 ^ (8 * width)).toNat / 2 ^ (8 * i) % 2 ^ 8))

/-- Two's complement. -/
def signed (bits n : Nat) : Int := if n < 2 ^ (bits - 1) then n else (n : Int) - 2 ^ bits

/-- A number of `width` bytes at the start of the memory, which is zero after `data`. -/
def readNumber (width : Nat) (data : Bytes) : Nat := littleEndian (data.take width)

def toCInt (n : Nat) : CInt :=
  ⟨signed 32 (n % 2 ^ 32), by
    have hlt : n % 2 ^ 32 < 2 ^ 32 := Nat.mod_lt n (by decide)
    rw [signed]
    split <;> constructor <;> omega⟩

/-- The ints in memory. -/
def ints : Bytes → Oid
  | a :: b :: c :: d :: rest => toCInt (littleEndian [a, b, c, d]) :: ints rest
  | _ => []

/-! ## Types of values -/

/-- `CTLTYPE`. -/
def ctltypeMask : Nat := 0xf

def CTLTYPE_NODE : Nat := 1
def CTLTYPE_STRING : Nat := 3
def CTLTYPE_OPAQUE : Nat := 5

/-- The width and the signedness of the numeric types: `INT`, `S64`, `UINT`, `LONG`,
`ULONG`, `U64`, `U8`, `U16`, `S8`, `S16`, `S32`, `U32`. -/
def numeric : Nat → Option (Nat × Bool)
  | 2 => some (4, true)
  | 4 => some (8, true)
  | 6 => some (4, false)
  | 7 => some (8, true)
  | 8 => some (8, false)
  | 9 => some (8, false)
  | 0xa => some (1, false)
  | 0xb => some (2, false)
  | 0xc => some (1, true)
  | 0xd => some (2, true)
  | 0xe => some (4, true)
  | 0xf => some (4, false)
  | _ => none

/-- `lua_pushinteger` of a number in memory: a `lua_Integer` has 64 bits. -/
def pushNumber (width : Nat) (isSigned : Bool) (data : Bytes) : Int :=
  let n := readNumber width data
  if isSigned ∨ width = 8 then signed (8 * width) n else n

/-! ## Lua values -/

/-- What goes into and comes out of a call.  Objects are given by their numbers;
`other` is a value the module never looks into. -/
inductive Item where
  | nil
  | integer (i : Int)
  | string (s : Bytes)
  | strerror (errno : Nat)
  | oid (oid : Oid)
  | mib (i : Nat)
  | iterator (i : Nat)
  | other (ref : Nat)
  deriving DecidableEq

/-- The argument of a set, as `luaL_checkinteger` and `luaL_checklstring` read it;
`none` raises. -/
structure Argument where
  integer : Option Int
  lstring : Option Bytes

inductive Raised where
  | argument (n : Nat)
  | fatal (source : String) (errno : Nat)
  | unknownCtltype (ctltype : Nat)
  deriving DecidableEq

/-- How a call ends: with values, with an error, or not within the given rounds. -/
inductive Result where
  | values (items : List Item)
  | raised (error : Raised)
  | running
  deriving DecidableEq

def fail (errno : Nat) : Result := .values [.nil, .strerror errno, .integer errno]

def fatal (source : String) (errno : Nat) : Result := .raised (.fatal source errno)

/-! ## The module -/

/-- `struct cap_mib`. -/
structure CapMib where
  chan : Nat
  oid : Oid
  oidlen : Nat
  prefixSize : Nat
  kind : Nat
  format : Option Bytes
  name : Option Bytes
  description : Option Bytes
  deriving DecidableEq

/-- `memset(mib, 0, sizeof(*mib))`, apart from the channel, which is set before the
object can be used. -/
def CapMib.zero (chan : Nat) : CapMib := ⟨chan, fill [], 0, 0, 0, none, none, none⟩

/-- The OID as the C array and its length. -/
def CapMib.path (mib : CapMib) : Oid := mib.oid.take mib.oidlen

def ctlSysctlName : CInt := 1
def ctlSysctlOidfmt : CInt := 4
def ctlSysctlOiddescr : CInt := 5

/-- `BUFSIZ`. -/
def bufsiz : Nat := 1024

/-- `l_cap_sysctl`: the new object, or what the call returns instead. -/
def l_cap_sysctl (chan : Nat) (name : Option Bytes) : Code (Except Result CapMib) :=
  match name with
  | none =>
    pure (.ok { CapMib.zero chan with oid := fill [ctlKern], oidlen := 1, prefixSize := 0 })
  | some name => do
    let reply ← sysctlnametomib (cstring name) maxname
    match reply.errno with
    | some errno => pure (.error (fail errno))
    | none =>
      match ← strdup name with
      | .error errno => pure (.error (fatal "strdup" errno))
      | .ok name =>
        pure (.ok { CapMib.zero chan with
          oid := fill (ints reply.data)
          oidlen := reply.size
          prefixSize := reply.size * intSize
          name := some name })

/-- `l_cap_mib_oid`. -/
def l_cap_mib_oid (mib : CapMib) : Code (Result × CapMib) :=
  pure (.values [.oid mib.path], mib)

/-- `l_cap_mib_format`. -/
def l_cap_mib_format (mib : CapMib) : Code (Result × CapMib) :=
  match mib.format with
  | some format => pure (.values [.integer mib.kind, .string format], mib)
  | none => do
    let reply ← cap_sysctl mib.chan (ctlSysctl :: ctlSysctlOidfmt :: mib.path) (.buffer bufsiz) none
    match reply.errno with
    | some errno => pure (fail errno, mib)
    | none =>
      let mib := { mib with kind := readNumber 4 reply.data }
      match ← strdup (reply.data.drop 4) with
      | .error errno => pure (fatal "strdup" errno, mib)
      | .ok format =>
        pure (.values [.integer mib.kind, .string format], { mib with format := some format })

/-- `l_cap_mib_name`. -/
def l_cap_mib_name (mib : CapMib) : Code (Result × CapMib) :=
  match mib.name with
  | some name => pure (.values [.string name], mib)
  | none => do
    let reply ← cap_sysctl mib.chan (ctlSysctl :: ctlSysctlName :: mib.path) (.buffer bufsiz) none
    match reply.errno with
    | some errno => pure (fail errno, mib)
    | none =>
      match ← strdup reply.data with
      | .error errno => pure (fatal "strdup" errno, mib)
      | .ok name => pure (.values [.string name], { mib with name := some name })

/-- `l_cap_mib_description`. -/
def l_cap_mib_description (mib : CapMib) : Code (Result × CapMib) :=
  match mib.description with
  | some description => pure (.values [.string description], mib)
  | none => do
    let reply ← cap_sysctl mib.chan (ctlSysctl :: ctlSysctlOiddescr :: mib.path) (.buffer bufsiz)
      none
    match reply.errno with
    | some errno =>
      if errno = ENOENT then pure (.values [.nil], mib) else pure (fail errno, mib)
    | none =>
      match ← strdup reply.data with
      | .error errno => pure (fatal "strdup" errno, mib)
      | .ok description =>
        pure (.values [.string description], { mib with description := some description })

/-- The loop of `l_cap_mib_value` without an argument; `p` says whether there is a
buffer, of `size` bytes. -/
def readLoop (mib : CapMib) : Nat → Bool → Nat → Code (Except Result Reply)
  | 0, _, _ => pure (.error .running)
  | rounds + 1, p, size => do
    let reply ← cap_sysctl mib.chan mib.path (if p then .buffer size else .length) none
    let again : Code (Except Result Reply) := do
      let size := reply.size * 2 % 2 ^ 64  -- in case it grows
      let allocated ← malloc size
      match allocated.errno with
      | some _ => pure (.error (fatal "malloc" ENOMEM))
      | none => readLoop mib rounds true size
    match reply.errno with
    | some errno => if errno ≠ ENOMEM then pure (.error (fail errno)) else again
    | none => if p then pure (.ok reply) else again

/-- The value in the buffer, by its type. -/
def readValue (ctltype : Nat) (reply : Reply) : Result :=
  match numeric ctltype with
  | some (width, isSigned) => .values [.integer (pushNumber width isSigned reply.data)]
  | none =>
    if ctltype = CTLTYPE_STRING then .values [.string (reply.data.take (reply.size - 1))]
    else if ctltype = CTLTYPE_OPAQUE then .values [.string (reply.data.take reply.size)]
    else .raised (.unknownCtltype ctltype)

/-- The bytes of a new value, by its type, with the NUL after a string. -/
def newValue (ctltype : Nat) (argument : Argument) : Except Raised Bytes :=
  match numeric ctltype with
  | some (width, _) =>
    match argument.integer with
    | some i => .ok (numberBytes width i)
    | none => .error (.argument 2)
  | none =>
    if ctltype = CTLTYPE_STRING then
      match argument.lstring with
      | some s => .ok (s ++ [0])
      | none => .error (.argument 2)
    else if ctltype = CTLTYPE_OPAQUE then
      match argument.lstring with
      | some s => .ok s
      | none => .error (.argument 2)
    else .error (.unknownCtltype ctltype)

/-- `l_cap_mib_value` once the type is known. -/
def valueOfType (rounds : Nat) (argument : Option Argument) (mib : CapMib) : Code Result :=
  let ctltype := mib.kind &&& ctltypeMask
  match argument with
  | none =>
    if ctltype = CTLTYPE_NODE then pure (.values [.nil])
    else do
      match ← readLoop mib rounds false 0 with
      | .error result => pure result
      | .ok reply => pure (readValue ctltype reply)
  | some argument =>
    if ctltype = CTLTYPE_NODE then pure (.values [])
    else
      match newValue ctltype argument with
      | .error error => pure (.raised error)
      | .ok new => do
        let reply ← cap_sysctl mib.chan mib.path .unwanted (some new)
        match reply.errno with
        | some errno => pure (fail errno)
        | none => pure (.values [])

/-- `if (mib->format == NULL) (void)l_cap_mib_format(L)`. -/
def ensureFormat (mib : CapMib) : Code (Result × CapMib) :=
  match mib.format with
  | some _ => pure (.values [], mib)
  | none => l_cap_mib_format mib

/-- `l_cap_mib_value`.  What `l_cap_mib_format` returns is ignored, an error is not. -/
def l_cap_mib_value (rounds : Nat) (argument : Option Argument) (mib : CapMib) :
    Code (Result × CapMib) := do
  let format ← ensureFormat mib
  match format.1 with
  | .raised error => pure (.raised error, format.2)
  | _ => do
    let result ← valueOfType rounds argument format.2
    pure (result, format.2)

/-- `l_cap_mib_iter_next` when the control variable is a mib: the next one, or what the
call returns instead. -/
def l_cap_mib_iter_next (request : CInt) (prev : CapMib) : Code (Except Result CapMib) := do
  let reply ← sysctl (ctlSysctl :: request :: prev.path) (.buffer (maxname * intSize)) none
  match reply.errno with
  | some errno =>
    if errno = ENOENT then pure (.error (.values [.nil])) else pure (.error (fail errno))
  | none =>
    let oid := fill (ints reply.data)
    if memcmp (Sysctl.bytes prev.oid) (Sysctl.bytes oid) prev.prefixSize ≠ 0 then
      pure (.error (.values [.nil]))
    else
      pure (.ok { CapMib.zero prev.chan with
        oid := oid, oidlen := reply.size / intSize, prefixSize := prev.prefixSize })

/-! ## A process and its objects -/

/-- A `cap_mib` with the channel it was created from: the one given to `sysctl`, and
for a mib that an iteration yields, that of the mib the iteration went on from. -/
structure Object where
  mib : CapMib
  origin : Nat
  deriving DecidableEq

/-- The mibs, and for each function that `iter` and `iter_noskip` returned its request. -/
structure Objects where
  mibs : List Object
  iterators : List CInt
  deriving DecidableEq

inductive Op where
  | sysctl (chan : Nat) (name : Option Bytes)
  | oid (i : Nat)
  | format (i : Nat)
  | name (i : Nat)
  | description (i : Nat)
  | value (i : Nat) (argument : Option Argument)
  | iter (i : Nat)
  | iter_noskip (i : Nat)
  | next (i : Nat) (state control : Item)

namespace Objects

/-- `luaL_testudata(L, idx, CAP_MIB_METATABLE)`. -/
def testudata (objects : Objects) : Item → Option Object
  | .mib i => objects.mibs[i]?
  | _ => none

/-- A method of mib `i` that may change it. -/
def method (objects : Objects) (i : Nat) (code : CapMib → Code (Result × CapMib)) :
    Code (Result × Objects) :=
  match objects.mibs[i]? with
  | none => pure (.raised (.argument 1), objects)
  | some object => do
    let (result, mib) ← code object.mib
    pure (result, { objects with mibs := objects.mibs.set i { object with mib := mib } })

/-- A function that makes a mib. -/
def create (objects : Objects) (origin : Nat) (code : Code (Except Result CapMib)) :
    Code (Result × Objects) := do
  match ← code with
  | .error result => pure (result, objects)
  | .ok mib =>
    pure (.values [.mib objects.mibs.length],
      { objects with mibs := objects.mibs ++ [⟨mib, origin⟩] })

/-- `l_cap_mib_iter` and `l_cap_mib_iter_noskip`. -/
def iterator (objects : Objects) (i : Nat) (request : CInt) : Code (Result × Objects) :=
  match objects.mibs[i]? with
  | none => pure (.raised (.argument 1), objects)
  | some object =>
    let closure := Item.iterator objects.iterators.length
    pure (.values (if object.mib.prefixSize = 0 then [closure, .mib i, .nil]
      else [closure, .nil, .mib i]),
      { objects with iterators := objects.iterators ++ [request] })

end Objects

/-- An operation on the objects.  `rounds` bounds the loop of a read. -/
def Op.code (rounds : Nat) (objects : Objects) : Op → Code (Result × Objects)
  | .sysctl chan mibname => objects.create chan (l_cap_sysctl chan mibname)
  | .oid i => objects.method i l_cap_mib_oid
  | .format i => objects.method i l_cap_mib_format
  | .name i => objects.method i l_cap_mib_name
  | .description i => objects.method i l_cap_mib_description
  | .value i argument => objects.method i (l_cap_mib_value rounds argument)
  | .iter i => objects.iterator i ctlSysctlNext
  | .iter_noskip i => objects.iterator i ctlSysctlNextnoskip
  | .next i state control =>
    match objects.iterators[i]? with
    | none => pure (.raised (.argument 0), objects)  -- not a function
    | some request =>
      match objects.testudata control with
      | none => pure (.values [state], objects)  -- the initial mib
      | some prev => objects.create prev.origin (l_cap_mib_iter_next request prev.mib)

/-- The channel of the object an operation works on. -/
def Op.origin (objects : Objects) : Op → Option Nat
  | .sysctl chan _ => some chan
  | .oid i | .format i | .name i | .description i | .value i _ | .iter i | .iter_noskip i =>
    objects.mibs[i]?.map Object.origin
  | .next _ _ control => (objects.testudata control).map Object.origin

/-- A question, with the channel of the object it was asked for. -/
structure Entry where
  origin : Option Nat
  oracle : Oracle
  query : Query
  deriving DecidableEq

/-- A process: its objects, the questions asked, and the results of its calls. -/
structure Process where
  objects : Objects
  log : List Entry
  results : List Result
  deriving DecidableEq

def Process.init : Process := ⟨⟨[], []⟩, [], []⟩

def Process.history (p : Process) : History Oracle Query :=
  p.log.map (fun e => (e.oracle, e.query))

abbrev Surroundings : Type := Oracles Oracle Query Reply

/-- One operation. -/
def Process.step (o : Surroundings) (rounds : Nat) (p : Process) (op : Op) : Process :=
  let code := op.code rounds p.objects
  let (result, objects) := code.eval o p.history
  { objects := objects
    log := p.log ++ (code.asked o p.history).map (fun q => ⟨op.origin p.objects, q.1, q.2⟩)
    results := p.results ++ [result] }

/-- A sequence of operations. -/
def run (o : Surroundings) (rounds : Nat) (ops : List Op) : Process :=
  ops.foldl (Process.step o rounds) Process.init

/-! ## What each function asks -/

/-- The oracles of a channel's objects: the channel and the allocator. -/
def Owned (origin : Option Nat) (i : Oracle) : Prop :=
  i = .memory ∨ ∃ chan ∈ origin, i = .channel chan

section Specs
variable {chan : Nat} {mib : CapMib}

/-- The program asks only what an object of `chan` may ask. -/
abbrev Within (chan : Nat) {α : Type} (code : Code α) (post : α → Prop) : Prop :=
  code.Spec (Owned (some chan)) post

/-! ### The methods -/

theorem cap_sysctl_within (name : Oid) (old : Old) (new : Option Bytes) :
    Within chan (cap_sysctl chan name old new) (fun _ => True) :=
  ⟨Or.inr ⟨chan, rfl, rfl⟩, fun _ => trivial⟩

theorem malloc_within (size : Nat) : Within chan (malloc size) (fun _ => True) :=
  ⟨Or.inl rfl, fun _ => trivial⟩

theorem strdup_within (s : Bytes) : Within chan (strdup s) (fun _ => True) := by
  refine (malloc_within _).bind (fun reply _ => ?_)
  cases reply.errno with
  | none => trivial
  | some errno => trivial

/-- A method leaves the channel of its mib. -/
abbrev Kept (mib : CapMib) (r : Result × CapMib) : Prop := r.2.chan = mib.chan

theorem l_cap_mib_oid_within : Within mib.chan (l_cap_mib_oid mib) (Kept mib) :=
  Program.spec_pure rfl

/-- A query for a string that is then kept. -/
theorem queried_within {name : Oid} {failed : Nat → Code (Result × CapMib)}
    {text : Reply → Bytes} {copied : Reply → Except Nat Bytes → Code (Result × CapMib)}
    (hfailed : ∀ errno, Within mib.chan (failed errno) (Kept mib))
    (hcopied : ∀ reply copy, Within mib.chan (copied reply copy) (Kept mib)) :
    Within mib.chan (do
      let reply ← cap_sysctl mib.chan name (.buffer bufsiz) none
      match reply.errno with
      | some errno => failed errno
      | none => do
        let copy ← strdup (text reply)
        copied reply copy) (Kept mib) := by
  refine (cap_sysctl_within _ _ _).bind (fun reply _ => ?_)
  cases reply.errno with
  | some errno => exact hfailed errno
  | none => exact (strdup_within _).bind (fun copy _ => hcopied reply copy)

theorem l_cap_mib_format_within : Within mib.chan (l_cap_mib_format mib) (Kept mib) := by
  rw [l_cap_mib_format]
  cases mib.format with
  | some format => exact Program.spec_pure rfl
  | none =>
    refine queried_within (fun errno => Program.spec_pure rfl) (fun reply copy => ?_)
    cases copy with
    | error errno => exact Program.spec_pure rfl
    | ok format => exact Program.spec_pure rfl

theorem l_cap_mib_name_within : Within mib.chan (l_cap_mib_name mib) (Kept mib) := by
  rw [l_cap_mib_name]
  cases mib.name with
  | some name => exact Program.spec_pure rfl
  | none =>
    refine queried_within (fun errno => Program.spec_pure rfl) (fun reply copy => ?_)
    cases copy with
    | error errno => exact Program.spec_pure rfl
    | ok name => exact Program.spec_pure rfl

theorem l_cap_mib_description_within :
    Within mib.chan (l_cap_mib_description mib) (Kept mib) := by
  rw [l_cap_mib_description]
  cases mib.description with
  | some description => exact Program.spec_pure rfl
  | none =>
    refine queried_within (fun errno => ?_) (fun reply copy => ?_)
    · by_cases hnoent : errno = ENOENT
      · rw [if_pos hnoent]
        exact Program.spec_pure rfl
      · rw [if_neg hnoent]
        exact Program.spec_pure rfl
    · cases copy with
      | error errno => exact Program.spec_pure rfl
      | ok description => exact Program.spec_pure rfl

theorem readLoop_within (rounds : Nat) (p : Bool) (size : Nat) :
    Within mib.chan (readLoop mib rounds p size) (fun _ => True) := by
  induction rounds generalizing p size with
  | zero => trivial
  | succ rounds ih =>
    refine (cap_sysctl_within _ _ _).bind (fun reply _ => ?_)
    -- both ways round the loop: a buffer that was too small, or none yet
    have hagain : ∀ size, Within mib.chan (do
        let allocated ← malloc size
        match allocated.errno with
        | some _ => pure (.error (fatal "malloc" ENOMEM))
        | none => readLoop mib rounds true size) (fun _ => True) := by
      intro size
      refine (malloc_within size).bind (fun allocated _ => ?_)
      cases allocated.errno with
      | some errno => trivial
      | none => exact ih true size
    cases reply.errno with
    | some errno =>
      by_cases hnomem : errno ≠ ENOMEM
      · simp only [if_pos hnomem]
        trivial
      · simp only [if_neg hnomem]
        exact hagain _
    | none =>
      cases p with
      | true => trivial
      | false => exact hagain _

theorem valueOfType_within (rounds : Nat) (argument : Option Argument) :
    Within mib.chan (valueOfType rounds argument mib) (fun _ => True) := by
  by_cases hnode : mib.kind &&& ctltypeMask = CTLTYPE_NODE
  · cases argument <;> simp only [valueOfType, if_pos hnode] <;> trivial
  cases argument with
  | none =>
    simp only [valueOfType, if_neg hnode]
    refine (readLoop_within rounds false 0).bind (fun read _ => ?_)
    cases read with
    | error result => trivial
    | ok reply => trivial
  | some argument =>
    simp only [valueOfType, if_neg hnode]
    cases newValue (mib.kind &&& ctltypeMask) argument with
    | error error => trivial
    | ok new =>
      refine (cap_sysctl_within _ _ _).bind (fun reply _ => ?_)
      cases reply.errno with
      | some errno => trivial
      | none => trivial

theorem l_cap_mib_value_within (rounds : Nat) (argument : Option Argument) :
    Within mib.chan (l_cap_mib_value rounds argument mib) (Kept mib) := by
  have hformat : Within mib.chan (ensureFormat mib) (Kept mib) := by
    rw [ensureFormat]
    cases mib.format with
    | some format => exact Program.spec_pure rfl
    | none => exact l_cap_mib_format_within
  refine hformat.bind (fun format hkept => ?_)
  have hvalue : Within mib.chan (do
      let result ← valueOfType rounds argument format.2
      pure (result, format.2)) (Kept mib) := by
    have hkept : format.2.chan = mib.chan := hkept
    rw [← hkept]
    exact (valueOfType_within rounds argument).bind (fun result _ => Program.spec_pure hkept)
  cases format.1 with
  | raised error => exact Program.spec_pure hkept
  | values items => exact hvalue
  | running => exact hvalue

end Specs

/-! ### The operations -/

/-- The operations that ask no more than the channel: creation with no name, every
method, and the first call of an iterator, which only returns its state. -/
def Op.ThroughChannel : Op → Prop
  | .sysctl _ mibname => mibname = none
  | .next _ _ control => ∀ i, control ≠ .mib i
  | .oid _ | .format _ | .name _ | .description _ | .value _ _ | .iter _ | .iter_noskip _ => True

/-- What an operation may ask. -/
def Op.Asks (op : Op) (objects : Objects) (i : Oracle) : Prop :=
  Owned (op.origin objects) i ∨ (i = .direct ∧ ¬ op.ThroughChannel)

/-- Each mib has the channel it was created from. -/
def Objects.Sound (objects : Objects) : Prop :=
  ∀ object ∈ objects.mibs, object.mib.chan = object.origin

/-- A function that makes mibs of a channel only. -/
abbrev Makes (origin : Nat) (r : Except Result CapMib) : Prop :=
  ∀ mib, r = .ok mib → mib.chan = origin

theorem direct_spec {s : Oracle → Prop} (h : s .direct) (q : Query) :
    (Program.ask .direct q .ret : Code Reply).Spec s (fun _ => True) :=
  ⟨h, fun _ => trivial⟩

theorem l_cap_sysctl_spec {objects : Objects} (chan : Nat) (mibname : Option Bytes) :
    (l_cap_sysctl chan mibname).Spec (Op.Asks (.sysctl chan mibname) objects) (Makes chan) := by
  have hmakes : ∀ mib : CapMib, mib.chan = chan → Makes chan (.ok mib) := by
    intro mib hchan made hmade
    cases hmade
    exact hchan
  cases mibname with
  | none => exact Program.spec_pure (hmakes _ rfl)
  | some mibname =>
    have hdirect : Op.Asks (.sysctl chan (some mibname)) objects .direct :=
      Or.inr ⟨rfl, fun hnone => by cases hnone⟩
    refine (direct_spec hdirect (.sysctlnametomib _ _)).bind (fun reply _ => ?_)
    cases reply.errno with
    | some errno => exact Program.spec_pure (fun mib hmib => by cases hmib)
    | none =>
      refine ((strdup_within mibname).mono (fun i => Or.inl) (fun _ h => h)).bind
        (fun copy _ => ?_)
      cases copy with
      | error errno => exact Program.spec_pure (fun mib hmib => by cases hmib)
      | ok copy => exact Program.spec_pure (hmakes _ rfl)

theorem l_cap_mib_iter_next_spec (request : CInt) (prev : CapMib) :
    (l_cap_mib_iter_next request prev).Spec (fun i => i = .direct) (Makes prev.chan) := by
  refine (direct_spec (s := fun i => i = .direct) rfl (.sysctl _ _ _)).bind (fun reply _ => ?_)
  have herror : ∀ result, Makes prev.chan (.error result) := fun result mib hmib => by cases hmib
  cases reply.errno with
  | some errno =>
    by_cases hnoent : errno = ENOENT
    · simp only [if_pos hnoent]
      exact Program.spec_pure (herror _)
    · simp only [if_neg hnoent]
      exact Program.spec_pure (herror _)
  | none =>
    dsimp only
    split
    · exact Program.spec_pure (herror _)
    · refine Program.spec_pure (fun mib hmib => ?_)
      cases hmib
      rfl

section Objects
variable {objects : Objects} (h : objects.Sound)
include h

theorem method_spec (i : Nat) {code : CapMib → Code (Result × CapMib)}
    (hcode : ∀ mib, Within mib.chan (code mib) (Kept mib)) :
    (objects.method i code).Spec (Owned (objects.mibs[i]?.map Object.origin))
      (fun r => r.2.Sound) := by
  rw [Objects.method]
  cases hi : objects.mibs[i]? with
  | none => exact Program.spec_pure h
  | some object =>
    have hchan := h object (List.mem_of_getElem? hi)
    have hwithin := hcode object.mib
    rw [Within, hchan] at hwithin
    refine hwithin.bind (fun r hkept => Program.spec_pure ?_)
    intro x hx
    rcases List.mem_or_eq_of_mem_set hx with hmem | rfl
    · exact h x hmem
    · exact hkept.trans hchan

theorem create_spec {s : Oracle → Prop} (origin : Nat) {code : Code (Except Result CapMib)}
    (hcode : code.Spec s (Makes origin)) :
    (objects.create origin code).Spec s (fun r => r.2.Sound) := by
  refine hcode.bind (fun made hmakes => ?_)
  cases made with
  | error result => exact Program.spec_pure h
  | ok mib =>
    refine Program.spec_pure (fun x hx => ?_)
    rcases List.mem_append.mp hx with hmem | hmem
    · exact h x hmem
    · rw [List.mem_singleton.mp hmem]
      exact hmakes mib rfl

theorem iterator_spec {s : Oracle → Prop} (i : Nat) (request : CInt) :
    (objects.iterator i request).Spec s (fun r => r.2.Sound) := by
  rw [Objects.iterator]
  cases objects.mibs[i]? with
  | none => exact Program.spec_pure h
  | some object => exact Program.spec_pure h

/-- **What an operation asks**, and that the objects keep their channels. -/
theorem Op.code_spec (rounds : Nat) (op : Op) :
    (op.code rounds objects).Spec (op.Asks objects) (fun r => r.2.Sound) := by
  cases op with
  | sysctl chan mibname => exact create_spec h chan (l_cap_sysctl_spec chan mibname)
  | oid i =>
    exact (method_spec h i (fun mib => l_cap_mib_oid_within)).mono (fun _ => Or.inl)
      (fun _ hsound => hsound)
  | format i =>
    exact (method_spec h i (fun mib => l_cap_mib_format_within)).mono (fun _ => Or.inl)
      (fun _ hsound => hsound)
  | name i =>
    exact (method_spec h i (fun mib => l_cap_mib_name_within)).mono (fun _ => Or.inl)
      (fun _ hsound => hsound)
  | description i =>
    exact (method_spec h i (fun mib => l_cap_mib_description_within)).mono (fun _ => Or.inl)
      (fun _ hsound => hsound)
  | value i argument =>
    exact (method_spec h i (fun mib => l_cap_mib_value_within rounds argument)).mono
      (fun _ => Or.inl) (fun _ hsound => hsound)
  | iter i => exact iterator_spec h i _
  | iter_noskip i => exact iterator_spec h i _
  | next i state control =>
    rw [Op.code]
    cases objects.iterators[i]? with
    | none => exact Program.spec_pure h
    | some request =>
      cases hcontrol : objects.testudata control with
      | none => exact Program.spec_pure h
      | some prev =>
        -- the control value passed the check, so it is a mib
        obtain ⟨j, rfl, hj⟩ : ∃ j, control = .mib j ∧ objects.mibs[j]? = some prev := by
          cases control with
          | mib j => exact ⟨j, rfl, hcontrol⟩
          | _ => cases hcontrol
        have hmakes := l_cap_mib_iter_next_spec request prev.mib
        rw [h prev (List.mem_of_getElem? hj)] at hmakes
        refine create_spec h prev.origin (hmakes.mono (fun i hi => ?_) (fun _ hm => hm))
        exact Or.inr ⟨hi, fun hthrough => hthrough j rfl⟩

end Objects

/-- The objects an operation needs exist. -/
def Op.Possible (objects : Objects) : Op → Prop
  | .next i _ control => (objects.iterators[i]?).isSome ∧
      ∀ j, control = .mib j → (objects.mibs[j]?).isSome
  | _ => True

/-- **The condition is exact**: an operation that does not meet it asks the kernel
directly, whatever is replied. -/
theorem Op.asks_direct {objects : Objects} {op : Op} (hpossible : op.Possible objects)
    (hop : ¬ op.ThroughChannel) (o : Surroundings) (rounds : Nat)
    (history : History Oracle Query) :
    ∃ q, (Oracle.direct, q) ∈ (op.code rounds objects).asked o history := by
  cases op with
  | sysctl chan mibname =>
    cases mibname with
    | none => exact absurd rfl hop
    | some mibname => exact ⟨_, List.mem_cons_self ..⟩
  | next i state control =>
    obtain ⟨j, rfl⟩ : ∃ j, control = .mib j := by
      by_contra hnone
      exact hop (fun j hj => hnone ⟨j, hj⟩)
    obtain ⟨request, hrequest⟩ := Option.isSome_iff_exists.mp hpossible.1
    obtain ⟨prev, hprev⟩ := Option.isSome_iff_exists.mp (hpossible.2 j rfl)
    have hcode : (Op.next i state (.mib j)).code rounds objects =
        objects.create prev.origin (l_cap_mib_iter_next request prev.mib) := by
      rw [Op.code, hrequest]
      show (match objects.mibs[j]? with
        | none => _
        | some prev => _) = _
      rw [hprev]
    rw [hcode]
    exact ⟨_, List.mem_cons_self ..⟩
  | oid | format | name | description | value | iter | iter_noskip => exact absurd trivial hop

/-! ## Every run -/

/-- Every question for an object goes to its channel, or to the allocator. -/
def Process.Confined (p : Process) : Prop := ∀ e ∈ p.log, Owned e.origin e.oracle

/-- The same replies from everyone but the kernel. -/
def SameReplies (o o' : Surroundings) : Prop := ∀ i, i ≠ .direct → o' i = o i

section Step
variable {o : Surroundings} {rounds : Nat} {p : Process} {op : Op}

theorem Process.step_sound (h : p.objects.Sound) : (p.step o rounds op).objects.Sound :=
  (Op.code_spec h rounds op).eval p.history

/-- An operation that meets the condition asks only what its object may ask. -/
theorem Op.owned_of_throughChannel (hop : op.ThroughChannel) {i : Oracle}
    (h : op.Asks p.objects i) : Owned (op.origin p.objects) i :=
  h.resolve_right (fun hdirect => hdirect.2 hop)

theorem Process.step_confined (hsound : p.objects.Sound) (h : p.Confined)
    (hop : op.ThroughChannel) : (p.step o rounds op).Confined := by
  intro e he
  rcases List.mem_append.mp he with hold | hnew
  · exact h e hold
  · obtain ⟨q, hq, rfl⟩ := List.mem_map.mp hnew
    exact Op.owned_of_throughChannel hop ((Op.code_spec hsound rounds op).mem_asked _ q hq)

theorem Process.step_congr {o' : Surroundings} (ho : SameReplies o o') (h : p.objects.Sound)
    (hop : op.ThroughChannel) : p.step o' rounds op = p.step o rounds op := by
  have hagree : ∀ i, op.Asks p.objects i → o' i = o i := by
    intro i hi
    refine ho i ?_
    rcases Op.owned_of_throughChannel hop hi with rfl | ⟨chan, _, rfl⟩
    · exact fun hdirect => by cases hdirect
    · exact fun hdirect => by cases hdirect
  obtain ⟨heval, hasked⟩ := (Op.code_spec h rounds op).eval_congr hagree p.history
  rw [Process.step, Process.step, heval, hasked]

end Step

theorem foldl_confined {o o' : Surroundings} (ho : SameReplies o o') {rounds : Nat} {ops : List Op}
    (hops : ∀ op ∈ ops, op.ThroughChannel) {p : Process} (hsound : p.objects.Sound)
    (h : p.Confined) :
    (ops.foldl (Process.step o rounds) p).Confined ∧
      ops.foldl (Process.step o' rounds) p = ops.foldl (Process.step o rounds) p := by
  induction ops generalizing p with
  | nil => exact ⟨h, rfl⟩
  | cons op ops ih =>
    have hop := hops op (List.mem_cons_self ..)
    have hstep : (p.step o rounds op).objects.Sound := Process.step_sound hsound
    have ih := ih (fun op' hmem => hops op' (List.mem_cons_of_mem op hmem)) hstep
      (Process.step_confined hsound h hop)
    refine ⟨ih.1, ?_⟩
    rw [List.foldl_cons, List.foldl_cons, Process.step_congr ho hsound hop]
    exact ih.2

/-- **Confinement**: in every run without creation by name and without a step of an
iteration, the objects of a channel ask that channel only, and what the kernel would
have said directly makes no difference. -/
theorem cap_sysctl_confined (o : Surroundings) (rounds : Nat) (ops : List Op)
    (h : ∀ op ∈ ops, op.ThroughChannel) :
    (run o rounds ops).Confined ∧
      ∀ o', SameReplies o o' → (run o' rounds ops).results = (run o rounds ops).results := by
  have hsound : Process.init.objects.Sound := fun object hmem => nomatch hmem
  have hconfined : Process.init.Confined := fun e hmem => nomatch hmem
  refine ⟨(foldl_confined (fun i _ => rfl) h hsound hconfined).1, fun o' ho => ?_⟩
  rw [run, run, (foldl_confined ho h hsound hconfined).2]

/-- Every channel answers with one text; the kernel has no such OID, or always the
same one. -/
def answering (text : Bytes) (direct : Reply) : Surroundings
  | .memory, _, _ => ⟨none, 0, []⟩
  | .direct, _, _ => direct
  | .channel _, _, _ => ⟨none, text.length, text⟩

/-- The name of the MIB an iteration starts with. -/
def startOps : List Op := [.sysctl 3 none, .iter 0, .next 0 (.mib 0) .nil, .name 0]

theorem cap_sysctl_confined_start :
    (run (answering [107, 0] ⟨some ENOENT, 0, []⟩) 8 startOps).results.getLast? =
        some (.values [.string [107]]) ∧
      (run (answering [107, 0] ⟨some ENOENT, 0, []⟩) 8 startOps).Confined :=
  ⟨by decide, (cap_sysctl_confined _ 8 startOps (by
    intro op hop
    simp only [startOps, List.mem_cons, List.not_mem_nil, or_false] at hop
    rcases hop with rfl | rfl | rfl | rfl
    · rfl
    · trivial
    · exact fun i hi => by cases hi
    · trivial)).1⟩

/-- Looking a name up and iterating ask the kernel directly, and return what it says. -/
theorem not_cap_sysctl_confined :
    (¬ ∀ o rounds ops, (run o rounds ops).Confined) ∧
      ¬ ∀ o rounds ops o', SameReplies o o' →
        (run o' rounds ops).results = (run o rounds ops).results := by
  constructor
  · intro h
    have hentry := h (answering [] ⟨some ENOENT, 0, []⟩) 0 [.sysctl 3 (some [107])]
      ⟨some 3, .direct, .sysctlnametomib [107] 24⟩ (by decide)
    rcases hentry with hmemory | ⟨chan, _, hchan⟩
    · cases hmemory
    · cases hchan
  · intro h
    have hsame := h (answering [] ⟨some ENOENT, 0, []⟩) 0
      [.sysctl 3 none, .iter 0, .next 0 .nil (.mib 0)]
      (answering [] ⟨none, 4, [1, 0, 0, 0]⟩) (by
        intro i hi
        cases i with
        | direct => exact absurd rfl hi
        | memory => rfl
        | channel chan => rfl)
    revert hsame
    decide

end CasperSysctl
end FluaLibs
