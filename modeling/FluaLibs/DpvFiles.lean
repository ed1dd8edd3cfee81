import FluaLibs.DpvConfiguration
import FluaLibs.HeldMemory

/-! # The files of a progress view

`dpv` makes an array of nodes from its second table, with copies of the strings, and the library
then calls `action` for one node after the other, as often as it likes.  Each call shows the
script a table with what is in the node, and puts back what the script has made of it: new
copies, for which the old ones are freed.  A stream for the output is made once for each node and
kept in the registry.  In the end `freenodes` releases everything.

A node that is refused is not yet one of those that `freenodes` is told of, so its copies stay
behind.  `l_dpv` leaves the table of every file on the Lua stack and asks for no room there, so
about 16 files fill what Lua promises; the stack has no capacity here (`StackCapacity` has one).
-/
namespace FluaLibs
namespace Dpv
open LuaArguments Held

/-- The members of `struct dpv_file_node` that are numbers. -/
inductive FileNumber where
  | status | length | read
  deriving DecidableEq

inductive FileText where
  | msg | name | path
  deriving DecidableEq

def FileNumber.field : FileNumber → String
  | .status => "status"
  | .length => "length"
  | .read => "read"

def FileText.field : FileText → String
  | .msg => "msg"
  | .name => "name"
  | .path => "path"

/-- `struct file_node`; `outref` is a reference in the registry. -/
structure FileNode where
  number : FileNumber → Int
  msg : Option Copy
  name : Copy
  path : Copy
  outref : Option Nat

/-- What the nodes are made from: the second table, `dpv.h`, and the memory that there is. -/
structure FileEnv where
  host : Host
  type : FileNumber → IntType
  STATUS_RUNNING : Int
  STATUS_FAILED : Int
  len : Except Raised Int
  geti : Nat → Except Raised Value
  getfield : Nat → String → Except Raised Value
  calloc : Bool
  strdup : Nat → FileText → Bool
  /-- A message with `%m`. -/
  explain : String → Bytes

/-! ## The code -/

def FileNode.copies (node : FileNode) : List Nat :=
  (node.msg.map Copy.address).toList ++ [node.name.address, node.path.address]

/-- What `freenodes` releases of a node, in this order. -/
def FileNode.held (node : FileNode) : List Nat := node.outref.toList ++ node.copies

def freenodes (array : Nat) (nodes : List FileNode) : Code Raised Unit := do
  Code.freeAll (nodes.flatMap FileNode.held)
  Code.free array

/-- `free` of a pointer that may be `NULL`. -/
def freeCopy : Option Copy → Code Raised Unit
  | none => pure ()
  | some c => Code.free c.address

/-- `strdup` -/
def copyText (there : Bool) (s : Bytes) : Code Raised (Option Copy) := do
  match ← Code.malloc there with
  | some a => pure (some ⟨a, cstr s⟩)
  | none => pure none

section Check
variable (env : FileEnv) (array : Nat) (done : List FileNode)

/-- An error is raised after the nodes so far have been freed. -/
def giveUp {α : Type} (e : Raised) : Code Raised α := do
  freenodes array done
  Code.raise e

def checkNumber (r : Nat) (m : FileNumber) (absent : Int) : Code Raised Int :=
  match env.getfield r m.field with
  | .error e => Code.raise e
  | .ok .nil => pure absent
  | .ok (.integer i) => pure ((env.type m).wrap i)
  | .ok _ => giveUp array done (.argerror 2 (m.field ++ ": integer expected"))

def checkCopy (i : Nat) (m : FileText) (s : Bytes) : Code Raised Copy := do
  match ← copyText (env.strdup i m) s with
  | some c => pure c
  | none => giveUp array done (.fatal "strdup" ENOMEM)

def checkText (i r : Nat) (m : FileText) : Code Raised Copy :=
  match env.getfield r m.field with
  | .error e => Code.raise e
  | .ok (.string s) => checkCopy env array done i m s
  | .ok _ => giveUp array done (.argerror 2 (m.field ++ ": string expected"))

/-- The message may be missing. -/
def checkMsg (i r : Nat) : Code Raised (Option Copy) :=
  match env.getfield r FileText.msg.field with
  | .error e => Code.raise e
  | .ok .nil => pure none
  | .ok (.string s) => do
    let c ← checkCopy env array done i .msg s
    pure (some c)
  | .ok _ => giveUp array done (.argerror 2 (FileText.msg.field ++ ": string expected"))

def numbers (status length read : Int) : FileNumber → Int
  | .status => status
  | .length => length
  | .read => read

def checkFile (i r : Nat) : Code Raised FileNode := do
  let status ← checkNumber env array done r .status env.STATUS_RUNNING
  let msg ← checkMsg env array done i r
  let name ← checkText env array done i r .name
  let path ← checkText env array done i r .path
  let length ← checkNumber env array done r .length (-1)
  let read ← checkNumber env array done r .read 0
  pure ⟨numbers status length read, msg, name, path, none⟩

end Check

/-- The loop over the table. -/
def checkFiles (env : FileEnv) (array : Nat) : Nat → Nat → List FileNode →
    Code Raised (List FileNode)
  | 0, _, done => pure done
  | n + 1, i, done =>
    match env.geti (i + 1) with
    | .error e => Code.raise e
    | .ok (.table r) => do
      let node ← checkFile env array done i r
      checkFiles env array n (i + 1) (done ++ [node])
    | .ok _ => giveUp array done (.argerror 2 "tables expected")

/-! ### The action -/

/-- The table that the script is given, and whether there is a stream. -/
structure Shown where
  number : FileNumber → Int
  msg : Option Bytes
  name : Bytes
  path : Bytes
  stream : Bool

/-- How the script ends: with an error, or with a number and the fields of the table then. -/
inductive Ending where
  | raises (message : Value)
  | returns (pct : Value) (field : String → Except Raised Value)

/-- One call by the library: the node, the output, and what the script and the allocator do. -/
structure Invocation where
  node : Nat
  out : Int
  fdopen : Bool
  strdup : FileText → Bool
  asprintf : Bool
  script : Shown → Ending

/-- What comes of a call: what was shown, the result, and whether `dpv_abort` is set. -/
structure Report where
  shown : Option Shown
  pct : Int
  abort : Bool

section Action
variable (env : FileEnv) (inv : Invocation)

def FileNode.setNumber (node : FileNode) (m : FileNumber) (i : Int) : FileNode :=
  { node with number := Function.update node.number m i }

def FileNode.shown (node : FileNode) (stream : Bool) : Shown :=
  ⟨node.number, node.msg.map Copy.text, node.name.text, node.path.text, stream⟩

/-- `lua_tointeger` -/
def tointeger (m : FileNumber) (v : Value) : Int :=
  (env.type m).wrap ((LuaNumbers.tointegerx env.host.cvt v).getD 0)

/-- The node is given a message, and the whole is given up; the message if there is memory. -/
def abortWith (node : FileNode) (shown : Option Shown) (message : String) :
    Code Raised (FileNode × Report) := do
  let node := node.setNumber .status env.STATUS_FAILED
  match ← copyText inv.asprintf (env.explain message) with
  | some c =>
    freeCopy node.msg
    pure ({ node with msg := some c }, ⟨shown, -1, true⟩)
  | none => pure (node, ⟨shown, -1, true⟩)

/-- What the error message says when a pointer is followed that is `NULL`. -/
def segmentationFault : Raised := .error "segmentation fault"

/-- `strdup(lua_tostring(L, -1))` -/
def copyValue (there : Bool) (v : Value) : Code Raised (Option Copy) :=
  match tolstring env.host v with
  | some s => copyText there s
  | none => Code.crash segmentationFault

/-- The call has raised an error. -/
def failed (node : FileNode) (shown : Shown) (message : Value) :
    Code Raised (FileNode × Report) := do
  let node := node.setNumber .status env.STATUS_FAILED
  match ← copyValue env (inv.strdup .msg) message with
  | some c =>
    freeCopy node.msg
    pure ({ node with msg := some c }, ⟨some shown, -1, true⟩)
  | none => abortWith env inv node (some shown) "strdup: %m"

def getfield (field : String → Except Raised Value) (name : String) : Code Raised Value :=
  match field name with
  | .ok v => pure v
  | .error e => Code.raise e

/-- A string that takes the place of the message, if it is one. -/
def updateMsg (node : FileNode) (v : Value) : Code Raised (Option FileNode) :=
  match v with
  | .string s => do
    match ← copyText (inv.strdup .msg) s with
    | some c =>
      freeCopy node.msg
      pure (some { node with msg := some c })
    | none => pure none
  | _ => pure (some node)

def updateName (node : FileNode) (v : Value) : Code Raised (Option FileNode) := do
  match ← copyValue env (inv.strdup .name) v with
  | some c =>
    Code.free node.name.address
    pure (some { node with name := c })
  | none => pure none

def updatePath (node : FileNode) (v : Value) : Code Raised (Option FileNode) := do
  match ← copyValue env (inv.strdup .path) v with
  | some c =>
    Code.free node.path.address
    pure (some { node with path := c })
  | none => pure none

/-- The call has returned, and the node is given what is in the table. -/
def returned (node : FileNode) (shown : Shown) (pct : Value)
    (field : String → Except Raised Value) : Code Raised (FileNode × Report) := do
  let status ← getfield field "status"
  let node := node.setNumber .status (tointeger env .status status)
  let msg ← getfield field "msg"
  match ← updateMsg inv node msg with
  | none => abortWith env inv node (some shown) "strdup: %m"
  | some node =>
    let name ← getfield field "name"
    match ← updateName env inv node name with
    | none => abortWith env inv node (some shown) "strdup: %m"
    | some node =>
      let path ← getfield field "path"
      match ← updatePath env inv node path with
      | none => abortWith env inv node (some shown) "strdup: %m"
      | some node =>
        let length ← getfield field "length"
        let node := node.setNumber .length (tointeger env .length length)
        let read ← getfield field "read"
        let node := node.setNumber .read (tointeger env .read read)
        pure (node, ⟨some shown, IntType.int.wrap
          ((LuaNumbers.tointegerx env.host.cvt pct).getD 0), false⟩)

/-- The stream of a node: it is made the first time.  Nothing if it cannot be. -/
def stream (node : FileNode) : Code Raised (Option FileNode) :=
  if 0 < inv.out then
    match node.outref with
    | some _ => pure (some node)
    | none =>
      if inv.fdopen = true then do
        match ← Code.malloc true with
        | some ref => pure (some { node with outref := some ref })
        | none => pure none
      else pure none
  else pure (some node)

def touchCopy : Option Copy → Code Raised Unit
  | none => pure ()
  | some c => Code.touch c.address

/-- The strings of the node are read. -/
def touchCopies (node : FileNode) : Code Raised Unit := do
  touchCopy node.msg
  Code.touch node.name.address
  Code.touch node.path.address

def action (node : FileNode) : Code Raised (FileNode × Report) := do
  touchCopies node
  match ← stream inv node with
  | none => abortWith env inv node none "fdopen: %m"
  | some node =>
    let shown := node.shown (0 < inv.out)
    match inv.script shown with
    | .raises message => failed env inv node shown message
    | .returns pct field => returned env inv node shown pct field

end Action

/-- The library calls the action for its nodes. -/
def runActions (env : FileEnv) : List Invocation → List FileNode →
    Code Raised (List FileNode × List Report)
  | [], nodes => pure (nodes, [])
  | inv :: invs, nodes =>
    match nodes[inv.node]? with
    | none => runActions env invs nodes
    | some node => do
      let (node, report) ← action env inv node
      let (nodes, reports) ← runActions env invs (nodes.set inv.node node)
      pure (nodes, report :: reports)

/-- `l_dpv` from the files on; `result` is what `dpv(3)` says in the end. -/
def l_dpv_files (env : FileEnv) (invs : List Invocation) (result : Bool) :
    Code Raised (Bool × List Report) :=
  match env.len with
  | .error e => Code.raise e
  | .ok n =>
    if n = 0 then pure (result, [])
    else do
      match ← Code.malloc (env.calloc && decide (0 < n)) with
      | none => Code.raise (.fatal "calloc" ENOMEM)
      | some array =>
        let nodes ← checkFiles env array n.toNat 0 []
        let (nodes, reports) ← runActions env invs nodes
        freenodes array nodes
        pure (result, reports)

end Dpv
end FluaLibs
