import FluaLibs.Forest
import FluaLibs.Transition
import Mathlib.Data.List.Sort

/-! # The userdata of libnv

A userdata of the nv module is an `nvlist_t`, which owns the list its cookie points at and
destroys it when it is finalized; a `const nvlist_t`, which points at a list inside another;
or an `nvlist_t cookie`, which points at the nvpair that holds a list.  The last two are made
with `newref`, which stores another userdata in them to keep it from being collected.

The C heap is a forest whose objects are nvlists and nvpairs: a list contains its pairs, a
pair the lists of its value.  Adding copies a list into a new pair; moving puts the list
itself there, and taking takes it out again.  A check that fails raises an error and changes
nothing, unless the source says otherwise; operations that only read plain values do not
occur.  The elements of an array are taken as single lists are, not from the stack slots that
the code looks at.
-/
namespace FluaLibs
namespace Nv

def NV_FLAG_IGNORE_CASE : Nat := 0x01
def NV_FLAG_NO_UNIQUE : Nat := 0x02

/-- The types of values, with those that hold no nvlist by their number. -/
inductive NvType where
  | NVLIST
  | NVLIST_ARRAY
  | plain (type : Nat)
  deriving DecidableEq

/-- An nvlist has its flags, whether its error is set, and its place in the array that
holds it. -/
inductive Object where
  | nvlist (flags : Nat) (error : Bool) (index : Nat)
  | nvpair (name : String) (type : NvType)
  deriving DecidableEq

namespace Object

def index : Object → Nat
  | .nvlist _ _ i => i
  | .nvpair _ _ => 0

def setIndex (i : Nat) : Object → Object
  | .nvlist flags error _ => .nvlist flags error i
  | .nvpair name type => .nvpair name type

def setError : Object → Object
  | .nvlist flags _ i => .nvlist flags true i
  | .nvpair name type => .nvpair name type

end Object

abbrev Heap := Forest Object

/-- What follows the first `x` of a list. -/
def after (xs : List Nat) (x : Nat) : Option Nat := (xs.dropWhile (· ≠ x)).tail.head?

/-! ## libnv -/

namespace Heap
variable (h : Heap)

def flags (n : Nat) : Nat :=
  match h.content n with
  | some (.nvlist flags _ _) => flags
  | _ => 0

/-- `nvlist_error(nvl) != 0`. -/
def error (n : Nat) : Bool :=
  match h.content n with
  | some (.nvlist _ error _) => error
  | _ => false

/-- The pair `p` of the list `n` has the name; `NV_FLAG_IGNORE_CASE` compares as
`strcasecmp` does. -/
def named (n : Nat) (name : String) (p : Nat) : Bool :=
  match h.content p with
  | some (.nvpair name' _) =>
    if h.flags n &&& NV_FLAG_IGNORE_CASE ≠ 0 then name'.toLower = name.toLower
    else name' = name
  | _ => false

def typed (type : NvType) (p : Nat) : Bool :=
  match h.content p with
  | some (.nvpair _ type') => type' = type
  | _ => false

/-- `nvlist_find`; without a type, a pair of any type. -/
def find (n : Nat) (name : String) : Option NvType → Option Nat
  | none => (h.children n).find? (h.named n name)
  | some type => (h.children n).find? (fun p => h.named n name p && h.typed type p)

/-- The lists that a pair holds, in the order of their places. -/
def values (p : Nat) : List Nat :=
  (h.children p).insertionSort (fun m n =>
    ((h.content m).elim 0 Object.index) ≤ ((h.content n).elim 0 Object.index))

/-- A copy of `n`, to be allocated at a place of an array. -/
def copyOf (n index : Nat) : Option (Object × List (Nat × Object)) :=
  (h.content n).map (fun object => (object.setIndex index, h.contents n))

/-- `nvlist_add_nvpair` and `nvlist_move_nvpair` refuse a name that exists. -/
def insertable (n : Nat) (name : String) : Bool :=
  h.flags n &&& NV_FLAG_NO_UNIQUE ≠ 0 || (h.find n name none).isNone

def set_error (n : Nat) : Heap := h.update n Object.setError

/-- A new pair, with lists that are copied into it. -/
def add_nvpair (n : Nat) (name : String) (type : NvType)
    (trees : List (Object × List (Nat × Object))) : Heap :=
  if h.insertable n name then
    trees.foldl (Forest.graftTree h.length) (h.graft n (.nvpair name type))
  else h.set_error n

/-- A new pair, with the lists themselves put into it.  A list that is moved into itself
stays as it is: no userdata reaches it any more. -/
def move_nvpair (n : Nat) (name : String) (type : NvType) (lists : List Nat) : Heap :=
  if h.insertable n name then
    lists.zipIdx.foldl (fun h' list =>
      if list.1 = n then h'
      else (h'.attach h.length list.1).update list.1 (Object.setIndex list.2))
      (h.graft n (.nvpair name type))
  else lists.foldl Forest.destroy (h.set_error n)

/-- The lists are taken out of the pair, which is freed. -/
def take_nvpair (p : Nat) : Heap := ((h.values p).foldl Forest.detach h).remove p

/-- `nvlist_get_parent`: the list around, and the pair that holds `n` in it. -/
def get_parent (n : Nat) : Option (Nat × Nat) :=
  (h.parent n).bind (fun p => (h.parent p).map (fun parent => (parent, p)))

def get_array_next (n : Nat) : Option Nat :=
  (h.parent n).bind (fun p => after (h.values p) n)

end Heap

/-! ## The module -/

/-- `NVLIST_METATABLE`, `CONST_NVLIST_METATABLE` and `CNVLIST_METATABLE`. -/
inductive Kind where
  | nvlist
  | const_nvlist
  | cnvlist
  deriving DecidableEq

/-- A userdata: its metatable, its two user values, and whether it has been collected. -/
structure Userdata where
  kind : Kind
  cookie : Option Nat
  ref : Option Nat
  collected : Bool
  deriving DecidableEq

structure State where
  heap : Heap
  userdata : List Userdata
  deriving DecidableEq

inductive Event where
  | create (flags : Nat)
  /-- `unpack` and `recv`: what arrives is anything. -/
  | unpack (flags : Nat) (items : List (Nat × Object))
  | clone (u : Nat)
  | xfer (u : Nat) (reply : Option (Nat × List (Nat × Object)))
  | set_error (u : Nat)
  /-- One of the `add_` methods whose value holds no nvlist. -/
  | add (u : Nat) (name : String) (type : Nat)
  | add_nvlist (u : Nat) (name : String) (v : Nat)
  | add_nvlist_array (u : Nat) (name : String) (vs : List Nat)
  | append_nvlist_array (u : Nat) (name : String) (v : Nat)
  | move_nvlist (u : Nat) (name : String) (v : Nat)
  | move_nvlist_array (u : Nat) (name : String) (vs : List Nat)
  | get_nvlist (u : Nat) (name : String) (default : Option Nat)
  | get_nvlist_array (u : Nat) (name : String)
  /-- One of the `take_` methods whose value holds no nvlist. -/
  | take (u : Nat) (name : String) (type : Nat)
  | take_nvlist (u : Nat) (name : String) (default : Option Nat)
  | take_nvlist_array (u : Nat) (name : String)
  /-- `free`, without a type, and the rest of its family. -/
  | free (u : Nat) (name : String) (type : Option NvType)
  | next (u : Nat) (cookie : Option Nat)
  | get_parent (u : Nat)
  | get_array_next (u : Nat)
  | get_pararr (u : Nat)
  | cnvlist_get_nvlist (k : Nat)
  | cnvlist_get_nvlist_array (k : Nat)
  | cnvlist_take_nvlist (k : Nat)
  | cnvlist_take_nvlist_array (k : Nat)
  /-- The `free_` methods of a cookie; pairs of other types have no cookies. -/
  | cnvlist_free (k : Nat) (type : NvType)
  /-- `u:__gc()`. -/
  | callGc (u : Nat)
  /-- Nothing refers to a userdata any more, and the collector takes it. -/
  | collect (u : Nat)
  deriving DecidableEq

namespace State
variable (s : State)

/-- The metatable and the cookie of a userdata that has not been collected. -/
def pointer (u : Nat) : Option (Kind × Nat) :=
  s.userdata[u]?.bind (fun d =>
    if d.collected then none else d.cookie.map (fun n => (d.kind, n)))

def ref (u : Nat) : Option Nat := s.userdata[u]?.bind Userdata.ref

/-- `checkcookie`. -/
def checkcookie (kind : Kind) (u : Nat) : Option Nat :=
  match s.pointer u with
  | some (kind', n) => if kind' = kind then some n else none
  | none => none

def checknvlist (u : Nat) : Option Nat :=
  (s.checkcookie .nvlist u).filter (fun n => !s.heap.error n)

/-- The receiver of a method that both kinds of list have. -/
def checkself (u : Nat) : Option Nat :=
  ((s.checkcookie .nvlist u).or (s.checkcookie .const_nvlist u)).filter
    (fun n => !s.heap.error n)

/-- `checkanynvlist`, a list given to a method.  `getanynvlist` pushes the metatables of both
kinds above that of the value and compares the last of the three with the others, so it takes
no `nvlist_t`. -/
def checkanynvlist (u : Nat) : Option Nat :=
  (s.checkcookie .const_nvlist u).filter (fun n => !s.heap.error n)

/-- `checkcookietype`. -/
def checkcookietype (k : Nat) (type : NvType) : Option Nat :=
  (s.checkcookie .cnvlist k).filter (fun p => s.heap.typed type p)

def withHeap (heap : Heap) : State := { s with heap := heap }

def push (d : Userdata) : State := { s with userdata := s.userdata ++ [d] }

def new (cookie : Option Nat) (kind : Kind) : State := s.push ⟨kind, cookie, none, false⟩

def newref (ref : Option Nat) (cookie : Nat) (kind : Kind) : State :=
  s.push ⟨kind, some cookie, ref, false⟩

/-- `setcookie(L, u, NULL)`. -/
def clear (u : Nat) : State :=
  { s with userdata := s.userdata.modify u (fun d => { d with cookie := none }) }

def setref (k u : Nat) : State :=
  { s with userdata := s.userdata.modify k (fun d => { d with ref := some u }) }

def release (u : Nat) : State :=
  { s with userdata := s.userdata.modify u (fun d => { d with collected := true }) }

def newAll (ns : List Nat) : State := ns.foldl (fun s n => s.new (some n) .nvlist) s

def newrefAll (u : Nat) (ns : List Nat) : State :=
  ns.foldl (fun s n => s.newref (some u) n .const_nvlist) s

/-- An nvlist that is allocated with what is in it, in a userdata of its own. -/
def newTree (tree : Object × List (Nat × Object)) : State :=
  (s.withHeap ((s.heap.plant tree.1).embed s.heap.length tree.2)).new
    (some s.heap.length) .nvlist

/-- The loop of `move_nvlist_array`: the lists whose userdata it has cleared, and whether it
came to its end. -/
def moveValues (s : State) (values : List Nat) : List Nat → State × List Nat × Bool
  | [] => (s, values, true)
  | v :: vs =>
    match s.checknvlist v with
    | none => (s, values, false)
    | some n => (s.clear v).moveValues (values ++ [n]) vs

/-- `get_parent`, of the list `n` of `u`: the reference of `u` is passed on to the parent,
and `u` itself is the reference of the cookie. -/
def get_parent (u n : Nat) : State :=
  match s.heap.get_parent n with
  | none => s
  | some (parent, cookie) =>
    (s.newref (s.ref u) parent .const_nvlist).newref (some u) cookie .cnvlist

def get_array_next (u n : Nat) : Option State :=
  (s.heap.get_array_next n).map (fun next => s.newref (s.ref u) next .const_nvlist)

end State

/-- A userdata is collected when no other refers to it; libnv aborts when a cookie is not of
the list. -/
def Enabled (s : State) : Event → Prop
  | .next u (some k) => ∀ n ∈ s.checkself u, ∀ p ∈ s.checkcookie .cnvlist k,
    s.heap.parent p = some n
  | .collect u => (∃ d ∈ s.userdata[u]?, d.collected = false) ∧
    ∀ d ∈ s.userdata, d.collected = false → d.ref ≠ some u
  | _ => True

instance (s : State) (e : Event) : Decidable (Enabled s e) := by
  unfold Enabled
  split <;> infer_instance

def next (s : State) : Event → State
  | .create flags => s.newTree (.nvlist flags false 0, [])
  | .unpack flags items => s.newTree (.nvlist flags false 0, items)
  | .clone u =>
    match (s.checkself u).bind (fun nvl => s.heap.copyOf nvl 0) with
    | none => s
    | some tree => s.newTree tree
  | .xfer u reply =>
    match s.checknvlist u with
    | none => s
    | some tosend =>
      let sent := (s.clear u).withHeap (s.heap.destroy tosend)
      match reply with
      | none => sent
      | some (flags, items) => sent.newTree (.nvlist flags false 0, items)
  | .set_error u =>
    match s.checkcookie .nvlist u with
    | none => s
    | some nvl => s.withHeap (s.heap.set_error nvl)
  | .add u name type =>
    match s.checknvlist u with
    | none => s
    | some nvl => s.withHeap (s.heap.add_nvpair nvl name (.plain type) [])
  | .add_nvlist u name v =>
    match s.checknvlist u, s.checkanynvlist v with
    | some nvl, some value =>
      s.withHeap (s.heap.add_nvpair nvl name .NVLIST (s.heap.copyOf value 0).toList)
    | _, _ => s
  | .add_nvlist_array u name vs =>
    match s.checknvlist u with
    | none => s
    | some nvl =>
      if vs = [] ∨ ∃ v ∈ vs, s.checkanynvlist v = none then s
      else s.withHeap (s.heap.add_nvpair nvl name .NVLIST_ARRAY
        ((vs.filterMap s.checkanynvlist).zipIdx.filterMap (fun v => s.heap.copyOf v.1 v.2)))
  | .append_nvlist_array u name v =>
    match s.checknvlist u, s.checkanynvlist v with
    | some nvl, some value =>
      match s.heap.find nvl name (some .NVLIST_ARRAY) with
      | none => s
      | some p =>
        s.withHeap ((s.heap.copyOf value (s.heap.children p).length).toList.foldl
          (Forest.graftTree p) s.heap)
    | _, _ => s
  | .move_nvlist u name v =>
    match s.checknvlist u, s.checknvlist v with
    | some nvl, some value =>
      (s.clear v).withHeap (s.heap.move_nvpair nvl name .NVLIST [value])
    | _, _ => s
  | .move_nvlist_array u name vs =>
    match s.checknvlist u with
    | none => s
    | some nvl =>
      if vs = [] then s
      else match s.moveValues [] vs with
        | (s', values, true) =>
          s'.withHeap (s.heap.move_nvpair nvl name .NVLIST_ARRAY values)
        | (s', values, false) => s'.withHeap (values.foldl Forest.destroy s.heap)
  | .get_nvlist u name default =>
    match s.checkself u, default.map s.checkanynvlist with
    | none, _ | _, some none => s
    | some nvl, defval =>
      match s.heap.find nvl name (some .NVLIST), defval with
      | some p, _ => s.newrefAll u ((s.heap.values p).take 1)
      | none, some (some value) => s.newref (some u) value .const_nvlist
      | none, _ => s
  | .get_nvlist_array u name =>
    match (s.checkself u).bind (fun nvl => s.heap.find nvl name (some .NVLIST_ARRAY)) with
    | none => s
    | some p => s.newrefAll u (s.heap.values p)
  | .take u name type =>
    match (s.checknvlist u).bind (fun nvl => s.heap.find nvl name (some (.plain type))) with
    | none => s
    | some p => s.withHeap (s.heap.remove p)
  -- the default is returned as it is
  | .take_nvlist u name default =>
    if default.map s.checkanynvlist = some none then s
    else match (s.checknvlist u).bind (fun nvl => s.heap.find nvl name (some .NVLIST)) with
      | none => s
      | some p => (s.withHeap (s.heap.take_nvpair p)).newAll (s.heap.values p)
  | .take_nvlist_array u name =>
    match (s.checknvlist u).bind (fun nvl => s.heap.find nvl name (some .NVLIST_ARRAY)) with
    | none => s
    | some p => (s.withHeap (s.heap.take_nvpair p)).newAll (s.heap.values p)
  -- `free` does not check the error of the list
  | .free u name type =>
    match (s.checkcookie .nvlist u).bind (fun nvl => s.heap.find nvl name type) with
    | none => s
    | some p => s.withHeap (s.heap.remove p)
  -- the new userdata has no second user value, and its cookie stays NULL
  | .next u none =>
    match s.checkself u with
    | none => s
    | some _ => s.new none .cnvlist
  | .next u (some k) =>
    match s.checkself u, s.checkcookie .cnvlist k with
    | some nvl, some cookie =>
      match after (s.heap.children nvl) cookie with
      | none => s
      | some _ => s.setref k u
    | _, _ => s
  | .get_parent u =>
    match s.checkself u with
    | none => s
    | some nvl => s.get_parent u nvl
  | .get_array_next u =>
    match s.checkself u with
    | none => s
    | some nvl => (s.get_array_next u nvl).getD s
  | .get_pararr u =>
    match s.checkself u with
    | none => s
    | some nvl => (s.get_array_next u nvl).getD (s.get_parent u nvl)
  | .cnvlist_get_nvlist k =>
    match s.checkcookietype k .NVLIST with
    | none => s
    | some p => s.newrefAll k ((s.heap.values p).take 1)
  | .cnvlist_get_nvlist_array k =>
    match s.checkcookietype k .NVLIST_ARRAY with
    | none => s
    | some p => s.newrefAll k (s.heap.values p)
  | .cnvlist_take_nvlist k =>
    match s.checkcookietype k .NVLIST with
    | none => s
    | some p => (s.withHeap (s.heap.take_nvpair p)).newAll (s.heap.values p)
  | .cnvlist_take_nvlist_array k =>
    match s.checkcookietype k .NVLIST_ARRAY with
    | none => s
    | some p => (s.withHeap (s.heap.take_nvpair p)).newAll (s.heap.values p)
  | .cnvlist_free k type =>
    match s.checkcookietype k type with
    | none => s
    | some p => s.withHeap (s.heap.remove p)
  -- `nvlist_destroy`, and the cookie stays
  | .callGc u =>
    match s.checkcookie .nvlist u with
    | none => s
    | some nvl => s.withHeap (s.heap.destroy nvl)
  | .collect u =>
    match s.checkcookie .nvlist u with
    | none => s.release u
    | some nvl => (s.release u).withHeap (s.heap.destroy nvl)

def system : System State Event where
  init := ⟨[], []⟩
  Enabled := Enabled
  decEnabled := fun _ _ => inferInstance
  next := next

end Nv
end FluaLibs
