import FluaLibs.Ownership
import FluaLibs.References
import FluaLibs.Transition

/-! # The userdata of access control lists

An `acl_t` in a userdata is memory of the library, and an entry, a flagset or a permset is a
pointer into it.  The userdata of the latter refer to the one that they were taken from, so that
the ACL is not collected before them; only the userdata of an `acl_t` has a finalizer, which
frees the ACL and leaves the pointer as it was.

The library says how each call ends.  It may move an ACL that an entry is added to, or whose mask
is calculated: the memory is then other memory, and the pointer in the userdata of the `acl_t` is
set again.  Which entry a pointer is for is left to the library.
-/
namespace FluaLibs
namespace Acl
open References

/-- The metatables. -/
inductive Kind where
  | acl
  | entry
  | flagset
  | permset
  deriving DecidableEq

/-- What the library has allocated: an ACL, a text or a qualifier; an orphan is an ACL that Lua
had no memory for a userdata for. -/
inductive Block where
  | acl
  | orphan
  | text
  | qualifier
  deriving DecidableEq

/-- Memory of the library, with whether it is still there. -/
structure Allocation where
  block : Block
  there : Bool
  deriving DecidableEq

/-- The collector dooms a userdata that has a finalizer; when it has run, the userdata is gone. -/
inductive Life where
  | alive
  | doomed
  | gone
  deriving DecidableEq

/-- A userdata: its metatable, the allocation that its cookie points into, and its `REF`. -/
structure Userdata where
  kind : Kind
  cookie : Nat
  ref : Option Nat
  life : Life
  deriving DecidableEq

/-- `held` is what the script has; `misused` says that something was used or freed that had been
freed before. -/
structure State where
  userdata : List Userdata
  held : List Nat
  memory : List Allocation
  misused : Bool
  deriving DecidableEq

/-- What a function is called with; other values are refused wherever a userdata is wanted. -/
inductive Arg where
  | userdata (u : Nat)
  | integer
  | other

/-- A userdata is among what the script has. -/
def Arg.isHeld (held : List Nat) : Arg → Bool
  | userdata u => decide (u ∈ held)
  | _ => true

/-- How a call goes: whether the other arguments are what they have to be, the error of the
library, whether it has moved the ACL, and whether Lua has memory for a userdata. -/
structure Answer where
  argument : Bool
  errno : Option Nat
  moved : Bool
  memory : Bool

/-- How a call ends. -/
inductive Result where
  | raised
  | failed (errno : Nat)
  | success
  | userdata (u : Nat)
  deriving DecidableEq

/-- A function of the module: the arguments, what the library does, and the state. -/
abbrev Method : Type := List Arg → Answer → State → Result × State

namespace State
variable (s : State)

/-- What a userdata keeps from being collected. -/
def ref (u : Nat) : Option Nat := s.userdata[u]?.bind Userdata.ref

/-- The memory has not been freed. -/
def There (n : Nat) : Prop := s.memory[n]?.map Allocation.there = some true

instance (n : Nat) : Decidable (s.There n) := inferInstanceAs (Decidable (_ = _))

/-- `checkcookie`, which does not find a cookie that is NULL: none is ever set. -/
def checkcookie (k : Kind) : Arg → Option Nat
  | .userdata u =>
    s.userdata[u]?.bind (fun d => if d.kind = k then some d.cookie else none)
  | _ => none

/-- The cookies of the first arguments. -/
def checkcookies : List Kind → List Arg → Option (List Nat)
  | [], _ => some []
  | _ :: _, [] => none
  | k :: kinds, arg :: args => do
    let n ← s.checkcookie k arg
    let ns ← checkcookies kinds args
    some (n :: ns)

/-- The first argument and its cookie. -/
def checkself (k : Kind) : List Arg → Option (Nat × Nat)
  | .userdata u :: _ => (s.checkcookie k (.userdata u)).map (fun n => (u, n))
  | _ => none

/-- The library is given a pointer. -/
def touch (n : Nat) : State :=
  if s.There n then s else { s with misused := true }

/-- The library is given some pointers, in this order. -/
def touchAll (ns : List Nat) : State := ns.foldl touch s

/-- The library allocates memory. -/
def alloc (b : Block) : State := { s with memory := s.memory ++ [⟨b, true⟩] }

/-- `acl_free` -/
def free (n : Nat) : State :=
  if s.There n then { s with memory := s.memory.modify n (fun x => { x with there := false }) }
  else { s with misused := true }

/-- The pointer of a userdata is set again. -/
def setcookie (u n : Nat) : State :=
  { s with userdata := s.userdata.modify u (fun d => { d with cookie := n }) }

/-- A userdata is returned to the script. -/
def push (d : Userdata) : Result × State :=
  (.userdata s.userdata.length,
    { s with userdata := s.userdata ++ [d], held := s.userdata.length :: s.held })

/-- `new`, for an ACL that has just been allocated. -/
def new (a : Answer) (n : Nat) : Result × State :=
  if a.memory = true then s.push ⟨.acl, n, none, .alive⟩
  else
    (.raised, { s with memory := s.memory.modify n (fun x => { x with block := .orphan }) })

/-- `newref` -/
def newref (a : Answer) (u n : Nat) (k : Kind) : Result × State :=
  if a.memory = true then s.push ⟨k, n, some u, .alive⟩ else (.raised, s)

end State

/-! ## The functions

Most of them hand the objects of their first arguments to the library. -/

/-- They are given to the library, which returns something that is no object.  Some errors are
raised. -/
def uses (kinds : List Kind) (isFatal : Bool) : Method := fun args a s =>
  match s.checkcookies kinds args with
  | none => (.raised, s)
  | some ns =>
    if a.argument = true then
      match a.errno with
      | some e => (if isFatal then .raised else .failed e, s.touchAll ns)
      | none => (.success, s.touchAll ns)
    else (.raised, s)

/-- The library returns another ACL. -/
def gives (kinds : List Kind) : Method := fun args a s =>
  match s.checkcookies kinds args with
  | none => (.raised, s)
  | some ns =>
    if a.argument = true then
      match a.errno with
      | some e => (.failed e, s.touchAll ns)
      | none => ((s.touchAll ns).alloc .acl).new a s.memory.length
    else (.raised, s)

/-- The library returns a pointer into what it was given. -/
def points (k part : Kind) : Method := fun args a s =>
  match s.checkself k args with
  | none => (.raised, s)
  | some (u, n) =>
    if a.argument = true then
      match a.errno with
      | some e => (.failed e, s.touch n)
      | none => (s.touch n).newref a u n part
    else (.raised, s)

/-- The memory of an ACL after the library has changed it, and its cookie set to it. -/
def State.settle (s : State) (a : Answer) (u n : Nat) : State :=
  if a.moved = true then ((s.free n).alloc .acl).setcookie u s.memory.length
  else s.setcookie u n

/-- Where the ACL is by then. -/
def State.place (s : State) (a : Answer) (n : Nat) : Nat :=
  if a.moved = true then s.memory.length else n

def l_acl_delete : Method := uses [] false
def l_acl_delete_fd : Method := uses [] false
def l_acl_delete_file : Method := uses [] false
def l_acl_delete_link : Method := uses [] false
def l_acl_extended_file : Method := uses [] false
def l_acl_extended_link : Method := uses [] false
def l_acl_from_mode : Method := gives []
def l_acl_from_text : Method := gives []
def l_acl_get : Method := gives []
def l_acl_get_fd : Method := gives []
def l_acl_get_file : Method := gives []
def l_acl_get_link : Method := gives []
def l_acl_new : Method := gives []

/-- Two ACLs are compared; an error of the library is raised. -/
def l_acl_cmp : Method := uses [.acl, .acl] true

/-- The cookie stays. -/
def l_acl_gc : Method := fun args a s =>
  match s.checkcookies [.acl] args with
  | some [n] => if a.errno.isSome then (.raised, s.touch n) else (.success, s.free n)
  | _ => (.raised, s)

/-- The mask may be an entry more, for which the ACL is moved. -/
def l_acl_calc_mask : Method := fun args a s =>
  match s.checkself .acl args with
  | none => (.raised, s)
  | some (u, n) =>
    match a.errno with
    | some e => (.failed e, s.touch n)
    | none => (.success, (s.touch n).settle a u n)

/-- An entry is added, for which the library may move the ACL; the userdata is for the new place.
-/
def l_acl_create_entry : Method := fun args a s =>
  match s.checkself .acl args with
  | none => (.raised, s)
  | some (u, n) =>
    if a.argument = true then
      match a.errno with
      | some e => (.failed e, s.touch n)
      | none => ((s.touch n).settle a u n).newref a u (s.place a n) .entry
    else (.raised, s)

/-- An entry is looked for in the first argument, which is the ACL. -/
def l_acl_delete_entry : Method := fun args a s =>
  match args[1]? with
  | some Arg.integer => uses [.acl] false args a s
  | _ =>
    match s.checkself .acl args, s.checkself .entry args with
    | some (_, n), some (_, e) =>
      match a.errno with
      | some errno => (.failed errno, (s.touch n).touch e)
      | none => (.success, (s.touch n).touch e)
    | _, _ => (.raised, s)

def l_acl_dup : Method := gives [.acl]
def l_acl_equiv_mode : Method := uses [.acl] false
def l_acl_get_brand : Method := uses [.acl] false
def l_acl_get_entry : Method := points .acl .entry
def l_acl_is_trivial : Method := uses [.acl] false
def l_acl_set : Method := uses [.acl] false
def l_acl_set_fd : Method := uses [.acl] false
def l_acl_set_file : Method := uses [.acl] false
def l_acl_set_link : Method := uses [.acl] false
def l_acl_strip : Method := gives [.acl]

/-- The text is not freed. -/
def l_acl_to_text : Method := fun args a s =>
  match uses [.acl] false args a s with
  | (.success, t) => (.success, t.alloc .text)
  | (r, t) => (r, t)

def l_acl_valid : Method := uses [.acl] false
def l_acl_valid_fd : Method := uses [.acl] false
def l_acl_valid_file : Method := uses [.acl] false
def l_acl_valid_link : Method := uses [.acl] false

def l_acl_copy_entry : Method := uses [.entry, .entry] false
def l_acl_get_flagset : Method := points .entry .flagset
def l_acl_get_permset : Method := points .entry .permset

/-- The qualifier is read and freed. -/
def l_acl_get_qualifier : Method := fun args a s =>
  match uses [.entry] false args a s with
  | (.success, t) => (.success, ((t.alloc .qualifier).touch t.memory.length).free t.memory.length)
  | (r, t) => (r, t)

def l_acl_get_entry_type : Method := uses [.entry] false
def l_acl_set_entry_type : Method := uses [.entry] false
def l_acl_get_tag_type : Method := uses [.entry] false
def l_acl_set_tag_type : Method := uses [.entry] false
def l_acl_set_flagset : Method := uses [.entry, .flagset] false
def l_acl_set_permset : Method := uses [.entry, .permset] false
def l_acl_set_qualifier : Method := uses [.entry] false

def l_acl_add_flag : Method := uses [.flagset] false
def l_acl_clear_flags : Method := uses [.flagset] false
def l_acl_delete_flag : Method := uses [.flagset] false
def l_acl_get_flag : Method := uses [.flagset] false
def l_acl_add_perm : Method := uses [.permset] false
def l_acl_clear_perms : Method := uses [.permset] false
def l_acl_delete_perm : Method := uses [.permset] false
def l_acl_get_perm : Method := uses [.permset] false

/-- A `luaL_Reg` array. -/
abbrev Registry : Type := List (String × Method)

def l_acl_funcs : Registry :=
  [("delete", l_acl_delete), ("delete_fd", l_acl_delete_fd), ("delete_file", l_acl_delete_file),
    ("delete_link", l_acl_delete_link), ("extended_file", l_acl_extended_file),
    ("extended_link", l_acl_extended_link), ("from_mode", l_acl_from_mode),
    ("from_text", l_acl_from_text), ("get", l_acl_get), ("get_fd", l_acl_get_fd),
    ("get_file", l_acl_get_file), ("get_link", l_acl_get_link), ("new", l_acl_new)]

def l_acl_meta : Registry :=
  [("__eq", l_acl_cmp), ("__gc", l_acl_gc), ("calc_mask", l_acl_calc_mask),
    ("create_entry", l_acl_create_entry), ("delete_entry", l_acl_delete_entry),
    ("dup", l_acl_dup), ("equiv_mode", l_acl_equiv_mode), ("get_brand", l_acl_get_brand),
    ("get_entry", l_acl_get_entry), ("is_trivial", l_acl_is_trivial), ("set", l_acl_set),
    ("set_fd", l_acl_set_fd), ("set_file", l_acl_set_file), ("set_link", l_acl_set_link),
    ("strip", l_acl_strip), ("to_text", l_acl_to_text), ("valid", l_acl_valid),
    ("valid_fd", l_acl_valid_fd), ("valid_file", l_acl_valid_file),
    ("valid_link", l_acl_valid_link)]

def l_acl_entry_meta : Registry :=
  [("copy", l_acl_copy_entry), ("get_flagset", l_acl_get_flagset),
    ("get_permset", l_acl_get_permset), ("get_qualifier", l_acl_get_qualifier),
    ("get_tag_type", l_acl_get_tag_type), ("get_type", l_acl_get_entry_type),
    ("set_flagset", l_acl_set_flagset), ("set_permset", l_acl_set_permset),
    ("set_qualifier", l_acl_set_qualifier), ("set_tag_type", l_acl_set_tag_type),
    ("set_type", l_acl_set_entry_type)]

def l_acl_flagset_meta : Registry :=
  [("add", l_acl_add_flag), ("clear", l_acl_clear_flags), ("delete", l_acl_delete_flag),
    ("get", l_acl_get_flag)]

def l_acl_permset_meta : Registry :=
  [("add", l_acl_add_perm), ("clear", l_acl_clear_perms), ("delete", l_acl_delete_perm),
    ("get", l_acl_get_perm)]

/-- The functions of the module, and those of a metatable. -/
def registry : Option Kind → Registry
  | none => l_acl_funcs
  | some .acl => l_acl_meta
  | some .entry => l_acl_entry_meta
  | some .flagset => l_acl_flagset_meta
  | some .permset => l_acl_permset_meta

/-! ## Runs

The script calls the functions on what it has, forgets things, and may look up what a userdata
refers to.  The collector takes what the script does not reach, and runs the finalizers of what
it has taken at any time, in any order. -/

/-- What the script, the collector and the finalizers do. -/
inductive Event where
  | call (table : Option Kind) (name : String) (args : List Arg) (a : Answer)
  | drop (u : Nat)
  | hold (u : Nat)
  | collect (u : Nat)
  | finalize (u : Nat) (a : Answer)
  /-- a finalizer of the script, or a weak key, brings back what the collector has taken -/
  | revive (u : Nat)

/-- What a step does.  The collector only dooms what has a finalizer. -/
def next (s : State) : Event → State
  | .call table name args a =>
    match (registry table).lookup name with
    | some m => (m args a s).2
    | none => s
  | .drop u => { s with held := s.held.filter (fun h => h ≠ u) }
  | .hold u | .revive u => { s with held := u :: s.held }
  | .collect u =>
    { s with
      userdata := s.userdata.modify u
        (fun d => { d with life := if d.kind = .acl then .doomed else .gone }) }
  | .finalize u a =>
    let t := (l_acl_gc [.userdata u] a s).2
    { t with userdata := t.userdata.modify u (fun d => { d with life := .gone }) }

/-- A call gets what the script holds, and the collector takes what it does not reach. -/
def Enabled (s : State) : Event → Prop
  | .call _ _ args _ => args.all (Arg.isHeld s.held) = true
  | .drop _ => True
  | .hold u => Reach s.ref s.held u
  | .collect u => s.userdata[u]?.map Userdata.life = some .alive ∧ ¬ Reach s.ref s.held u
  | .finalize u _ => s.userdata[u]?.map Userdata.life = some .doomed
  | .revive u => s.userdata[u]?.any (fun d => d.life ≠ .alive) = true

/-- At first there is nothing. -/
def system : System State Event where
  init := ⟨[], [], [], false⟩
  Enabled := Enabled
  decEnabled s e := by
    cases e with
    | call | finalize | revive => exact inferInstanceAs (Decidable (_ = _))
    | drop => exact isTrue trivial
    | hold u => exact inferInstanceAs (Decidable (Reach _ _ _))
    | collect => exact inferInstanceAs (Decidable (_ ∧ _))
  next := next

/-! ## What is wanted -/

namespace State
variable (s : State)

/-- The ACL has not been freed, and there is a userdata for it. -/
def Live (n : Nat) : Prop := s.memory[n]? = some ⟨.acl, true⟩

/-- The finalizer of `u` is still to free the ACL. -/
def Owns (u n : Nat) : Prop :=
  ∃ d, s.userdata[u]? = some d ∧ d.kind = .acl ∧ d.life ≠ .gone ∧ d.cookie = n

/-- `u` is an `acl_t` that the collector has not taken, and its ACL is there. -/
def Anchor (u n : Nat) : Prop :=
  s.userdata[u]?.map (fun d => (d.kind, d.cookie, d.life)) = some (.acl, n, .alive) ∧ s.Live n

end State

/-- What the script reaches is alive and points into an ACL that is there, and its references
lead to the `acl_t` of that ACL; each ACL has one userdata that is to free it; and when the
collector has taken everything, what is left are texts and orphans. -/
structure Sound (s : State) : Prop where
  intact : s.misused = false
  anchored : ∀ u, Reach s.ref s.held u → ∃ d, s.userdata[u]? = some d ∧ d.life = .alive ∧
    ∃ w ∈ chain s.ref u, s.Anchor w d.cookie
  owned : OwnedOnce s.Owns s.Live
  left : (∀ d ∈ s.userdata, d.life = .gone) → ∀ x ∈ s.memory,
    (x.there = true ↔ x.block = .text ∨ x.block = .orphan)

/-- The ACL of the first argument is only moved when the script has lost what points into it. -/
def Unshared (s : State) : List Arg → Prop
  | .userdata u :: _ => ∀ v ∈ List.range s.userdata.length, v ≠ u → Reach s.ref s.held v →
    s.userdata[v]?.map Userdata.cookie ≠ s.userdata[u]?.map Userdata.cookie
  | _ => True

/-- The script does not call the finalizer itself, and gets nothing back that the collector has
taken; the library moves no ACL that something else points into, and frees what it is to free. -/
def Careful (s : State) : Event → Prop
  | .call table name args a =>
    (table = some .acl → name ≠ "__gc") ∧ (a.moved = true → Unshared s args)
  | .finalize _ a => a.errno = none
  | .revive _ => False
  | _ => True

instance (s : State) (args : List Arg) : Decidable (Unshared s args) := by
  cases args with
  | nil => exact isTrue trivial
  | cons arg args =>
    cases arg with
    | userdata u => exact inferInstanceAs (Decidable (∀ v ∈ _, _ → _ → _))
    | integer | other => exact isTrue trivial

instance (s : State) (e : Event) : Decidable (Careful s e) := by
  cases e with
  | call => exact inferInstanceAs (Decidable (_ ∧ _))
  | finalize => exact inferInstanceAs (Decidable (_ = _))
  | revive => exact isFalse not_false
  | _ => exact isTrue trivial

end Acl
end FluaLibs
