import FluaLibs.Forest
import FluaLibs.Ownership
import FluaLibs.RefCount
import FluaLibs.Transition

/-! # Handles and nvlists of the libzfs binding

A userdata of the zfs module holds one pointer, to a libzfs handle, to the handle of a
dataset or a pool, or to an nvlist; its finalizer passes it to `libzfs_fini`, `zfs_close`,
`zpool_close` or `nvlist_free`.  All of them are made by `new`, which records no reference
to the userdata that the object came from.

libzfs keeps the configuration of a handle in nvlists of its own, which it frees when the
handle is closed and replaces when it is refreshed.  Some of its functions return lists out
of that configuration, the others allocate.  Its iterators give every handle they open to
the callback for good; `zfs_foreach_mountpoint` and the filter of `zfs_send` only lend it.

Calls that fail change nothing here.  A trampoline calls what it finds on the stack where the
callback should be.  Whatever that is, Lua may do anything before it returns or fails, and
the C function goes on then.  What is done with a handle is recorded (`Use`), with what had
become of the handle and of its libzfs handle by then.
-/
namespace FluaLibs
namespace Libzfs

/-- An nvlist as it is allocated, with the lists inside it. -/
abbrev Tree : Type := Unit × List (Nat × Unit)

inductive Kind where
  | zfs
  | zpool
  deriving DecidableEq

inductive Metatable where
  | libzfs_handle
  | zfs_handle
  | zpool_handle
  | nvlist
  deriving DecidableEq

def Kind.metatable : Kind → Metatable
  | zfs => .zfs_handle
  | zpool => .zpool_handle

/-- What is in the first user value of a userdata. -/
inductive Cookie where
  | null
  | pointer (p : Nat)
  | table
  deriving DecidableEq

structure Userdata where
  metatable : Metatable
  cookie : Cookie
  collected : Bool
  deriving DecidableEq

/-- A `zfs_handle_t` or `zpool_handle_t`: the libzfs handle it was opened from, the nvlists
of its configuration, and how often it has been closed. -/
structure Handle where
  kind : Kind
  lib : Nat
  config : List Nat
  closes : Nat
  deriving DecidableEq

/-- What an iteration runs on. -/
inductive Target where
  | lib (l : Nat)
  | handle (p : Nat)
  deriving DecidableEq

/-- Which handles a C function gives its callback: ones that it opens and hands over, those
of an array, or ones that it opens and closes itself. -/
inductive Iteration where
  | transfer (kind : Kind)
  | foreach_mountpoint (handles : List Nat)
  | filter
  deriving DecidableEq

/-- A call of a function that takes a callback: the userdata it was called on, and the
handle that the callback has now, if it runs. -/
structure Frame where
  self : Nat
  target : Target
  iteration : Iteration
  current : Option Nat
  deriving DecidableEq

/-- What has been done with a handle: whether it had been closed, and whether its libzfs
handle was finished. -/
structure Use where
  handle : Nat
  closed : Bool
  finished : Bool
  deriving DecidableEq

/-- How often each libzfs handle has been finished, the handles, the nvlists, the userdata in
the order of their creation, and the calls that have not returned, innermost first. -/
structure State where
  libs : List Nat
  handles : List Handle
  heap : Forest Unit
  userdata : List Userdata
  frames : List Frame
  uses : List Use
  deriving DecidableEq

/-! ## What the userdata hold -/

/-- An object of the C library. -/
inductive Object where
  | lib (l : Nat)
  | handle (p : Nat)
  | nvlist (n : Nat)
  deriving DecidableEq

/-- The object that the cookie points to, which the metatable tells. -/
def Userdata.object (d : Userdata) : Option Object :=
  match d.metatable, d.cookie with
  | .libzfs_handle, .pointer l => some (.lib l)
  | .zfs_handle, .pointer p | .zpool_handle, .pointer p => some (.handle p)
  | .nvlist, .pointer n => some (.nvlist n)
  | _, _ => none

namespace State
variable (s : State)

def objectOf (u : Nat) : Option Object := s.userdata[u]?.bind Userdata.object

/-- `checklibzfs` -/
def libOf (u : Nat) : Option Nat :=
  match s.objectOf u with
  | some (.lib l) => some l
  | _ => none

/-- `checkzfs` or `checkzpool` -/
def handleOf (u : Nat) : Option Nat :=
  match s.objectOf u with
  | some (.handle p) => some p
  | _ => none

/-- `checkzfs` -/
def zfsOf (u : Nat) : Option Nat :=
  if s.userdata[u]?.map Userdata.metatable = some .zfs_handle then s.handleOf u else none

/-- `checknvlist` -/
def nvlistOf (u : Nat) : Option Nat :=
  match s.objectOf u with
  | some (.nvlist n) => some n
  | _ => none

/-- The handle has been opened and not closed. -/
def Open (p : Nat) : Prop := s.handles[p]?.map Handle.closes = some 0

def configOf (p : Nat) : List Nat := (s.handles[p]?.map Handle.config).getD []

def handleLib (p : Nat) : Option Nat := s.handles[p]?.map Handle.lib

def LibFinished (l : Nat) : Prop := s.libs[l]?.getD 0 ≠ 0

/-- The libzfs handle that `p` points to has been finished. -/
def HandleFinished (p : Nat) : Prop := ∃ l ∈ s.handleLib p, s.LibFinished l

def targetLib : Target → Option Nat
  | .lib l => some l
  | .handle p => s.handleLib p

/-- Lua runs: no C function is at work. -/
def LuaRuns : Prop := ∀ f ∈ s.frames.head?, f.current ≠ none

instance (p : Nat) : Decidable (s.Open p) := inferInstanceAs (Decidable (_ = _))
instance (l : Nat) : Decidable (s.LibFinished l) := inferInstanceAs (Decidable (_ ≠ _))
instance (p : Nat) : Decidable (s.HandleFinished p) :=
  inferInstanceAs (Decidable (∃ l ∈ s.handleLib p, s.LibFinished l))
instance : Decidable s.LuaRuns := inferInstanceAs (Decidable (∀ f ∈ _, _))

/-! ## The operations -/

/-- A method of the handle runs. -/
def use (p : Nat) : State :=
  { s with uses := s.uses ++ [⟨p, decide (¬ s.Open p), decide (s.HandleFinished p)⟩] }

def useAll (ps : List Nat) : State := ps.foldl State.use s

/-- The C function of a frame goes on with what it runs on. -/
def useTarget : Target → State
  | .lib _ => s
  | .handle p => s.use p

/-- `new` -/
def new (p : Nat) (metatable : Metatable) : State :=
  { s with userdata := s.userdata ++ [⟨metatable, .pointer p, false⟩] }

/-- `setcookie(L, u, NULL)` -/
def setcookieNull (u : Nat) : State :=
  { s with userdata := s.userdata.modify u (fun d => { d with cookie := .null }) }

/-- A new handle, with the configuration that libzfs reads for it, and its userdata. -/
def construct (kind : Kind) (lib : Nat) (config : List Tree) : State :=
  State.new
    { s with
      handles := s.handles ++ [⟨kind, lib, (s.heap.plantTrees config).1, 0⟩]
      heap := (s.heap.plantTrees config).2 }
    s.handles.length kind.metatable

/-- `zfs_close` or `zpool_close` -/
def closeHandle (p : Nat) : State :=
  { s with
    handles := s.handles.modify p (fun h => { h with closes := h.closes + 1 })
    heap := s.heap.destroyAll (s.configOf p) }

/-- The configuration of the handle is read anew: `keep` tells which lists stay. -/
def refreshHandle (p : Nat) (keep : List Nat) (config : List Tree) : State :=
  { s with
    handles := s.handles.modify p (fun h =>
      { h with config := h.config.filter (· ∈ keep) ++ (s.heap.plantTrees config).1 })
    heap := (s.heap.plantTrees config).2.destroyAll ((s.configOf p).filter (· ∉ keep)) }

/-- `l_libzfs_fini` -/
def fini (u : Nat) : State :=
  match s.libOf u with
  | some l => State.setcookieNull { s with libs := s.libs.modify l (· + 1) } u
  | none => s

/-- `l_zfs_close` and `l_zpool_close` -/
def close (u : Nat) : State :=
  match s.handleOf u with
  | some p => ((s.use p).closeHandle p).setcookieNull u
  | none => s

/-- `l_nvlist_gc` -/
def gc (u : Nat) : State :=
  match s.nvlistOf u with
  | some n => State.setcookieNull { s with heap := s.heap.destroy n } u
  | none => s

/-- The `__gc` of whatever the userdata holds. -/
def release (u : Nat) : State := ((s.fini u).close u).gc u

/-- The value of the first user value of a userdata is replaced by a table. -/
def overwrite : Option Nat → State
  | some u => { s with userdata := s.userdata.modify u (fun d => { d with cookie := .table }) }
  | none => s

def call (self : Nat) (target : Target) (iteration : Iteration) : State :=
  { s with frames := ⟨self, target, iteration, none⟩ :: s.frames }

def setFrames (frames : List Frame) : State := { s with frames := frames }

end State

/-! ## What can happen -/

inductive Event where
  | init
  /-- `fini`, `__close` or `__gc`, called by the program. -/
  | fini (u : Nat)
  /-- `open` and `path_to_zhandle`, or `open_pool` and `open_pool_canfail`. -/
  | openHandle (u : Nat) (kind : Kind) (config : List Tree)
  | handle_dup (u : Nat) (config : List Tree)
  /-- Any other method, on the libzfs handles and handles among its arguments. -/
  | method (us : List Nat)
  /-- `iter_pools`, or one of the iterators over datasets. -/
  | iter (u : Nat) (kind : Kind)
  | foreach_mountpoint (u : Nat) (us : List Nat)
  /-- `send` with a filter. -/
  | send (u : Nat)
  /-- The callback gets a handle that the library has opened. -/
  | deliver (config : List Tree)
  /-- The callback gets a handle of the array. -/
  | lend (i : Nat)
  /-- The callback returns. -/
  | ret
  /-- The C function returns; unless the callback `failed`, it has looked for more handles. -/
  | finish (failed : Bool)
  /-- `close`, `__close` or `__gc`, called by the program. -/
  | close (u : Nat)
  /-- A method that refreshes the handle `u`, from another one or from the system. -/
  | refresh (u : Nat) (source : Option Nat) (keep : List Nat) (config : List Tree)
  /-- A method whose nvlist has been allocated for it. -/
  | alloc (us : List Nat) (tree : Tree)
  /-- A method whose nvlists belong to the configuration of the handle. -/
  | borrow (u : Nat) (ns : List Nat)
  /-- `__gc` of an nvlist, called by the program. -/
  | callGc (u : Nat)
  /-- The collector finalizes a userdata. -/
  | collect (u : Nat)
  deriving DecidableEq

/-- The kind of the handles that the iteration opens for the callback. -/
def Iteration.delivers : Iteration → Option Kind
  | .transfer kind => some kind
  | .foreach_mountpoint _ => none
  | .filter => some .zfs

/-- The handles that the iteration has been given. -/
def Iteration.lends : Iteration → List Nat
  | .foreach_mountpoint ps => ps
  | _ => []

/-- The lists of the configuration of a handle, and what is inside them. -/
def State.Configured (s : State) (p n : Nat) : Prop :=
  n < s.heap.length ∧ ∃ r ∈ s.configOf p, s.heap.Inside r n

instance (s : State) (p n : Nat) : Decidable (s.Configured p n) :=
  inferInstanceAs (Decidable (_ ∧ ∃ r ∈ _, _))

/-- A libzfs handle or a handle, that passes its check. -/
def State.Usable (s : State) (u : Nat) : Prop := s.libOf u ≠ none ∨ s.handleOf u ≠ none

instance (s : State) (u : Nat) : Decidable (s.Usable u) := inferInstanceAs (Decidable (_ ∨ _))

/-- Lua calls methods while no C function is at work, on userdata that pass their checks.  A
userdata is finalized when it is on no stack. -/
def Enabled (s : State) : Event → Prop
  | .init => s.LuaRuns
  | .fini u | .openHandle u _ _ => s.LuaRuns ∧ s.libOf u ≠ none
  | .handle_dup u _ | .send u => s.LuaRuns ∧ s.zfsOf u ≠ none
  | .method us | .alloc us _ => s.LuaRuns ∧ ∀ u ∈ us, s.Usable u
  | .iter u kind => s.LuaRuns ∧ (s.libOf u ≠ none ∨ (s.zfsOf u ≠ none ∧ kind = .zfs))
  | .foreach_mountpoint u us => s.LuaRuns ∧ s.libOf u ≠ none ∧ ∀ v ∈ us, s.zfsOf v ≠ none
  | .deliver _ => ∃ f ∈ s.frames.head?, f.current = none ∧ f.iteration.delivers ≠ none
  | .lend i => ∃ f ∈ s.frames.head?, f.current = none ∧ i < f.iteration.lends.length
  | .ret => ∃ f ∈ s.frames.head?, f.current ≠ none
  | .finish _ => ∃ f ∈ s.frames.head?, f.current = none
  | .close u => s.LuaRuns ∧ s.handleOf u ≠ none
  | .refresh u source _ _ => s.LuaRuns ∧ s.handleOf u ≠ none ∧ ∀ v ∈ source, s.handleOf v ≠ none
  | .borrow u ns => s.LuaRuns ∧ ∃ p ∈ s.handleOf u, ∀ n ∈ ns, s.Configured p n
  | .callGc u => s.LuaRuns ∧ s.nvlistOf u ≠ none
  | .collect u => (∃ d ∈ s.userdata[u]?, d.collected = false) ∧ ∀ f ∈ s.frames, f.self ≠ u

instance (s : State) (e : Event) : Decidable (Enabled s e) := by
  cases e <;> unfold Enabled <;> infer_instance

def next (s : State) : Event → State
  | .init => State.new { s with libs := s.libs ++ [0] } s.libs.length .libzfs_handle
  | .fini u => s.fini u
  | .openHandle u kind config =>
    match s.libOf u with
    | some l => s.construct kind l config
    | none => s
  | .handle_dup u config =>
    match s.handleOf u with
    | none => s
    | some p =>
      match s.handleLib p with
      | some l => (s.use p).construct .zfs l config
      | none => s
  | .method us => s.useAll (us.filterMap s.handleOf)
  | .iter u kind =>
    match s.libOf u, s.handleOf u with
    | some l, _ => s.call u (.lib l) (.transfer kind)
    | none, some p => (s.use p).call u (.handle p) (.transfer kind)
    | none, none => s
  | .foreach_mountpoint u us =>
    match s.libOf u with
    | some l =>
      -- the table goes into the userdata on top, which is the last of the handles
      (s.overwrite us.getLast?).call u (.lib l) (.foreach_mountpoint (us.filterMap s.handleOf))
    | none => s
  | .send u =>
    match s.handleOf u with
    | some p => (s.use p).call u (.handle p) .filter
    | none => s
  | .deliver config =>
    match s.frames with
    | [] => s
    | f :: fs =>
      match f.iteration.delivers, s.targetLib f.target with
      | some kind, some l =>
        ((s.useTarget f.target).construct kind l config).setFrames
          ({ f with current := some s.handles.length } :: fs)
      | _, _ => s
  | .lend i =>
    match s.frames with
    | [] => s
    | f :: fs =>
      match f.iteration.lends[i]? with
      | some p => (s.new p .zfs_handle).setFrames ({ f with current := some p } :: fs)
      | none => s
  | .ret =>
    match s.frames with
    | [] => s
    | f :: fs =>
      let s' := s.setFrames ({ f with current := none } :: fs)
      match f.iteration, f.current with
      | .filter, some p => s'.closeHandle p
      | _, _ => s'
  | .finish failed =>
    match s.frames with
    | [] => s
    | f :: fs => (if failed then s else s.useTarget f.target).setFrames fs
  | .close u => s.close u
  | .refresh u source keep config =>
    match s.handleOf u with
    | some p =>
      (s.useAll (p :: (source.bind s.handleOf).toList)).refreshHandle p keep config
    | none => s
  | .alloc us tree =>
    let s' := s.useAll (us.filterMap s.handleOf)
    State.new { s' with heap := s.heap.plantTree tree } s.heap.length .nvlist
  | .borrow u ns =>
    match s.handleOf u with
    | some p => ns.foldl (fun s n => s.new n .nvlist) (s.use p)
    | none => s
  | .callGc u => s.gc u
  | .collect u =>
    { s.release u with
      userdata := (s.release u).userdata.modify u (fun d => { d with collected := true }) }

def system : System State Event where
  init := ⟨[], [], [], [], [], []⟩
  Enabled := Enabled
  decEnabled := fun _ _ => inferInstance
  next := next

/-! ## What the operations change -/

section Checks
variable {P : State → Prop} {s : State}

/-- When there is nothing to work on, nothing changes. -/
theorem keeps_of_some (h : P s) {check : Option Nat} {f : Nat → State} :
    (∀ x, check = some x → P (f x)) → P (match check with
      | some x => f x
      | none => s) := by
  intro hf
  cases check with
  | some x => exact hf x rfl
  | none => exact h

/-- The same for what the innermost call does. -/
theorem keeps_of_cons (h : P s) {frames : List Frame} {next : Frame → List Frame → State} :
    (∀ f fs, frames = f :: fs → P (next f fs)) → P (match frames with
      | [] => s
      | f :: fs => next f fs) := by
  intro hf
  cases frames with
  | nil => exact h
  | cons f fs => exact hf f fs rfl

end Checks

namespace State
variable {s : State}

/-- The states differ only in what is recorded. -/
structure SameObjects (s t : State) : Prop where
  libs : t.libs = s.libs
  handles : t.handles = s.handles
  heap : t.heap = s.heap
  userdata : t.userdata = s.userdata
  frames : t.frames = s.frames

theorem SameObjects.refl (s : State) : SameObjects s s := ⟨rfl, rfl, rfl, rfl, rfl⟩

theorem SameObjects.trans {t t' : State} (h : SameObjects s t) (h' : SameObjects t t') :
    SameObjects s t' :=
  ⟨h'.libs.trans h.libs, h'.handles.trans h.handles, h'.heap.trans h.heap,
    h'.userdata.trans h.userdata, h'.frames.trans h.frames⟩

theorem sameObjects_use (p : Nat) : SameObjects s (s.use p) := ⟨rfl, rfl, rfl, rfl, rfl⟩

theorem sameObjects_useAll (ps : List Nat) : SameObjects s (s.useAll ps) := by
  induction ps generalizing s with
  | nil => exact SameObjects.refl s
  | cons p ps ih => exact (sameObjects_use p).trans ih

theorem sameObjects_useTarget (t : Target) : SameObjects s (s.useTarget t) := by
  cases t with
  | lib l => exact SameObjects.refl s
  | handle p => exact sameObjects_use p

section Userdata
variable {u v p l n : Nat}

theorem libOf_eq_some : s.libOf u = some l ↔ s.objectOf u = some (.lib l) := by
  unfold libOf
  split <;> simp_all

theorem handleOf_eq_some : s.handleOf u = some p ↔ s.objectOf u = some (.handle p) := by
  unfold handleOf
  split <;> simp_all

theorem nvlistOf_eq_some : s.nvlistOf u = some n ↔ s.objectOf u = some (.nvlist n) := by
  unfold nvlistOf
  split <;> simp_all

theorem objectOf_new (m : Metatable) : (s.new p m).objectOf u =
    if u = s.userdata.length then (⟨m, .pointer p, false⟩ : Userdata).object
    else s.objectOf u :=
  bind_concat ..

theorem objectOf_setcookieNull :
    (s.setcookieNull u).objectOf v = if v = u then none else s.objectOf v :=
  bind_modify_none (fun d => by cases d with | mk m c b => cases m <;> rfl) u v

theorem object_kind (kind : Kind) (p : Nat) :
    (⟨kind.metatable, .pointer p, false⟩ : Userdata).object = some (.handle p) := by
  cases kind <;> rfl

theorem objectOf_length : s.objectOf s.userdata.length = none := by
  rw [objectOf, List.getElem?_eq_none (Nat.le_refl _)]
  rfl

/-- A new userdata holds its object, and the others what they held. -/
theorem objectOf_new_iff {m : Metatable} {x : Object}
    (hm : (⟨m, .pointer p, false⟩ : Userdata).object = some x) (v : Nat) (y : Object) :
    (s.new p m).objectOf v = some y ↔
      s.objectOf v = some y ∨ v = s.userdata.length ∧ y = x := by
  rw [objectOf_new, hm]
  by_cases hv : v = s.userdata.length
  · rw [if_pos hv, hv, objectOf_length]
    simp [eq_comm]
  · simp [hv]

theorem objectOf_setcookieNull_iff (y : Object) :
    (s.setcookieNull u).objectOf v = some y ↔ s.objectOf v = some y ∧ v ≠ u := by
  rw [objectOf_setcookieNull]
  by_cases hv : v = u <;> simp [hv]

theorem fini_of_not_lib (h : ∀ l, s.objectOf u ≠ some (.lib l)) : s.fini u = s := by
  unfold fini
  split
  · rename_i l hl
    exact absurd (libOf_eq_some.mp hl) (h l)
  · rfl

theorem close_of_not_handle (h : ∀ p, s.objectOf u ≠ some (.handle p)) : s.close u = s := by
  unfold close
  split
  · rename_i p hp
    exact absurd (handleOf_eq_some.mp hp) (h p)
  · rfl

theorem gc_of_not_nvlist (h : ∀ n, s.objectOf u ≠ some (.nvlist n)) : s.gc u = s := by
  unfold gc
  split
  · rename_i n hn
    exact absurd (nvlistOf_eq_some.mp hn) (h n)
  · rfl

/-- A finalizer is the one of the object that the userdata holds. -/
theorem release_eq : s.release u = match s.objectOf u with
    | some (.lib _) => s.fini u
    | some (.handle _) => s.close u
    | some (.nvlist _) => s.gc u
    | none => s := by
  unfold release
  cases hu : s.objectOf u with
  | none =>
    rw [fini_of_not_lib (by simp [hu]), close_of_not_handle (by simp [hu]),
      gc_of_not_nvlist (by simp [hu])]
  | some x =>
    cases x with
    | lib l =>
      have hnone : (s.fini u).objectOf u = none := by
        rw [fini, libOf_eq_some.mpr hu]
        exact objectOf_setcookieNull.trans (if_pos rfl)
      rw [close_of_not_handle (by simp [hnone]), gc_of_not_nvlist (by simp [hnone])]
    | handle p =>
      have hnone : (s.close u).objectOf u = none := by
        rw [close, handleOf_eq_some.mpr hu]
        exact objectOf_setcookieNull.trans (if_pos rfl)
      rw [fini_of_not_lib (by simp [hu]), gc_of_not_nvlist (by simp [hnone])]
    | nvlist n =>
      rw [fini_of_not_lib (by simp [hu]), close_of_not_handle (by simp [hu])]

theorem objectOf_release_self : (s.release u).objectOf u = none := by
  rw [release_eq]
  cases hu : s.objectOf u with
  | none => exact hu
  | some x =>
    cases x with
    | lib l =>
      simp only [fini, libOf_eq_some.mpr hu]
      exact objectOf_setcookieNull.trans (if_pos rfl)
    | handle p =>
      simp only [close, handleOf_eq_some.mpr hu]
      exact objectOf_setcookieNull.trans (if_pos rfl)
    | nvlist n =>
      simp only [gc, nvlistOf_eq_some.mpr hu]
      exact objectOf_setcookieNull.trans (if_pos rfl)

/-- That a userdata has been finalized says nothing about what it holds. -/
theorem objectOf_collected (t : State) :
    ({ t with userdata := t.userdata.modify u (fun d => { d with collected := true }) } :
      State).objectOf v = t.objectOf v :=
  bind_modify_same (fun d => by cases d with | mk m c b => cases m <;> rfl) u v

end Userdata

/-! ### Handles -/

section Handles
variable {p x : Nat}

theorem Open.lt (h : s.Open p) : p < s.handles.length := by
  obtain ⟨d, hd, _⟩ := Option.map_eq_some_iff.mp h
  exact (List.getElem?_eq_some_iff.mp hd).1

theorem open_construct {kind : Kind} {l : Nat} {config : List Tree} :
    (s.construct kind l config).Open x ↔ s.Open x ∨ x = s.handles.length := by
  have hhandles : (s.construct kind l config).handles =
      s.handles ++ [⟨kind, l, (s.heap.plantTrees config).1, 0⟩] := rfl
  unfold Open
  rw [hhandles]
  by_cases hx : x = s.handles.length
  · simp [hx]
  · rw [getElem?_concat_of_ne hx]
    simp [hx]

theorem open_closeHandle : (s.closeHandle p).Open x ↔ s.Open x ∧ x ≠ p := by
  have hhandles : (s.closeHandle p).handles =
      s.handles.modify p (fun h => { h with closes := h.closes + 1 }) := rfl
  unfold Open
  rw [hhandles, List.getElem?_modify]
  by_cases hx : p = x
  · subst hx
    cases s.handles[p]? <;> simp
  · simp [hx, Ne.symm hx]

theorem open_refreshHandle {keep : List Nat} {config : List Tree} :
    (s.refreshHandle p keep config).Open x ↔ s.Open x := by
  have hhandles : (s.refreshHandle p keep config).handles = s.handles.modify p (fun h =>
      { h with config := h.config.filter (· ∈ keep) ++ (s.heap.plantTrees config).1 }) := rfl
  unfold Open
  rw [hhandles, List.getElem?_modify]
  by_cases hx : p = x
  · subst hx
    cases s.handles[p]? <;> simp
  · simp [hx]

end Handles
end State

end Libzfs
end FluaLibs
