import FluaLibs.LuaState
import Mathlib.Data.List.Forall2

/-! # Callbacks of the libzfs binding

A method that takes a callback first massages its arguments, so that the stack holds
the object, the callback and the extra arguments; then the C library calls a trampoline
for each handle it delivers.  The trampoline finds the callback and the extra arguments
by indices that it computes from the height of the stack.

The C library is not in this repository.  What one of its functions does is a parameter
(`Iteration`): the handles it delivers, which may depend on what the trampoline has
answered, and whether it returns an error.  Some stop at the first callback that fails,
and others, like `zfs_iter_snapspec`, go on with the next handle.

Every index is checked here: what the Lua API leaves undefined, such as copying the
value at index 0 or removing one above the top, makes the whole call undefined.  The
stack has no capacity (`StackCapacity` has one).  A Lua function is arbitrary; it may
answer each call differently, and raise.
-/
namespace FluaLibs
namespace Zfs

abbrev Stack : Type := List Value

/-! ## The stack -/

/-- The position of a valid index, from the bottom. -/
def position (s : Stack) (idx : Int) : Option Nat :=
  if 0 < idx ∧ idx ≤ s.length then some (idx - 1).toNat
  else if idx < 0 ∧ -idx ≤ s.length then some (s.length + idx).toNat
  else none

/-- `lua_pushvalue`. -/
def pushvalue (s : Stack) (idx : Int) : Option Stack :=
  (position s idx).bind (fun i => (s[i]?).map (fun v => s ++ [v]))

/-- `lua_remove`. -/
def remove (s : Stack) (idx : Int) : Option Stack := (position s idx).map s.eraseIdx

/-- `lua_insert(L, -2)` after `luaL_pushfail`. -/
def insertFail (s : Stack) : Stack := s.dropLast ++ Value.nil :: s.getLast?.toList

/-- `lua_remove` at one index after the other. -/
def massage : List Int → Stack → Option Stack
  | [], s => some s
  | idx :: rest, s => (remove s idx).bind (massage rest)

/-- `lua_isfunction`. -/
def isfunction : Value → Bool
  | .function _ | .cfunction _ => true
  | _ => false

/-! ## The trampolines -/

/-- One call of a trampoline: the stack it finds, the handle it is given, what it calls
with which arguments, and what comes of it: an error, or the first result. -/
structure Call where
  stack : Stack
  handle : Value
  function : Value
  args : List Value
  outcome : Except Value Value

/-- The call has raised. -/
def Call.raised (c : Call) : Bool :=
  match c.outcome with
  | .error _ => true
  | .ok _ => false

/-- What a Lua function does when it is called, after the calls before. -/
abbrev Lua : Type := List Call → Value → List Value → Except Value Value

/-- Copy the value at an index `n` times. -/
def copies (idx : Int) : Nat → Stack → Option Stack
  | 0, s => some s
  | n + 1, s => (pushvalue s idx).bind (copies idx n)

/-- `lua_pcall` with `nargs` arguments: what is left below, the function, the arguments. -/
def frame (nargs : Nat) (s : Stack) : Option (Stack × Value × List Value) :=
  let below := s.length - nargs - 1
  match s.drop below with
  | f :: args => if args.length = nargs then some (s.take below, f, args) else none
  | [] => none

/-- What the trampolines share: the copies and the call.  `base` values of the stack
are not counted as arguments.  The result is the stack without the call. -/
def trampoline (base : Nat) (lua : Lua) (calls : List Call) (s : Stack) (zhp : Value) :
    Option (Stack × Call) := do
  let nargs : Int := s.length - base
  let copied ← pushvalue s (-nargs)  -- copy the function
  let pushed ← copies (-nargs) (nargs - 1).toNat (copied ++ [zhp])  -- and any additional args
  let (below, f, args) ← frame nargs.toNat pushed
  pure (below, ⟨s, zhp, f, args, lua calls f args⟩)

/-- `lua_toboolean`. -/
def toboolean : Value → Bool
  | .nil | .boolean false => false
  | _ => true

/-- `zfs_iter_cb` and `zpool_iter_cb`; the answer is a result that is not 0. -/
def zfs_iter_cb (lua : Lua) (calls : List Call) (s : Stack) (zhp : Value) :
    Option (Stack × Call × Bool) :=
  (trampoline 1 lua calls s zhp).map fun (below, call) =>
    match call.outcome with
    | .error e => (insertFail (below ++ [e]), call, true)
    | .ok _ => (below, call, false)

/-- `snapfilter_cb`; the answer is whether the snapshot is sent. -/
def snapfilter_cb (lua : Lua) (calls : List Call) (s : Stack) (zhp : Value) :
    Option (Stack × Call × Bool) :=
  (trampoline 6 lua calls s zhp).map fun (below, call) =>
    match call.outcome with
    | .error e => (below ++ [e], call, false)
    | .ok v => (below, call, toboolean v)

/-! ## The C library -/

/-- What a function of the C library does: it returns, with or without an error, or it
delivers a handle and goes on by what the trampoline answers. -/
inductive Iteration where
  | returns (error : Bool)
  | delivers (zhp : Value) (next : Bool → Iteration)

namespace Iteration

/-- The function fails, whatever is answered. -/
def Fails : Iteration → Prop
  | returns error => error = true
  | delivers _ next => ∀ answer, (next answer).Fails

/-- **What libzfs says of its iterators**: one whose callback has failed returns an error.
Nothing is said of the handles that it may deliver after that. -/
def Reports : Iteration → Prop
  | returns _ => True
  | delivers _ next => (next true).Fails ∧ (next false).Reports

def DeliversNone : Iteration → Prop
  | returns _ => True
  | delivers _ _ => False

/-- There is one call for each handle that is delivered to a callback which answers these
calls in this way, in order. -/
def Delivered (answer : Call → Bool) : Iteration → List Call → Prop
  | returns _, calls => calls = []
  | delivers zhp next, calls =>
    ∃ call rest, calls = call :: rest ∧ call.handle = zhp ∧
      (next (answer call)).Delivered answer rest

/-- When `f` is called with the handles and `extras`, on the stack `s`, no handle is
delivered after the first call that raises. -/
def StopsAtFailure (lua : Lua) (s : Stack) (f : Value) (extras : List Value) :
    Iteration → List Call → Prop
  | returns _, _ => True
  | delivers zhp next, calls =>
    match lua calls f (zhp :: extras) with
    | .ok v => (next false).StopsAtFailure lua s f extras
        (calls ++ [⟨s, zhp, f, zhp :: extras, .ok v⟩])
    | .error _ => (next true).DeliversNone

end Iteration

/-- The trampoline is called for every handle that is delivered; the last component is
whether the function of the C library returns an error. -/
def deliver (cb : List Call → Stack → Value → Option (Stack × Call × Bool)) :
    Iteration → List Call → Stack → Option (Stack × List Call × Bool)
  | .returns error, calls, s => some (s, calls, error)
  | .delivers zhp next, calls, s =>
    match cb calls s zhp with
    | none => none
    | some (s, call, answer) => deliver cb (next answer) (calls ++ [call]) s

/-! ## The methods -/

/-- How an argument before the callback is read. -/
inductive Param where
  | boolean
  | integer
  | optinteger
  | string
  | optstring
  | table
  | fd

/-- Whether an argument can be accepted; a string may or may not be a number. -/
def Param.accepts : Param → Value → Bool
  | boolean, _ => true
  | integer, v => match v with
    | .integer _ | .number _ | .string _ => true
    | _ => false
  | optinteger, v => match v with
    | .nil | .integer _ | .number _ | .string _ => true
    | _ => false
  | string, v => match v with
    | .integer _ | .number _ | .string _ => true
    | _ => false
  | optstring, v => match v with
    | .nil | .integer _ | .number _ | .string _ => true
    | _ => false
  | table, v => match v with
    | .table _ => true
    | _ => false
  | fd, v => match v with
    | .integer _ | .userdata _ => true
    | _ => false

/-- The arguments of a method: the object, some parameters, the callback and the
caller's extra arguments. -/
structure Arguments where
  self : Value
  params : List Value
  callback : Value
  extras : List Value

def Arguments.stack (a : Arguments) : Stack := a.self :: (a.params ++ a.callback :: a.extras)

/-- The checks of the arguments. -/
def Arguments.Accepted (params : List Param) (a : Arguments) : Prop :=
  List.Forall₂ (fun p v => p.accepts v = true) params a.params ∧ isfunction a.callback = true

/-- How a method ends: with the calls made and the results, or in undefined behaviour. -/
inductive Outcome where
  | undefined
  | returned (calls : List Call) (results : List Value)

/-- An iter method: its parameters, the indices it removes, and its error message. -/
structure Method where
  params : List Param
  removals : List Int
  failure : String

/-- The body of an iter method, once its arguments are accepted. -/
def Method.run (m : Method) (lua : Lua) (a : Arguments) (it : Iteration) : Outcome :=
  match massage m.removals a.stack with
  | none => .undefined
  | some s =>
    match deliver (zfs_iter_cb lua) it [] s with
    | none => .undefined
    | some (after, calls, error) =>
      if error then
        let nresults := after.length - s.length
        if 0 < nresults then .returned calls (after.drop (after.length - nresults))
        else .returned calls [.nil, Value.literal m.failure]
      else .returned calls [.integer 1]

def l_zpool_iter : Method := ⟨[], [], "zpool_iter failed"⟩
def l_zfs_iter_root : Method := ⟨[], [], "zfs_iter_root failed"⟩
def l_zfs_iter_children : Method := ⟨[], [], "zfs_iter_children failed"⟩
def l_zfs_iter_dependents : Method := ⟨[.boolean], [2], "zfs_iter_dependents failed"⟩
def l_zfs_iter_filesystems : Method := ⟨[], [], "zfs_iter_filesystems failed"⟩
def l_zfs_iter_snapshots : Method :=
  ⟨[.boolean, .optinteger, .optinteger], [2, 3, 4], "zfs_iter_snapshots failed"⟩
def l_zfs_iter_snapshots_sorted : Method :=
  ⟨[.optinteger, .optinteger], [2, 3], "zfs_iter_snapshots_sorted failed"⟩
def l_zfs_iter_snapspec : Method := ⟨[.string], [2], "zfs_iter_snapspec failed"⟩
def l_zfs_iter_bookmarks : Method := ⟨[], [], "zfs_iter_bookmarks failed"⟩
def l_zfs_iter_children_v2 : Method := ⟨[.integer], [2], "zfs_iter_children_v2 failed"⟩
def l_zfs_iter_dependents_v2 : Method :=
  ⟨[.integer, .boolean], [2, 3], "zfs_iter_dependents_v2 failed"⟩
def l_zfs_iter_filesystems_v2 : Method := ⟨[.integer], [2], "zfs_iter_filesystems_v2 failed"⟩
def l_zfs_iter_snapshots_v2 : Method :=
  ⟨[.integer, .optinteger, .optinteger], [2, 3, 4], "zfs_iter_snapshots_v2 failed"⟩
def l_zfs_iter_snapshots_sorted_v2 : Method :=
  ⟨[.integer, .optinteger, .optinteger], [2, 3, 4], "zfs_iter_snapshots_sorted_v2 failed"⟩
def l_zfs_iter_snapspec_v2 : Method :=
  ⟨[.integer, .string], [2, 3], "zfs_iter_snapspec_v2 failed"⟩
def l_zfs_iter_bookmarks_v2 : Method := ⟨[.integer], [2], "zfs_iter_bookmarks_v2 failed"⟩
def l_zfs_iter_mounted : Method := ⟨[], [], "zfs_iter_mounted failed"⟩

def iterMethods : List Method :=
  [l_zpool_iter, l_zfs_iter_root, l_zfs_iter_children, l_zfs_iter_dependents,
    l_zfs_iter_filesystems, l_zfs_iter_snapshots, l_zfs_iter_snapshots_sorted,
    l_zfs_iter_snapspec, l_zfs_iter_bookmarks, l_zfs_iter_children_v2, l_zfs_iter_dependents_v2,
    l_zfs_iter_filesystems_v2, l_zfs_iter_snapshots_v2, l_zfs_iter_snapshots_sorted_v2,
    l_zfs_iter_snapspec_v2, l_zfs_iter_bookmarks_v2, l_zfs_iter_mounted]

/-- The parameters of `l_zfs_foreach_mountpoint`: the table and the number of threads. -/
def foreachParams : List Param := [.table, .integer]

/-- `l_zfs_foreach_mountpoint`, for a table that holds `table`, when the callbacks run one
after the other.  `box` is the userdata for the pointers of the handles. -/
def l_zfs_foreach_mountpoint (lua : Lua) (a : Arguments) (box : Value) (table : List Value)
    (it : Iteration) : Outcome :=
  -- `lua_pushvalue(L, 2)` and `lua_setiuservalue(L, -2, 1)` leave the height as it is
  let stashed := a.stack ++ [box] ++ table
  let referred := stashed.dropLast  -- `luaL_ref` takes the last handle, not the box
  match massage [2, 3] (referred.take (referred.length - table.length)) with
  | none => .undefined
  | some s =>
    match deliver (zfs_iter_cb lua) it [] s with
    | none => .undefined
    | some (after, calls, _) => .returned calls (after.drop s.length)

/-- The parameters of `l_zfs_send`: the snapshots, the flags and the descriptor. -/
def sendParams : List Param := [.optstring, .optstring, .table, .fd]

/-- `l_zfs_send` with a filter; `description` and `errno` are what `libzfsfail` reports when
the C function fails.  The list of debug messages that it may return as well is left out. -/
def l_zfs_send (lua : Lua) (description errno : Value) (a : Arguments) (it : Iteration) :
    Outcome :=
  match deliver (snapfilter_cb lua) it [] a.stack with
  | none => .undefined
  | some (_, calls, error) =>
    if error then .returned calls [.nil, description, errno] else .returned calls [.integer 1]

/-! ## What a trampoline calls -/

theorem pushvalue_neg {s : Stack} {n : Nat} (hpos : 0 < n) (hle : n ≤ s.length)
    (hlt : s.length - n < s.length) : pushvalue s (-n) = some (s ++ [s[s.length - n]]) := by
  have hposition : position s (-n) = some (s.length - n) := by
    rw [position, if_neg (by omega), if_pos (by omega)]
    congr 1
    omega
  rw [pushvalue, hposition, Option.bind_some, List.getElem?_eq_getElem (by omega), Option.map_some]

/-- Copying at a fixed distance from the top copies what lies there, in order. -/
theorem copies_eq {n k : Nat} (hpos : 0 < n) (hk : k ≤ n) {s : Stack} (hle : n ≤ s.length) :
    copies (-n) k s = some (s ++ (s.drop (s.length - n)).take k) := by
  induction k generalizing s with
  | zero => simp [copies]
  | succ k ih =>
    have hlt : s.length - n < s.length := by omega
    have hlen : (s ++ [s[s.length - n]]).length - n = s.length - n + 1 := by
      rw [List.length_append, List.length_singleton]
      omega
    have hshort : k ≤ (s.drop (s.length - n + 1)).length := by
      rw [List.length_drop]
      omega
    rw [copies, pushvalue_neg hpos hle hlt, Option.bind_some,
      ih (by omega) (by rw [List.length_append]; omega), hlen,
      List.drop_append_of_le_length (by omega), List.take_append_of_le_length hshort,
      List.drop_eq_getElem_cons hlt, List.take_succ_cons, List.append_assoc,
      List.singleton_append]

/-- The arguments that the trampolines copy, for a stack that ends with `x` and `xs`: the
first of `xs` is left out, and `x` comes last. -/
def rotated (x : Value) : List Value → List Value
  | [] => []
  | _ :: xs => xs ++ [x]

theorem rotated_length (x : Value) (xs : List Value) : (rotated x xs).length = xs.length := by
  cases xs with
  | nil => rfl
  | cons y xs => simp [rotated]

/-- The copies are the extra arguments only when these are all the value that is called. -/
theorem rotated_eq_self {x : Value} {xs : List Value} : rotated x xs = xs ↔ ∀ y ∈ xs, y = x := by
  cases xs with
  | nil => simp [rotated]
  | cons y xs =>
    rw [rotated]
    induction xs generalizing y with
    | nil => simp [eq_comm]
    | cons z xs ih =>
      rw [List.cons_append, List.cons.injEq, ih z, List.forall_mem_cons, List.forall_mem_cons]
      constructor
      · rintro ⟨rfl, rfl, h⟩
        exact ⟨rfl, List.forall_mem_cons.mpr ⟨rfl, h⟩⟩
      · rintro ⟨rfl, h⟩
        have hz := h z (List.mem_cons_self ..)
        exact ⟨hz, hz, fun w hw => h w (List.mem_cons_of_mem z hw)⟩

/-- **What a trampoline calls**: the value that lies `base` above the bottom, with the
handle and the copies. -/
theorem trampoline_eq (lua : Lua) (calls : List Call) (zhp x : Value) (below xs : List Value) :
    trampoline below.length lua calls (below ++ x :: xs) zhp =
      some (below ++ x :: xs, ⟨below ++ x :: xs, zhp, x, zhp :: rotated x xs,
        lua calls x (zhp :: rotated x xs)⟩) := by
  generalize hs : below ++ x :: xs = s
  have hlen : s.length = below.length + (xs.length + 1) := by
    rw [← hs, List.length_append, List.length_cons]
  have hnargs : (s.length : Int) - below.length = (xs.length + 1 : Nat) := by omega
  -- the function, at the index that counts the arguments from the top
  have hfunction : pushvalue s (-(xs.length + 1 : Nat)) = some (s ++ [x]) := by
    rw [pushvalue_neg (by omega) (by omega) (by omega)]
    congr 3
    subst hs
    simp
  -- the handle has moved the top, so the same index is one value further up
  have hcopies : copies (-(xs.length + 1 : Nat)) ((xs.length + 1 : Nat) - 1 : Int).toNat
      (s ++ [x] ++ [zhp]) = some (s ++ [x] ++ [zhp] ++ rotated x xs) := by
    have hn : ((xs.length + 1 : Nat) - 1 : Int).toNat = xs.length := by omega
    rw [hn, copies_eq (by omega) (by omega) (by simp only [List.length_append]; omega)]
    congr 2
    have hdrop : (s ++ [x] ++ [zhp]).length - (xs.length + 1) = below.length + 2 := by
      simp only [List.length_append, List.length_singleton]
      omega
    rw [hdrop, ← hs]
    cases xs with
    | nil => rfl
    | cons y xs =>
      have hall : xs.take (xs.length + 1) = xs := List.take_of_length_le (by omega)
      simp [rotated, List.take_append, hall]
  have hframe : frame ((xs.length + 1 : Nat) : Int).toNat (s ++ [x] ++ [zhp] ++ rotated x xs) =
      some (s, x, zhp :: rotated x xs) := by
    have hbelow : (s ++ [x] ++ [zhp] ++ rotated x xs).length - (xs.length + 1) - 1 = s.length := by
      simp only [List.length_append, List.length_singleton, rotated_length]
      omega
    rw [frame, Int.toNat_natCast]
    simp only [hbelow]
    simp [List.append_assoc, rotated_length]
  rw [trampoline]
  simp only [hnargs, hfunction, Option.bind_eq_bind, Option.bind_some, hcopies, hframe]
  rfl

/-! ## What the library and a trampoline do together -/

theorem insertFail_concat (s : Stack) (e : Value) : insertFail (s ++ [e]) = s ++ [.nil, e] := by
  simp [insertFail]

theorem zfs_iter_cb_eq (lua : Lua) (calls : List Call) (self x zhp : Value) (xs : List Value) :
    zfs_iter_cb lua calls (self :: x :: xs) zhp =
      match lua calls x (zhp :: rotated x xs) with
      | .error e => some (self :: x :: xs ++ [.nil, e],
          ⟨self :: x :: xs, zhp, x, zhp :: rotated x xs, .error e⟩, true)
      | .ok v => some (self :: x :: xs,
          ⟨self :: x :: xs, zhp, x, zhp :: rotated x xs, .ok v⟩, false) := by
  have hframe := trampoline_eq lua calls zhp x [self] xs
  rw [List.singleton_append, List.length_singleton] at hframe
  rw [zfs_iter_cb, hframe, Option.map_some]
  cases lua calls x (zhp :: rotated x xs) with
  | error e => exact congrArg (fun s => some (s, _, true)) (insertFail_concat _ e)
  | ok v => rfl

/-- What `zfs_iter_cb` calls, whatever comes of it. -/
theorem zfs_iter_cb_call (lua : Lua) (calls : List Call) (self x zhp : Value)
    (xs : List Value) : ∃ s' call answer,
      zfs_iter_cb lua calls (self :: x :: xs) zhp = some (s', call, answer) ∧
      call.function = x ∧ call.args = zhp :: rotated x xs ∧ call.handle = zhp := by
  rw [zfs_iter_cb_eq]
  cases lua calls x (zhp :: rotated x xs) with
  | error e => exact ⟨_, _, _, rfl, rfl, rfl, rfl⟩
  | ok v => exact ⟨_, _, _, rfl, rfl, rfl, rfl⟩

section Deliver
variable {cb : List Call → Stack → Value → Option (Stack × Call × Bool)} {zhp : Value}
  {next : Bool → Iteration} {before calls : List Call} {s after : Stack} {error : Bool}

/-- A handle that is delivered leads to a call. -/
theorem deliver_delivers
    (h : deliver cb (.delivers zhp next) before s = some (after, calls, error)) :
    ∃ s' call answer, cb before s zhp = some (s', call, answer) ∧
      deliver cb (next answer) (before ++ [call]) s' = some (after, calls, error) := by
  rw [deliver] at h
  cases hcb : cb before s zhp with
  | none =>
    rw [hcb] at h
    cases h
  | some r =>
    obtain ⟨s', call, answer⟩ := r
    rw [hcb] at h
    exact ⟨s', call, answer, rfl, h⟩

/-- The calls that have been made stay. -/
theorem deliver_extends {it : Iteration} (h : deliver cb it before s = some (after, calls, error)) :
    before <+: calls := by
  induction it generalizing before s with
  | returns error' =>
    cases h
    exact List.prefix_refl _
  | delivers zhp next ih =>
    obtain ⟨s', call, answer, _, hrest⟩ := deliver_delivers h
    exact (List.prefix_append ..).trans (ih answer hrest)

theorem mem_of_deliver {it : Iteration} {call : Call}
    (h : deliver cb it (before ++ [call]) s = some (after, calls, error)) : call ∈ calls :=
  (deliver_extends h).subset (List.mem_append_right _ (List.mem_singleton_self call))

end Deliver

/-- Every handle leads to a call of `x` with the handle and `copied`, on the stack `s`. -/
structure Served (s : Stack) (x : Value) (copied : List Value) (it : Iteration)
    (calls : List Call) : Prop where
  stack : ∀ c ∈ calls, c.stack = s
  function : ∀ c ∈ calls, c.function = x
  args : ∀ c ∈ calls, c.args = c.handle :: copied
  delivered : it.Delivered Call.raised calls

theorem Served.nil (s : Stack) (x : Value) (copied : List Value) (error : Bool) :
    Served s x copied (.returns error) [] where
  stack := List.forall_mem_nil _
  function := List.forall_mem_nil _
  args := List.forall_mem_nil _
  delivered := rfl

/-- One more call, before the others. -/
theorem Served.cons {s : Stack} {x zhp : Value} {copied : List Value} {next : Bool → Iteration}
    {calls : List Call} (outcome : Except Value Value)
    (h : Served s x copied (next (Call.raised ⟨s, zhp, x, zhp :: copied, outcome⟩)) calls) :
    Served s x copied (.delivers zhp next) (⟨s, zhp, x, zhp :: copied, outcome⟩ :: calls) where
  stack := List.forall_mem_cons.mpr ⟨rfl, h.stack⟩
  function := List.forall_mem_cons.mpr ⟨rfl, h.function⟩
  args := List.forall_mem_cons.mpr ⟨rfl, h.args⟩
  delivered := ⟨_, calls, rfl, rfl, h.delivered⟩

section Iter
variable (lua : Lua) (self x : Value) (xs : List Value) {it : Iteration}

/-- **A whole iteration**, when nothing is delivered after a callback that has raised. -/
theorem deliver_iter (before : List Call) (hreports : it.Reports)
    (hstops : it.StopsAtFailure lua (self :: x :: xs) x (rotated x xs) before) :
    ∃ calls after error,
      deliver (zfs_iter_cb lua) it before (self :: x :: xs) =
        some (after, before ++ calls, error) ∧
      Served (self :: x :: xs) x (rotated x xs) it calls ∧
      ∀ c ∈ calls, ∀ e, c.outcome = .error e →
        error = true ∧ after = self :: x :: xs ++ [.nil, e] := by
  induction it generalizing before with
  | returns error =>
    exact ⟨[], _, error, by rw [deliver, List.append_nil], Served.nil .., List.forall_mem_nil _⟩
  | delivers zhp next ih =>
    cases hlua : lua before x (zhp :: rotated x xs) with
    | error e =>
      -- this was the last handle, and the function reports the failure
      cases hnext : next true with
      | delivers zhp' next' =>
        simp only [Iteration.StopsAtFailure, hlua, hnext] at hstops
        exact hstops.elim
      | returns error =>
        have herror : error = true := by
          have hfails := hreports.1
          rw [hnext] at hfails
          exact hfails
        refine ⟨[⟨self :: x :: xs, zhp, x, zhp :: rotated x xs, .error e⟩],
          self :: x :: xs ++ [.nil, e], error, ?_, Served.cons (.error e) ?_, ?_⟩
        · simp only [deliver, zfs_iter_cb_eq, hlua, hnext]
        · simp only [Call.raised, hnext]
          exact Served.nil ..
        · intro c hc e' he
          rw [List.mem_singleton.mp hc] at he
          cases he
          exact ⟨herror, rfl⟩
    | ok v =>
      simp only [Iteration.StopsAtFailure, hlua] at hstops
      obtain ⟨calls, after, error, hrest, hserved, herror⟩ := ih false _ hreports.2 hstops
      refine ⟨_ :: calls, after, error, ?_, Served.cons (.ok v) hserved, ?_⟩
      · simp only [deliver, zfs_iter_cb_eq, hlua, hrest]
        rw [List.append_assoc, List.singleton_append]
      · intro c hc e he
        rcases List.mem_cons.mp hc with rfl | hc
        · cases he
        · exact herror c hc e he

/-- A handle that is delivered after a callback has raised is passed with two values more:
the nil and the error that the first one has left on the stack. -/
theorem deliver_stops {before calls : List Call} {after : Stack} {error : Bool}
    (h : deliver (zfs_iter_cb lua) it before (self :: x :: xs) = some (after, calls, error))
    (hargs : ∀ c ∈ calls, c.args = c.handle :: rotated x xs) :
    it.StopsAtFailure lua (self :: x :: xs) x (rotated x xs) before := by
  induction it generalizing before with
  | returns error' => trivial
  | delivers zhp next ih =>
    cases hlua : lua before x (zhp :: rotated x xs) with
    | ok v =>
      simp only [deliver, zfs_iter_cb_eq, hlua] at h
      simp only [Iteration.StopsAtFailure, hlua]
      exact ih false h
    | error e =>
      obtain ⟨s', call, answer, hcb, hrest⟩ := deliver_delivers h
      rw [zfs_iter_cb_eq, hlua] at hcb
      cases hcb
      simp only [Iteration.StopsAtFailure, hlua]
      cases hnext : next true with
      | returns error' => trivial
      | delivers zhp' next' =>
        rw [hnext] at hrest
        obtain ⟨s'', call', answer', hcb', hrest'⟩ := deliver_delivers hrest
        obtain ⟨_, _, _, heq, _, hcall, hhandle⟩ := zfs_iter_cb_call lua
          (before ++ [⟨self :: x :: xs, zhp, x, zhp :: rotated x xs, .error e⟩]) self x zhp'
          (xs ++ [.nil, e])
        cases heq.symm.trans hcb'
        have hsame := hcall.symm.trans (hargs call' (mem_of_deliver hrest'))
        have hlen := congrArg List.length (List.cons.inj hsame).2
        rw [rotated_length, rotated_length, List.length_append] at hlen
        exact absurd hlen (by simp)

end Iter

/-! ## What the caller can expect -/

/-- The callback is called once for each handle that is delivered, in order, with the
handle and the caller's extra arguments, and always on the same stack. -/
structure Conforms (answer : Call → Bool) (a : Arguments) (it : Iteration) (calls : List Call) :
    Prop where
  function : ∀ c ∈ calls, c.function = a.callback
  args : ∀ c ∈ calls, c.args = c.handle :: a.extras
  stack : ∀ c ∈ calls, ∀ d ∈ calls, c.stack = d.stack
  delivered : it.Delivered answer calls

def Outcome.Conforms (answer : Call → Bool) (a : Arguments) (it : Iteration) : Outcome → Prop
  | .undefined => False
  | .returned calls _ => Zfs.Conforms answer a it calls

/-- The first callback that raises makes the method return nil and the error. -/
def Outcome.ReturnsError : Outcome → Prop
  | .undefined => False
  | .returned calls results =>
    ∀ c ∈ calls.find? Call.raised, ∀ e, c.outcome = .error e → results = [.nil, e]

theorem conforms_nil (answer : Call → Bool) (a : Arguments) (error : Bool) :
    Conforms answer a (.returns error) [] where
  function := List.forall_mem_nil _
  args := List.forall_mem_nil _
  stack := List.forall_mem_nil _
  delivered := rfl

theorem Served.conforms {a : Arguments} {s : Stack} {it : Iteration} {calls : List Call}
    (h : Served s a.callback a.extras it calls) : Conforms Call.raised a it calls where
  function := h.function
  args := h.args
  stack c hc d hd := (h.stack c hc).trans (h.stack d hd).symm
  delivered := h.delivered

/-! ## The methods -/

section Methods
variable {m : Method} {lua : Lua} {a : Arguments} {it : Iteration}

/-- An iter method calls what the massage has put above the object. -/
theorem Method.run_massaged {self x : Value} {xs : List Value}
    (h : massage m.removals a.stack = some (self :: x :: xs)) (hreports : it.Reports)
    (hstops : it.StopsAtFailure lua (self :: x :: xs) x (rotated x xs) []) :
    ∃ calls results, m.run lua a it = .returned calls results ∧
      Served (self :: x :: xs) x (rotated x xs) it calls ∧
      ∀ c ∈ calls, ∀ e, c.outcome = .error e → results = [.nil, e] := by
  obtain ⟨calls, after, error, hdeliver, hserved, herror⟩ :=
    deliver_iter lua self x xs [] hreports hstops
  rw [List.nil_append] at hdeliver
  have hrun : m.run lua a it =
      if error then
        if 0 < after.length - (self :: x :: xs).length then
          .returned calls
            (after.drop (after.length - (after.length - (self :: x :: xs).length)))
        else .returned calls [.nil, Value.literal m.failure]
      else .returned calls [.integer 1] := by
    rw [Method.run, h]
    simp only [hdeliver]
  have hresults : ∃ results, m.run lua a it = .returned calls results ∧
      ∀ c ∈ calls, ∀ e, c.outcome = .error e → results = [.nil, e] := by
    -- a callback that raises leaves nil and the error on the stack
    by_cases hraised : ∃ c ∈ calls, ∃ e, c.outcome = .error e
    · obtain ⟨c, hc, e, he⟩ := hraised
      obtain ⟨rfl, rfl⟩ := herror c hc e he
      have hlen : (self :: x :: xs ++ [.nil, e]).length - (self :: x :: xs).length = 2 := by
        rw [List.length_append]
        exact Nat.add_sub_cancel_left ..
      have hdrop : (self :: x :: xs ++ [Value.nil, e]).drop
          ((self :: x :: xs ++ [Value.nil, e]).length - 2) = [.nil, e] := by
        rw [List.length_append]
        exact List.drop_left
      refine ⟨[.nil, e], ?_, fun d hd e' he' => ?_⟩
      · rw [hrun, hlen, hdrop]
        rfl
      · obtain ⟨_, happend⟩ := herror d hd e' he'
        exact List.append_cancel_left happend
    · have hnone : ∀ c ∈ calls, ∀ e, c.outcome = .error e → False :=
        fun c hc e he => hraised ⟨c, hc, e, he⟩
      rw [hrun]
      split
      · split
        · exact ⟨_, rfl, fun c hc e he => (hnone c hc e he).elim⟩
        · exact ⟨_, rfl, fun c hc e he => (hnone c hc e he).elim⟩
      · exact ⟨_, rfl, fun c hc e he => (hnone c hc e he).elim⟩
  obtain ⟨results, hreturned, hraises⟩ := hresults
  exact ⟨calls, results, hreturned, hserved, hraises⟩

/-- The calls are those of the run on the massaged stack. -/
theorem Method.calls_of_conforms {s : Stack} (h : massage m.removals a.stack = some s)
    (hconforms : (m.run lua a it).Conforms Call.raised a it) : ∃ after calls error,
      deliver (zfs_iter_cb lua) it [] s = some (after, calls, error) ∧
      Conforms Call.raised a it calls := by
  rw [Method.run, h] at hconforms
  cases hdeliver : deliver (zfs_iter_cb lua) it [] s with
  | none =>
    simp only [hdeliver] at hconforms
    exact hconforms.elim
  | some r =>
    obtain ⟨after, calls, error⟩ := r
    simp only [hdeliver] at hconforms
    refine ⟨after, calls, error, rfl, ?_⟩
    split at hconforms
    · split at hconforms
      · exact hconforms
      · exact hconforms
    · exact hconforms

theorem Method.conforms_iff {self x : Value} {xs : List Value}
    (h : massage m.removals a.stack = some (self :: x :: xs)) (hreports : it.Reports) :
    (m.run lua a it).Conforms Call.raised a it ∧ (m.run lua a it).ReturnsError ↔
      it.DeliversNone ∨ (x = a.callback ∧ rotated x xs = a.extras ∧
        it.StopsAtFailure lua (self :: x :: xs) a.callback a.extras []) := by
  constructor
  · rintro ⟨hconforms, _⟩
    obtain ⟨after, calls, error, hdeliver, hcalls⟩ := Method.calls_of_conforms h hconforms
    cases it with
    | returns error' => exact Or.inl trivial
    | delivers zhp next =>
      -- the first call says what is called, and with what
      obtain ⟨s', call, answer, hcb, hrest⟩ := deliver_delivers hdeliver
      obtain ⟨_, _, _, heq, hfunction, hargs, hhandle⟩ := zfs_iter_cb_call lua [] self x zhp xs
      cases heq.symm.trans hcb
      have hmem := mem_of_deliver hrest
      have hx : x = a.callback := hfunction.symm.trans (hcalls.function call hmem)
      have hextras : rotated x xs = a.extras :=
        (List.cons.inj (hargs.symm.trans (hcalls.args call hmem))).2
      have hstops := deliver_stops lua self x xs hdeliver (hextras ▸ hcalls.args)
      rw [hextras, hx] at hstops
      rw [hx] at hextras ⊢
      exact Or.inr ⟨rfl, hextras, hstops⟩
  · have hreturned : x = a.callback → rotated x xs = a.extras →
        it.StopsAtFailure lua (self :: x :: xs) x (rotated x xs) [] →
        (m.run lua a it).Conforms Call.raised a it ∧ (m.run lua a it).ReturnsError := by
      rintro rfl hextras hstops
      obtain ⟨calls, results, hrun, hserved, hraises⟩ := Method.run_massaged h hreports hstops
      rw [hextras] at hserved
      rw [hrun]
      exact ⟨hserved.conforms, fun c hc => hraises c (List.mem_of_find?_eq_some hc)⟩
    rintro (hnone | ⟨rfl, hextras, hstops⟩)
    · cases it with
      | delivers zhp next => exact hnone.elim
      | returns error =>
        have hstops : (Iteration.returns error).StopsAtFailure lua (self :: x :: xs) x
            (rotated x xs) [] := trivial
        obtain ⟨calls, results, hrun, hserved, hraises⟩ := Method.run_massaged h hreports hstops
        obtain rfl : calls = [] := hserved.delivered
        rw [hrun]
        exact ⟨conforms_nil Call.raised a error, fun c hc => by cases hc⟩
    · exact hreturned rfl hextras (hextras ▸ hstops)

/-- When an iter method does what the caller can expect.  The copies come out right only
if all extra arguments are the callback itself, and as long as nothing is delivered after a
callback that has raised; a second removal takes the callback away and leaves the last
parameter in its place, and a third one takes the first extra argument, or nothing when
there is none. -/
def Method.Works (m : Method) (lua : Lua) (a : Arguments) (it : Iteration) : Prop :=
  let stops := it.StopsAtFailure lua (a.self :: a.callback :: a.extras) a.callback a.extras []
  match m.removals with
  | [] | [_] => it.DeliversNone ∨ ((∀ x ∈ a.extras, x = a.callback) ∧ stops)
  | [_, _] => it.DeliversNone ∨
      (a.params.getLast? = some a.callback ∧ (∀ x ∈ a.extras, x = a.callback) ∧ stops)
  | _ => it.DeliversNone ∧ a.extras ≠ []

/-! ### The massages -/

theorem remove_above (below above : Stack) (v : Value) {i : Int}
    (hi : i = (below.length + 1 : Nat)) :
    remove (below ++ v :: above) i = some (below ++ above) := by
  have hposition : position (below ++ v :: above) i = some below.length := by
    rw [position, if_pos]
    · congr 1
      omega
    · rw [List.length_append, List.length_cons]
      omega
  rw [remove, hposition, Option.map_some, List.eraseIdx_append_of_length_le (Nat.le_refl _),
    Nat.sub_self]
  rfl

theorem massage_two (self p : Value) (rest : Stack) :
    massage [2] (self :: p :: rest) = some (self :: rest) := by
  show (remove ([self] ++ p :: rest) 2).bind (massage []) = _
  rw [remove_above (i := 2) [self] rest p rfl]
  rfl

theorem massage_three (self p q r : Value) (rest : Stack) :
    massage [2, 3] (self :: p :: q :: r :: rest) = some (self :: q :: rest) := by
  show (remove ([self] ++ p :: (q :: r :: rest)) 2).bind (massage [3]) = _
  rw [remove_above (i := 2) [self] (q :: r :: rest) p rfl]
  show (remove ([self, q] ++ r :: rest) 3).bind (massage []) = _
  rw [remove_above (i := 3) [self, q] rest r rfl]
  rfl

theorem massage_four (self p q r v : Value) (rest : Stack) :
    massage [2, 3, 4] (self :: p :: q :: r :: v :: rest) =
      (remove (self :: q :: v :: rest) 4).bind (massage []) := by
  show (remove ([self] ++ p :: (q :: r :: v :: rest)) 2).bind (massage [3, 4]) = _
  rw [remove_above (i := 2) [self] (q :: r :: v :: rest) p rfl]
  show (remove ([self, q] ++ r :: (v :: rest)) 3).bind (massage [4]) = _
  rw [remove_above (i := 3) [self, q] (v :: rest) r rfl]
  rfl

/-! ### The four kinds of methods -/

theorem works_of_no_removal (hr : m.removals = []) (hp : m.params = []) (ha : a.Accepted m.params)
    (hreports : it.Reports) :
    (m.run lua a it).Conforms Call.raised a it ∧ (m.run lua a it).ReturnsError ↔
      m.Works lua a it := by
  have hparams : a.params = [] := List.forall₂_nil_left_iff.mp (hp ▸ ha.1)
  have hmassage : massage m.removals a.stack = some (a.self :: a.callback :: a.extras) := by
    rw [hr, Arguments.stack, hparams]
    rfl
  rw [Method.conforms_iff hmassage hreports, Method.Works, hr, rotated_eq_self]
  simp only [true_and]

theorem works_of_one_removal {p : Param} (hr : m.removals = [2]) (hp : m.params = [p])
    (ha : a.Accepted m.params) (hreports : it.Reports) :
    (m.run lua a it).Conforms Call.raised a it ∧ (m.run lua a it).ReturnsError ↔
      m.Works lua a it := by
  obtain ⟨v, params, _, hnil, hparams⟩ := List.forall₂_cons_left_iff.mp (hp ▸ ha.1)
  rw [List.forall₂_nil_left_iff.mp hnil] at hparams
  have hmassage : massage m.removals a.stack = some (a.self :: a.callback :: a.extras) := by
    rw [hr, Arguments.stack, hparams]
    exact massage_two ..
  rw [Method.conforms_iff hmassage hreports, Method.Works, hr, rotated_eq_self]
  simp only [true_and]

theorem works_of_two_removals {p q : Param} (hr : m.removals = [2, 3]) (hp : m.params = [p, q])
    (ha : a.Accepted m.params) (hreports : it.Reports) :
    (m.run lua a it).Conforms Call.raised a it ∧ (m.run lua a it).ReturnsError ↔
      m.Works lua a it := by
  obtain ⟨v, rest, _, hrest, hparams⟩ := List.forall₂_cons_left_iff.mp (hp ▸ ha.1)
  obtain ⟨w, params, _, hnil, rfl⟩ := List.forall₂_cons_left_iff.mp hrest
  rw [List.forall₂_nil_left_iff.mp hnil] at hparams
  have hmassage : massage m.removals a.stack = some (a.self :: w :: a.extras) := by
    rw [hr, Arguments.stack, hparams]
    exact massage_three ..
  rw [Method.conforms_iff hmassage hreports, Method.Works, hr, hparams, rotated_eq_self]
  refine or_congr_right ?_
  show _ ↔ some w = some a.callback ∧ _
  rw [Option.some_inj]
  constructor
  · rintro ⟨rfl, hextras⟩
    exact ⟨rfl, hextras⟩
  · rintro ⟨rfl, hextras⟩
    exact ⟨rfl, hextras⟩

/-- A number is no function. -/
theorem ne_callback {v : Value} (hv : Param.optinteger.accepts v = true)
    (hcallback : isfunction a.callback = true) : v ≠ a.callback := by
  rintro rfl
  cases hv' : a.callback with
  | function r => rw [hv'] at hv; cases hv
  | cfunction r => rw [hv'] at hv; cases hv
  | _ => rw [hv'] at hcallback; cases hcallback

theorem works_of_three_removals {p r : Param} (hr : m.removals = [2, 3, 4])
    (hp : m.params = [p, .optinteger, r]) (ha : a.Accepted m.params) (hreports : it.Reports) :
    (m.run lua a it).Conforms Call.raised a it ∧ (m.run lua a it).ReturnsError ↔
      m.Works lua a it := by
  obtain ⟨v, rest, _, hrest, hparams⟩ := List.forall₂_cons_left_iff.mp (hp ▸ ha.1)
  obtain ⟨w, rest', hw, hrest', rfl⟩ := List.forall₂_cons_left_iff.mp hrest
  obtain ⟨x, params, _, hnil, rfl⟩ := List.forall₂_cons_left_iff.mp hrest'
  rw [List.forall₂_nil_left_iff.mp hnil] at hparams
  have hmassage : massage m.removals a.stack =
      (remove (a.self :: w :: a.callback :: a.extras) 4).bind (massage []) := by
    rw [hr, Arguments.stack, hparams]
    exact massage_four ..
  rw [Method.Works, hr]
  -- the third removal is at the first extra argument, if there is one
  cases hextras : a.extras with
  | nil =>
    rw [hextras] at hmassage
    have hundefined : m.run lua a it = .undefined := by
      rw [Method.run, hmassage]
      rfl
    rw [hundefined]
    exact ⟨fun h => h.1.elim, fun h => absurd rfl h.2⟩
  | cons y ys =>
    have hremoved : massage m.removals a.stack = some (a.self :: w :: a.callback :: ys) := by
      rw [hmassage, hextras]
      show (remove ([a.self, w, a.callback] ++ y :: ys) 4).bind (massage []) = _
      rw [remove_above (i := 4) [a.self, w, a.callback] ys y rfl]
      rfl
    rw [Method.conforms_iff hremoved hreports]
    constructor
    · rintro (hnone | ⟨hw', _⟩)
      · exact ⟨hnone, List.cons_ne_nil y ys⟩
      · exact absurd hw' (ne_callback hw ha.2)
    · exact fun h => Or.inl h.1

end Methods

/-! ### The mount points and the filter of a send -/

/-- What is left after the reference is taken and the handles are popped. -/
theorem take_stashed (s : Stack) (box : Value) (table : List Value) :
    ((s ++ [box] ++ table).dropLast).take
      ((s ++ [box] ++ table).dropLast.length - table.length) = s := by
  have hlen : (s ++ [box] ++ table).dropLast.length - table.length = s.length := by
    simp only [List.length_dropLast, List.length_append, List.length_singleton]
    omega
  rw [hlen, List.dropLast_eq_take, List.take_take, List.append_assoc, List.take_left']
  simp only [List.length_append, List.length_singleton]
  omega

theorem foreach_mountpoint_conforms_iff (lua : Lua) {a : Arguments} (box : Value)
    (table : List Value) (it : Iteration) (ha : a.Accepted foreachParams) :
    (l_zfs_foreach_mountpoint lua a box table it).Conforms Call.raised a it ↔
      it.DeliversNone := by
  obtain ⟨v, rest, _, hrest, hparams⟩ := List.forall₂_cons_left_iff.mp ha.1
  obtain ⟨nthr, params, hnthr, hnil, rfl⟩ := List.forall₂_cons_left_iff.mp hrest
  rw [List.forall₂_nil_left_iff.mp hnil] at hparams
  have hmassage : massage [2, 3] a.stack = some (a.self :: nthr :: a.extras) := by
    rw [Arguments.stack, hparams]
    exact massage_three ..
  rw [l_zfs_foreach_mountpoint]
  simp only [take_stashed, hmassage]
  cases it with
  | returns error => exact iff_of_true (conforms_nil Call.raised a error) trivial
  | delivers zhp next =>
    refine iff_of_false (fun h => ?_) (fun h => h.elim)
    cases hdeliver : deliver (zfs_iter_cb lua) (.delivers zhp next) []
        (a.self :: nthr :: a.extras) with
    | none =>
      rw [hdeliver] at h
      exact h
    | some r =>
      obtain ⟨after, calls, error⟩ := r
      rw [hdeliver] at h
      obtain ⟨s', call, answer, hcb, hcalls⟩ := deliver_delivers hdeliver
      obtain ⟨_, _, _, heq, hfunction, _⟩ := zfs_iter_cb_call lua [] a.self nthr zhp a.extras
      cases heq.symm.trans hcb
      -- the number of threads is what is called
      have hcallback := hfunction.symm.trans (Conforms.function h call (mem_of_deliver hcalls))
      refine ne_callback (a := a) ?_ ha.2 hcallback
      cases nthr with
      | integer | number | string => rfl
      | _ => cases hnthr

/-- What `snapfilter_cb` calls, with one extra argument or more. -/
theorem snapfilter_cb_call (lua : Lua) (calls : List Call) {below : List Value}
    (hsix : below.length = 6) (x zhp : Value) (xs : List Value) : ∃ s' call answer,
      snapfilter_cb lua calls (below ++ x :: xs) zhp = some (s', call, answer) ∧
      call.args = zhp :: rotated x xs ∧ call.handle = zhp := by
  have htrampoline := trampoline_eq lua calls zhp x below xs
  rw [hsix] at htrampoline
  rw [snapfilter_cb, htrampoline, Option.map_some]
  cases lua calls x (zhp :: rotated x xs) with
  | error e => exact ⟨_, _, _, rfl, rfl, rfl⟩
  | ok v => exact ⟨_, _, _, rfl, rfl, rfl⟩

/-- Whether the snapshot of the call is sent. -/
def Call.sends (c : Call) : Bool :=
  match c.outcome with
  | .error _ => false
  | .ok v => toboolean v

/-- The filter is one argument too far down: the first extra argument is called instead,
and without extra arguments the index is 0. -/
theorem send_conforms_iff (lua : Lua) (description errno : Value) {a : Arguments}
    (it : Iteration) (ha : a.Accepted sendParams) :
    (l_zfs_send lua description errno a it).Conforms Call.sends a it ↔ it.DeliversNone := by
  have hlen : a.params.length = 4 := (List.Forall₂.length_eq ha.1).symm
  have hbelow : a.stack = (a.self :: (a.params ++ [a.callback])) ++ a.extras := by
    rw [Arguments.stack, List.cons_append, List.append_assoc]
    rfl
  have hsix : (a.self :: (a.params ++ [a.callback])).length = 6 := by
    rw [List.length_cons, List.length_append, hlen]
    rfl
  rw [l_zfs_send]
  cases it with
  | returns error =>
    refine iff_of_true ?_ trivial
    cases error with
    | false => exact conforms_nil Call.sends a false
    | true => exact conforms_nil Call.sends a true
  | delivers zhp next =>
    refine iff_of_false (fun h => ?_) (fun h => h.elim)
    cases hdeliver : deliver (snapfilter_cb lua) (.delivers zhp next) [] a.stack with
    | none =>
      rw [hdeliver] at h
      exact h
    | some r =>
      obtain ⟨after, calls, error⟩ := r
      rw [hdeliver] at h
      have hconforms : Conforms Call.sends a (.delivers zhp next) calls := by
        cases error with
        | false => exact h
        | true => exact h
      obtain ⟨s', call, answer, hcb, hcalls⟩ := deliver_delivers hdeliver
      cases hextras : a.extras with
      | nil =>
        have htop : trampoline 6 lua [] a.stack zhp = none := by
          rw [hbelow, hextras, List.append_nil, trampoline, hsix]
          rfl
        rw [snapfilter_cb, htop] at hcb
        cases hcb
      | cons x xs =>
        obtain ⟨_, _, _, heq, hargs, hhandle⟩ := snapfilter_cb_call lua [] hsix x zhp xs
        rw [hbelow, hextras] at hcb
        cases heq.symm.trans hcb
        -- one argument is missing
        have hcopied := hargs.symm.trans (hconforms.args call (mem_of_deliver hcalls))
        rw [hhandle, hextras] at hcopied
        have hlength := congrArg List.length (List.cons.inj hcopied).2
        rw [rotated_length, List.length_cons] at hlength
        omega

/-! ## All methods -/

/-- **The callbacks**: for which arguments, and for which functions of the C library, a
method calls the callback with the handle and the extra arguments. -/
theorem callbacks_conform_iff (lua : Lua) (a : Arguments) (it : Iteration) :
    (∀ m ∈ iterMethods, a.Accepted m.params → it.Reports →
      ((m.run lua a it).Conforms Call.raised a it ∧ (m.run lua a it).ReturnsError ↔
        m.Works lua a it)) ∧
    (∀ box table, a.Accepted foreachParams →
      ((l_zfs_foreach_mountpoint lua a box table it).Conforms Call.raised a it ↔
        it.DeliversNone)) ∧
    (∀ description errno, a.Accepted sendParams →
      ((l_zfs_send lua description errno a it).Conforms Call.sends a it ↔ it.DeliversNone)) := by
  refine ⟨?_, fun box table => foreach_mountpoint_conforms_iff lua box table it,
    fun description errno => send_conforms_iff lua description errno it⟩
  intro m hm ha hreports
  simp only [iterMethods, List.mem_cons, List.not_mem_nil, or_false] at hm
  rcases hm with rfl | rfl | rfl | rfl | rfl | rfl | rfl | rfl | rfl | rfl | rfl | rfl | rfl |
    rfl | rfl | rfl | rfl
  · exact works_of_no_removal rfl rfl ha hreports  -- `iter_pools`
  · exact works_of_no_removal rfl rfl ha hreports
  · exact works_of_no_removal rfl rfl ha hreports
  · exact works_of_one_removal rfl rfl ha hreports  -- `iter_dependents`
  · exact works_of_no_removal rfl rfl ha hreports
  · exact works_of_three_removals rfl rfl ha hreports  -- `iter_snapshots`
  · exact works_of_two_removals rfl rfl ha hreports
  · exact works_of_one_removal rfl rfl ha hreports  -- `iter_snapspec`
  · exact works_of_no_removal rfl rfl ha hreports
  · exact works_of_one_removal rfl rfl ha hreports  -- `iter_children_v2`
  · exact works_of_two_removals rfl rfl ha hreports
  · exact works_of_one_removal rfl rfl ha hreports
  · exact works_of_three_removals rfl rfl ha hreports  -- `iter_snapshots_v2`
  · exact works_of_three_removals rfl rfl ha hreports
  · exact works_of_two_removals rfl rfl ha hreports
  · exact works_of_one_removal rfl rfl ha hreports
  · exact works_of_no_removal rfl rfl ha hreports  -- `iter_mounted`

/-- A function that returns nothing. -/
def silent : Lua := fun _ _ _ => .ok .nil

/-- Delivers the handles, until a callback fails, and returns its failure: a loop that ends
with `if ((ret = func(zhp, data)) != 0) return (ret);`. -/
def untilFailure : List Value → Iteration
  | [] => .returns false
  | zhp :: handles =>
    .delivers zhp (fun failed => if failed then .returns true else untilFailure handles)

/-- Two children, and no extra arguments. -/
theorem callbacks_conform_children :
    (l_zfs_iter_children.run silent ⟨.userdata 0, [], .function 1, []⟩
      (untilFailure [.userdata 2, .userdata 3])).Conforms Call.raised
        ⟨.userdata 0, [], .function 1, []⟩ (untilFailure [.userdata 2, .userdata 3]) :=
  (((callbacks_conform_iff silent ⟨.userdata 0, [], .function 1, []⟩
    (untilFailure [.userdata 2, .userdata 3])).1 l_zfs_iter_children (by simp [iterMethods])
    ⟨List.Forall₂.nil, rfl⟩ ⟨rfl, rfl, trivial⟩).mpr
    (Or.inr ⟨List.forall_mem_nil _, trivial⟩)).1

/-- With one extra argument the callback gets itself instead. -/
theorem not_callbacks_conform :
    ¬ ∀ m ∈ iterMethods, ∀ lua a it, a.Accepted m.params → it.Reports →
      (m.run lua a it).Conforms Call.raised a it ∧ (m.run lua a it).ReturnsError := by
  intro h
  have hconforms := (h l_zfs_iter_children (by simp [iterMethods]) silent
    ⟨.userdata 0, [], .function 1, [.integer 7]⟩ (untilFailure [.userdata 2])
    ⟨List.Forall₂.nil, rfl⟩ ⟨rfl, trivial⟩).1
  have hargs := Conforms.args hconforms _ (List.mem_cons_self ..)
  cases hargs

end Zfs
end FluaLibs
