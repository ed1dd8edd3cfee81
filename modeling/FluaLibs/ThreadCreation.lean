import FluaLibs.ResourceTrace
import FluaLibs.ThreadLifecycle
import Mathlib.Algebra.Group.Int.Defs
import Mathlib.Algebra.Group.Nat.Defs

/-! # What `pthread.create` leaves behind

`l_pthread_create` gets a thread attributes object, a Lua state and a handle, starts the
thread on the state, and returns the handle.  Every step can fail, and each failure has
its own set of things to release.  Here the function is run to its end with everything
it does to them: the three it gets, and the state of its caller.

What the attribute table gives, and how the calls of the C library end, is a parameter
(`Env`).  A field of the table may raise an error, through a metamethod.
-/
namespace FluaLibs
namespace ThreadCreation
open Threads
variable {R : Runtime}

/-! ## The code -/

/-- `ENOMEM` -/
def enomem : Nat := 12

/-- The errors that leave `l_pthread_create`. -/
inductive Raised where
  | argerror (arg : Int) (message : String)
  | typeerror (arg : Int) (expected : String)
  | fatal (source : String) (error : Nat)
  | metamethod (value : Value)
  deriving DecidableEq

/-- The calls that set an attribute. -/
inductive AttrCall where
  | setstack (addr : Value) (size : Int)
  | setstacksize (size : Int)
  | setguardsize (size : Int)
  | setdetachstate (state : Int)
  | setinheritsched (inherit : Int)
  | setschedparam (priority : Int)
  | setschedpolicy (policy : Int)
  | setscope (scope : Int)
  | setcreatesuspend_np
  | setaffinity_np (cpuset : Value)

/-- What is outside the module.  Calls of the C library give an error number, 0 for
success. -/
structure Env where
  /-- `lua_getfield`, on the attribute table or on a table in it, by the names of the fields. -/
  getfield : List String → Except Raised Value
  /-- `lua_tointeger` of a number. -/
  tointeger : Value → Int
  /-- Whether a userdata has the metatable of `cpuset`. -/
  isCpuset : Value → Bool
  attrInit : Nat
  attrSet : AttrCall → Nat
  attrDestroy : Nat
  newstate : Bool
  malloc : Bool
  start : Nat

namespace Env
variable (env : Env)

/-- A field that may be a number. -/
def numberField (name : String) (call : Int → AttrCall) : Except Raised Bool :=
  match env.getfield [name] with
  | .error e => .error e
  | .ok v =>
    match v with
    | .integer _ | .number _ => .ok (env.attrSet (call (env.tointeger v)) = 0)
    | .nil => .ok true
    | _ => .ok false

/-- `lua_tointeger` as `size_t` and as `int`. -/
def toSize (i : Int) : Int := i % 2 ^ 64

def toInt (i : Int) : Int := i.bmod (2 ^ 32)

/-- A field that must be a number, in a table. -/
def requiredNumber (path : List String) : Except Raised (Option Int) :=
  match env.getfield path with
  | .error e => .error e
  | .ok v =>
    match v with
    | .integer _ | .number _ => .ok (some (env.tointeger v))
    | _ => .ok none

def stack : Except Raised Bool :=
  match env.getfield ["stack"] with
  | .error e => .error e
  | .ok (.table _) =>
    match env.getfield ["stack", "addr"] with
    | .error e => .error e
    | .ok (.lightuserdata p) =>
      match env.requiredNumber ["stack", "size"] with
      | .error e => .error e
      | .ok (some size) => .ok (env.attrSet (.setstack (.lightuserdata p) (toSize size)) = 0)
      | .ok none => .ok false
    | .ok _ => .ok false
  | .ok .nil => .ok true
  | .ok _ => .ok false

def stacksize : Except Raised Bool :=
  env.numberField "stacksize" (fun i => .setstacksize (toSize i))

def guardsize : Except Raised Bool :=
  env.numberField "guardsize" (fun i => .setguardsize (toSize i))

def detachstate : Except Raised Bool :=
  env.numberField "detachstate" (fun i => .setdetachstate (toInt i))

def inheritsched : Except Raised Bool :=
  env.numberField "inheritsched" (fun i => .setinheritsched (toInt i))

def schedparam : Except Raised Bool :=
  match env.getfield ["schedparam"] with
  | .error e => .error e
  | .ok (.table _) =>
    match env.requiredNumber ["schedparam", "sched_priority"] with
    | .error e => .error e
    | .ok (some priority) => .ok (env.attrSet (.setschedparam (toInt priority)) = 0)
    | .ok none => .ok false
  | .ok .nil => .ok true
  | .ok _ => .ok false

def schedpolicy : Except Raised Bool :=
  env.numberField "schedpolicy" (fun i => .setschedpolicy (toInt i))

def scope : Except Raised Bool :=
  env.numberField "scope" (fun i => .setscope (toInt i))

def createsuspend_np : Except Raised Bool :=
  match env.getfield ["createsuspend_np"] with
  | .error e => .error e
  | .ok (.boolean b) => .ok (!b || env.attrSet .setcreatesuspend_np = 0)
  | .ok .nil => .ok true
  | .ok _ => .ok false

def affinity_np : Except Raised Bool :=
  match env.getfield ["affinity_np"] with
  | .error e => .error e
  | .ok (.userdata r) =>
    .ok (env.isCpuset (.userdata r) && env.attrSet (.setaffinity_np (.userdata r)) = 0)
  | .ok .nil => .ok true
  | .ok _ => .ok false

/-- The fields, in the order in which they are looked at. -/
def fields : List (Except Raised Bool) :=
  [env.stack, env.stacksize, env.guardsize, env.detachstate, env.inheritsched, env.schedparam,
    env.schedpolicy, env.scope, env.createsuspend_np, env.affinity_np]

end Env

/-- One after the other, until one is refused or raises an error. -/
def allAccepted : List (Except Raised Bool) → Except Raised Bool
  | [] => .ok true
  | .ok true :: fields => allAccepted fields
  | other :: _ => other

/-- `checkattr` -/
def checkattr (env : Env) : Except Raised Bool := allAccepted env.fields

/-- What the function gets, and the state of its caller. -/
inductive Resource where
  | attr
  | newState
  | handle
  | caller
  deriving DecidableEq

inductive Outcome where
  | handle
  | failed (error : Nat)
  | raised (error : Raised)
  deriving DecidableEq

/-- A call, with all it did. -/
structure Call where
  trace : ResourceTrace Resource
  outcome : Outcome

/-- `attr_destroy`, which raises an error when it fails, and what comes after it. -/
def attr_destroy (env : Env) (error : Raised) : Outcome :=
  .raised (if env.attrDestroy ≠ 0 then .fatal "pthread_attr_destroy" env.attrDestroy else error)

/-- Whether there is an attribute table. -/
def hasAttr (L : LuaState R) : Bool :=
  match L.index 1 with
  | some (.table _) => true
  | _ => false

def isfunction : Option Value → Bool
  | some (.function _) | some (.cfunction _) => true
  | _ => false

def fnidx (L : LuaState R) : Int := if hasAttr L then 2 else 1

/-- The error that `copyn` returns for the function and its arguments. -/
def copyError (L : LuaState R) (fnidx : Int) : Option Int :=
  match copyn 2 L newState fnidx (L.gettop - (fnidx - 1)) with
  | some c => if c.ret ≠ 0 then some c.ret else none
  | none => some 0

/-- `l_pthread_create` -/
def l_pthread_create (env : Env) (L : LuaState R) : Call :=
  if env.attrInit ≠ 0 then ⟨[], .raised (.fatal "pthread_attr_init" env.attrInit)⟩
  else
    match if hasAttr L then checkattr env else .ok true with
    | .error e => ⟨[(.attr, .acquire)], .raised e⟩
    | .ok false =>
      ⟨[(.attr, .acquire), (.attr, .release)],
        attr_destroy env (.argerror 1 "invalid attr table")⟩
    | .ok true =>
      if !isfunction (L.index (fnidx L)) then
        ⟨[(.attr, .acquire), (.attr, .release)],
          attr_destroy env (.typeerror (fnidx L) "function")⟩
      else if !env.newstate then
        ⟨[(.attr, .acquire), (.attr, .release)],
          attr_destroy env (.fatal "luaL_newstate" enomem)⟩
      else
        match copyError L (fnidx L) with
        | some i =>
          ⟨[(.attr, .acquire), (.newState, .acquire), (.newState, .release), (.attr, .release)],
            attr_destroy env (.argerror i "non-serializable value")⟩
        | none =>
          if !env.malloc then
            -- lua_close(L), not lua_close(l)
            ⟨[(.attr, .acquire), (.newState, .acquire), (.caller, .release), (.attr, .release)],
              attr_destroy env (.fatal "malloc" enomem)⟩
          else
            let started := [(.attr, .acquire), (.newState, .acquire), (.handle, .acquire)] ++
              (if env.start = 0 then [(.newState, .give)] else []) ++ [(.attr, .release)]
            if env.attrDestroy ≠ 0 then
              ⟨started ++ [(.newState, .release), (.handle, .release)],
                .raised (.fatal "pthread_attr_destroy" env.attrDestroy)⟩
            else if env.start ≠ 0 then
              ⟨started ++ [(.newState, .release), (.handle, .release)], .failed env.start⟩
            else ⟨started ++ [(.handle, .give)], .handle⟩

/-! ## Where it fails -/

/-- A field raises an error, and all before it are accepted. -/
def Raises (fields : List (Except Raised Bool)) : Prop :=
  ∃ before e after, fields = before ++ .error e :: after ∧ ∀ field ∈ before, field = .ok true

theorem allAccepted_true_iff {fields : List (Except Raised Bool)} :
    allAccepted fields = .ok true ↔ ∀ field ∈ fields, field = .ok true := by
  induction fields with
  | nil => simp [allAccepted]
  | cons field fields ih =>
    rw [List.forall_mem_cons, ← ih]
    match field with
    | .ok true => simp [allAccepted]
    | .ok false => simp [allAccepted]
    | .error e => simp [allAccepted]

theorem allAccepted_error_iff {fields : List (Except Raised Bool)} :
    (∃ e, allAccepted fields = .error e) ↔ Raises fields := by
  induction fields with
  | nil => simp [allAccepted, Raises]
  | cons field fields ih =>
    constructor
    · rintro ⟨e, he⟩
      match field with
      | .ok true =>
        obtain ⟨before, e', after, rfl, hbefore⟩ := ih.mp ⟨e, he⟩
        exact ⟨.ok true :: before, e', after, rfl, List.forall_mem_cons.mpr ⟨rfl, hbefore⟩⟩
      | .ok false => cases he
      | .error e' => exact ⟨[], e', fields, rfl, fun field hfield => nomatch hfield⟩
    · rintro ⟨before, e, after, heq, hbefore⟩
      match before with
      | [] =>
        obtain ⟨rfl, rfl⟩ := List.cons.inj heq
        exact ⟨e, rfl⟩
      | first :: before =>
        obtain ⟨rfl, rfl⟩ := List.cons.inj heq
        obtain ⟨hfirst, hrest⟩ := List.forall_mem_cons.mp hbefore
        obtain ⟨e', he'⟩ := ih.mpr ⟨before, e, after, rfl, hrest⟩
        exact ⟨e', by rw [hfirst, allAccepted, he']⟩

/-- The call comes to the allocation of the handle. -/
structure Ready (env : Env) (L : LuaState R) : Prop where
  init : env.attrInit = 0
  attributes : hasAttr L → ∀ field ∈ env.fields, field = .ok true
  isFunction : isfunction (L.index (fnidx L)) = true
  newstate : env.newstate = true
  copied : copyError L (fnidx L) = none

/-- The traces of the calls that come no further than that. -/
def earlyTraces : List (ResourceTrace Resource) :=
  [[], [(.attr, .acquire), (.attr, .release)],
    [(.attr, .acquire), (.newState, .acquire), (.newState, .release), (.attr, .release)]]

/-- The trace from the start of the thread on. -/
def startTrace (env : Env) : ResourceTrace Resource :=
  [(.attr, .acquire), (.newState, .acquire), (.handle, .acquire)] ++
    (if env.start = 0 then [(.newState, .give)] else []) ++ [(.attr, .release)]

/-- The traces of a call that takes everything back, and of one that returns the handle. -/
def undoneTrace (env : Env) : ResourceTrace Resource :=
  startTrace env ++ [(.newState, .release), (.handle, .release)]

def doneTrace (env : Env) : ResourceTrace Resource := startTrace env ++ [(.handle, .give)]

/-- The attribute table is looked at, and a field raises an error. -/
def Interrupted (env : Env) (L : LuaState R) : Prop :=
  env.attrInit = 0 ∧ hasAttr L ∧ Raises env.fields

/-- The exits of the function, with what it has done then. -/
inductive Exit (env : Env) (L : LuaState R) : ResourceTrace Resource → Prop
  | interrupted (h : Interrupted env L) : Exit env L [(.attr, .acquire)]
  | early {trace : ResourceTrace Resource} (h : ¬ Interrupted env L) (hready : ¬ Ready env L)
    (htrace : trace ∈ earlyTraces) : Exit env L trace
  | noMemory (h : ¬ Interrupted env L) (hready : Ready env L) (hmalloc : env.malloc = false) :
    Exit env L [(.attr, .acquire), (.newState, .acquire), (.caller, .release), (.attr, .release)]
  | undone (h : ¬ Interrupted env L) (hready : Ready env L) (hmalloc : env.malloc = true)
    (hfails : env.attrDestroy ≠ 0 ∨ env.start ≠ 0) :
    Exit env L (undoneTrace env)
  | done (h : ¬ Interrupted env L) (hready : Ready env L) (hmalloc : env.malloc = true)
    (hdestroy : env.attrDestroy = 0) (hstart : env.start = 0) :
    Exit env L (doneTrace env)

/-- The fields are looked at only if there is an attribute table. -/
theorem checked_error_iff (env : Env) (L : LuaState R) :
    (∃ e, (if hasAttr L then checkattr env else .ok true) = .error e) ↔
      hasAttr L ∧ Raises env.fields := by
  rw [← allAccepted_error_iff]
  by_cases hattr : hasAttr L <;> simp [hattr, checkattr]

theorem checked_true_iff (env : Env) (L : LuaState R) :
    (if hasAttr L then checkattr env else .ok true) = .ok true ↔
      (hasAttr L → ∀ field ∈ env.fields, field = .ok true) := by
  rw [← allAccepted_true_iff]
  by_cases hattr : hasAttr L <;> simp [hattr, checkattr]

theorem create_exit (env : Env) (L : LuaState R) :
    Exit env L (l_pthread_create env L).trace := by
  rw [l_pthread_create]
  by_cases hinit : env.attrInit = 0
  swap
  · rw [if_pos hinit]
    exact .early (fun h => hinit h.1) (fun h => hinit h.init) (.head _)
  rw [if_neg (not_not.mpr hinit)]
  have herror := checked_error_iff env L
  have htrue := checked_true_iff env L
  cases hchecked : (if hasAttr L then checkattr env else .ok true) with
  | error e => exact .interrupted ⟨hinit, herror.mp ⟨e, hchecked⟩⟩
  | ok accepted =>
    rw [hchecked] at herror htrue
    have hnot : ¬ Interrupted env L := by
      rintro ⟨-, h⟩
      obtain ⟨e, he⟩ := herror.mpr h
      cases he
    cases accepted with
    | false =>
      refine .early hnot (fun h => ?_) (.tail _ (.head _))
      cases htrue.mpr h.attributes
    | true =>
      by_cases hfunction : isfunction (L.index (fnidx L)) = true
      swap
      · rw [if_pos (by simp [hfunction])]
        exact .early hnot (fun h => hfunction h.isFunction) (.tail _ (.head _))
      rw [if_neg (by simp [hfunction])]
      by_cases hnewstate : env.newstate = true
      swap
      · rw [if_pos (by simp [hnewstate])]
        exact .early hnot (fun h => hnewstate h.newstate) (.tail _ (.head _))
      rw [if_neg (by simp [hnewstate])]
      cases hcopied : copyError L (fnidx L) with
      | some i =>
        refine .early hnot (fun h => ?_) (.tail _ (.tail _ (.head _)))
        rw [h.copied] at hcopied
        cases hcopied
      | none =>
        have hready : Ready env L := ⟨hinit, htrue.mp rfl, hfunction, hnewstate, hcopied⟩
        by_cases hmalloc : env.malloc = true
        swap
        · rw [if_pos (by simp [hmalloc])]
          exact .noMemory hnot hready (by simpa using hmalloc)
        rw [if_neg (by simp [hmalloc])]
        by_cases hdestroy : env.attrDestroy = 0
        swap
        · rw [if_pos hdestroy]
          exact .undone hnot hready hmalloc (Or.inl hdestroy)
        rw [if_neg (not_not.mpr hdestroy)]
        by_cases hstart : env.start = 0
        · rw [if_neg (not_not.mpr hstart)]
          exact .done hnot hready hmalloc hdestroy hstart
        · rw [if_pos hstart]
          exact .undone hnot hready hmalloc (Or.inr hstart)

theorem earlyTraces_clean {trace : ResourceTrace Resource} (h : trace ∈ earlyTraces) :
    trace.Clean := by
  simp only [earlyTraces, List.mem_cons, List.not_mem_nil, or_false] at h
  intro r
  rcases h with rfl | rfl | rfl <;> cases r <;> decide

/-- What is done when the thread could not be started. -/
theorem undone_clean {env : Env} (hstart : env.start ≠ 0) : (undoneTrace env).Clean := by
  intro r
  rw [undoneTrace, startTrace, if_neg hstart]
  cases r <;> decide

theorem done_clean {env : Env} (hstart : env.start = 0) : (doneTrace env).Clean := by
  intro r
  rw [doneTrace, startTrace, if_pos hstart]
  cases r <;> decide

/-- **A failure of `pthread.create` is clean** but for three: a field of the attribute table
that raises an error, no memory for the handle, and attributes that cannot be destroyed
after the thread was started. -/
theorem create_clean_iff (env : Env) (L : LuaState R) :
    (l_pthread_create env L).trace.Clean ↔
      ¬ Interrupted env L ∧
      ¬ (Ready env L ∧ env.malloc = false) ∧
      ¬ (Ready env L ∧ env.malloc = true ∧ env.start = 0 ∧ env.attrDestroy ≠ 0) := by
  have hexit := create_exit env L
  generalize (l_pthread_create env L).trace = trace at hexit
  cases hexit with
  | interrupted h =>
    -- the attributes are left over
    refine iff_of_false (fun hclean => ?_) (fun hnone => hnone.1 h)
    have hreleased := hclean.released (r := .attr) (by decide) (by decide)
    revert hreleased
    decide
  | early h hready htrace =>
    exact iff_of_true (earlyTraces_clean htrace)
      ⟨h, fun hno => hready hno.1, fun hno => hready hno.1⟩
  | noMemory h hready hmalloc =>
    -- the caller's state is closed, which the function was never given
    refine iff_of_false (fun hclean => ?_) (fun hnone => hnone.2.1 ⟨hready, hmalloc⟩)
    have hacquired := hclean.acquired (r := .caller) (by decide)
    revert hacquired
    decide
  | undone h hready hmalloc hfails =>
    by_cases hstart : env.start = 0
    · -- the thread has the state, and it is closed
      have hdestroy : env.attrDestroy ≠ 0 := hfails.resolve_right (not_not.mpr hstart)
      refine iff_of_false (fun hclean => ?_)
        (fun hnone => hnone.2.2 ⟨hready, hmalloc, hstart, hdestroy⟩)
      exact hclean.not_released (r := .newState) (by simp [undoneTrace, startTrace, hstart])
        (by simp [undoneTrace])
    · exact iff_of_true (undone_clean hstart)
        ⟨h, fun hno => absurd (hno.2.symm.trans hmalloc) (by decide), fun hno => hstart hno.2.2.1⟩
  | done h hready hmalloc hdestroy hstart =>
    exact iff_of_true (done_clean hstart)
      ⟨h, fun hno => absurd (hno.2.symm.trans hmalloc) (by decide), fun hno => hno.2.2.2 hdestroy⟩

/-- Nothing fails but the allocation of the handle. -/
def outOfMemory : Env where
  getfield _ := .ok .nil
  tointeger := Value.tointeger
  isCpuset _ := false
  attrInit := 0
  attrSet _ := 0
  attrDestroy := 0
  newstate := true
  malloc := false
  start := 0

/-- No memory for the handle: the state of the caller is closed, and the new one is not. -/
theorem not_create_clean :
    (∃ env, (l_pthread_create env functionState).trace =
      [(.attr, .acquire), (.newState, .acquire), (.caller, .release), (.attr, .release)]) ∧
    ¬ ∀ (R : Runtime) (env : Env) (L : LuaState R), (l_pthread_create env L).trace.Clean := by
  have htrace : (l_pthread_create outOfMemory functionState).trace =
      [(.attr, .acquire), (.newState, .acquire), (.caller, .release), (.attr, .release)] := by
    decide
  refine ⟨⟨outOfMemory, htrace⟩, fun h => ?_⟩
  have hclean := h sampleRuntime outOfMemory functionState
  rw [htrace] at hclean
  exact absurd (hclean .caller) (by decide)

/-! ## The states of the process -/

/-- How the calls in `l_pthread_create` end. -/
def Env.outcome (env : Env) : CreateOutcome :=
  if !env.newstate then .newstateFails
  else if !env.malloc then .mallocFails
  else if env.start ≠ 0 then .startFails
  else .started

/-- A call in a process: the thread may run before the call returns. -/
def inProcess (env : Env) (s : State R) (c : Option Nat) (L : LuaState R) : State R :=
  let s' := s.create c L (fnidx L) env.outcome
  if copyError L (fnidx L) = none ∧ env.outcome = .started then
    s'.createReturn c s.count (env.attrDestroy = 0)
  else s'

theorem copyError_eq_none_iff (L : LuaState R) (fnidx : Int) :
    copyError L fnidx = none ↔ (copyFunctionAndArgs L fnidx).isSome := by
  rw [copyError, copyFunctionAndArgs]
  cases copyn 2 L newState fnidx (L.gettop - (fnidx - 1)) with
  | none => simp
  | some c => by_cases hret : c.ret = 0 <;> simp [hret]

section Closings
variable (s : State R) (c : Option Nat)

theorem touchCaller_count : (s.touchCaller c).count = s.count := by
  cases c <;> rfl

/-- A new state, which no other state is closed with. -/
theorem newCreated_closes (l : LuaState R) (x : Nat) :
    (((s.touchCaller c).newCreated l).states x).closes =
      if x = s.count then 0 else (s.states x).closes := by
  by_cases hx : x = s.count
  · simp [State.newCreated, State.setState, touchCaller_count, hx]
  · simp [State.newCreated, State.setState, touchCaller_count, hx]

theorem closeState_closes (y x : Nat) :
    ((s.closeState y).states x).closes = (s.states x).closes + if x = y then 1 else 0 := by
  by_cases hx : x = y
  · subst hx
    simp [State.closeState]
  · simp [State.closeState, hx]

end Closings

/-- The call gets as far as the new state. -/
structure Begun (env : Env) (L : LuaState R) : Prop where
  init : env.attrInit = 0
  attributes : hasAttr L → ∀ field ∈ env.fields, field = .ok true
  isFunction : isfunction (L.index (fnidx L)) = true

/-- What is done from there on. -/
theorem Begun.trace_eq {env : Env} {L : LuaState R} (h : Begun env L) :
    (l_pthread_create env L).trace =
      if env.newstate = false then [(.attr, .acquire), (.attr, .release)]
      else if copyError L (fnidx L) ≠ none then
        [(.attr, .acquire), (.newState, .acquire), (.newState, .release), (.attr, .release)]
      else if env.malloc = false then
        [(.attr, .acquire), (.newState, .acquire), (.caller, .release), (.attr, .release)]
      else if env.attrDestroy = 0 ∧ env.start = 0 then doneTrace env
      else undoneTrace env := by
  have hchecked := (checked_true_iff env L).mpr h.attributes
  rw [l_pthread_create, if_neg (not_not.mpr h.init), hchecked]
  cases env.newstate with
  | false => simp [h.isFunction]
  | true =>
    cases copyError L (fnidx L) with
    | some i => simp [h.isFunction]
    | none =>
      cases env.malloc with
      | false => simp [h.isFunction]
      | true =>
        by_cases hdestroy : env.attrDestroy = 0
        · by_cases hstart : env.start = 0 <;>
            simp [h.isFunction, hdestroy, hstart, doneTrace, undoneTrace, startTrace]
        · simp [h.isFunction, hdestroy, undoneTrace, startTrace]

section Closings
variable {env : Env} {s : State R} {c : Option Nat} {L : LuaState R}

/-- A call closes the new state and the caller's as often as it releases them. -/
structure SameClosings (env : Env) (s : State R) (c : Option Nat) (L : LuaState R) : Prop where
  newState : ((inProcess env s c L).states s.count).closes =
    (l_pthread_create env L).trace.count (.newState, .release)
  caller : ∀ x ∈ c, ((inProcess env s c L).states x).closes =
    (s.states x).closes + (l_pthread_create env L).trace.count (.caller, .release)

theorem sameClosings_noState (h : Begun env L) (hfresh : (s.states s.count).closes = 0)
    (hnewstate : env.newstate = false) : SameClosings env s c L := by
  have hprocess : inProcess env s c L = s.touchCaller c := by
    simp [inProcess, Env.outcome, hnewstate, State.create]
  constructor
  · rw [h.trace_eq, hprocess, if_pos hnewstate]
    simpa using hfresh
  · intro x hx
    rw [h.trace_eq, hprocess, if_pos hnewstate]
    simp

theorem sameClosings_uncopied (h : Begun env L) (hne : ∀ x ∈ c, x ≠ s.count)
    (hnewstate : env.newstate = true) (hcopied : copyError L (fnidx L) ≠ none) :
    SameClosings env s c L := by
  have hcopy : copyFunctionAndArgs L (fnidx L) = none := by
    rw [ne_eq, copyError_eq_none_iff] at hcopied
    simpa using hcopied
  have hprocess : inProcess env s c L =
      ((s.touchCaller c).newCreated newState).closeState s.count := by
    rw [inProcess, if_neg (fun hno => hcopied hno.1), Env.outcome]
    by_cases hmalloc : env.malloc = true
    · by_cases hstart : env.start = 0 <;>
        simp [hnewstate, hmalloc, hstart, State.create, hcopy]
    · simp [hnewstate, hmalloc, State.create, hcopy]
  constructor
  · rw [h.trace_eq, hprocess, closeState_closes, newCreated_closes]
    simp [hnewstate, hcopied]
  · intro x hx
    rw [h.trace_eq, hprocess, closeState_closes, newCreated_closes]
    simp [hnewstate, hcopied, hne x hx]

/-- What was copied, when nothing was refused. -/
theorem copied_some (hcopied : copyError L (fnidx L) = none) :
    ∃ l, copyFunctionAndArgs L (fnidx L) = some l :=
  Option.isSome_iff_exists.mp ((copyError_eq_none_iff L (fnidx L)).mp hcopied)

theorem sameClosings_noMemory (h : Begun env L) (hne : ∀ x ∈ c, x ≠ s.count)
    (hnewstate : env.newstate = true) (hcopied : copyError L (fnidx L) = none)
    (hmalloc : env.malloc = false) : SameClosings env s c L := by
  obtain ⟨l, hcopy⟩ := copied_some hcopied
  have houtcome : env.outcome = .mallocFails := by
    simp [Env.outcome, hnewstate, hmalloc]
  cases c with
  | none =>
    constructor
    · simp [h.trace_eq, inProcess, houtcome, State.create, hcopy, hnewstate, hcopied, hmalloc,
        newCreated_closes]
    · intro x hx
      cases hx
  | some y =>
    have hy := hne y rfl
    constructor
    · simp [h.trace_eq, inProcess, houtcome, State.create, hcopy, hnewstate, hcopied, hmalloc,
        newCreated_closes, closeState_closes, hy.symm]
    · intro x hx
      cases hx
      simp [h.trace_eq, inProcess, houtcome, State.create, hcopy, hnewstate, hcopied, hmalloc,
        newCreated_closes, closeState_closes, hy]

theorem sameClosings_failed (h : Begun env L) (hne : ∀ x ∈ c, x ≠ s.count)
    (hnewstate : env.newstate = true) (hcopied : copyError L (fnidx L) = none)
    (hmalloc : env.malloc = true) (hstart : env.start ≠ 0) : SameClosings env s c L := by
  obtain ⟨l, hcopy⟩ := copied_some hcopied
  have houtcome : env.outcome = .startFails := by
    simp [Env.outcome, hnewstate, hmalloc, hstart]
  have hprocess : inProcess env s c L =
      ((s.touchCaller c).newCreated l).closeState s.count := by
    simp [inProcess, houtcome, State.create, hcopy]
  have htrace : (l_pthread_create env L).trace = undoneTrace env := by
    simp [h.trace_eq, hnewstate, hcopied, hmalloc, hstart]
  constructor
  · rw [htrace, hprocess, closeState_closes, newCreated_closes]
    simp [undoneTrace, startTrace, hstart]
  · intro x hx
    rw [htrace, hprocess, closeState_closes, newCreated_closes]
    simp [undoneTrace, startTrace, hstart, hne x hx]

theorem sameClosings_started (h : Begun env L) (hne : ∀ x ∈ c, x ≠ s.count)
    (hnewstate : env.newstate = true) (hcopied : copyError L (fnidx L) = none)
    (hmalloc : env.malloc = true) (hstart : env.start = 0) : SameClosings env s c L := by
  obtain ⟨l, hcopy⟩ := copied_some hcopied
  have houtcome : env.outcome = .started := by
    simp [Env.outcome, hnewstate, hmalloc, hstart]
  by_cases hdestroy : env.attrDestroy = 0
  · have htrace : (l_pthread_create env L).trace = doneTrace env := by
      simp [h.trace_eq, hnewstate, hcopied, hmalloc, hstart, hdestroy]
    constructor
    · rw [htrace, inProcess, houtcome, if_pos ⟨hcopied, rfl⟩]
      cases c <;> simp [State.create, State.createReturn, hcopy, newCreated_closes, doneTrace,
        startTrace, hstart, hdestroy]
    · intro x hx
      rw [htrace, inProcess, houtcome, if_pos ⟨hcopied, rfl⟩]
      cases hx
      simp [State.create, State.createReturn, hcopy, newCreated_closes, doneTrace, startTrace,
        hstart, hdestroy, hne x rfl]
  · have htrace : (l_pthread_create env L).trace = undoneTrace env := by
      simp [h.trace_eq, hnewstate, hcopied, hmalloc, hstart, hdestroy]
    constructor
    · rw [htrace, inProcess, houtcome, if_pos ⟨hcopied, rfl⟩]
      cases c <;> simp [State.create, State.createReturn, hcopy, closeState_closes,
        newCreated_closes, undoneTrace, startTrace, hstart, hdestroy]
    · intro x hx
      rw [htrace, inProcess, houtcome, if_pos ⟨hcopied, rfl⟩]
      cases hx
      simp [State.create, State.createReturn, hcopy, closeState_closes, newCreated_closes,
        undoneTrace, startTrace, hstart, hdestroy, hne x rfl]

/-- **The lifecycle of threads has these closings.** -/
theorem inProcess_closes (h : Begun env L) (hfresh : (s.states s.count).closes = 0)
    (hne : c ≠ some s.count) : SameClosings env s c L := by
  have hne' : ∀ x ∈ c, x ≠ s.count := by
    rintro x hx rfl
    exact hne hx
  cases hnewstate : env.newstate with
  | false => exact sameClosings_noState h hfresh hnewstate
  | true =>
    by_cases hcopied : copyError L (fnidx L) = none
    · cases hmalloc : env.malloc with
      | false => exact sameClosings_noMemory h hne' hnewstate hcopied hmalloc
      | true =>
        by_cases hstart : env.start = 0
        · exact sameClosings_started h hne' hnewstate hcopied hmalloc hstart
        · exact sameClosings_failed h hne' hnewstate hcopied hmalloc hstart
    · exact sameClosings_uncopied h hne' hnewstate hcopied

end Closings

end ThreadCreation
end FluaLibs
