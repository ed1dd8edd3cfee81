import FluaLibs.CopyValues
import FluaLibs.Transition
import Mathlib.Logic.Function.Basic

/-! # Threads and their Lua states

`pthread.create` makes a Lua state, copies the function and its arguments to it
and starts a thread that runs the function there.  The state is closed by the
call that joins the thread, or, when the thread is cancelled, by the cleanup
handler `thread_cleanup`, which `thread_wrapper` pushes first and
`thread_kfunction` pops when the function is over.  `pthread.exit` does not pop
it: the handler runs inside `pthread_exit` and closes the state, and a join then
uses the closed state and closes it again.

A thread and the Lua state it was made with have the same number.  Every use of
a created state and every `lua_close` is counted in the state's record, so that
what goes wrong stays visible.  The caller of a function is a created thread, or
`none` for the rest of the process, whose states are not tracked.
-/
namespace FluaLibs
namespace Threads
variable {R : Runtime}

/-! ## The code -/

/-- `luaL_newstate` and `luaL_openlibs`: an empty stack, and a globals table. -/
def newState : LuaState R := ⟨[], [], 0⟩

/-- The copies in `l_pthread_create`: the function at `fnidx` and its arguments, up
to the top of the caller's frame.  `none` when a value is not serializable. -/
def copyFunctionAndArgs (L : LuaState R) (fnidx : Int) : Option (LuaState R) :=
  match copyn 2 L newState fnidx (L.gettop - (fnidx - 1)) with
  | some c => if c.ret ≠ 0 then none else some c.dst
  | none => none

/-- Put a status below what is on the stack. -/
def pushStatus (l : LuaState R) (status : Bool) : LuaState R :=
  (l.push (.boolean status)).insert 1

/-- What a join reports to its caller. -/
inductive Report where
  | canceled
  | results (n : Nat)
  | notSerializable
  deriving DecidableEq, Repr

/-- How `join`, `timedjoin_np` and `peekjoin_np` copy the results: the report, and
both states. -/
def collect (l L : LuaState R) : Report × LuaState R × LuaState R :=
  let nresults := l.gettop
  if 0 < nresults then
    match copyn 2 l L 1 nresults with
    | some c =>
      if c.ret ≠ 0 then (.notSerializable, c.src, c.dst) else (.results nresults, c.src, c.dst)
    | none => (.notSerializable, l, L)
  else (.results nresults, l, L)

/-! ## The system -/

/-- What `pthread_join` yields: `PTHREAD_CANCELED`, or the pointer to a state. -/
inductive Result where
  | canceled
  | pointer (state : Nat)
  deriving DecidableEq, Repr

/-- How a thread came to its end. -/
inductive Ending where
  | returned
  | exited
  | canceled
  deriving DecidableEq, Repr

/-- Where a thread is. -/
inductive Pc where
  | absent
  /-- before `pthread_cleanup_push` in `thread_wrapper` -/
  | starting
  /-- running Lua code -/
  | running
  /-- in `l_pthread_create`, after `pthread_create` has started a thread -/
  | creating (t : Nat)
  /-- inside `pthread_exit`, or cancelled: the handlers run next -/
  | exiting
  | terminated
  deriving DecidableEq, Repr

/-- A thread.  `handlers` are the states given to `thread_cleanup` on the
`pthread_cleanup_push` stack, and `cleaning` the one that is being cleaned up. -/
structure Thread where
  pc : Pc
  handlers : List Nat
  cleaning : Option Nat
  cancelRequested : Bool
  result : Result
  ending : Ending
  /-- who called `create` -/
  creator : Option Nat
  /-- that call has not returned yet -/
  pending : Bool
  /-- it has returned a handle -/
  announced : Bool
  joined : Bool
  detached : Bool

/-- The numbers that have no thread. -/
def absentThread : Thread :=
  ⟨.absent, [], none, false, .canceled, .returned, none, false, false, false, false⟩

/-- What `pthread_create` starts. -/
def startingThread (creator : Option Nat) : Thread :=
  ⟨.starting, [], none, false, .canceled, .returned, creator, true, false, false, false⟩

/-- A created Lua state: its contents, how often it was closed, and whether it was used
after that. -/
structure Created (R : Runtime) where
  lua : LuaState R
  closes : Nat
  misused : Bool

structure State (R : Runtime) where
  count : Nat
  threads : Nat → Thread
  states : Nat → Created R

/-- How the calls in `l_pthread_create` end. -/
inductive CreateOutcome where
  | newstateFails
  | mallocFails
  | startFails
  | started
  deriving DecidableEq, Repr

/-- The actions.  `c` is the caller, and `L` its frame. -/
inductive Event (R : Runtime) where
  | create (c : Option Nat) (L : LuaState R) (fnidx : Int) (outcome : CreateOutcome)
  | createReturn (c : Option Nat) (t : Nat) (attrDestroyed : Bool)
  | wrapper (t : Nat)
  | run (t : Nat) (l : LuaState R)
  | kfunction (t : Nat) (status : Bool) (l : LuaState R)
  | exit (t : Nat) (l : LuaState R)
  | cancel (t : Nat)
  | act (t : Nat)
  | handler (t : Nat)
  | close (t : Nat)
  | terminate (t : Nat)
  | peekjoin (c : Option Nat) (t : Nat) (L : LuaState R)
  | join (c : Option Nat) (t : Nat) (L : LuaState R)
  | detach (c : Option Nat) (t : Nat)

namespace State
variable (s : State R)

def setThread (t : Nat) (th : Thread) : State R :=
  { s with threads := Function.update s.threads t th }

def setState (x : Nat) (cr : Created R) : State R :=
  { s with states := Function.update s.states x cr }

/-- A state is used. -/
def touch (x : Nat) : State R :=
  s.setState x
    { s.states x with misused := (s.states x).misused || decide (0 < (s.states x).closes) }

/-- The caller's state is used. -/
def touchCaller : Option Nat → State R
  | some c => s.touch c
  | none => s

/-- `lua_close`. -/
def closeState (x : Nat) : State R :=
  let s' := s.touch x
  s'.setState x { s'.states x with closes := (s'.states x).closes + 1 }

def setLua (x : Nat) (l : LuaState R) : State R := s.setState x { s.states x with lua := l }

/-- A new state; it gets the next number. -/
def newCreated (l : LuaState R) : State R :=
  { s.setState s.count ⟨l, 0, false⟩ with count := s.count + 1 }

/-- The caller is in Lua code. -/
def Active : Option Nat → Prop
  | some c => (s.threads c).pc = .running
  | none => True

instance (c : Option Nat) : Decidable (s.Active c) := by
  unfold Active
  split <;> infer_instance

/-- `l_pthread_create`, up to and including `pthread_create`. -/
def create (c : Option Nat) (L : LuaState R) (fnidx : Int) : CreateOutcome → State R
  | .newstateFails => s.touchCaller c
  | outcome =>
    let t := s.count
    let s₀ := s.touchCaller c
    match copyFunctionAndArgs L fnidx with
    | none => (s₀.newCreated newState).closeState t
    | some l =>
      let s₁ := s₀.newCreated l
      match outcome with
      | .mallocFails =>
        -- lua_close(L), not lua_close(l); then fatal() raises the error in L
        match c with
        | some c => (s₁.closeState c).touch c
        | none => s₁
      | .started =>
        let s₂ := s₁.setThread t (startingThread c)
        match c with
        | some c => s₂.setThread c { s₂.threads c with pc := .creating t }
        | none => s₂
      | _ => s₁.closeState t

/-- The rest of `l_pthread_create`, when a thread was started. -/
def createReturn (c : Option Nat) (t : Nat) (attrDestroyed : Bool) : State R :=
  let s₁ := s.touchCaller c
  let s₂ :=
    match c with
    | some c => s₁.setThread c { s₁.threads c with pc := .running }
    | none => s₁
  let s₃ := s₂.setThread t { s₂.threads t with pending := false, announced := attrDestroyed }
  if attrDestroyed then s₃ else s₃.closeState t

/-- What a join does with the result of a thread, short of closing its state. -/
def takeResult (c : Option Nat) (t : Nat) (L : LuaState R) : State R :=
  match (s.threads t).result with
  | .canceled => s.touchCaller c
  | .pointer p =>
    let (_, l', L') := collect (s.states p).lua L
    let s₁ := ((s.touch p).setLua p l').touchCaller c
    match c with
    | some c => s₁.setLua c L'
    | none => s₁

/-- `l_pthread_join` and `l_pthread_timedjoin_np`, once the thread is joined: the state is
closed whether or not its values could be copied. -/
def join (c : Option Nat) (t : Nat) (L : LuaState R) : State R :=
  let s₁ := s.takeResult c t L
  let s₂ := s₁.setThread t { s₁.threads t with joined := true }
  match (s.threads t).result with
  | .canceled => s₂
  | .pointer p => s₂.closeState p

end State

/-- What each action needs.  A thread is joined at most once, and not peeked at after
that, as POSIX demands. -/
def Enabled (s : State R) : Event R → Prop
  | .create c _ _ _ => s.Active c
  | .createReturn c t _ => (s.threads t).pending = true ∧ (s.threads t).creator = c ∧
      ∀ x ∈ c, (s.threads x).pc = .creating t
  | .wrapper t => (s.threads t).pc = .starting
  | .run t _ => (s.threads t).pc = .running
  | .kfunction t _ _ | .exit t _ => (s.threads t).pc = .running ∧ (s.threads t).cleaning = none
  | .cancel _ => True
  | .act t => (s.threads t).pc = .running ∧ (s.threads t).cleaning = none ∧
      (s.threads t).cancelRequested = true
  | .handler t => (s.threads t).pc = .exiting ∧ (s.threads t).handlers ≠ []
  | .close t => (s.threads t).pc = .running ∧ (s.threads t).cleaning ≠ none
  | .terminate t => (s.threads t).pc = .exiting ∧ (s.threads t).handlers = []
  | .peekjoin c t _ | .join c t _ => s.Active c ∧ (s.threads t).pc = .terminated ∧
      (s.threads t).announced = true ∧ (s.threads t).joined = false ∧
      (s.threads t).detached = false
  | .detach c t => s.Active c ∧ (s.threads t).announced = true ∧ (s.threads t).joined = false

/-- What each action does. -/
def next (s : State R) : Event R → State R
  | .create c L fnidx outcome => s.create c L fnidx outcome
  | .createReturn c t attrDestroyed => s.createReturn c t attrDestroyed
  | .wrapper t =>
    (s.touch t).setThread t
      { s.threads t with pc := .running, handlers := t :: (s.threads t).handlers }
  | .run t l => (s.touch t).setLua t l
  | .kfunction t status l =>
    ((s.touch t).setLua t (pushStatus l status)).setThread t
      { s.threads t with
        pc := .exiting
        handlers := (s.threads t).handlers.tail
        result := .pointer t
        ending := .returned }
  | .exit t l =>
    ((s.touch t).setLua t (pushStatus l true)).setThread t
      { s.threads t with pc := .exiting, result := .pointer t, ending := .exited }
  | .cancel t => s.setThread t { s.threads t with cancelRequested := true }
  | .act t =>
    s.setThread t { s.threads t with pc := .exiting, result := .canceled, ending := .canceled }
  | .handler t =>
    match (s.threads t).handlers with
    | x :: rest =>
      (s.touch x).setThread t
        { s.threads t with pc := .running, cleaning := some x, handlers := rest }
    | [] => s
  | .close t =>
    match (s.threads t).cleaning with
    | some x =>
      (s.closeState x).setThread t { s.threads t with pc := .exiting, cleaning := none }
    | none => s
  | .terminate t => s.setThread t { s.threads t with pc := .terminated }
  | .peekjoin c t L => s.takeResult c t L
  | .join c t L => s.join c t L
  | .detach c t => (s.touchCaller c).setThread t { s.threads t with detached := true }

/-- Any number of threads; none has been created yet. -/
def system (R : Runtime) : System (State R) (Event R) where
  init := ⟨0, fun _ => absentThread, fun _ => ⟨newState, 0, false⟩⟩
  Enabled := Enabled
  decEnabled s e := by
    cases e with
    | create c => exact inferInstanceAs (Decidable (s.Active c))
    | createReturn c t =>
      exact inferInstanceAs (Decidable ((s.threads t).pending = true ∧ (s.threads t).creator = c ∧
        ∀ x ∈ c, (s.threads x).pc = .creating t))
    | wrapper | run => exact inferInstanceAs (Decidable (_ = _))
    | cancel => exact isTrue trivial
    | kfunction | exit | act | handler | close | terminate | peekjoin | join | detach =>
      exact inferInstanceAs (Decidable (_ ∧ _))
  next := next

/-! ## Updates -/

namespace State
variable (s : State R) (t : Nat)

@[simp] theorem setThread_threads_self (th : Thread) : (s.setThread t th).threads t = th := by
  simp [setThread]

@[simp] theorem setThread_threads_of_ne (th : Thread) {t' : Nat} (h : t' ≠ t) :
    (s.setThread t th).threads t' = s.threads t' := by
  simp [setThread, h]

@[simp] theorem setThread_states (th : Thread) : (s.setThread t th).states = s.states := rfl
@[simp] theorem setThread_count (th : Thread) : (s.setThread t th).count = s.count := rfl

@[simp] theorem setState_states_self (cr : Created R) : (s.setState t cr).states t = cr := by
  simp [setState]

@[simp] theorem setState_states_of_ne (cr : Created R) {t' : Nat} (h : t' ≠ t) :
    (s.setState t cr).states t' = s.states t' := by
  simp [setState, h]

@[simp] theorem setState_threads (cr : Created R) : (s.setState t cr).threads = s.threads := rfl
@[simp] theorem setState_count (cr : Created R) : (s.setState t cr).count = s.count := rfl

@[simp] theorem setLua_threads (l : LuaState R) : (s.setLua t l).threads = s.threads := rfl
@[simp] theorem setLua_count (l : LuaState R) : (s.setLua t l).count = s.count := rfl

@[simp] theorem setLua_closes (l : LuaState R) (t' : Nat) :
    ((s.setLua t l).states t').closes = (s.states t').closes := by
  by_cases ht : t' = t
  · subst ht
    simp [setLua]
  · simp [setLua, ht]

@[simp] theorem setLua_misused (l : LuaState R) (t' : Nat) :
    ((s.setLua t l).states t').misused = (s.states t').misused := by
  by_cases ht : t' = t
  · subst ht
    simp [setLua]
  · simp [setLua, ht]

@[simp] theorem touch_closes (t' : Nat) :
    ((s.touch t).states t').closes = (s.states t').closes := by
  by_cases ht : t' = t
  · subst ht
    simp [touch]
  · simp [touch, ht]

@[simp] theorem touchCaller_closes (c : Option Nat) (t' : Nat) :
    ((s.touchCaller c).states t').closes = (s.states t').closes := by
  cases c with
  | none => rfl
  | some c => exact s.touch_closes c t'

/-- Taking a result closes nothing. -/
theorem takeResult_closes (c : Option Nat) (L : LuaState R) (t' : Nat) :
    ((s.takeResult c t L).states t').closes = (s.states t').closes := by
  unfold takeResult
  cases (s.threads t).result with
  | canceled => simp
  | pointer p =>
    rcases hcollect : collect (s.states p).lua L with ⟨report, l', L'⟩
    cases c <;> simp [hcollect]

/-- A state that is open can be used. -/
theorem touch_of_open {x : Nat} (hopen : (s.states x).closes = 0) : s.touch x = s := by
  have hsame : ((s.states x).misused || decide (0 < (s.states x).closes)) =
      (s.states x).misused := by
    simp [hopen]
  rw [touch, hsame, setState, Function.update_eq_self]

/-- An open state is closed. -/
theorem closeState_of_open {x : Nat} (hopen : (s.states x).closes = 0) :
    s.closeState x = s.setState x { s.states x with closes := 1 } := by
  simp [closeState, s.touch_of_open hopen, hopen]

end State

/-! ## Who closes the state -/

/-- What a join is given for a thread that came to its end in this way. -/
def Ending.result (t : Nat) : Ending → Result
  | returned | exited => .pointer t
  | canceled => .canceled

/-- How often the state is closed by the time the thread is gone. -/
def Ending.closes : Ending → Nat
  | returned => 0
  | exited | canceled => 1

/-- In Lua code, or in `l_pthread_create`. -/
def Pc.inCode : Pc → Bool
  | running | creating _ => true
  | _ => false

/-- Where the responsibility for closing the state of a thread lies. -/
structure ThreadOk (t : Nat) (th : Thread) (cr : Created R) : Prop where
  unused : cr.misused = false
  absent : th.pc = .absent → cr.closes ≤ 1
  starting : th.pc = .starting → cr.closes = 0 ∧ th.handlers = [] ∧ th.cleaning = none
  code : th.pc.inCode = true → cr.closes = 0 ∧
    (th.cleaning = none ∧ th.handlers = [t] ∨
      th.cleaning = some t ∧ th.handlers = [] ∧ th.ending ≠ .returned ∧
        th.result = th.ending.result t)
  exiting : th.pc = .exiting → th.cleaning = none ∧ th.result = th.ending.result t ∧
    (th.handlers = [t] ∧ cr.closes = 0 ∧ th.ending ≠ .returned ∨
      th.handlers = [] ∧ cr.closes = th.ending.closes)
  terminated : th.pc = .terminated → th.result = th.ending.result t ∧
    (th.joined = false → cr.closes = th.ending.closes)
  joined : th.joined = true → th.pc = .terminated ∧ cr.closes = 1

structure Sound (s : State R) : Prop where
  threads : ∀ t, ThreadOk t (s.threads t) (s.states t)
  fresh : ∀ t, s.count ≤ t → (s.threads t).pc = .absent

/-- No join takes the result of a thread that called `pthread.exit`, memory does not run
out for the `rcthread` in a created thread's call of `create`, and attributes can be
destroyed after a thread was started. -/
def OwnershipClear (s : State R) : Event R → Prop
  | .create (some _) L fnidx .mallocFails => copyFunctionAndArgs L fnidx = none
  | .createReturn _ _ attrDestroyed => attrDestroyed = true
  | .peekjoin _ t _ | .join _ t _ => (s.threads t).ending ≠ .exited
  | _ => True

theorem ThreadOk.closes_le {t : Nat} {th : Thread} {cr : Created R} (h : ThreadOk t th cr) :
    cr.closes ≤ 1 := by
  cases hpc : th.pc with
  | absent => exact h.absent hpc
  | starting =>
    have := (h.starting hpc).1
    omega
  | running | creating =>
    have := (h.code (by rw [hpc]; rfl)).1
    omega
  | exiting =>
    rcases (h.exiting hpc).2.2 with ⟨_, hopen, _⟩ | ⟨_, hcloses⟩
    · omega
    · rw [hcloses]
      cases th.ending <;> simp [Ending.closes]
  | terminated =>
    cases hjoined : th.joined with
    | true =>
      have := (h.joined hjoined).2
      omega
    | false =>
      rw [(h.terminated hpc).2 hjoined]
      cases th.ending <;> simp [Ending.closes]

/-- What does not concern the end of a thread does not matter. -/
theorem ThreadOk.congr {t : Nat} {th th' : Thread} {cr cr' : Created R} (h : ThreadOk t th cr)
    (hpc : th'.pc = th.pc) (hhandlers : th'.handlers = th.handlers)
    (hcleaning : th'.cleaning = th.cleaning) (hresult : th'.result = th.result)
    (hending : th'.ending = th.ending) (hjoined : th'.joined = th.joined)
    (hcloses : cr'.closes = cr.closes) (hmisused : cr'.misused = cr.misused) :
    ThreadOk t th' cr' := by
  constructor
  · rw [hmisused]
    exact h.unused
  · rw [hpc, hcloses]
    exact h.absent
  · rw [hpc, hhandlers, hcleaning, hcloses]
    exact h.starting
  · rw [hpc, hhandlers, hcleaning, hcloses, hending, hresult]
    exact h.code
  · rw [hpc, hhandlers, hcleaning, hcloses, hending, hresult]
    exact h.exiting
  · rw [hpc, hcloses, hending, hresult, hjoined]
    exact h.terminated
  · rw [hpc, hcloses, hjoined]
    exact h.joined

section Constructors
variable {t : Nat} {th : Thread} {cr : Created R} (hunused : cr.misused = false)
include hunused

theorem ThreadOk.of_inCode (hpc : th.pc.inCode = true) (hjoined : th.joined = false)
    (hopen : cr.closes = 0) (hhandlers : th.cleaning = none ∧ th.handlers = [t] ∨
      th.cleaning = some t ∧ th.handlers = [] ∧ th.ending ≠ .returned ∧
        th.result = th.ending.result t) : ThreadOk t th cr where
  unused := hunused
  absent habsent := by rw [habsent] at hpc; cases hpc
  starting hstarting := by rw [hstarting] at hpc; cases hpc
  code _ := ⟨hopen, hhandlers⟩
  exiting hexiting := by rw [hexiting] at hpc; cases hpc
  terminated hterminated := by rw [hterminated] at hpc; cases hpc
  joined htrue := by rw [hjoined] at htrue; cases htrue

theorem ThreadOk.of_exiting (hpc : th.pc = .exiting) (hjoined : th.joined = false)
    (hcleaning : th.cleaning = none) (hresult : th.result = th.ending.result t)
    (hhandlers : th.handlers = [t] ∧ cr.closes = 0 ∧ th.ending ≠ .returned ∨
      th.handlers = [] ∧ cr.closes = th.ending.closes) : ThreadOk t th cr where
  unused := hunused
  absent habsent := by rw [hpc] at habsent; cases habsent
  starting hstarting := by rw [hpc] at hstarting; cases hstarting
  code hcode := by rw [hpc] at hcode; cases hcode
  exiting _ := ⟨hcleaning, hresult, hhandlers⟩
  terminated hterminated := by rw [hpc] at hterminated; cases hterminated
  joined htrue := by rw [hjoined] at htrue; cases htrue

theorem ThreadOk.of_terminated (hpc : th.pc = .terminated)
    (hresult : th.result = th.ending.result t)
    (hcloses : cr.closes = if th.joined then 1 else th.ending.closes) : ThreadOk t th cr where
  unused := hunused
  absent habsent := by rw [hpc] at habsent; cases habsent
  starting hstarting := by rw [hpc] at hstarting; cases hstarting
  code hcode := by rw [hpc] at hcode; cases hcode
  exiting hexiting := by rw [hpc] at hexiting; cases hexiting
  terminated _ := ⟨hresult, fun hjoined => by simpa [hjoined] using hcloses⟩
  joined hjoined := ⟨hpc, by simpa [hjoined] using hcloses⟩

end Constructors

theorem ThreadOk.not_joined {t : Nat} {th : Thread} {cr : Created R} (h : ThreadOk t th cr)
    (hpc : th.pc ≠ .terminated) : th.joined = false := by
  cases hjoined : th.joined with
  | false => rfl
  | true => exact absurd (h.joined hjoined).1 hpc

/-- A number without a thread may have a state that was closed, or that nobody closes. -/
theorem ThreadOk.of_absent {t : Nat} {th : Thread} {cr cr' : Created R} (h : ThreadOk t th cr)
    (hpc : th.pc = .absent) (hcloses : cr'.closes ≤ 1) (hmisused : cr'.misused = false) :
    ThreadOk t th cr' where
  unused := hmisused
  absent _ := hcloses
  starting hstarting := by rw [hpc] at hstarting; cases hstarting
  code hcode := by rw [hpc] at hcode; cases hcode
  exiting hexiting := by rw [hpc] at hexiting; cases hexiting
  terminated hterminated := by rw [hpc] at hterminated; cases hterminated
  joined hjoined := by
    have hterminated := (h.joined hjoined).1
    rw [hpc] at hterminated
    cases hterminated

section Steps
variable {s : State R} (h : Sound s)
include h

theorem Sound.lt_count {t : Nat} (hpc : (s.threads t).pc ≠ .absent) : t < s.count := by
  by_contra hle
  exact hpc (h.fresh t (Nat.le_of_not_lt hle))

theorem Sound.open_of_inCode {t : Nat} (hpc : (s.threads t).pc.inCode = true) :
    (s.states t).closes = 0 :=
  ((h.threads t).code hpc).1

/-- The caller of a function can use its state. -/
theorem Sound.touchCaller {c : Option Nat} (hc : ∀ x ∈ c, (s.threads x).pc.inCode = true) :
    s.touchCaller c = s := by
  cases c with
  | none => rfl
  | some x => exact s.touch_of_open (h.open_of_inCode (hc x rfl))

omit h in
theorem State.active_inCode {c : Option Nat} (hc : s.Active c) :
    ∀ x ∈ c, (s.threads x).pc.inCode = true := by
  intro x hx
  obtain rfl := Option.mem_def.mp hx
  have hpc : (s.threads x).pc = .running := hc
  rw [hpc]
  rfl

/-- A step that concerns one thread and its state. -/
theorem Sound.set {t : Nat} {th : Thread} {cr : Created R} (hpc : (s.threads t).pc ≠ .absent)
    (hok : ThreadOk t th cr) : Sound ((s.setState t cr).setThread t th) where
  threads t' := by
    by_cases ht : t' = t
    · subst ht
      simpa using hok
    · simpa [ht] using h.threads t'
  fresh t' ht' := by
    have hne : t' ≠ t := by
      rintro rfl
      exact hpc (h.fresh t' ht')
    simpa [hne] using h.fresh t' ht'

/-- The same when the state stays as it is. -/
theorem Sound.setThread {t : Nat} {th : Thread} (hpc : (s.threads t).pc ≠ .absent)
    (hok : ThreadOk t th (s.states t)) : Sound (s.setThread t th) := by
  have hset := h.set hpc hok
  have hsame : s.setState t (s.states t) = s := by simp [State.setState]
  rwa [hsame] at hset

/-- What does not concern the end of the thread does not matter. -/
theorem Sound.relabel (t : Nat) (th : Thread) (hpc : th.pc = (s.threads t).pc)
    (hhandlers : th.handlers = (s.threads t).handlers)
    (hcleaning : th.cleaning = (s.threads t).cleaning) (hresult : th.result = (s.threads t).result)
    (hending : th.ending = (s.threads t).ending) (hjoined : th.joined = (s.threads t).joined) :
    Sound (s.setThread t th) where
  threads t' := by
    by_cases ht : t' = t
    · subst ht
      simpa using (h.threads t').congr hpc hhandlers hcleaning hresult hending hjoined rfl rfl
    · simpa [ht] using h.threads t'
  fresh t' ht' := by
    by_cases ht : t' = t
    · subst ht
      simpa [hpc] using h.fresh t' ht'
    · simpa [ht] using h.fresh t' ht'

/-- The contents of a state do not matter. -/
theorem Sound.setLua (x : Nat) (l : LuaState R) : Sound (s.setLua x l) where
  threads t := by
    exact (h.threads t).congr rfl rfl rfl rfl rfl rfl (by simp) (by simp)
  fresh t ht := h.fresh t ht

/-- A created state that gets no thread. -/
theorem Sound.newCreated {cr : Created R} (hcloses : cr.closes ≤ 1)
    (hmisused : cr.misused = false) :
    Sound { s.setState s.count cr with count := s.count + 1 } where
  threads t := by
    by_cases ht : t = s.count
    · subst ht
      exact (h.threads s.count).of_absent (h.fresh s.count (Nat.le_refl _)) (by simpa using hcloses)
        (by simpa using hmisused)
    · simpa [ht] using h.threads t
  fresh t ht := h.fresh t (by simp only at ht; omega)

/-- A new state that is closed again. -/
theorem Sound.closeNew (l : LuaState R) : Sound ((s.newCreated l).closeState s.count) := by
  have hopen : ((s.newCreated l).states s.count).closes = 0 := by simp [State.newCreated]
  have heq : (s.newCreated l).closeState s.count =
      { s.setState s.count ⟨l, 1, false⟩ with count := s.count + 1 } := by
    rw [State.closeState_of_open _ hopen]
    simp [State.newCreated, State.setState]
  rw [heq]
  exact h.newCreated (Nat.le_refl 1) rfl

/-- A new state whose thread has been started. -/
theorem Sound.start (c : Option Nat) (l : LuaState R) :
    Sound ((s.newCreated l).setThread s.count (startingThread c)) where
  threads t := by
    by_cases ht : t = s.count
    · subst ht
      constructor <;> simp [startingThread, State.newCreated, Pc.inCode]
    · simpa [ht, State.newCreated] using h.threads t
  fresh t ht := by
    have hlt : s.count + 1 ≤ t := ht
    have hne : t ≠ s.count := by omega
    simpa [hne, State.newCreated] using h.fresh t (by omega)

/-- A thread in Lua code enters or leaves `l_pthread_create`. -/
theorem Sound.setInCode {t : Nat} {pc : Pc} (hpc : (s.threads t).pc.inCode = true)
    (hpc' : pc.inCode = true) : Sound (s.setThread t { s.threads t with pc := pc }) := by
  have hold := h.threads t
  obtain ⟨hopen, hhandlers⟩ := hold.code hpc
  have hnot : ∀ pc', pc'.inCode = false → (s.threads t).pc ≠ pc' := by
    rintro pc' hfalse rfl
    rw [hpc] at hfalse
    cases hfalse
  exact h.setThread (hnot _ rfl)
    (.of_inCode hold.unused hpc' (hold.not_joined (hnot _ rfl)) hopen hhandlers)

theorem Sound.create (c : Option Nat) (L : LuaState R) (fnidx : Int) (outcome : CreateOutcome)
    (hc : s.Active c) (hok : OwnershipClear s (.create c L fnidx outcome)) :
    Sound (s.create c L fnidx outcome) := by
  have hcaller := h.touchCaller (State.active_inCode hc)
  cases hcopy : copyFunctionAndArgs L fnidx with
  | none =>
    cases outcome with
    | newstateFails => simpa only [State.create, hcaller] using h
    | mallocFails | startFails | started =>
      simp only [State.create, hcopy, hcaller]
      exact h.closeNew newState
  | some l =>
    cases outcome with
    | newstateFails => simpa only [State.create, hcaller] using h
    | startFails =>
      simp only [State.create, hcopy, hcaller]
      exact h.closeNew l
    | mallocFails =>
      cases c with
      | none =>
        simp only [State.create, hcopy, hcaller]
        exact h.newCreated (Nat.zero_le 1) rfl
      | some c =>
        -- the caller's own state would be closed here
        rw [show copyFunctionAndArgs L fnidx = none from hok] at hcopy
        cases hcopy
    | started =>
      have hstarted := h.start c l
      simp only [State.create, hcopy, hcaller]
      cases c with
      | none => exact hstarted
      | some c =>
        have hrunning : (s.threads c).pc = .running := hc
        have hne : c ≠ s.count := by
          have := h.lt_count (t := c) (by rw [hrunning]; simp)
          omega
        refine hstarted.setInCode ?_ rfl
        simp [hne, State.newCreated, hrunning, Pc.inCode]

theorem Sound.createReturn (c : Option Nat) (t : Nat)
    (hc : ∀ x ∈ c, (s.threads x).pc = .creating t) : Sound (s.createReturn c t true) := by
  have hcode : ∀ x ∈ c, (s.threads x).pc.inCode = true := by
    intro x hx
    rw [hc x hx]
    rfl
  simp only [State.createReturn, h.touchCaller hcode, ite_true]
  cases c with
  | none => exact h.relabel t _ rfl rfl rfl rfl rfl rfl
  | some c => exact (h.setInCode (hcode c rfl) rfl).relabel t _ rfl rfl rfl rfl rfl rfl

theorem Sound.wrapper {t : Nat} (hpc : (s.threads t).pc = .starting) :
    Sound (next s (.wrapper t)) := by
  have hold := h.threads t
  obtain ⟨hopen, hhandlers, hcleaning⟩ := hold.starting hpc
  simp only [next, s.touch_of_open hopen]
  refine h.setThread (by rw [hpc]; simp) (.of_inCode hold.unused rfl ?_ hopen ?_)
  · exact hold.not_joined (by rw [hpc]; simp)
  · exact Or.inl ⟨hcleaning, by simp [hhandlers]⟩

/-- While the function runs, `thread_cleanup` is the only handler. -/
theorem Sound.handlers_of_running {t : Nat} (hpc : (s.threads t).pc = .running)
    (hcleaning : (s.threads t).cleaning = none) : (s.threads t).handlers = [t] := by
  rcases ((h.threads t).code (by rw [hpc]; rfl)).2 with ⟨_, hhandlers⟩ | ⟨hsome, _⟩
  · exact hhandlers
  · rw [hcleaning] at hsome
    cases hsome

/-- The function is over: the handler is gone, and the state is left to whoever joins. -/
theorem Sound.kfunction {t : Nat} (status : Bool) (l : LuaState R)
    (hpc : (s.threads t).pc = .running) (hcleaning : (s.threads t).cleaning = none) :
    Sound (next s (.kfunction t status l)) := by
  have hold := h.threads t
  have hopen := h.open_of_inCode (t := t) (by rw [hpc]; rfl)
  have hhandlers := h.handlers_of_running hpc hcleaning
  simp only [next, s.touch_of_open hopen]
  refine (h.setLua t (pushStatus l status)).setThread ?_ (.of_exiting ?_ rfl ?_ hcleaning rfl ?_)
  · simp [hpc]
  · simpa using hold.unused
  · exact hold.not_joined (by rw [hpc]; simp)
  · exact Or.inr ⟨by simp [hhandlers], by simpa [Ending.closes] using hopen⟩

/-- A thread that calls `pthread.exit` or is cancelled still has its handler. -/
theorem Sound.leave {t : Nat} (ending : Ending) (hpc : (s.threads t).pc = .running)
    (hcleaning : (s.threads t).cleaning = none) (hending : ending ≠ .returned) :
    Sound (s.setThread t
      { s.threads t with pc := .exiting, result := ending.result t, ending := ending }) := by
  have hold := h.threads t
  have hopen := h.open_of_inCode (t := t) (by rw [hpc]; rfl)
  refine h.setThread (by rw [hpc]; simp) (.of_exiting hold.unused rfl ?_ hcleaning rfl ?_)
  · exact hold.not_joined (by rw [hpc]; simp)
  · exact Or.inl ⟨h.handlers_of_running hpc hcleaning, hopen, hending⟩

/-- The handler begins to clean up. -/
theorem Sound.handler {t : Nat} (hpc : (s.threads t).pc = .exiting)
    (hnonempty : (s.threads t).handlers ≠ []) : Sound (next s (.handler t)) := by
  have hold := h.threads t
  obtain ⟨_, hresult, hhandlers⟩ := hold.exiting hpc
  rcases hhandlers with ⟨hhandlers, hopen, hending⟩ | ⟨hempty, _⟩
  · simp only [next, hhandlers, s.touch_of_open hopen]
    refine h.setThread (by rw [hpc]; simp) (.of_inCode hold.unused rfl ?_ hopen ?_)
    · exact hold.not_joined (by rw [hpc]; simp)
    · exact Or.inr ⟨rfl, rfl, hending, hresult⟩
  · exact absurd hempty hnonempty

/-- The handler closes the state. -/
theorem Sound.close {t : Nat} (hpc : (s.threads t).pc = .running)
    (hcleaning : (s.threads t).cleaning ≠ none) : Sound (next s (.close t)) := by
  have hold := h.threads t
  obtain ⟨hopen, hhandlers⟩ := hold.code (by rw [hpc]; rfl)
  rcases hhandlers with ⟨hnone, _⟩ | ⟨hsome, hempty, hending, hresult⟩
  · exact absurd hnone hcleaning
  · simp only [next, hsome, s.closeState_of_open hopen]
    refine h.set (by rw [hpc]; simp) (.of_exiting hold.unused rfl ?_ rfl hresult ?_)
    · exact hold.not_joined (by rw [hpc]; simp)
    · refine Or.inr ⟨hempty, ?_⟩
      simp only
      cases hcase : (s.threads t).ending with
      | returned => exact absurd hcase hending
      | exited | canceled => rfl

theorem Sound.terminate {t : Nat} (hpc : (s.threads t).pc = .exiting)
    (hempty : (s.threads t).handlers = []) : Sound (next s (.terminate t)) := by
  have hold := h.threads t
  obtain ⟨_, hresult, hhandlers⟩ := hold.exiting hpc
  have hnotJoined := hold.not_joined (by rw [hpc]; simp)
  refine h.setThread (by rw [hpc]; simp) (.of_terminated hold.unused rfl hresult ?_)
  rcases hhandlers with ⟨hhandlers, _⟩ | ⟨_, hcloses⟩
  · rw [hempty] at hhandlers
    cases hhandlers
  · simpa [hnotJoined] using hcloses

/-- The result of a thread that returned or was cancelled can be taken. -/
theorem Sound.takeResult {c : Option Nat} {t : Nat} (L : LuaState R) (hc : s.Active c)
    (hpc : (s.threads t).pc = .terminated) (hjoined : (s.threads t).joined = false)
    (hending : (s.threads t).ending ≠ .exited) :
    Sound (s.takeResult c t L) ∧ (s.takeResult c t L).threads = s.threads := by
  obtain ⟨hresult, hcloses⟩ := (h.threads t).terminated hpc
  have hcode := State.active_inCode hc
  cases hcase : (s.threads t).ending with
  | exited => exact absurd hcase hending
  | canceled =>
    rw [hcase] at hresult
    have htaken : s.takeResult c t L = s := by
      simp only [State.takeResult, hresult, Ending.result, h.touchCaller hcode]
    rw [htaken]
    exact ⟨h, rfl⟩
  | returned =>
    rw [hcase] at hresult hcloses
    have hopen : (s.states t).closes = 0 := hcloses hjoined
    rcases hcollect : collect (s.states t).lua L with ⟨report, l', L'⟩
    have hset := h.setLua t l'
    simp only [State.takeResult, hresult, Ending.result, hcollect, s.touch_of_open hopen,
      hset.touchCaller hcode]
    cases c with
    | none => exact ⟨hset, rfl⟩
    | some c => exact ⟨hset.setLua c L', rfl⟩

/-- The one successful join: afterwards the state has been closed once. -/
theorem Sound.join {c : Option Nat} {t : Nat} (L : LuaState R) (hc : s.Active c)
    (hpc : (s.threads t).pc = .terminated) (hjoined : (s.threads t).joined = false)
    (hending : (s.threads t).ending ≠ .exited) : Sound (s.join c t L) := by
  obtain ⟨hresult, hcloses⟩ := (h.threads t).terminated hpc
  obtain ⟨htaken, hthreads⟩ := h.takeResult L hc hpc hjoined hending
  have hsame := s.takeResult_closes t c L
  have hunused := (htaken.threads t).unused
  have hpc' : ((s.takeResult c t L).threads t).pc = .terminated := by rw [hthreads, hpc]
  have hresult' : ((s.takeResult c t L).threads t).result =
      ((s.takeResult c t L).threads t).ending.result t := by rw [hthreads, hresult]
  cases hcase : (s.threads t).ending with
  | exited => exact absurd hcase hending
  | canceled =>
    rw [hcase] at hresult hcloses
    simp only [State.join, hresult, Ending.result]
    refine htaken.setThread (by rw [hpc']; simp) (.of_terminated hunused hpc' hresult' ?_)
    rw [hsame, hcloses hjoined]
    rfl
  | returned =>
    rw [hcase] at hresult hcloses
    have hopen : ((s.takeResult c t L).states t).closes = 0 := (hsame t).trans (hcloses hjoined)
    simp only [State.join, hresult, Ending.result]
    rw [State.closeState_of_open _ (by simpa using hopen)]
    exact htaken.set (by rw [hpc']; simp) (.of_terminated hunused hpc' hresult' rfl)

end Steps

/-- **Every step keeps the responsibilities clear**, if it meets the condition. -/
theorem Sound.next {s : State R} (h : Sound s) (e : Event R) (hok : OwnershipClear s e)
    (he : Enabled s e) : Sound (next s e) := by
  cases e with
  | create c L fnidx outcome => exact h.create c L fnidx outcome he hok
  | createReturn c t attrDestroyed =>
    obtain rfl : attrDestroyed = true := hok
    exact h.createReturn c t he.2.2
  | wrapper t => exact h.wrapper he
  | run t l =>
    have hpc : (s.threads t).pc = .running := he
    simp only [Threads.next, s.touch_of_open (h.open_of_inCode (t := t) (by rw [hpc]; rfl))]
    exact h.setLua t l
  | kfunction t status l => exact h.kfunction status l he.1 he.2
  | exit t l =>
    simp only [Threads.next, s.touch_of_open (h.open_of_inCode (t := t) (by rw [he.1]; rfl))]
    exact (h.setLua t _).leave .exited he.1 he.2 (by simp)
  | cancel t => exact h.relabel t _ rfl rfl rfl rfl rfl rfl
  | act t => exact h.leave .canceled he.1 he.2.1 (by simp)
  | handler t => exact h.handler he.1 he.2
  | close t => exact h.close he.1 he.2
  | terminate t => exact h.terminate he.1 he.2
  | peekjoin c t L => exact (h.takeResult L he.1 he.2.1 he.2.2.2.1 hok).1
  | join c t L => exact h.join L he.1 he.2.1 he.2.2.2.1 hok
  | detach c t =>
    simp only [Threads.next, h.touchCaller (State.active_inCode he.1)]
    exact h.relabel t _ rfl rfl rfl rfl rfl rfl

theorem sound_init : Sound (system R).init where
  threads t := by
    constructor <;> simp [system, absentThread, Pc.inCode]
  fresh t _ := rfl

theorem reachable_sound {s : State R} (h : (system R).ReachableBy OwnershipClear s) : Sound s :=
  h.invariant sound_init (fun _ e hs hok he => hs.next e hok he)

/-! ## The life of a state -/

/-- No created state is closed twice or used after it was closed, a thread that has been
joined has its state closed, and a peek closes nothing. -/
structure ClosedOnce (s : State R) : Prop where
  at_most_once : ∀ t, (s.states t).closes ≤ 1
  unused : ∀ t, (s.states t).misused = false
  joined : ∀ t, (s.threads t).joined = true → (s.states t).closes = 1
  peek : ∀ c t L t', ((next s (.peekjoin c t L)).states t').closes = (s.states t').closes

/-- **Every created state is closed once** in every run in which no join takes the result
of a thread that called `pthread.exit` and the error paths of `create` that close a state
in use are not taken. -/
theorem state_closed_once (s : State R) (h : (system R).ReachableBy OwnershipClear s) :
    ClosedOnce s := by
  have hsound := reachable_sound h
  constructor
  · intro t
    exact (hsound.threads t).closes_le
  · intro t
    exact (hsound.threads t).unused
  · intro t hjoined
    exact ((hsound.threads t).joined hjoined).2
  · intro c t L t'
    exact s.takeResult_closes t c L t'

/-! ### Two threads that end -/

/-- A state with a function on its stack. -/
def functionState : LuaState sampleRuntime where
  stack := [.function 0]
  closures := [plainClosure]
  globals := 0

/-- A thread is created, and its function returns an integer; it is joined. -/
def returnEvents : List (Event sampleRuntime) :=
  [.create none functionState 1 .started, .createReturn none 0 true, .wrapper 0,
    .kfunction 0 true ⟨[.integer 7], [], 0⟩, .terminate 0, .peekjoin none 0 emptyState,
    .join none 0 emptyState]

/-- A thread is created, and its function calls `pthread.exit`; it is joined. -/
def exitEvents : List (Event sampleRuntime) :=
  [.create none functionState 1 .started, .createReturn none 0 true, .wrapper 0,
    .exit 0 ⟨[.integer 7], [], 0⟩, .handler 0, .close 0, .terminate 0, .join none 0 emptyState]

instance (s : State R) (e : Event R) : Decidable (OwnershipClear s e) := by
  have copied (L : LuaState R) (fnidx : Int) : Decidable (copyFunctionAndArgs L fnidx = none) :=
    decidable_of_iff _ Option.isNone_iff_eq_none
  unfold OwnershipClear
  split <;> infer_instance

theorem state_closed_once_return :
    ∃ s, (system sampleRuntime).run returnEvents = some s ∧ (s.threads 0).joined = true ∧
      ClosedOnce s := by
  have hrun : (((system sampleRuntime).restrict OwnershipClear
      (fun _ _ => inferInstance)).run returnEvents).map (fun s => (s.threads 0).joined) =
        some true := by
    decide
  obtain ⟨s, hs, hjoined⟩ := Option.map_eq_some_iff.mp hrun
  exact ⟨s, System.run_of_restrict hs, hjoined, state_closed_once s (System.run_restrict hs)⟩

/-- The state of a thread that called `pthread.exit` is closed by the handler and, after
it has been used, once more by the join. -/
theorem not_closed_once_exit :
    ¬ ∀ (R : Runtime) (s : State R), (system R).Reachable s → ClosedOnce s := by
  intro h
  have hrun : ((system sampleRuntime).run exitEvents).map
      (fun s => ((s.states 0).closes, (s.states 0).misused)) = some (2, true) := by
    decide
  obtain ⟨s, hs, hfacts⟩ := Option.map_eq_some_iff.mp hrun
  simp only [Prod.mk.injEq] at hfacts
  have hle := (h sampleRuntime s (System.run_reachable hs)).at_most_once 0
  rw [hfacts.1] at hle
  omega

end Threads
end FluaLibs
