import FluaLibs.CopyValues
import FluaLibs.Transition
import Mathlib.Logic.Function.Basic

/-! # The rendezvous object

`struct rcrendezvous` is a mutex, a condition variable and one `waiter` pointer.
A call of `exchange` or `timedexchange` that finds no waiter registers its own
Lua state there and waits; a call that finds one copies the values both ways on
the two Lua stacks (`exchange`), clears the pointer and signals.

The system has any number of threads, each with its own Lua state.  An event is
what one thread does between two points where others can interfere: the body of
the critical section up to `pthread_cond_wait`, or the exchange, or the signal.
What POSIX leaves open is in the events too: a wait may end with a signal
(`signal`), for no reason (`wake`), at its deadline (`expire`) or by a
cancellation (`act`), and in each case the thread has to get the mutex back
(`relock`) before its code runs on.

`calls` and `meetings` record the history: every call with its arguments and, once
it is over, its outcome, and which calls `exchange` was run for.

The Lua stacks have room for what is exchanged; `CopyCapacity` says how much that is.
-/
namespace FluaLibs
namespace Rendezvous
variable {R : Runtime}

/-! ## Calls -/

/-- The values a call is given, with the closures and the globals table of the
Lua state it runs in.  Functions are references to these closures. -/
structure Arguments (R : Runtime) where
  values : List Value
  closures : List (Closure R)
  globals : Nat
  inHeap : ∀ r, Value.function r ∈ values → r < closures.length

/-- The two methods, the second with its deadline. -/
inductive Entry where
  | exchange
  | timedexchange (sec nsec : Int)
  deriving DecidableEq, Repr

namespace Entry

/-- The object itself and the deadline, which stand below the values. -/
def header : Entry → List Value
  | exchange => [.userdata 0]
  | timedexchange sec nsec => [.userdata 0, .integer sec, .integer nsec]

def skip : Entry → Nat
  | exchange => 1
  | timedexchange _ _ => 3

def isTimed : Entry → Bool
  | exchange => false
  | timedexchange _ _ => true

theorem header_length (e : Entry) : e.header.length = e.skip := by
  cases e <;> rfl

end Entry

/-- The stack frame of a call. -/
def Arguments.frame (a : Arguments R) (e : Entry) : LuaState R where
  stack := e.header ++ a.values
  closures := a.closures
  globals := a.globals

/-- The frame of a call that waits: the number of values is on top. -/
def Arguments.parked (a : Arguments R) (e : Entry) : LuaState R :=
  (a.frame e).push (.integer a.values.length)

/-- How a call ends: with values, which refer to the closures the Lua state then
has, or with an error. -/
inductive Outcome (R : Runtime) where
  | returned (values : List Value) (closures : List (Closure R))
  | raised (err : Value)

/-! ## The code -/

/-- `narg`: what is on the stack but the header. -/
def Entry.narg (e : Entry) (L : LuaState R) : Int := L.gettop - e.skip

def otherThreadMessage : Value := .literal "other thread attempted invalid 'exchange'"

def badArgumentMessage (error : Int) : Value :=
  .literal ("bad argument #" ++ toString (error - 1) ++
    " to 'exchange' (non-serializable value)")

/-- `exchange(L, l, idx, narg)`: take the waiter's values from `l`, then give it
those of `L`.  The result is the return value and both states; `none` is never
reached, since two levels of `copyn` are always enough. -/
def exchange (L l : LuaState R) (idx narg : Int) : Option (Int × LuaState R × LuaState R) :=
  let nres := l.topInteger
  let l₁ := l.pop 1
  match copyn 2 l₁ L (l₁.gettop - nres + 1) nres with
  | none => none
  | some results =>
    if results.ret ≠ 0 then
      some (-1, results.dst.push otherThreadMessage,
        (results.src.push (badArgumentMessage results.ret)).push (.integer (-1)))
    else
      match copyn 2 results.dst results.src idx narg with
      | none => none
      | some args =>
        if args.ret ≠ 0 then
          some (-1, args.src.push (badArgumentMessage args.ret),
            (args.dst.push otherThreadMessage).push (.integer (-1)))
        else some (nres, args.src, args.dst.push (.integer narg))

/-- `lua_error`: the value on top is raised. -/
def raiseTop (L : LuaState R) : Outcome R := .raised ((L.index (-1)).getD .nil)

/-- A C function that returns `n`: the values are the topmost `n`. -/
def returnTop (L : LuaState R) (n : Int) : Outcome R :=
  .returned (L.stack.drop (L.gettop - n.toNat)) L.closures

/-- What each method makes of `nres` after it has unlocked the mutex. -/
def Entry.conclude (e : Entry) (nres : Int) (L : LuaState R) : Outcome R :=
  match e with
  | .exchange => if nres < 0 then raiseTop L else returnTop L nres
  | .timedexchange _ _ =>
    if nres = -1 then raiseTop L
    else if nres = -2 then returnTop (L.push (.boolean false)) 1
    else
      let L₁ := L.push (.boolean true)
      returnTop (L₁.insert (L₁.gettop - (nres + 1))) (nres + 1)

/-! ## The system -/

/-- Where a thread is. -/
inductive Pc where
  /-- not in a call -/
  | outside
  /-- before `pthread_mutex_lock` -/
  | locking
  /-- in the critical section, before the test of `waiter` -/
  | locked
  /-- asleep in the wait -/
  | waiting
  /-- in the wait, which will return 0 -/
  | woken
  /-- in the wait, which will return `ETIMEDOUT` -/
  | expired
  /-- in the wait, which will not return: cancellation was acted on -/
  | cancelled
  /-- before `pthread_cond_signal` -/
  | signalling (nres : Int)
  /-- before `pthread_mutex_unlock` -/
  | unlocking (nres : Int)
  /-- running the cleanup handlers -/
  | cleaning
  | terminated
  deriving DecidableEq, Repr

namespace Pc

/-- Inside `pthread_cond_wait` or `pthread_cond_timedwait`. -/
def isBlocked : Pc → Bool
  | waiting | woken | expired | cancelled => true
  | _ => false

/-- Between the lock and the unlock, outside the wait. -/
def isCritical : Pc → Bool
  | locked | signalling _ | unlocking _ => true
  | _ => false

def isSignalling : Pc → Bool
  | signalling _ => true
  | _ => false

def isUnlocking : Pc → Bool
  | unlocking _ => true
  | _ => false

end Pc

/-- A thread: its Lua state and its current call, an index into `calls`. -/
structure Thread (R : Runtime) where
  pc : Pc
  lua : LuaState R
  isOpen : Bool
  cancelRequested : Bool
  entry : Entry
  call : Nat

/-- A call that was made; `outcome` is `none` as long as it goes on. -/
structure Call (R : Runtime) where
  thread : Nat
  entry : Entry
  args : Arguments R
  outcome : Option (Outcome R)

structure State (R : Runtime) where
  /-- the owner of the mutex -/
  mutex : Option Nat
  /-- the threads asleep on the condition variable -/
  sleepers : List Nat
  waiter : Option Nat
  threads : Nat → Thread R
  calls : List (Call R)
  /-- the pairs of a waiting and an arriving call that `exchange` was run for -/
  meetings : List (Nat × Nat)
  /-- a Lua state was used that was closed or that its thread was running -/
  fault : Bool

/-- The actions of a thread `t`. -/
inductive Event (R : Runtime) where
  | call (t : Nat) (entry : Entry) (args : Arguments R)
  | lock (t : Nat)
  | lockTimeout (t : Nat)
  | lockError (t : Nat) (msg : Value)
  | park (t : Nat)
  | parkError (t : Nat) (msg : Value)
  | serve (t : Nat)
  | signal (t : Nat) (woken : Option Nat)
  | signalError (t : Nat) (msg : Value)
  | wake (t : Nat)
  | expire (t : Nat)
  | relock (t : Nat)
  | unlock (t : Nat)
  | cancel (t : Nat)
  | act (t : Nat)
  | cleanup (t : Nat)
  | exit (t : Nat)
  | join (t : Nat)

namespace State
variable (s : State R)

def setThread (t : Nat) (th : Thread R) : State R :=
  { s with threads := Function.update s.threads t th }

def setPc (t : Nat) (pc : Pc) : State R := s.setThread t { s.threads t with pc := pc }

/-- The current call of `t` is over. -/
def complete (t : Nat) (o : Outcome R) : State R :=
  { s.setPc t .outside with
    calls := s.calls.modify (s.threads t).call (fun c => { c with outcome := some o }) }

/-- The other branch of the test of `waiter`: exchange with the registered state
and clear the pointer. -/
def serve (t : Nat) : State R :=
  match s.waiter with
  | none => s
  | some w =>
    if (s.threads w).pc.isBlocked ∧ (s.threads w).isOpen then
      let L := (s.threads t).lua
      match exchange L (s.threads w).lua ((s.threads t).entry.skip + 1)
          ((s.threads t).entry.narg L) with
      | none => { s with fault := true }
      | some (nres, L', l') =>
        { (s.setThread w { s.threads w with lua := l' }).setThread t
            { s.threads t with pc := .signalling nres, lua := L' } with
          waiter := none
          meetings := s.meetings ++ [((s.threads w).call, (s.threads t).call)] }
    else { s with fault := true }

/-- A thread whose wait is over has the mutex back. -/
def relock (t : Nat) : State R :=
  let th := s.threads t
  match th.pc with
  | .woken =>
    { s.setThread t { th with pc := .unlocking th.lua.topInteger, lua := th.lua.pop 1 } with
      mutex := some t }
  | .expired => { s.setPc t (.unlocking (-2)) with mutex := some t, waiter := none }
  | .cancelled => { s.setPc t .cleaning with mutex := some t }
  | _ => s

end State

/-- What each action needs. -/
def Enabled (s : State R) : Event R → Prop
  | .call t _ _ => (s.threads t).pc = .outside ∧ (s.threads t).isOpen = true
  | .lock t => (s.threads t).pc = .locking ∧ s.mutex = none
  | .lockTimeout t => (s.threads t).pc = .locking ∧ (s.threads t).entry.isTimed = true ∧
      s.mutex ≠ none
  | .lockError t _ => (s.threads t).pc = .locking
  | .park t | .parkError t _ => (s.threads t).pc = .locked ∧ s.waiter = none
  | .serve t => (s.threads t).pc = .locked ∧ s.waiter ≠ none
  | .signal t (some w) => (s.threads t).pc.isSignalling = true ∧ w ∈ s.sleepers
  | .signal t none => (s.threads t).pc.isSignalling = true ∧ s.sleepers = []
  | .signalError t _ => (s.threads t).pc.isSignalling = true
  | .wake t => t ∈ s.sleepers
  | .expire t => t ∈ s.sleepers ∧ (s.threads t).entry.isTimed = true
  | .relock t => (s.threads t).pc ∈ [.woken, .expired, .cancelled] ∧ s.mutex = none
  | .unlock t => (s.threads t).pc.isUnlocking = true
  | .cancel _ => True
  | .act t => (s.threads t).pc ∈ [.outside, .waiting] ∧ (s.threads t).cancelRequested = true
  | .cleanup t => (s.threads t).pc = .cleaning
  | .exit t => (s.threads t).pc = .outside
  | .join t => (s.threads t).pc = .terminated ∧ (s.threads t).isOpen = true

/-- What each action does. -/
def next (s : State R) : Event R → State R
  | .call t e args =>
    { s.setThread t
        { s.threads t with
          pc := .locking, lua := args.frame e, entry := e, call := s.calls.length } with
      calls := s.calls ++ [⟨t, e, args, none⟩] }
  | .lock t => { s.setPc t .locked with mutex := some t }
  | .lockTimeout t =>
    s.complete t (returnTop ((s.threads t).lua.push (.boolean false)) 1)
  | .lockError t msg => s.complete t (.raised msg)
  | .park t =>
    let th := s.threads t
    { s.setThread t
        { th with pc := .waiting, lua := th.lua.push (.integer (th.entry.narg th.lua)) } with
      waiter := some t
      mutex := none
      sleepers := s.sleepers ++ [t] }
  | .parkError t msg =>
    let th := s.threads t
    s.setThread t
      { th with
        pc := .unlocking (-1)
        lua := (th.lua.push (.integer (th.entry.narg th.lua))).push msg }
  | .serve t => s.serve t
  | .signal t woken =>
    let s' :=
      match (s.threads t).pc with
      | .signalling n => s.setPc t (.unlocking n)
      | _ => s
    match woken with
    | some w => { s'.setPc w .woken with sleepers := s.sleepers.filter (· ≠ w) }
    | none => s'
  | .signalError t msg =>
    s.setThread t
      { s.threads t with pc := .unlocking (-1), lua := (s.threads t).lua.push msg }
  | .wake t => { s.setPc t .woken with sleepers := s.sleepers.filter (· ≠ t) }
  | .expire t => { s.setPc t .expired with sleepers := s.sleepers.filter (· ≠ t) }
  | .relock t => s.relock t
  | .unlock t =>
    match (s.threads t).pc with
    | .unlocking n =>
      { s.complete t ((s.threads t).entry.conclude n (s.threads t).lua) with mutex := none }
    | _ => s
  | .cancel t => s.setThread t { s.threads t with cancelRequested := true }
  | .act t =>
    if (s.threads t).pc = .waiting then
      { s.setPc t .cancelled with sleepers := s.sleepers.filter (· ≠ t) }
    else s.setPc t .cleaning
  | .cleanup t => s.setThread t { s.threads t with pc := .terminated, isOpen := false }
  | .exit t => s.setPc t .terminated
  | .join t => s.setThread t { s.threads t with isOpen := false }

/-- A thread that has not made a call yet. -/
def idleThread : Thread R where
  pc := .outside
  lua := ⟨[], [], 0⟩
  isOpen := true
  cancelRequested := false
  entry := .exchange
  call := 0

/-- Any number of threads around one rendezvous. -/
def system (R : Runtime) : System (State R) (Event R) where
  init := ⟨none, [], none, fun _ => idleThread, [], [], false⟩
  Enabled := Enabled
  decEnabled _
    | .call _ _ _ | .lock _ | .lockTimeout _ | .park _ | .parkError _ _ | .serve _
    | .signal _ none | .signal _ (some _) | .expire _ | .relock _ | .act _ | .join _ =>
      inferInstanceAs (Decidable (_ ∧ _))
    | .lockError _ _ | .signalError _ _ | .unlock _ | .cleanup _ | .exit _ =>
      inferInstanceAs (Decidable (_ = _))
    | .wake _ => inferInstanceAs (Decidable (_ ∈ _))
    | .cancel _ => instDecidableTrue
  next := next

/-! ## What `exchange` does -/

/-- All values of the list are accepted by `copyn`. -/
def Arguments.Copyable (a : Arguments R) : Prop := ∀ v ∈ a.values, copyable a.closures v = true

/-- Both argument lists are accepted by `copyn`. -/
def Exchangeable (a b : Arguments R) : Prop := a.Copyable ∧ b.Copyable

theorem Exchangeable.symm {a b : Arguments R} (h : Exchangeable a b) : Exchangeable b a :=
  ⟨h.2, h.1⟩

theorem Arguments.exists_not_copyable {a : Arguments R} (h : ¬ a.Copyable) :
    ∃ v ∈ a.values, copyable a.closures v = false := by
  simp only [Arguments.Copyable, not_forall, Bool.not_eq_true] at h
  obtain ⟨v, hv, hbad⟩ := h
  exact ⟨v, hv, hbad⟩

/-- What a call with `mine` is left with when it has met a call with `theirs`: the
result count, and its Lua state without it. -/
structure Settled (mine theirs : Arguments R) (e : Entry) (nres : Int) (L : LuaState R) :
    Prop where
  delivered : Exchangeable mine theirs → nres = theirs.values.length ∧
    ∃ ws, L.stack = (mine.frame e).stack ++ ws ∧
      List.Forall₂ (SameValue theirs.closures L.closures) theirs.values ws
  rejected : ¬ Exchangeable mine theirs → nres = -1

theorem Settled.of_receiveAll {mine theirs : Arguments R} (e : Entry)
    (h : Exchangeable mine theirs) :
    Settled mine theirs e theirs.values.length
      ((mine.frame e).receiveAll theirs.closures theirs.values) where
  delivered _ := by
    obtain ⟨ws, hws, hsame⟩ := receiveAll_same theirs.values (mine.frame e) h.2
    exact ⟨rfl, ws, hws, hsame⟩
  rejected hno := absurd h hno

theorem Settled.of_not_exchangeable {mine theirs : Arguments R} {e : Entry} {L : LuaState R}
    (h : ¬ Exchangeable mine theirs) : Settled mine theirs e (-1) L :=
  ⟨fun hyes => absurd hyes h, fun _ => rfl⟩

section Exchange
variable (mine theirs : Arguments R) (e e' : Entry)

/-- The first copy: the waiter's values, which stand below the count. -/
theorem copyn_results (L : LuaState R) :
    (theirs.Copyable →
      copyn 2 (theirs.frame e') L ((theirs.frame e').gettop - theirs.values.length + 1)
        theirs.values.length =
          some ⟨0, theirs.frame e', L.receiveAll theirs.closures theirs.values⟩) ∧
    (¬ theirs.Copyable → ∃ error l' L',
      copyn 2 (theirs.frame e') L ((theirs.frame e').gettop - theirs.values.length + 1)
        theirs.values.length = some ⟨error, l', L'⟩ ∧ error ≠ 0) := by
  have hs : (theirs.frame e').stack = e'.header ++ theirs.values ++ [] := by
    rw [List.append_nil]
    rfl
  have hidx : ((theirs.frame e').gettop : Int) - theirs.values.length + 1 =
      e'.header.length + 1 := by
    simp only [LuaState.gettop, hs, List.append_nil, List.length_append]
    omega
  rw [hidx]
  constructor
  · intro h
    exact copyn_of_copyable 0 L hs h
  · intro h
    obtain ⟨i, l', L', _, hrun, _⟩ :=
      copyn_of_not_copyable 0 L hs (Arguments.exists_not_copyable h)
    exact ⟨_, l', L', hrun, by omega⟩

/-- The second copy: the arriving call's values, in a state that has grown since. -/
theorem copyn_args (l L : LuaState R) (hL : (mine.frame e).Extends L) :
    (mine.Copyable →
      copyn 2 L l (e.skip + 1) mine.values.length =
        some ⟨0, L, l.receiveAll mine.closures mine.values⟩) ∧
    (¬ mine.Copyable → ∃ error L' l',
      copyn 2 L l (e.skip + 1) mine.values.length = some ⟨error, L', l'⟩ ∧ error ≠ 0) := by
  obtain ⟨vs, hvs⟩ := hL.stack
  obtain ⟨cs, hcs⟩ := hL.closures
  have hclosures : L.closures = mine.closures ++ cs := hcs
  have hs : L.stack = e.header ++ mine.values ++ vs := hvs
  have hsame : ∀ v ∈ mine.values, copyable L.closures v = copyable mine.closures v := by
    intro v hv
    rw [hclosures, copyable_append cs (fun r hr => mine.inHeap r (hr ▸ hv))]
  rw [← e.header_length]
  constructor
  · intro h
    have hrun := copyn_of_copyable 0 l hs (fun v hv => (hsame v hv).trans (h v hv))
    rwa [hclosures, receiveAll_append cs l mine.inHeap] at hrun
  · intro h
    obtain ⟨v, hv, hbad⟩ := Arguments.exists_not_copyable h
    obtain ⟨i, L', l', _, hrun, _⟩ :=
      copyn_of_not_copyable 0 l hs ⟨v, hv, (hsame v hv).trans hbad⟩
    exact ⟨_, L', l', hrun, by omega⟩

/-- The lists that are accepted are those `copyn` returns 0 for. -/
theorem copyable_iff_copyn (l : LuaState R) :
    mine.Copyable ↔
      ∃ L' l', copyn 2 (mine.frame e) l (e.skip + 1) mine.values.length = some ⟨0, L', l'⟩ := by
  obtain ⟨hyes, hno⟩ := copyn_args mine e l (mine.frame e) (LuaState.Extends.refl _)
  constructor
  · intro h
    exact ⟨_, _, hyes h⟩
  · rintro ⟨L', l', hrun⟩
    by_contra h
    obtain ⟨error, L'', l'', hrun', herror⟩ := hno h
    rw [hrun] at hrun'
    exact herror (congrArg Copied.ret (Option.some.inj hrun')).symm

/-- **What `exchange` does** with a call that arrives and one that is parked: it
always comes to an end, and leaves both settled with each other. -/
theorem exchange_spec :
    ∃ nres L' m l', exchange (mine.frame e) (theirs.parked e') (e.skip + 1) mine.values.length =
        some (nres, L', l'.push (.integer m)) ∧
      Settled mine theirs e nres L' ∧ Settled theirs mine e' m l' := by
  have htop : (theirs.parked e').topInteger = theirs.values.length := by
    simp [LuaState.topInteger, Arguments.parked, Value.tointeger]
  have hpop : (theirs.parked e').pop 1 = theirs.frame e' := LuaState.push_pop _
  obtain ⟨hresults, hnoResults⟩ := copyn_results theirs e' (mine.frame e)
  by_cases htheirs : theirs.Copyable
  · obtain ⟨hargs, hnoArgs⟩ := copyn_args mine e (theirs.frame e')
      ((mine.frame e).receiveAll theirs.closures theirs.values)
      (LuaState.Extends.receiveAll theirs.closures (mine.frame e) theirs.values)
    by_cases hmine : mine.Copyable
    · have h : Exchangeable mine theirs := ⟨hmine, htheirs⟩
      refine ⟨_, _, _, _, ?_, .of_receiveAll e h, .of_receiveAll e' h.symm⟩
      simp [exchange, htop, hpop, hresults htheirs, hargs hmine]
    · have h : ¬ Exchangeable mine theirs := fun h => hmine h.1
      obtain ⟨error, L', l', hrun, herror⟩ := hnoArgs hmine
      refine ⟨-1, L'.push (badArgumentMessage error), -1, l'.push otherThreadMessage, ?_,
        .of_not_exchangeable h, .of_not_exchangeable (fun h' => h h'.symm)⟩
      simp only [exchange, htop, hpop, hresults htheirs, hrun, ne_eq, not_true_eq_false, herror,
        not_false_eq_true, ite_true, ite_false]
  · have h : ¬ Exchangeable mine theirs := fun h => htheirs h.2
    obtain ⟨error, l', L', hrun, herror⟩ := hnoResults htheirs
    refine ⟨-1, L'.push otherThreadMessage, -1, l'.push (badArgumentMessage error), ?_,
      .of_not_exchangeable h, .of_not_exchangeable (fun h' => h h'.symm)⟩
    simp only [exchange, htop, hpop, hrun, ne_eq, herror, not_false_eq_true, ite_true]

end Exchange

/-! ## What the methods return -/

/-- The values a call returns ahead of those it received.  `timedexchange` moves its
`true` one place too low, so that the value that was there is returned instead:
its own last argument, or the deadline's nanoseconds. -/
def Entry.lead (e : Entry) (mine : Arguments R) : List Value :=
  match e with
  | .exchange => []
  | .timedexchange _ nsec => [mine.values.getLast?.getD (.integer nsec)]

/-- How a call with `mine` ends that has met a call with `theirs`. -/
structure Concluded (e : Entry) (mine theirs : Arguments R) (o : Outcome R) : Prop where
  delivered : Exchangeable mine theirs → ∃ ws cs, o = .returned (e.lead mine ++ ws) cs ∧
    List.Forall₂ (SameValue theirs.closures cs) theirs.values ws
  rejected : ¬ Exchangeable mine theirs → ∃ err, o = .raised err

theorem returnTop_of_stack {L : LuaState R} {below ws : List Value} {n : Nat}
    (h : L.stack = below ++ ws) (hn : n = ws.length) :
    returnTop L n = .returned ws L.closures := by
  have hdrop : L.gettop - (n : Int).toNat = below.length := by
    simp only [LuaState.gettop, h, List.length_append, hn, Int.toNat_natCast]
    omega
  rw [returnTop, hdrop, h, List.drop_left]

/-- The frame of a timed call, split before the value that `timedexchange` returns
first. -/
theorem timed_frame (mine : Arguments R) (sec nsec : Int) :
    ∃ below, (mine.frame (.timedexchange sec nsec)).stack =
      below ++ (Entry.timedexchange sec nsec).lead mine := by
  rcases List.eq_nil_or_concat mine.values with hnil | ⟨vs, v, hvs⟩
  · exact ⟨[.userdata 0, .integer sec], by simp [Arguments.frame, Entry.header, Entry.lead, hnil]⟩
  · refine ⟨(Entry.timedexchange sec nsec).header ++ vs, ?_⟩
    simp [Arguments.frame, Entry.lead, hvs]

theorem conclude_delivered {e : Entry} {mine : Arguments R} {L : LuaState R} {ws : List Value}
    (h : L.stack = (mine.frame e).stack ++ ws) :
    e.conclude ws.length L = .returned (e.lead mine ++ ws) L.closures := by
  cases e with
  | exchange =>
    have hn : ¬ (ws.length : Int) < 0 := by omega
    simp only [Entry.conclude, hn, ite_false, Entry.lead, List.nil_append]
    exact returnTop_of_stack h rfl
  | timedexchange sec nsec =>
    obtain ⟨below, hbelow⟩ := timed_frame mine sec nsec
    have hlead : ((Entry.timedexchange sec nsec).lead mine).length = 1 := rfl
    have hstack : (L.push (.boolean true)).stack =
        below ++ ((Entry.timedexchange sec nsec).lead mine ++ ws) ++ [.boolean true] := by
      rw [LuaState.push_stack, h, hbelow, List.append_assoc below]
    have hpos : (L.push (.boolean true)).pos
        ((L.push (.boolean true)).gettop - ((ws.length : Int) + 1)) = below.length := by
      have hidx : ((L.push (.boolean true)).gettop : Int) - (ws.length + 1) = below.length + 1 := by
        simp only [LuaState.gettop, hstack, List.length_append, List.length_singleton, hlead]
        push_cast
        omega
      have hpositive : (0 : Int) < below.length + 1 := by omega
      simp only [LuaState.pos, hidx, hpositive, ite_true]
      omega
    have hinsert := LuaState.insert_of_stack hstack hpos
    have h1 : ¬ (ws.length : Int) = -1 := by omega
    have h2 : ¬ (ws.length : Int) = -2 := by omega
    have hsplit : ((L.push (.boolean true)).insert
        ((L.push (.boolean true)).gettop - ((ws.length : Int) + 1))).stack =
        (below ++ [.boolean true]) ++ ((Entry.timedexchange sec nsec).lead mine ++ ws) := by
      rw [hinsert, List.append_assoc]
      rfl
    have hcount : ws.length + 1 = ((Entry.timedexchange sec nsec).lead mine ++ ws).length := by
      rw [List.length_append, hlead]
      omega
    have hreturn := returnTop_of_stack hsplit hcount
    simp only [Entry.conclude, h1, h2, ite_false]
    rw [LuaState.insert_closures] at hreturn
    exact hreturn

/-- A settled call ends the way the exchange decided. -/
theorem Settled.concluded {mine theirs : Arguments R} {e : Entry} {nres : Int} {L : LuaState R}
    (h : Settled mine theirs e nres L) : Concluded e mine theirs (e.conclude nres L) where
  delivered hyes := by
    obtain ⟨hn, ws, hstack, hsame⟩ := h.delivered hyes
    refine ⟨ws, L.closures, ?_, hsame⟩
    rw [hn, hsame.length_eq]
    exact conclude_delivered hstack
  rejected hno := by
    obtain rfl := h.rejected hno
    cases e with
    | exchange => exact ⟨_, rfl⟩
    | timedexchange => exact ⟨_, rfl⟩

end Rendezvous
end FluaLibs
