import FluaLibs.RefCount
import FluaLibs.Transition
import Mathlib.Logic.Function.Basic

/-! # Asynchronous I/O control blocks

The `aio` module wraps the control blocks of POSIX asynchronous I/O.  A control
block lives outside the Lua states; userdata in any of them point to it and it
counts them.  An atomic `state` field says who may use the buffer, and the functions
of the module move it: a submission takes it to `CB_PENDING` before the system call,
`_return` takes it to `CB_RETURNING`, and both restore it when the system call fails.

A call is an activation of one of these functions, on a thread of its own; it takes
one atomic action on one control block at a time.  The kernel keeps the requests it
has in progress and those that are complete and not collected yet.  `__close` and
`__gc` run in the userdata they are called on.
-/
namespace FluaLibs
namespace Aio

/-- `enum aiocb_state`. -/
inductive AiocbState where
  | uninit
  | init
  | pending
  | returning
  deriving DecidableEq, Repr

/-- The buffer is in use neither by the kernel nor by `_return`. -/
def AiocbState.idle : AiocbState → Bool
  | uninit | init => true
  | pending | returning => false

/-- What changes the state field. -/
inductive Action where
  | beginRead
  | beginWrite
  | beginReturn
  | refused
  | rolledBack
  | committed
  deriving DecidableEq, Repr

/-- A change of the state field: the call that made it, why, and to what. -/
structure Change where
  call : Nat
  action : Action
  state : AiocbState
  deriving DecidableEq, Repr

/-- `struct rcaiocb`, the requests the kernel has for it (those in progress, and the
results of those that are complete, oldest first), how often it was freed, the state
it was made with and the changes of the state since then. -/
structure Rcaiocb where
  lioRead : Bool
  vector : Bool
  aioState : AiocbState
  refs : Refcount
  state : AiocbState
  running : Nat
  complete : List Bool
  freed : Nat
  created : AiocbState
  changes : List Change
  deriving DecidableEq

namespace Rcaiocb
variable (cb : Rcaiocb) (call : Nat)

/-- A store to the state field. -/
def store (action : Action) (state : AiocbState) : Rcaiocb :=
  { cb with
    state := state
    changes := if cb.state = state then cb.changes else cb.changes ++ [⟨call, action, state⟩] }

/-- `atomic_compare_exchange_strong`; the local variable gets `cb.state` either way. -/
def compareExchange (action : Action) (expected desired : AiocbState) : Option Rcaiocb :=
  if cb.state = expected then some (cb.store call action desired) else none

/-- `rcaiocb_trybeginwrite`. -/
def trybeginwrite : Option Rcaiocb := cb.compareExchange call .beginWrite .init .pending

/-- The first half of `rcaiocb_trybeginread`; the second is `trybeginwrite`. -/
def trybeginread : Option Rcaiocb := cb.compareExchange call .beginRead .uninit .pending

/-- `rcaiocb_trybeginreturn`. -/
def trybeginreturn : Option Rcaiocb := cb.compareExchange call .beginReturn .pending .returning

@[simp] theorem store_state (action : Action) (state : AiocbState) :
    (cb.store call action state).state = state := rfl

/-- A compare-exchange that succeeds is a store, in the expected state. -/
theorem compareExchange_eq_some {cb' : Rcaiocb} {action : Action} {expected desired : AiocbState}
    (h : cb.compareExchange call action expected desired = some cb') :
    cb.state = expected ∧ cb' = cb.store call action desired := by
  unfold compareExchange at h
  split at h
  · exact ⟨‹_›, (Option.some.inj h).symm⟩
  · cases h

/-- The kernel accepts a request. -/
def queue : Rcaiocb := { cb with running := cb.running + 1 }

/-- The requests of the control block that the kernel holds. -/
def outstanding : Nat := cb.running + cb.complete.length

/-- `aio_cancel(2)` with the answer `AIO_CANCELED`, or `AIO_ALLDONE` when none is running. -/
def aioCancel : Rcaiocb :=
  { cb with running := 0, complete := cb.complete ++ List.replicate cb.running false }

end Rcaiocb

/-! ## The calls -/

/-- How a function of the module ends. -/
inductive Outcome where
  | success
  | fail
  | nothing
  | error (message : String)
  | argerror (arg : Nat) (message : String)
  deriving DecidableEq, Repr

/-- The rest of the table of `listio`, each control block with whether its opcode is a
read, and the control blocks begun so far with their `states`. -/
structure Listing where
  todo : List (Option (Nat × Bool))
  begun : List (Nat × AiocbState)
  deriving DecidableEq, Repr

/-- The system call that collected a request. -/
inductive Source where
  | aioReturn
  | aioWaitcomplete
  deriving DecidableEq, Repr

/-- Where a call is: the atomic action it is about to take. -/
inductive Pc where
  | tryRead (a : Nat) (listing : Option Listing)
  | tryWrite (a : Nat) (listing : Option Listing)
  | submit (a : Nat) (state : AiocbState)
  | rollback (a : Nat) (state : AiocbState) (rest : List (Nat × AiocbState)) (outcome : Outcome)
  | lio (handled : List ((Nat × AiocbState) × Bool)) (a : Nat) (state : AiocbState)
      (rest : List (Nat × AiocbState))
  | lioReturn (handled : List ((Nat × AiocbState) × Bool))
  | refused (begun : List (Nat × AiocbState)) (observed : AiocbState)
  | tryReturn (a : Nat)
  | aioReturn (a : Nat)
  | failed (a : Nat) (source : Source)
  | restore (a : Nat) (state : AiocbState) (source : Source)
  | commit (a : Nat) (source : Source)
  | store (a : Nat) (source : Source)
  | waitcomplete
  | waited (a : Nat) (result : Bool)
  | waitedNew (a : Nat) (result : Bool)
  | retained (a : Nat)
  | index (a : Nat) (iov : Bool)
  | copying (a : Nat)
  | cancel (a : Nat)
  | aioCancel (a : Nat)
  | suspend (a : Nat) (rest : List Nat)
  | aioSuspend (a : Nat)
  | done (outcome : Outcome)
  deriving DecidableEq

/-- `rollback_states`. -/
def rollbackStates (outcome : Outcome) : List (Nat × AiocbState) → Pc
  | [] => .done outcome
  | (a, state) :: rest => .rollback a state rest outcome

/-- `lio_listio(2)` goes through the entries. -/
def lioListio (handled : List ((Nat × AiocbState) × Bool)) : List (Nat × AiocbState) → Pc
  | [] => .lioReturn handled
  | (a, state) :: rest => .lio handled a state rest

/-- The head of the loop of `l_lio_listio`. -/
def nextEntry (begun : List (Nat × AiocbState)) : List (Option (Nat × Bool)) → Pc
  | [] => lioListio [] begun
  | none :: _ => rollbackStates (.argerror 2 "invalid aiocb") begun
  | some (a, true) :: todo => .tryRead a (some ⟨todo, begun⟩)
  | some (a, false) :: todo => .tryWrite a (some ⟨todo, begun⟩)

/-- The compare-exchange has moved the state from `state` to `CB_PENDING`. -/
def afterBegin (a : Nat) (state : AiocbState) : Option Listing → Pc
  | none => .submit a state
  | some listing => nextEntry (listing.begun ++ [(a, state)]) listing.todo

/-- The compare-exchange has been refused in the state `observed`.  `listio` rolls back
one entry more than it has begun. -/
def afterRefusal (observed : AiocbState) : Option Listing → Pc
  | none => .done (.argerror 1 "buffer not available")
  | some listing => .refused listing.begun observed

/-- A request has been collected. -/
def collected (a : Nat) (source : Source) (result : Bool) : Pc :=
  if result then .commit a source else .failed a source

namespace Pc

/-- The control block of the next action. -/
def target : Pc → Option Nat
  | tryRead a _ | tryWrite a _ | submit a _ | rollback a _ _ _ | lio _ a _ _ | tryReturn a
  | aioReturn a | failed a _ | restore a _ _ | commit a _ | store a _ | waited a _ | index a _
  | copying a | cancel a | aioCancel a | suspend a _ | aioSuspend a => some a
  | lioReturn _ | refused _ _ | waitcomplete | waitedNew _ _ | retained _ | done _ => none

/-- The control block whose reference count `waitcomplete` is about to increment. -/
def retains : Pc → Option Nat
  | waited a _ => some a
  | _ => none

/-- The control block for which a reference is taken and a userdata will be made. -/
def makes : Pc → Option Nat
  | waitedNew a _ | retained a => some a
  | _ => none

/-- The next store of a rollback after a refused submission. -/
def restores : Pc → Option (Nat × AiocbState)
  | rollback a state _ _ => some (a, state)
  | _ => none

def isLioReturn : Pc → Bool
  | lioReturn _ => true
  | _ => false

def isRefused : Pc → Bool
  | refused _ _ => true
  | _ => false

/-- One action of the call `call` on its target `cb`.  `ok` is the answer of the system
call, where the action is one: whether the request is accepted or cancelled. -/
def exec (call : Nat) (ok : Bool) (cb : Rcaiocb) : Pc → Rcaiocb × Pc
  | tryRead a listing =>
    match cb.trybeginread call with
    | some cb' => (cb', afterBegin a cb.state listing)
    | none => (cb, tryWrite a listing)
  | tryWrite a listing =>
    match cb.trybeginwrite call with
    | some cb' => (cb', afterBegin a cb.state listing)
    | none => (cb, afterRefusal cb.state listing)
  | submit a state => if ok then (cb.queue, done .success) else (cb, rollback a state [] .fail)
  | rollback _ state rest outcome => (cb.store call .refused state, rollbackStates outcome rest)
  | lio handled a state rest =>
    (if ok then cb.queue else cb, lioListio (handled ++ [((a, state), ok)]) rest)
  | tryReturn a =>
    match cb.trybeginreturn call with
    | some cb' => (cb', aioReturn a)
    | none => (cb, done (.argerror 1 "buffer not pending"))
  | aioReturn a =>
    match cb.complete with
    | [] => (cb, failed a .aioReturn)  -- EINVAL: nothing is complete
    | result :: rest => ({ cb with complete := rest }, collected a .aioReturn result)
  | failed a source => (cb, restore a cb.aioState source)
  | restore _ state _ => (cb.store call .rolledBack state, done .fail)
  | commit a source => ({ cb with aioState := .init }, store a source)
  | store _ _ => (cb.store call .committed .init, done .success)
  | waited a result => ({ cb with refs := cb.refs.retain }, waitedNew a result)
  | index a iov =>
    if cb.vector ≠ iov then (cb, done .nothing)
    else if cb.state = .init then (cb, copying a)
    else (cb, done (.error (if iov then "buffers not available" else "buffer not available")))
  | copying _ => (cb, done .success)
  | cancel a =>
    if cb.state = .pending then (cb, aioCancel a)
    else (cb, done (.argerror 1 "buffer not pending"))
  | aioCancel _ => (if ok then cb.aioCancel else cb, done .success)
  | suspend a rest =>
    if cb.state = .pending then
      (cb, match rest with
        | [] => aioSuspend a
        | b :: rest => suspend b rest)
    else (cb, done (.argerror 1 "buffer not pending"))
  | aioSuspend _ => (cb, done (if ok then .success else .fail))
  | pc => (cb, pc)

end Pc

/-- `l_aio_read`. -/
def l_aio_read (a : Nat) : Pc := .tryRead a none

/-- `l_aio_write`, up to the system call it submits with. -/
def l_aio_write (a : Nat) : Pc := .tryWrite a none

/-- `l_aio_mlock`. -/
def l_aio_mlock (a : Nat) : Pc := .tryWrite a none

/-- `l_aio_fsync`. -/
def l_aio_fsync (a : Nat) : Pc := .tryWrite a none

/-- `l_aio_return`. -/
def l_aio_return (a : Nat) : Pc := .tryReturn a

/-- `l_lio_listio`. -/
def l_lio_listio (todo : List (Option (Nat × Bool))) : Pc := nextEntry [] todo

/-- `l_aio_waitcomplete`. -/
def l_aio_waitcomplete : Pc := .waitcomplete

/-- `l_aiocb_index`, for the fields `buf` and `iov`. -/
def l_aiocb_index (a : Nat) (iov : Bool) : Pc := .index a iov

/-- `l_aio_cancel`. -/
def l_aio_cancel (a : Nat) : Pc := .cancel a

/-- `l_suspend`, and `l_aio_suspend` for a list of one. -/
def l_suspend : List Nat → Pc
  | [] => .done .success
  | a :: rest => .suspend a rest

/-- A call, with the userdata among its arguments. -/
structure Call where
  args : List Nat
  pc : Pc
  deriving DecidableEq

/-- The userdata on the stack of the call, which are not collected meanwhile. -/
def Call.pins (c : Call) : List Nat :=
  match c.pc with
  | .done _ => []
  | _ => c.args

/-! ## The userdata -/

/-- Where `l_aiocb_free` is, once it has released the last reference. -/
inductive FreePc where
  | idle
  | load
  | aioCancel
  | aioSuspend
  | aioReturn
  | free
  deriving DecidableEq, Repr

namespace FreePc

/-- One action of `l_aiocb_free`; `ok` is false when `aio_cancel(2)` answers
`AIO_NOTCANCELED`.  Where it calls `abort2` there is no next state. -/
def exec (ok : Bool) (cb : Rcaiocb) : FreePc → Rcaiocb × FreePc
  | idle => (cb, idle)
  | load => (cb, if cb.state = .pending then aioCancel else free)
  | aioCancel => if ok then (cb.aioCancel, aioReturn) else (cb, aioSuspend)
  | aioSuspend => (cb, aioReturn)
  | aioReturn => ({ cb with complete := cb.complete.tail }, free)
  | free => ({ cb with freed := cb.freed + 1 }, idle)

end FreePc

/-- A userdata: the control block it was made for, whether its cookie still points
there, the references it has released, and whether its `__gc` has been called. -/
structure Userdata where
  cb : Nat
  cookie : Bool
  releases : Nat
  collected : Bool
  freePc : FreePc
  deriving DecidableEq, Repr

/-- Functions can be called on the userdata and use its control block. -/
def Userdata.Accessible (x : Userdata) : Prop :=
  x.cookie = true ∧ x.collected = false ∧ x.freePc = .idle

instance (x : Userdata) : Decidable x.Accessible := inferInstanceAs (Decidable (_ ∧ _))

/-- An entry of the buffer table, or the buffer itself. -/
inductive Piece where
  | string (bytes : List UInt8)
  | length (n : Nat)
  deriving DecidableEq, Repr

def Piece.isInit : Piece → Bool
  | string _ => true
  | length _ => false

/-- The buffer argument of `l_aiocb_shared`. -/
inductive Buffer where
  | nil
  | piece (p : Piece)
  | table (pieces : List Piece)
  deriving DecidableEq, Repr

/-- `checkbuf` and `checkiovecs`: whether the buffer is a vector, and the state it puts
the control block in; `none` when the description is refused. -/
def Buffer.check : Buffer → Option (Bool × AiocbState)
  | nil => some (false, .init)
  | piece p => some (false, if p.isInit then .init else .uninit)
  | table pieces =>
    let ninit := pieces.countP Piece.isInit
    if ninit = 0 then some (true, .uninit)
    else if ninit = pieces.length then some (true, .init)
    else none

/-- A control block is not in use when it has been made. -/
theorem Buffer.check_state (b : Buffer) :
    (b.check.getD (false, .uninit)).2 = .uninit ∨ (b.check.getD (false, .uninit)).2 = .init := by
  cases b with
  | nil => exact Or.inr rfl
  | piece p =>
    cases p with
    | string bytes => exact Or.inr rfl
    | length n => exact Or.inl rfl
  | table pieces =>
    simp only [Buffer.check]
    split
    · exact Or.inl rfl
    · split
      · exact Or.inr rfl
      · exact Or.inl rfl

/-- The flag of `aio_read2(2)` and `aio_write2(2)` by which the buffer is a vector. -/
def AIO_OP2_VECTORED : BitVec 32 := 2#32

/-- The functions called on userdata, each by its number, `read` and `write` with their
optional flags (0 when they are not given, or when the system has no `aio_read2(2)`); the
entries of `listio` for which `testcookie` finds no control block are `none`.  As it is, it
finds none in any entry (`AioListio`). -/
inductive Invocation where
  | read (u : Nat) (flags : BitVec 32)
  | write (u : Nat) (flags : BitVec 32)
  | mlock (u : Nat)
  | fsync (u : Nat)
  | return_ (u : Nat)
  | cancel (u : Nat)
  | suspend (us : List Nat)
  | index (u : Nat) (iov : Bool)
  | listio (us : List (Option Nat))
  | waitcomplete
  deriving DecidableEq, Repr

def Invocation.args : Invocation → List Nat
  | read u _ | write u _ | mlock u | fsync u | return_ u | cancel u | index u _ => [u]
  | suspend us => us
  | listio us => us.filterMap id
  | waitcomplete => []

/-! ## The machine -/

/-- The control blocks made so far are those below `count`. -/
structure State where
  count : Nat
  cbs : Nat → Rcaiocb
  userdata : List Userdata
  calls : List Call

/-- The atomic actions: of the program (`shared`, `call`, `retain`, `close`, `gc`), of a
call in progress, of the kernel (`complete`), and of `l_aiocb_free`. -/
inductive Event where
  | shared (lioRead : Bool) (buffer : Buffer)
  | call (f : Invocation)
  | retain (u : Nat)
  | step (i : Nat) (ok : Bool)
  | make (i : Nat)
  | lioReturn (i : Nat) (ok : Bool)
  | refuse (i : Nat) (stray : Option Nat)
  | waitcomplete (i : Nat) (found : Option Nat)
  | complete (a : Nat) (ok : Bool)
  | close (u : Nat)
  | gc (u : Nat)
  | freeStep (u : Nat) (ok : Bool)
  deriving DecidableEq, Repr

namespace State
variable (s : State)

/-- The userdata is an argument of a call in progress. -/
def Pinned (u : Nat) : Prop := ∃ c ∈ s.calls, u ∈ c.pins

instance (u : Nat) : Decidable (s.Pinned u) := inferInstanceAs (Decidable (∃ c ∈ s.calls, _))

/-- A function may be called on the userdata: a Lua state makes one call at a time. -/
def Usable (u : Nat) : Prop := (∃ x ∈ s.userdata[u]?, x.Accessible) ∧ ¬ s.Pinned u

/-- The metamethods may be called on the userdata. -/
def Releasable (u : Nat) : Prop :=
  (∃ x ∈ s.userdata[u]?, x.collected = false ∧ x.freePc = .idle) ∧ ¬ s.Pinned u

instance (u : Nat) : Decidable (s.Usable u) := inferInstanceAs (Decidable (_ ∧ _))
instance (u : Nat) : Decidable (s.Releasable u) := inferInstanceAs (Decidable (_ ∧ _))

/-- `checkcookie`: the control block of a userdata. -/
def cookie (u : Nat) : Nat := s.userdata[u]?.elim 0 Userdata.cb

/-- The userdata that have not released their reference. -/
def unreleased (a : Nat) : Nat := s.userdata.countP (fun x => x.cb = a ∧ x.releases = 0)

/-- The calls that have taken a reference and are about to make their userdata. -/
def making (a : Nat) : Nat := s.calls.countP (fun c => c.pc.makes = some a)

/-- The references there should be. -/
def holders (a : Nat) : Nat := s.unreleased a + s.making a

def setCb (a : Nat) (cb : Rcaiocb) : State := { s with cbs := Function.update s.cbs a cb }

def setCall (i : Nat) (c : Call) : State := { s with calls := s.calls.set i c }

def setUserdata (u : Nat) (x : Userdata) : State := { s with userdata := s.userdata.set u x }

def addCall (c : Call) : State := { s with calls := s.calls ++ [c] }

/-- `new`: a userdata for the control block `a`. -/
def new (a : Nat) : State := { s with userdata := s.userdata ++ [⟨a, true, 0, false, .idle⟩] }

/-- `l_aiocb_shared`.  When the buffer description is refused, the userdata is left to
`__gc`. -/
def shared (lioRead : Bool) (buffer : Buffer) : State :=
  let (vector, state) := buffer.check.getD (false, .uninit)
  let cb : Rcaiocb := ⟨lioRead, vector, state, Refcount.init 1, state, 0, [], 0, state, []⟩
  State.new { s.setCb s.count cb with count := s.count + 1 } s.count

/-- Where a call starts. -/
def start : Invocation → Pc
  | .read u _ => l_aio_read (s.cookie u)
  | .write u _ => l_aio_write (s.cookie u)
  | .mlock u => l_aio_mlock (s.cookie u)
  | .fsync u => l_aio_fsync (s.cookie u)
  | .return_ u => l_aio_return (s.cookie u)
  | .cancel u => l_aio_cancel (s.cookie u)
  | .suspend us => l_suspend (us.map s.cookie)
  | .index u iov => l_aiocb_index (s.cookie u) iov
  | .listio us =>
    l_lio_listio (us.map (·.map (fun u => (s.cookie u, (s.cbs (s.cookie u)).lioRead))))
  | .waitcomplete => l_aio_waitcomplete

/-- `l_aiocb_retain`, up to `refcount_retain`. -/
def retain (x : Userdata) : State :=
  let cb := s.cbs x.cb
  (s.setCb x.cb { cb with refs := cb.refs.retain }).addCall ⟨[], .retained x.cb⟩

/-- A call takes its next action. -/
def step (i : Nat) (ok : Bool) (c : Call) : State :=
  match c.pc.target with
  | none => s
  | some a =>
    (s.setCb a (c.pc.exec i ok (s.cbs a)).1).setCall i { c with pc := (c.pc.exec i ok (s.cbs a)).2 }

/-- A call that has taken a reference makes its userdata. -/
def make (i : Nat) (c : Call) : State :=
  match c.pc with
  | .retained a => (s.new a).setCall i { c with pc := .done .success }
  | .waitedNew a result =>
    (s.new a).setCall i ⟨[s.userdata.length], collected a .aioWaitcomplete result⟩
  | _ => s

/-- `lio_listio(2)` returns. -/
def lioReturn (i : Nat) (ok : Bool) (c : Call) : State :=
  match c.pc with
  | .lioReturn handled =>
    s.setCall i { c with
      pc := if ok then .done .success else rollbackStates .fail (handled.map Prod.fst) }
  | _ => s

/-- The entry that `listio` rolls back without having begun it: the pointer is not
initialised, and may happen to be that of a control block. -/
def refuse (i : Nat) (stray : Option Nat) (c : Call) : State :=
  match c.pc with
  | .refused begun observed =>
    s.setCall i { c with
      pc := rollbackStates (.argerror 2 "buffer not initialized")
        (begun ++ stray.toList.map (fun a => (a, observed))) }
  | _ => s

/-- `aio_waitcomplete(2)` returns, with a complete request or with none. -/
def waitcomplete (i : Nat) (c : Call) : Option Nat → State
  | none => s.setCall i { c with pc := .done .fail }
  | some a =>
    match (s.cbs a).complete with
    | [] => s
    | result :: rest =>
      (s.setCb a { s.cbs a with complete := rest }).setCall i { c with pc := .waited a result }

/-- The kernel completes a request. -/
def complete (a : Nat) (ok : Bool) : State :=
  let cb := s.cbs a
  s.setCb a { cb with running := cb.running - 1, complete := cb.complete ++ [ok] }

/-- `l_aiocb_free`, up to `refcount_release`.  The cookie stays when this is not the
last reference. -/
def release (u : Nat) (gc : Bool) (x : Userdata) : State :=
  if x.cookie then
    let cb := s.cbs x.cb
    (s.setCb x.cb { cb with refs := cb.refs.release.2 }).setUserdata u
      { x with
        collected := gc
        releases := x.releases + 1
        freePc := if cb.refs.release.1 then .load else .idle }
  else s.setUserdata u { x with collected := gc }

/-- `l_aiocb_free` takes its next action; the last one frees and clears the cookie. -/
def freeStep (u : Nat) (ok : Bool) (x : Userdata) : State :=
  (s.setCb x.cb (x.freePc.exec ok (s.cbs x.cb)).1).setUserdata u
    { x with
      cookie := x.cookie && decide (x.freePc ≠ .free)
      freePc := (x.freePc.exec ok (s.cbs x.cb)).2 }

end State

/-- What each action needs.  `aio_suspend(2)` returns to `l_aiocb_free` when a request
is complete; a cookie is passed to `retain` while its userdata has not released it;
an address space of 2^64 bytes has no room for 2^64 userdata and calls. -/
def Enabled (s : State) : Event → Prop
  | .shared _ _ => True
  | .call f => ∀ u ∈ f.args, s.Usable u
  | .retain u => ∃ x ∈ s.userdata[u]?, x.releases = 0 ∧ s.holders x.cb + 1 < 2 ^ 64
  | .step i _ => ∃ c ∈ s.calls[i]?, c.pc.target.isSome = true ∧
      ∀ a ∈ c.pc.retains, s.holders a + 1 < 2 ^ 64
  | .make i => ∃ c ∈ s.calls[i]?, c.pc.makes.isSome = true
  | .lioReturn i _ => ∃ c ∈ s.calls[i]?, c.pc.isLioReturn = true
  | .refuse i stray => ∃ c ∈ s.calls[i]?, c.pc.isRefused = true ∧ ∀ a ∈ stray, a < s.count
  | .waitcomplete i found => ∃ c ∈ s.calls[i]?, c.pc = .waitcomplete ∧
      ∀ a ∈ found, a < s.count ∧ (s.cbs a).complete ≠ []
  | .complete a _ => a < s.count ∧ 0 < (s.cbs a).running
  | .close u | .gc u => s.Releasable u
  | .freeStep u _ => ∃ x ∈ s.userdata[u]?, x.freePc ≠ .idle ∧
      (x.freePc = .aioSuspend → (s.cbs x.cb).running = 0 ∨ (s.cbs x.cb).complete ≠ [])

/-- What each action does. -/
def next (s : State) : Event → State
  | .shared lioRead buffer => s.shared lioRead buffer
  | .call f => s.addCall ⟨f.args, s.start f⟩
  | .retain u => s.userdata[u]?.elim s s.retain
  | .step i ok => s.calls[i]?.elim s (s.step i ok)
  | .make i => s.calls[i]?.elim s (s.make i)
  | .lioReturn i ok => s.calls[i]?.elim s (s.lioReturn i ok)
  | .refuse i stray => s.calls[i]?.elim s (s.refuse i stray)
  | .waitcomplete i found => s.calls[i]?.elim s (fun c => s.waitcomplete i c found)
  | .complete a ok => s.complete a ok
  | .close u => s.userdata[u]?.elim s (s.release u false)
  | .gc u => s.userdata[u]?.elim s (s.release u true)
  | .freeStep u ok => s.userdata[u]?.elim s (s.freeStep u ok)

/-- Any number of control blocks, shared by any number of Lua states and threads. -/
def system : System State Event where
  init := ⟨0, fun _ => ⟨false, false, .uninit, 0, .uninit, 0, [], 0, .uninit, []⟩, [], []⟩
  Enabled := Enabled
  decEnabled s e := by
    cases e with
    | shared => exact isTrue trivial
    | call f => exact inferInstanceAs (Decidable (∀ u ∈ f.args, s.Usable u))
    | complete => exact inferInstanceAs (Decidable (_ ∧ _))
    | retain | freeStep => exact inferInstanceAs (Decidable (∃ x ∈ s.userdata[_]?, _))
    | close u | gc u => exact inferInstanceAs (Decidable (s.Releasable u))
    | _ => exact inferInstanceAs (Decidable (∃ c ∈ s.calls[_]?, _))
  next := next

end Aio
end FluaLibs
