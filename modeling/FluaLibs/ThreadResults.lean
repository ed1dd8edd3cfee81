import FluaLibs.CleanupHandlers
import FluaLibs.ThreadLifecycle

/-! # What a thread's function is called with, and what a join returns

`thread_wrapper` calls the function that `create` has copied to the thread's state, and
`thread_kfunction` leaves the status and the results, or the error, as all there is on
the stack of that state: a join copies the whole stack to its caller.

`observed` is the system of threads and their states with a history for each thread:
what `create` was given, the calls of the function, how the function ended, and what
each join returned.  The function is Lua code and ends in any way; what it leaves on the
stack is computed from how it ended and from what `thread_wrapper` had on the stack.
-/
namespace FluaLibs
namespace Threads
variable {R : Runtime}

/-! ## The code -/

/-- What `create` is called with: the function at `fnidx`, below it the table of
attributes or nothing, and the arguments above. -/
structure Given (R : Runtime) where
  below : List Value
  func : Value
  args : List Value
  closures : List (Closure R)
  globals : Nat

namespace Given
variable (G : Given R)

def frame : LuaState R := ⟨G.below ++ G.func :: G.args, G.closures, G.globals⟩

def fnidx : Int := G.below.length + 1

end Given

/-- A call of a function, with the closures of its state. -/
structure Call (R : Runtime) where
  func : Value
  args : List Value
  closures : List (Closure R)

/-- How the function of a thread ends. -/
inductive FnEnding where
  | returned (values : List Value)
  | raised (err : Value)
  /-- by an attempt to yield -/
  | yielded
  deriving DecidableEq

/-- What a protected call reports. -/
inductive Status where
  | ok
  | yield
  | errrun
  deriving DecidableEq

namespace FnEnding

def yieldMessage : Value := .literal "attempt to yield from outside a coroutine"

/-- What `lua_pcallk` reports: the function runs in the main thread of its state, where
an attempt to yield is an error, so that it is not suspended and the continuation is
not used. -/
def status : FnEnding → Status
  | returned _ => .ok
  | raised _ | yielded => .errrun

/-- What `lua_pcallk` leaves in place of the function and its arguments. -/
def values : FnEnding → List Value
  | returned values => values
  | raised err => [err]
  | yielded => [yieldMessage]

end FnEnding

/-- `thread_wrapper` up to the call: what stays below the function on the stack, and the
call itself. -/
def enterCall (l : LuaState R) : List Value × Option (Call R) :=
  let nargs : Int := l.gettop - 1
  let S := Cleanup.initcleanupstack ⟨⟨l, []⟩, .nil, []⟩
  let base := S.lua.gettop - (nargs + 1).toNat
  match S.lua.stack.drop base with
  | func :: args => (S.lua.stack.take base, some ⟨func, args, l.closures⟩)
  | [] => (S.lua.stack, none)

/-- The status that `thread_kfunction` pushes. -/
def Status.toBool (status : Status) : Bool := status = .ok ∨ status = .yield

/-- What a join returns to its caller, or raises. -/
def Report.reply (L : LuaState R) : Report → Except Value (List Value)
  | .canceled => .ok [.boolean false, .literal "canceled"]
  | .results n => .ok (L.stack.drop (L.gettop - n))
  | .notSerializable => .error (.literal "thread returned a non-serializable value")

/-! ## The system -/

/-- What a join returned, and whether the state it read was still open. -/
structure Reply where
  values : Except Value (List Value)
  fromOpen : Bool

/-- The history of a thread: what it was given, what its function was called with, what
`thread_wrapper` has on the stack during that call, how the function ended, and what
each join returned. -/
structure History (R : Runtime) where
  given : Option (Given R)
  calls : List (Call R)
  below : List Value
  ended : Option FnEnding
  replies : List Reply

structure Observed (R : Runtime) where
  base : State R
  history : Nat → History R

/-- The actions: of `Event`, with what is given to `create` and how a function ends in
the place of the states they lead to. -/
inductive ObservedEvent (R : Runtime) where
  | create (c : Option Nat) (G : Given R) (outcome : CreateOutcome)
  | finish (t : Nat) (e : FnEnding) (closures : List (Closure R))
  | other (e : Event R)

/-- The reply to a join of thread `t` by a caller with the frame `L`. -/
def State.reply (s : State R) (t : Nat) (L : LuaState R) : Reply :=
  match (s.threads t).result with
  | .canceled => ⟨Report.canceled.reply L, true⟩
  | .pointer p =>
    let (report, _, L') := collect (s.states p).lua L
    ⟨report.reply L', decide ((s.states p).closes = 0)⟩

namespace Observed
variable (s : Observed R)

/-- The event of the underlying system. -/
def event : ObservedEvent R → Event R
  | .create c G outcome => .create c G.frame G.fnidx outcome
  | .finish t e closures =>
    .kfunction t e.status.toBool
      ⟨(s.history t).below ++ e.values, closures, (s.base.states t).lua.globals⟩
  | .other e => e

/-- What is added to the histories. -/
def record : ObservedEvent R → Nat → History R
  | .create _ G _ =>
    Function.update s.history s.base.count { s.history s.base.count with given := some G }
  | .finish t e _ => Function.update s.history t { s.history t with ended := some e }
  | .other (.wrapper t) =>
    let (below, call) := enterCall (s.base.states t).lua
    Function.update s.history t
      { s.history t with below := below, calls := (s.history t).calls ++ call.toList }
  | .other (.peekjoin _ t L) | .other (.join _ t L) =>
    Function.update s.history t
      { s.history t with replies := (s.history t).replies ++ [s.base.reply t L] }
  | .other _ => s.history

def next (e : ObservedEvent R) : Observed R :=
  { base := Threads.next s.base (s.event e), history := s.record e }

end Observed

/-- The end of a function and the calls of `create` are given as such, and a function only
comes to its end in a state that is open. -/
def Observed.Enabled (s : Observed R) (e : ObservedEvent R) : Prop :=
  Threads.Enabled s.base (s.event e) ∧
    match e with
    | .create _ _ _ => True
    | .finish t _ _ => (s.base.states t).closes = 0
    | .other (.create _ _ _ _) | .other (.kfunction _ _ _) => False
    | .other _ => True

/-- Any number of threads, with their histories. -/
def observed (R : Runtime) : System (Observed R) (ObservedEvent R) where
  init := ⟨(system R).init, fun _ => ⟨none, [], [], none, []⟩⟩
  Enabled := Observed.Enabled
  decEnabled s e := by
    have hbase : Decidable (Threads.Enabled s.base (s.event e)) := (system R).decEnabled _ _
    unfold Observed.Enabled
    refine @instDecidableAnd _ _ hbase ?_
    split <;> infer_instance
  next := Observed.next

/-! ## What the code does with the values -/

theorem SameValue.eq_of_isScalar {H H' : List (Closure R)} {v w : Value} (h : SameValue H H' v w)
    (hv : v.isScalar = true) : w = v := by
  cases h with
  | scalar => rfl
  | function => cases hv

theorem eq_of_same_scalars {H H' : List (Closure R)} {vs ws : List Value}
    (h : List.Forall₂ (SameValue H H') vs ws) (hvs : ∀ v ∈ vs, v.isScalar = true) : ws = vs := by
  induction h with
  | nil => rfl
  | cons hv _ ih =>
    rw [SameValue.eq_of_isScalar hv (hvs _ (List.mem_cons_self ..)),
      ih (fun u hu => hvs u (List.mem_cons_of_mem _ hu))]

theorem copyable_of_isScalar (H : List (Closure R)) {v : Value} (hv : v.isScalar = true) :
    copyable H v = true := by
  cases v <;> first | exact hv | cases hv

/-- The state that `create` makes has copies of the function and its arguments on its
stack, and nothing else. -/
theorem copyFunctionAndArgs_spec {G : Given R} {l : LuaState R}
    (h : copyFunctionAndArgs G.frame G.fnidx = some l) :
    ∃ func args, l.stack = func :: args ∧
      List.Forall₂ (SameValue G.closures l.closures) (G.func :: G.args) (func :: args) := by
  have hstack : G.frame.stack = G.below ++ (G.func :: G.args) ++ [] := by
    rw [List.append_nil]
    rfl
  have hcount : (G.frame.gettop : Int) - (G.fnidx - 1) = (G.func :: G.args).length := by
    rw [LuaState.gettop, hstack, Given.fnidx]
    simp only [List.append_nil, List.length_append, List.length_cons]
    omega
  have hidx : G.fnidx = (G.below.length : Int) + 1 := rfl
  rw [copyFunctionAndArgs, hcount, hidx] at h
  by_cases hcopy : ∀ v ∈ G.func :: G.args, copyable G.frame.closures v = true
  · have hrun := copyn_of_copyable 0 newState hstack hcopy
    simp only [hrun] at h
    obtain rfl := Option.some.inj h
    obtain ⟨ws, hws, hsame⟩ := receiveAll_same (G.func :: G.args) newState hcopy
    have hnil : (newState : LuaState R).stack ++ ws = ws := rfl
    rw [hnil] at hws
    cases hsame with
    | cons hfunc hargs => exact ⟨_, _, hws, .cons hfunc hargs⟩
  · have hbad : ∃ v ∈ G.func :: G.args, copyable G.frame.closures v = false := by
      simpa only [not_forall, Bool.not_eq_true, exists_prop] using hcopy
    obtain ⟨i, L', l', _, hrun, _⟩ := copyn_of_not_copyable 0 newState hstack hbad
    have hret : (G.below.length : Int) + 1 + i ≠ 0 := by omega
    simp only [hrun, ne_eq, hret, not_false_eq_true, ite_true] at h
    cases h

/-- `thread_wrapper` calls the function with all the values above it. -/
theorem enterCall_of_stack {l : LuaState R} {func : Value} {args : List Value}
    (h : l.stack = func :: args) : enterCall l = ([], some ⟨func, args, l.closures⟩) := by
  have hstack : (Cleanup.initcleanupstack ⟨⟨l, []⟩, .nil, []⟩).lua.stack = func :: args := by
    have htable : (⟨l, []⟩ : TableState R).createtable.stack = l.stack ++ [.table 0] := rfl
    have hpop := TableState.pop_of_stack htable
    change ((⟨l, []⟩ : TableState R).createtable.pop 1).stack = _
    rw [hpop, TableState.withStack_stack, h]
  have hbase : (Cleanup.initcleanupstack ⟨⟨l, []⟩, .nil, []⟩).lua.gettop -
      ((l.gettop : Int) - 1 + 1).toNat = 0 := by
    rw [LuaState.gettop, LuaState.gettop, hstack, h]
    omega
  simp only [enterCall, hbase, hstack, List.drop_zero, List.take_zero]

theorem pushStatus_stack (l : LuaState R) (status : Bool) :
    (pushStatus l status).stack = .boolean status :: l.stack := by
  have hpush : (l.push (.boolean status)).stack = [] ++ l.stack ++ [.boolean status] := rfl
  exact LuaState.insert_of_stack hpush rfl

/-- A join copies scalars as they are and leaves the state it copies them from. -/
theorem collect_of_scalars {l : LuaState R} (L : LuaState R) (hne : l.stack ≠ [])
    (hl : ∀ v ∈ l.stack, v.isScalar = true) :
    ∃ L', collect l L = (.results l.stack.length, l, L') ∧ L'.stack = L.stack ++ l.stack := by
  have hstack : l.stack = [] ++ l.stack ++ [] := by simp
  have hcopy : ∀ v ∈ l.stack, copyable l.closures v = true :=
    fun v hv => copyable_of_isScalar _ (hl v hv)
  have hrun := copyn_of_copyable 0 L hstack hcopy
  have hpos : 0 < l.gettop := List.length_pos_iff.mpr hne
  obtain ⟨ws, hws, hsame⟩ := receiveAll_same l.stack L hcopy
  rw [eq_of_same_scalars hsame hl] at hws
  refine ⟨L.receiveAll l.closures l.stack, ?_, hws⟩
  have hidx : ((([] : List Value).length : Int) + 1) = 1 := rfl
  rw [hidx] at hrun
  simp only [collect, hpos, ite_true]
  rw [show ((l.gettop : Nat) : Int) = (l.stack.length : Int) from rfl, hrun]
  rfl

namespace FnEnding

/-- The function ends with scalars. -/
def Scalar (e : FnEnding) : Prop := ∀ v ∈ e.values, v.isScalar = true

/-- What every join is to return: the status, then the results or the error. -/
def report (e : FnEnding) : List Value := .boolean e.status.toBool :: e.values

theorem Scalar.report {e : FnEnding} (h : e.Scalar) : ∀ v ∈ e.report, v.isScalar = true := by
  intro v hv
  rcases List.mem_cons.mp hv with rfl | hv
  · rfl
  · exact h v hv

end FnEnding

/-- The reply to a join of a state with the report of an ending on its stack. -/
theorem State.reply_of_report {s : State R} {t : Nat} {e : FnEnding} (L : LuaState R)
    (hresult : (s.threads t).result = .pointer t) (hopen : (s.states t).closes = 0)
    (he : e.Scalar) (hstack : (s.states t).lua.stack = e.report) :
    s.reply t L = ⟨.ok e.report, true⟩ := by
  have hne : (s.states t).lua.stack ≠ [] := by
    rw [hstack]
    exact List.cons_ne_nil _ _
  obtain ⟨L', hcollect, hL'⟩ := collect_of_scalars L hne (hstack ▸ he.report)
  have hdrop : L'.stack.drop (L'.gettop - e.report.length) = e.report := by
    rw [LuaState.gettop, hL', hstack, List.length_append, Nat.add_sub_cancel, List.drop_left]
  simp only [State.reply, hresult, hcollect, hopen, Report.reply, hstack, hdrop, decide_true]

/-! ## The life of a thread -/

/-- The function has been called once, with copies of what `create` was given. -/
def Called (h : History R) : Prop :=
  h.below = [] ∧ ∃ G call, h.given = some G ∧ h.calls = [call] ∧
    List.Forall₂ (SameValue G.closures call.closures) (G.func :: G.args) (call.func :: call.args)

/-- The function is over: the handler is gone, and the report stands on the stack of a
state that stays open until a join. -/
structure Ended (t : Nat) (th : Thread) (cr : Created R) (e : FnEnding) : Prop where
  pc : th.pc = .exiting ∨ th.pc = .terminated
  handlers : th.handlers = []
  result : th.result = .pointer t
  stack : e.Scalar → cr.lua.stack = e.report
  isOpen : th.pending = true ∨ th.announced = true → th.joined = false → cr.closes = 0

/-- How far thread `t` has come. -/
structure Life (t : Nat) (th : Thread) (cr : Created R) (h : History R) : Prop where
  handlers : th.handlers = [] ∨ th.handlers = [t]
  cleaning : ∀ x ∈ th.cleaning, x = t
  result : ∀ p, th.result = .pointer p → p = t
  before : th.pc = .absent ∨ th.pc = .starting →
    h.calls = [] ∧ h.ended = none ∧ th.handlers = []
  starting : th.pc = .starting →
    ∃ G, h.given = some G ∧ copyFunctionAndArgs G.frame G.fnidx = some cr.lua
  called : th.pc ≠ .absent → th.pc ≠ .starting → Called h
  replies : th.pc ≠ .terminated → h.replies = []
  ended : ∀ e, h.ended = some e → Ended t th cr e
  reported : ∀ e, h.ended = some e → e.Scalar → ∀ r ∈ h.replies, r = ⟨.ok e.report, true⟩

namespace Life
variable {t : Nat} {th th' : Thread} {cr cr' : Created R} {h : History R}

/-- Whether the state was misused does not matter. -/
theorem congr (hlife : Life t th cr h) (hlua : cr'.lua = cr.lua)
    (hcloses : cr'.closes = cr.closes) : Life t th cr' h where
  handlers := hlife.handlers
  cleaning := hlife.cleaning
  result := hlife.result
  before := hlife.before
  starting := by
    rw [hlua]
    exact hlife.starting
  called := hlife.called
  replies := hlife.replies
  ended e he := by
    obtain ⟨hpc, hhandlers, hresult, hstack, hopen⟩ := hlife.ended e he
    exact ⟨hpc, hhandlers, hresult, by rwa [hlua], by rwa [hcloses]⟩
  reported := hlife.reported

/-- A thread whose function runs has not ended. -/
theorem not_ended (hlife : Life t th cr h) (hpc : th.pc.inCode = true) : h.ended = none := by
  cases hended : h.ended with
  | none => rfl
  | some e =>
    rcases (hlife.ended e hended).pc with hpc' | hpc' <;> rw [hpc'] at hpc <;> cases hpc

/-- While the function runs, its state may change in any way. -/
theorem setState (hlife : Life t th cr h) (hpc : th.pc.inCode = true) (cr' : Created R) :
    Life t th cr' h where
  handlers := hlife.handlers
  cleaning := hlife.cleaning
  result := hlife.result
  before := hlife.before
  starting hstarting := by
    rw [hstarting] at hpc
    cases hpc
  called := hlife.called
  replies := hlife.replies
  ended e he := by
    rw [hlife.not_ended hpc] at he
    cases he
  reported := hlife.reported

/-- A thread in Lua code enters or leaves a function, or a handler that cleans up. -/
theorem setCode (hlife : Life t th cr h) (hpc : th.pc.inCode = true)
    (hpc' : th'.pc.inCode = true ∨ th'.pc = .exiting)
    (hhandlers : th'.handlers = [] ∨ th'.handlers = [t]) (hcleaning : ∀ x ∈ th'.cleaning, x = t)
    (hresult : ∀ p, th'.result = .pointer p → p = t) : Life t th' cr h := by
  have hcalled : Called h := by
    apply hlife.called
    · intro habsent
      rw [habsent] at hpc
      cases hpc
    · intro hstarting
      rw [hstarting] at hpc
      cases hpc
  have hreplies : h.replies = [] := by
    apply hlife.replies
    intro hterminated
    rw [hterminated] at hpc
    cases hpc
  have hnot := hlife.not_ended hpc
  have hlater : ∀ pc, pc = .absent ∨ pc = .starting → th'.pc ≠ pc := by
    rintro pc hpc₀ rfl
    rcases hpc' with hcode | hexiting
    · rcases hpc₀ with h₀ | h₀ <;> rw [h₀] at hcode <;> cases hcode
    · rw [hexiting] at hpc₀
      rcases hpc₀ with h₀ | h₀ <;> cases h₀
  exact {
    handlers := hhandlers
    cleaning := hcleaning
    result := hresult
    before := fun h₀ => absurd rfl (hlater _ h₀)
    starting := fun h₀ => absurd h₀ (hlater _ (Or.inr rfl))
    called := fun _ _ => hcalled
    replies := fun _ => hreplies
    ended := fun e he => by
      rw [hnot] at he
      cases he
    reported := fun e he => by
      rw [hnot] at he
      cases he }

/-- What does not concern the end of the thread does not matter. -/
theorem relabel (hlife : Life t th cr h) (hpc : th'.pc = th.pc)
    (hhandlers : th'.handlers = th.handlers) (hcleaning : th'.cleaning = th.cleaning)
    (hresult : th'.result = th.result)
    (hopen : th'.pending = true ∨ th'.announced = true → th'.joined = false →
      (th.pending = true ∨ th.announced = true) ∧ th.joined = false) : Life t th' cr h where
  handlers := by
    rw [hhandlers]
    exact hlife.handlers
  cleaning := by
    rw [hcleaning]
    exact hlife.cleaning
  result := by
    rw [hresult]
    exact hlife.result
  before := by
    rw [hpc, hhandlers]
    exact hlife.before
  starting := by
    rw [hpc]
    exact hlife.starting
  called := by
    rw [hpc]
    exact hlife.called
  replies := by
    rw [hpc]
    exact hlife.replies
  ended e he := by
    obtain ⟨hpc', hhandlers', hresult', hstack, hclosed⟩ := hlife.ended e he
    refine ⟨by rwa [hpc], by rw [hhandlers, hhandlers'], by rw [hresult, hresult'], hstack, ?_⟩
    intro hseen hjoined
    obtain ⟨hseen', hjoined'⟩ := hopen hseen hjoined
    exact hclosed hseen' hjoined'
  reported := hlife.reported

/-- A state that no join can reach may be closed. -/
theorem close (hlife : Life t th cr h)
    (hout : th.joined = true ∨ (th.pending = false ∧ th.announced = false))
    (hlua : cr'.lua = cr.lua) : Life t th cr' h where
  handlers := hlife.handlers
  cleaning := hlife.cleaning
  result := hlife.result
  before := hlife.before
  starting := by
    rw [hlua]
    exact hlife.starting
  called := hlife.called
  replies := hlife.replies
  ended e he := by
    obtain ⟨hpc, hhandlers, hresult, hstack, _⟩ := hlife.ended e he
    refine ⟨hpc, hhandlers, hresult, by rwa [hlua], ?_⟩
    intro hseen hjoined
    rcases hout with htrue | ⟨hpending, hannounced⟩
    · rw [htrue] at hjoined
      cases hjoined
    · rw [hpending, hannounced] at hseen
      rcases hseen with h₀ | h₀ <;> cases h₀
  reported := hlife.reported

/-- A number without a thread may get a state, and be given something. -/
theorem of_absent (hlife : Life t th cr h) (hpc : th.pc = .absent) (cr' : Created R)
    (G : Option (Given R)) : Life t th cr' { h with given := G } where
  handlers := hlife.handlers
  cleaning := hlife.cleaning
  result := hlife.result
  before := hlife.before
  starting hstarting := by
    rw [hpc] at hstarting
    cases hstarting
  called habsent := absurd hpc habsent
  replies := hlife.replies
  ended e he := by
    rw [(hlife.before (Or.inl hpc)).2.1] at he
    cases he
  reported := hlife.reported

/-- A thread is started on the state that `create` has filled. -/
theorem start (hlife : Life t th cr h) (hpc : th.pc = .absent) {G : Given R} {l : LuaState R}
    (hcopy : copyFunctionAndArgs G.frame G.fnidx = some l) (creator : Option Nat) :
    Life t (startingThread creator) ⟨l, 0, false⟩ { h with given := some G } := by
  obtain ⟨hcalls, hended, _⟩ := hlife.before (Or.inl hpc)
  have hreplies := hlife.replies (by rw [hpc]; exact Pc.noConfusion)
  exact {
    handlers := Or.inl rfl
    cleaning := fun x hx => by cases hx
    result := fun p hp => by cases hp
    before := fun _ => ⟨hcalls, hended, rfl⟩
    starting := fun _ => ⟨G, rfl, hcopy⟩
    called := fun _ hstarting => absurd rfl hstarting
    replies := fun _ => hreplies
    ended := fun e he => by
      rw [hended] at he
      cases he
    reported := fun e he => by
      rw [hended] at he
      cases he }

/-- `thread_wrapper` calls the function. -/
theorem wrapper (hlife : Life t th cr h) (hpc : th.pc = .starting) :
    Life t { th with pc := .running, handlers := t :: th.handlers } cr
      { h with
        below := (enterCall cr.lua).1
        calls := h.calls ++ (enterCall cr.lua).2.toList } := by
  obtain ⟨hcalls, hended, hhandlers⟩ := hlife.before (Or.inr hpc)
  obtain ⟨G, hgiven, hcopy⟩ := hlife.starting hpc
  obtain ⟨func, args, hstack, hsame⟩ := copyFunctionAndArgs_spec hcopy
  have hcall := enterCall_of_stack hstack
  have hreplies := hlife.replies (by rw [hpc]; exact Pc.noConfusion)
  exact {
    handlers := Or.inr (by rw [hhandlers])
    cleaning := hlife.cleaning
    result := hlife.result
    before := fun h₀ => by rcases h₀ with h₀ | h₀ <;> cases h₀
    starting := fun h₀ => by cases h₀
    called := fun _ _ => by
      refine ⟨by rw [hcall], G, ⟨func, args, cr.lua.closures⟩, hgiven, ?_, hsame⟩
      rw [hcalls, hcall]
      rfl
    replies := fun _ => hreplies
    ended := fun e he => by
      rw [show h.ended = some e from he] at hended
      cases hended
    reported := fun e he => by
      rw [show h.ended = some e from he] at hended
      cases hended }

/-- The function ends: `thread_kfunction` leaves the report on the stack. -/
theorem finish (hlife : Life t th cr h) (hpc : th.pc = .running) (hopen : cr.closes = 0)
    (e : FnEnding) (closures : List (Closure R)) (globals : Nat) :
    Life t
      { th with
        pc := .exiting
        handlers := th.handlers.tail
        result := .pointer t
        ending := .returned }
      { cr with lua := pushStatus ⟨h.below ++ e.values, closures, globals⟩ e.status.toBool }
      { h with ended := some e } := by
  have hcalled : Called h := by
    apply hlife.called <;> rw [hpc] <;> exact Pc.noConfusion
  have htail : th.handlers.tail = [] := by
    rcases hlife.handlers with h₀ | h₀ <;> rw [h₀] <;> rfl
  have hstack : (pushStatus (⟨h.below ++ e.values, closures, globals⟩ : LuaState R)
      e.status.toBool).stack = e.report := by
    rw [pushStatus_stack, hcalled.1]
    rfl
  exact {
    handlers := Or.inl htail
    cleaning := hlife.cleaning
    result := fun p hp => (Result.pointer.inj hp).symm
    before := fun h₀ => by rcases h₀ with h₀ | h₀ <;> cases h₀
    starting := fun h₀ => by cases h₀
    called := fun _ _ => hcalled
    replies := fun _ => hlife.replies (by rw [hpc]; exact Pc.noConfusion)
    ended := fun e' he' => by
      obtain rfl := Option.some.inj he'
      exact ⟨Or.inl rfl, htail, rfl, fun _ => hstack, fun _ _ => hopen⟩
    reported := fun e' _ _ r hr => by
      have hnone := hlife.replies (by rw [hpc]; exact Pc.noConfusion)
      rw [show h.replies = [] from hnone] at hr
      cases hr }

/-- A thread that called `pthread.exit` or was cancelled runs its handler. -/
theorem handler (hlife : Life t th cr h) (hpc : th.pc = .exiting) {x : Nat} {rest : List Nat}
    (hhandlers : th.handlers = x :: rest) :
    Life t { th with pc := .running, cleaning := some x, handlers := rest } cr h := by
  have hx : x = t ∧ rest = [] := by
    rcases hlife.handlers with h₀ | h₀
    · rw [hhandlers] at h₀
      cases h₀
    · exact List.cons.inj (hhandlers.symm.trans h₀)
  obtain ⟨rfl, rfl⟩ := hx
  have hnot : h.ended = none := by
    cases hended : h.ended with
    | none => rfl
    | some e =>
      have hempty := (hlife.ended e hended).handlers
      rw [hhandlers] at hempty
      cases hempty
  have hcalled := hlife.called (by rw [hpc]; exact Pc.noConfusion)
    (by rw [hpc]; exact Pc.noConfusion)
  have hreplies := hlife.replies (by rw [hpc]; exact Pc.noConfusion)
  exact {
    handlers := Or.inl rfl
    cleaning := fun y hy => (Option.some.inj hy).symm
    result := hlife.result
    before := fun h₀ => by rcases h₀ with h₀ | h₀ <;> cases h₀
    starting := fun h₀ => by cases h₀
    called := fun _ _ => hcalled
    replies := fun _ => hreplies
    ended := fun e he => by
      rw [hnot] at he
      cases he
    reported := fun e he => by
      rw [hnot] at he
      cases he }

/-- The last handler is gone. -/
theorem terminate (hlife : Life t th cr h) (hpc : th.pc = .exiting) :
    Life t { th with pc := .terminated } cr h where
  handlers := hlife.handlers
  cleaning := hlife.cleaning
  result := hlife.result
  before h₀ := by rcases h₀ with h₀ | h₀ <;> cases h₀
  starting h₀ := by cases h₀
  called _ _ := hlife.called (by rw [hpc]; exact Pc.noConfusion) (by rw [hpc]; exact Pc.noConfusion)
  replies h₀ := absurd rfl h₀
  ended e he := by
    obtain ⟨_, hhandlers, hresult, hstack, hopen⟩ := hlife.ended e he
    exact ⟨Or.inr rfl, hhandlers, hresult, hstack, hopen⟩
  reported e _ _ r hr := by
    rw [hlife.replies (by rw [hpc]; exact Pc.noConfusion)] at hr
    cases hr

/-- A join of a thread that has ended reads the report. -/
theorem reply (hlife : Life t th cr h) (hpc : th.pc = .terminated)
    (hcloses : cr'.closes = cr.closes)
    (hlua : ∀ e, h.ended = some e → e.Scalar → cr'.lua = cr.lua) (r : Reply)
    (hr : ∀ e, h.ended = some e → e.Scalar → r = ⟨.ok e.report, true⟩) :
    Life t th cr' { h with replies := h.replies ++ [r] } where
  handlers := hlife.handlers
  cleaning := hlife.cleaning
  result := hlife.result
  before := hlife.before
  starting hstarting := by
    rw [hpc] at hstarting
    cases hstarting
  called := hlife.called
  replies h₀ := absurd hpc h₀
  ended e he := by
    obtain ⟨hpc', hhandlers, hresult, hstack, hopen⟩ := hlife.ended e he
    refine ⟨hpc', hhandlers, hresult, ?_, by rwa [hcloses]⟩
    intro hscalar
    rw [hlua e he hscalar]
    exact hstack hscalar
  reported e he hscalar r' hr' := by
    rcases List.mem_append.mp hr' with hold | hnew
    · exact hlife.reported e he hscalar r' hold
    · rw [List.mem_singleton.mp hnew]
      exact hr e he hscalar

end Life

/-! ## The steps -/

namespace State
variable (s : State R)

@[simp] theorem touch_threads (x : Nat) : (s.touch x).threads = s.threads := rfl

@[simp] theorem touchCaller_threads (c : Option Nat) : (s.touchCaller c).threads = s.threads := by
  cases c <;> rfl

@[simp] theorem touchCaller_count (c : Option Nat) : (s.touchCaller c).count = s.count := by
  cases c <;> rfl

@[simp] theorem touch_lua (x t : Nat) : ((s.touch x).states t).lua = (s.states t).lua := by
  by_cases ht : t = x
  · subst ht
    simp [touch]
  · simp [touch, ht]

end State

/-- Every thread has a life, and the numbers that are left have no thread. -/
structure Lives (s : State R) (hist : Nat → History R) : Prop where
  lives : ∀ t, Life t (s.threads t) (s.states t) (hist t)
  fresh : ∀ t, s.count ≤ t → (s.threads t).pc = .absent

namespace Lives
variable {s : State R} {hist : Nat → History R} (hs : Lives s hist)
include hs

theorem lt_count {t : Nat} (hpc : (s.threads t).pc ≠ .absent) : t < s.count := by
  by_contra hle
  exact hpc (hs.fresh t (Nat.le_of_not_lt hle))

/-- A step that concerns one thread, its state and its history. -/
theorem set {t : Nat} {th : Thread} {cr : Created R} {h : History R}
    (hpc : (s.threads t).pc = .absent → th.pc = .absent) (hlife : Life t th cr h) :
    Lives ((s.setState t cr).setThread t th) (Function.update hist t h) where
  lives t' := by
    by_cases ht : t' = t
    · subst ht
      simpa using hlife
    · simpa [ht] using hs.lives t'
  fresh t' ht' := by
    by_cases ht : t' = t
    · subst ht
      simpa using hpc (hs.fresh t' ht')
    · simpa [ht] using hs.fresh t' ht'

theorem setHistory {t : Nat} {th : Thread} {h : History R}
    (hpc : (s.threads t).pc = .absent → th.pc = .absent)
    (hlife : Life t th (s.states t) h) : Lives (s.setThread t th) (Function.update hist t h) := by
  have hset := hs.set hpc hlife
  have hsame : s.setState t (s.states t) = s := by simp [State.setState]
  rwa [hsame] at hset

theorem setThread {t : Nat} {th : Thread} (hpc : (s.threads t).pc = .absent → th.pc = .absent)
    (hlife : Life t th (s.states t) (hist t)) : Lives (s.setThread t th) hist := by
  have hset := hs.setHistory hpc hlife
  rwa [Function.update_eq_self] at hset

theorem setBoth {t : Nat} {th : Thread} {cr : Created R}
    (hpc : (s.threads t).pc = .absent → th.pc = .absent) (hlife : Life t th cr (hist t)) :
    Lives ((s.setState t cr).setThread t th) hist := by
  have hset := hs.set hpc hlife
  rwa [Function.update_eq_self] at hset

theorem setState {t : Nat} {cr : Created R} (hlife : Life t (s.threads t) cr (hist t)) :
    Lives (s.setState t cr) hist where
  lives t' := by
    by_cases ht : t' = t
    · subst ht
      simpa using hlife
    · simpa [ht] using hs.lives t'
  fresh t' ht' := hs.fresh t' ht'

theorem touch (x : Nat) : Lives (s.touch x) hist :=
  hs.setState ((hs.lives x).congr rfl rfl)

theorem touchCaller (c : Option Nat) : Lives (s.touchCaller c) hist := by
  cases c with
  | none => exact hs
  | some x => exact hs.touch x

theorem closeState {x : Nat}
    (hlife : ∀ cr' : Created R, cr'.lua = (s.states x).lua →
      Life x (s.threads x) cr' (hist x)) : Lives (s.closeState x) hist := by
  refine (hs.touch x).setState ?_
  exact hlife _ (by simp)

/-- A created state that gets no thread. -/
theorem newCreated (G : Given R) (cr : Created R) :
    Lives { s.setState s.count cr with count := s.count + 1 }
      (Function.update hist s.count { hist s.count with given := some G }) where
  lives t := by
    by_cases ht : t = s.count
    · subst ht
      simpa using (hs.lives s.count).of_absent (hs.fresh _ (le_refl _)) cr (some G)
    · simpa [ht] using hs.lives t
  fresh t ht := hs.fresh t (by simp only at ht; omega)

/-- A new state whose thread has been started. -/
theorem start {G : Given R} {l : LuaState R}
    (hcopy : copyFunctionAndArgs G.frame G.fnidx = some l) (c : Option Nat) :
    Lives ((s.newCreated l).setThread s.count (startingThread c))
      (Function.update hist s.count { hist s.count with given := some G }) where
  lives t := by
    by_cases ht : t = s.count
    · subst ht
      simpa [State.newCreated] using
        (hs.lives s.count).start (hs.fresh _ (le_refl _)) hcopy c
    · simpa [ht, State.newCreated] using hs.lives t
  fresh t ht := by
    have hlt : s.count + 1 ≤ t := ht
    have hne : t ≠ s.count := by omega
    simpa [hne, State.newCreated] using hs.fresh t (by omega)

/-- A thread in Lua code enters or leaves `l_pthread_create`. -/
theorem setInCode {t : Nat} {pc : Pc} (hpc : (s.threads t).pc.inCode = true)
    (hpc' : pc.inCode = true) : Lives (s.setThread t { s.threads t with pc := pc }) hist := by
  have hlife := hs.lives t
  refine hs.setThread ?_ (hlife.setCode hpc (Or.inl hpc') hlife.handlers hlife.cleaning
    hlife.result)
  intro habsent
  rw [habsent] at hpc
  cases hpc

/-- What is given to a call of `create` that makes no state is of no consequence. -/
theorem give (G : Given R) :
    Lives s (Function.update hist s.count { hist s.count with given := some G }) where
  lives t := by
    by_cases ht : t = s.count
    · subst ht
      simpa using (hs.lives s.count).of_absent (hs.fresh _ (le_refl _)) _ (some G)
    · simpa [ht] using hs.lives t
  fresh := hs.fresh

theorem create (c : Option Nat) (G : Given R) (outcome : CreateOutcome) (hc : s.Active c) :
    Lives (s.create c G.frame G.fnidx outcome)
      (Function.update hist s.count { hist s.count with given := some G }) := by
  have hs₀ := hs.touchCaller c
  have hcount : (s.touchCaller c).count = s.count := s.touchCaller_count c
  -- the state that was made is closed again
  have hclosed : ∀ l, Lives (((s.touchCaller c).newCreated l).closeState (s.touchCaller c).count)
      (Function.update hist (s.touchCaller c).count
        { hist (s.touchCaller c).count with given := some G }) := by
    intro l
    refine (hs₀.newCreated G ⟨l, 0, false⟩).closeState ?_
    intro cr' _
    simpa using (hs₀.lives _).of_absent (hs₀.fresh _ (le_refl _)) cr' (some G)
  rw [← hcount]
  cases hcopy : copyFunctionAndArgs G.frame G.fnidx with
  | none =>
    cases outcome with
    | newstateFails => exact hs₀.give G
    | mallocFails | startFails | started =>
      simp only [State.create, hcopy, ← hcount]
      exact hclosed newState
  | some l =>
    cases outcome with
    | newstateFails => exact hs₀.give G
    | startFails =>
      simp only [State.create, hcopy, ← hcount]
      exact hclosed l
    | mallocFails =>
      simp only [State.create, hcopy]
      have hnew := hs₀.newCreated G ⟨l, 0, false⟩
      cases c with
      | none => exact hnew
      | some c =>
        -- the caller's own state is closed here, while its function runs
        have hrunning : (s.threads c).pc.inCode = true := by
          rw [show (s.threads c).pc = .running from hc]
          rfl
        refine (hnew.closeState ?_).touch c
        intro cr' _
        exact (hnew.lives c).setState hrunning cr'
    | started =>
      have hstarted := hs₀.start hcopy c
      simp only [State.create, hcopy, ← hcount]
      cases c with
      | none => exact hstarted
      | some c =>
        have hrunning : (s.threads c).pc = .running := hc
        have hne : c ≠ (s.touchCaller (some c)).count := by
          have := hs.lt_count (t := c) (by rw [hrunning]; exact Pc.noConfusion)
          rw [hcount]
          omega
        refine hstarted.setInCode ?_ rfl
        rw [State.setThread_threads_of_ne _ _ _ hne]
        change (s.threads c).pc.inCode = true
        rw [hrunning]
        rfl

/-- What is left of `create`: the new thread is announced, or its state closed. -/
theorem createReturn (c : Option Nat) (t : Nat) (attrDestroyed : Bool)
    (hpending : (s.threads t).pending = true) (hc : ∀ x ∈ c, (s.threads x).pc = .creating t) :
    Lives (s.createReturn c t attrDestroyed) hist := by
  have hs₁ := hs.touchCaller c
  -- the caller is back in Lua code
  let s₂ : State R :=
    match c with
    | some c => (s.touchCaller (some c)).setThread c
        { (s.touchCaller (some c)).threads c with pc := .running }
    | none => s.touchCaller none
  have hs₂ : Lives s₂ hist ∧ (s₂.threads t).pending = true := by
    cases c with
    | none => exact ⟨hs₁, hpending⟩
    | some c =>
      have hcreating : ((s.touchCaller (some c)).threads c).pc.inCode = true := by
        rw [State.touchCaller_threads, hc c rfl]
        rfl
      refine ⟨hs₁.setInCode hcreating rfl, ?_⟩
      by_cases ht : t = c
      · subst ht
        simpa [s₂] using hpending
      · simpa [s₂, ht] using hpending
  obtain ⟨hs₂, hpending₂⟩ := hs₂
  have hs₃ : Lives (s₂.setThread t
      { s₂.threads t with pending := false, announced := attrDestroyed }) hist := by
    refine hs₂.setThread (fun habsent => habsent) ((hs₂.lives t).relabel rfl rfl rfl rfl ?_)
    intro _ hjoined
    exact ⟨Or.inl hpending₂, hjoined⟩
  have hreturn : s.createReturn c t attrDestroyed =
      if attrDestroyed then s₂.setThread t
        { s₂.threads t with pending := false, announced := attrDestroyed }
      else (s₂.setThread t
        { s₂.threads t with pending := false, announced := attrDestroyed }).closeState t := by
    cases c <;> rfl
  rw [hreturn]
  cases attrDestroyed with
  | true => exact hs₃
  | false =>
    refine hs₃.closeState ?_
    intro cr' hlua
    exact (hs₃.lives t).close (Or.inr (by simp)) hlua

/-- Taking the result of a thread reads its report, if it has ended. -/
theorem takeResult {c : Option Nat} {t : Nat} (L : LuaState R) (hc : s.Active c)
    (hpc : (s.threads t).pc = .terminated) (hannounced : (s.threads t).announced = true)
    (hjoined : (s.threads t).joined = false) :
    Lives (s.takeResult c t L)
      (Function.update hist t
        { hist t with replies := (hist t).replies ++ [s.reply t L] }) := by
  have hlife := hs.lives t
  have hreply : ∀ e, (hist t).ended = some e → e.Scalar →
      s.reply t L = ⟨.ok e.report, true⟩ := by
    intro e he hscalar
    obtain ⟨_, _, hresult, hstack, hopen⟩ := hlife.ended e he
    exact State.reply_of_report L hresult (hopen (Or.inr hannounced) hjoined) hscalar
      (hstack hscalar)
  have hset : ∀ cr : Created R, cr.closes = (s.states t).closes →
      (∀ e, (hist t).ended = some e → e.Scalar → cr.lua = (s.states t).lua) →
      Lives (s.setState t cr) (Function.update hist t
        { hist t with replies := (hist t).replies ++ [s.reply t L] }) := by
    intro cr hcloses hlua
    have hlives := hs.set (fun habsent => habsent)
      (hlife.reply hpc hcloses hlua (s.reply t L) hreply)
    have hsame : (s.setState t cr).setThread t (s.threads t) = s.setState t cr :=
      congrArg (fun ths => { s.setState t cr with threads := ths }) (Function.update_eq_self ..)
    rwa [hsame] at hlives
  cases hresult : (s.threads t).result with
  | canceled =>
    simp only [State.takeResult, hresult]
    have hsame := hset (s.states t) rfl (fun _ _ _ => rfl)
    rw [show s.setState t (s.states t) = s by simp [State.setState]] at hsame
    exact hsame.touchCaller c
  | pointer p =>
    obtain rfl := hlife.result p hresult
    rcases hcollect : collect (s.states p).lua L with ⟨report, l', L'⟩
    -- the state that is read stays as it was
    have hlua : ∀ e, (hist p).ended = some e → e.Scalar → l' = (s.states p).lua := by
      intro e he hscalar
      obtain ⟨_, _, _, hstack, _⟩ := hlife.ended e he
      have hne : (s.states p).lua.stack ≠ [] := by
        rw [hstack hscalar]
        exact List.cons_ne_nil _ _
      obtain ⟨L'', hcollect', _⟩ := collect_of_scalars L hne (hstack hscalar ▸ hscalar.report)
      rw [hcollect] at hcollect'
      exact (Prod.mk.inj (Prod.mk.inj hcollect').2).1
    have hread : Lives ((s.touch p).setLua p l') (Function.update hist p
        { hist p with replies := (hist p).replies ++ [s.reply p L] }) := by
      have hstate : (s.touch p).setLua p l' =
          s.setState p { (s.touch p).states p with lua := l' } := by
        simp [State.setLua, State.touch, State.setState]
      rw [hstate]
      exact hset _ (by simp) hlua
    simp only [State.takeResult, hresult, hcollect]
    cases c with
    | none => exact hread
    | some c =>
      have hrunning : (s.threads c).pc.inCode = true := by
        rw [show (s.threads c).pc = .running from hc]
        rfl
      have hcaller := hread.touch c
      exact hcaller.setState ((hcaller.lives c).setState hrunning _)

/-- The one join closes the state. -/
theorem join {c : Option Nat} {t : Nat} (L : LuaState R) (hc : s.Active c)
    (hpc : (s.threads t).pc = .terminated) (hannounced : (s.threads t).announced = true)
    (hjoined : (s.threads t).joined = false) :
    Lives (s.join c t L)
      (Function.update hist t
        { hist t with replies := (hist t).replies ++ [s.reply t L] }) := by
  have htaken := hs.takeResult L hc hpc hannounced hjoined
  have hout : Lives ((s.takeResult c t L).setThread t
      { (s.takeResult c t L).threads t with joined := true })
      (Function.update hist t
        { hist t with replies := (hist t).replies ++ [s.reply t L] }) := by
    refine htaken.setThread (fun habsent => habsent)
      ((htaken.lives t).relabel rfl rfl rfl rfl ?_)
    intro _ hnot
    cases hnot
  simp only [State.join]
  cases hresult : (s.threads t).result with
  | canceled => exact hout
  | pointer p =>
    obtain rfl := (hs.lives t).result p hresult
    refine hout.closeState ?_
    intro cr' hlua
    exact (hout.lives p).close (Or.inl (by simp)) hlua

end Lives

/-- **Every step keeps the lives of the threads.** -/
theorem Lives.next {s : Observed R} (hs : Lives s.base s.history) (e : ObservedEvent R)
    (he : s.Enabled e) : Lives (s.next e).base (s.next e).history := by
  obtain ⟨henabled, hclause⟩ := he
  have inCode : ∀ t, (s.base.threads t).pc = .running → (s.base.threads t).pc.inCode = true := by
    intro t hpc
    rw [hpc]
    rfl
  have notAbsent : ∀ t, (s.base.threads t).pc = .running →
      ∀ {pc}, (s.base.threads t).pc = .absent → pc = Pc.absent := by
    intro t hpc pc habsent
    rw [hpc] at habsent
    cases habsent
  cases e with
  | create c G outcome => exact hs.create c G outcome henabled
  | finish t e closures =>
    obtain ⟨hpc, _⟩ := henabled
    have htouched := hs.touch t
    refine htouched.set (fun habsent => ?_) ((htouched.lives t).finish hpc ?_ e closures _)
    · rw [State.touch_threads, hpc] at habsent
      cases habsent
    · rw [State.touch_closes]
      exact hclause
  | other e =>
    cases e with
    | create | kfunction => exact hclause.elim
    | createReturn c t attrDestroyed =>
      exact hs.createReturn c t attrDestroyed henabled.1 henabled.2.2
    | wrapper t =>
      have hpc : (s.base.threads t).pc = .starting := henabled
      have htouched := hs.touch t
      have hlife := (htouched.lives t).wrapper hpc
      rw [State.touch_lua] at hlife
      refine htouched.setHistory (fun habsent => ?_) hlife
      rw [State.touch_threads, hpc] at habsent
      cases habsent
    | run t l =>
      have htouched := hs.touch t
      exact htouched.setState ((htouched.lives t).setState (inCode t henabled) _)
    | exit t l =>
      have hcode := inCode t henabled.1
      have htouched := hs.touch t
      have hlife := htouched.lives t
      refine htouched.setBoth (notAbsent t henabled.1) ((hlife.setState hcode _).setCode hcode
        (Or.inr rfl) hlife.handlers hlife.cleaning ?_)
      intro p hp
      exact (Result.pointer.inj hp).symm
    | cancel t =>
      exact hs.setThread (fun habsent => habsent) ((hs.lives t).relabel rfl rfl rfl rfl
        (fun hseen hjoined => ⟨hseen, hjoined⟩))
    | act t =>
      have hlife := hs.lives t
      refine hs.setThread (notAbsent t henabled.1) (hlife.setCode (inCode t henabled.1)
        (Or.inr rfl) hlife.handlers hlife.cleaning ?_)
      intro p hp
      cases hp
    | handler t =>
      obtain ⟨hpc, hnonempty⟩ := henabled
      cases hhandlers : (s.base.threads t).handlers with
      | nil => exact absurd hhandlers hnonempty
      | cons x rest =>
        have htouched := hs.touch x
        have hlives := htouched.setThread (fun habsent => by
            rw [State.touch_threads, hpc] at habsent
            cases habsent) ((htouched.lives t).handler hpc hhandlers)
        simp only [Observed.next, Observed.event, Observed.record, Threads.next, hhandlers]
        exact hlives
    | close t =>
      obtain ⟨hpc, hsome⟩ := henabled
      cases hcleaning : (s.base.threads t).cleaning with
      | none => exact absurd hcleaning hsome
      | some x =>
        obtain rfl := (hs.lives t).cleaning x hcleaning
        have hclosed : Lives (s.base.closeState x) s.history :=
          hs.closeState (fun cr' _ => (hs.lives x).setState (inCode x hpc) cr')
        have hold := hclosed.lives x
        have hlife : Life x { s.base.threads x with pc := .exiting, cleaning := none }
            ((s.base.closeState x).states x) (s.history x) :=
          hold.setCode (inCode x hpc) (Or.inr rfl) hold.handlers (fun y hy => by cases hy)
            hold.result
        simp only [Observed.next, Observed.event, Observed.record, Threads.next, hcleaning]
        exact hclosed.setThread (notAbsent x hpc) hlife
    | terminate t =>
      obtain ⟨hpc, _⟩ := henabled
      exact hs.setThread (fun habsent => by rw [hpc] at habsent; cases habsent)
        ((hs.lives t).terminate hpc)
    | peekjoin c t L =>
      obtain ⟨hc, hpc, hannounced, hjoined, _⟩ := henabled
      exact hs.takeResult L hc hpc hannounced hjoined
    | join c t L =>
      obtain ⟨hc, hpc, hannounced, hjoined, _⟩ := henabled
      exact hs.join L hc hpc hannounced hjoined
    | detach c t =>
      have htouched := hs.touchCaller c
      have hlife : Life t { s.base.threads t with detached := true }
          ((s.base.touchCaller c).states t) (s.history t) := by
        refine (htouched.lives t).relabel ?_ ?_ ?_ ?_ ?_ <;> rw [State.touchCaller_threads]
        exact fun hseen hjoined => ⟨hseen, hjoined⟩
      exact htouched.setThread (by simp) hlife

theorem lives_init : Lives (observed R).init.base (observed R).init.history where
  lives t := by
    refine ⟨Or.inl rfl, ?_, ?_, ?_, ?_, ?_, ?_, ?_, ?_⟩
    · intro x hx
      cases hx
    · intro p hp
      cases hp
    · intro _
      exact ⟨rfl, rfl, rfl⟩
    · intro hstarting
      cases hstarting
    · intro habsent
      exact absurd rfl habsent
    · intro _
      rfl
    · intro e he
      cases he
    · intro e he
      cases he
  fresh t _ := rfl

theorem reachable_lives {s : Observed R} (h : (observed R).Reachable s) :
    Lives s.base s.history := by
  induction h with
  | init => exact lives_init
  | step _ _ he ih => exact ih.next _ he

/-! ## The results of a thread -/

/-- What every join of a thread is to return whose function has ended: `true` and its
results, or `false` and its error. -/
def FnEnding.promised : FnEnding → List Value
  | returned values => .boolean true :: values
  | raised err => [.boolean false, err]
  | yielded => [.boolean false, yieldMessage]

theorem FnEnding.report_eq (e : FnEnding) : e.report = e.promised := by
  cases e <;> rfl

/-- **The results of a thread reach every joiner.**  When the function of a thread has
ended with scalars, it has been called once, with a copy of the function and, if they
are scalars, exactly the arguments that were given to `create`; and every join so far,
however many peeks there were, has returned the status and exactly the results or the
error, which it read from a state that was open. -/
theorem thread_results_reach_joiners (s : Observed R) (h : (observed R).Reachable s) (t : Nat)
    (e : FnEnding) (he : (s.history t).ended = some e) (hscalar : e.Scalar) :
    ∃ G call, (s.history t).given = some G ∧ (s.history t).calls = [call] ∧
      SameValue G.closures call.closures G.func call.func ∧
      ((∀ v ∈ G.args, v.isScalar = true) → call.args = G.args) ∧
      ∀ r ∈ (s.history t).replies, r = ⟨.ok e.promised, true⟩ := by
  have hlife := (reachable_lives h).lives t
  obtain ⟨hpc, _⟩ := hlife.ended e he
  have hcalled : Called (s.history t) := by
    apply hlife.called <;> rcases hpc with hpc | hpc <;> rw [hpc] <;> exact Pc.noConfusion
  obtain ⟨_, G, call, hgiven, hcalls, hsame⟩ := hcalled
  obtain ⟨hfunc, hargs⟩ := List.forall₂_cons.mp hsame
  refine ⟨G, call, hgiven, hcalls, hfunc, fun hscalars => eq_of_same_scalars hargs hscalars, ?_⟩
  intro r hr
  rw [← e.report_eq]
  exact hlife.reported e he hscalar r hr

/-- A function and an argument. -/
def sampleGiven : Given sampleRuntime := ⟨[], .function 0, [.integer 5], [plainClosure], 0⟩

/-- A thread is created, its function returns an integer and nil, and it is peeked at
twice and joined. -/
def resultEvents : List (ObservedEvent sampleRuntime) :=
  [.create none sampleGiven .started, .other (.createReturn none 0 true), .other (.wrapper 0),
    .finish 0 (.returned [.integer 7, .nil]) [], .other (.terminate 0),
    .other (.peekjoin none 0 emptyState), .other (.peekjoin none 0 emptyState),
    .other (.join none 0 emptyState)]

theorem thread_results_reach_joiners_three :
    ∃ s, (observed sampleRuntime).run resultEvents = some s ∧
      (s.history 0).replies.length = 3 ∧
      ∀ r ∈ (s.history 0).replies,
        r = ⟨.ok [.boolean true, .integer 7, .nil], true⟩ := by
  have hrun : ((observed sampleRuntime).run resultEvents).map
      (fun s => ((s.history 0).ended, (s.history 0).replies.length)) =
        some (some (.returned [.integer 7, .nil]), 3) := by
    decide
  obtain ⟨s, hs, hfacts⟩ := Option.map_eq_some_iff.mp hrun
  obtain ⟨hended, hlength⟩ := Prod.mk.inj hfacts
  have hscalar : (FnEnding.returned [.integer 7, .nil]).Scalar := by
    unfold FnEnding.Scalar
    decide
  obtain ⟨_, _, _, _, _, _, hreplies⟩ :=
    thread_results_reach_joiners s (System.run_reachable hs) 0 _ hended hscalar
  exact ⟨s, hs, hlength, hreplies⟩

end Threads
end FluaLibs
