import FluaLibs.LuaState
import Mathlib.Logic.Function.Basic

/-! # Once objects

`once(func, ...)` calls `pthread_once` with a function without arguments,
`once_wrapper`, which finds the Lua thread to work on in thread-specific data: the one
that loaded the module.  It calls the value at the bottom of the current frame of that
Lua thread with all values above it.

If that is the Lua thread that called `once`, its frame has the once object itself at
the bottom: calling it means calling `once` again, with a control that is in progress,
and `pthread_once` waits for ever.  If it is another one, what is called is whatever
its frame has at the bottom, and no results arrive in the frame of the caller.  So no
call ever returns (`onceCall_not_returned`).

Values that are called are Lua code; what a call leads to is a parameter, which may
depend on all earlier calls.
-/
namespace FluaLibs
namespace Once

/-- A call of a value. -/
structure Call where
  func : Value
  args : List Value
  deriving DecidableEq

/-- What calling a value leads to, after the calls there have been: its results, or the
error it raises. -/
abbrev Program := List Call → Value → List Value → Except Value (List Value)

/-- The state of a `pthread_once_t`. -/
inductive Control where
  | neverDone
  | inProgress
  | done
  deriving DecidableEq

/-- The control of the once object, the current frame of each Lua thread, and the calls
that `once_wrapper` has made. -/
structure State where
  control : Control
  frames : Nat → List Value
  log : List Call

/-- How a call ends; only the first way is an end for Lua. -/
inductive Outcome where
  | returned (values : List Value)
  | blocked
  | aborted
  | undefined
  deriving DecidableEq

/-- The once object. -/
def onceObject : Value := .userdata 0

def State.setFrame (s : State) (c : Nat) (frame : List Value) : State :=
  { s with frames := Function.update s.frames c frame }

/-! ## The code -/

/-- `once_wrapper`, on the Lua thread `loader`.  `call` is `l_pthread_once_call` on a Lua
thread, which the once object has as its `__call`.  The outcome is the one of a nested
call that does not return. -/
def onceWrapper (call : State → Nat → Option (Outcome × State)) (prog : Program) (loader : Nat)
    (s : State) : Option (Outcome × State) :=
  match s.frames loader with
  | [] =>
    -- a negative number of arguments
    some (.undefined, s)
  | func :: args =>
    if func = onceObject then
      match call (s.setFrame loader (func :: args)) loader with
      | some (.returned values, s') =>
        some (.returned [], s'.setFrame loader (values ++ [.boolean true]))
      | result => result
    else
      let s' : State := { s with log := s.log ++ [⟨func, args⟩] }
      match prog s.log func args with
      | .ok values => some (.returned [], s'.setFrame loader (values ++ [.boolean true]))
      | .error err => some (.returned [], s'.setFrame loader [err, .boolean false])

/-- `l_pthread_once_call` after `pthread_once` has returned. -/
def onceResults (s : State) (c : Nat) (top : Nat) : Outcome × State :=
  let nresults : Int := (s.frames c).length - top
  if 0 < nresults then
    -- move status to the front
    let frame := (s.frames c).dropLast.insertIdx top ((s.frames c).getLast?.getD .nil)
    (.returned (frame.drop (frame.length - nresults.toNat)), s.setFrame c frame)
  else (.aborted, s)

/-- `l_pthread_once_call` on the Lua thread `c`.  The first argument bounds the nesting of
calls; `none` is never reached when it is 2 or more. -/
def onceCall (prog : Program) (loader : Nat) : Nat → State → Nat → Option (Outcome × State)
  | 0, _, _ => none
  | depth + 1, s, c =>
    let top := (s.frames c).length
    match s.control with
    | .done => some (onceResults s c top)
    | .inProgress => some (.blocked, s)
    | .neverDone =>
      match onceWrapper (onceCall prog loader depth) prog loader { s with control := .inProgress }
      with
      | some (.returned _, s') => some (onceResults { s' with control := .done } c top)
      | result => result

/-! ## Calls from Lua -/

/-- A call of `once` with a function and arguments, from a Lua thread, and the frames that
the other Lua threads have at the time. -/
structure Invocation where
  caller : Nat
  func : Value
  args : List Value
  frames : Nat → List Value

def Invocation.frame (i : Invocation) : List Value := onceObject :: i.func :: i.args

/-- The state in which `l_pthread_once_call` starts. -/
def Invocation.enter (i : Invocation) (s : State) : State :=
  { s with frames := Function.update i.frames i.caller i.frame }

/-- The calls one after the other, as far as they come, each with its end and the state
then. -/
def run (prog : Program) (loader depth : Nat) : State → List Invocation → List (Outcome × State)
  | _, [] => []
  | s, i :: is =>
    match onceCall prog loader depth (i.enter s) i.caller with
    | some (.returned values, s') => (.returned values, s') :: run prog loader depth s' is
    | some result => [result]
    | none => []

/-- The status and what follows it. -/
def statusOutcome : Except Value (List Value) → Outcome
  | .ok values => .returned (.boolean true :: values)
  | .error err => .returned [.boolean false, err]

/-- What the calls are to do with an object on which `once` has not been called: the
first calls its function once, with its arguments, and returns the status and the
results or the error; every later one calls nothing and returns. -/
structure Conforms (prog : Program) (loader depth : Nat) (s : State) (is : List Invocation) :
    Prop where
  all : (run prog loader depth s is).length = is.length
  first : ∀ i ∈ is.head?, ∀ r ∈ (run prog loader depth s is).head?,
    r.1 = statusOutcome (prog s.log i.func i.args) ∧ r.2.log = s.log ++ [⟨i.func, i.args⟩]
  later : ∀ r ∈ (run prog loader depth s is).head?,
    ∀ r' ∈ (run prog loader depth s is).tail,
      (∃ values, r'.1 = .returned values) ∧ r'.2.log = r.2.log

/-! ## No call returns -/

section Calls
variable (prog : Program) (loader depth : Nat) (s : State) (c : Nat)

/-- While the control is in progress `pthread_once` waits. -/
theorem onceCall_inProgress (h : s.control = .inProgress) :
    onceCall prog loader (depth + 1) s c = some (.blocked, s) := by
  simp only [onceCall, h]

/-- A function that leaves the caller's frame as it was returns no results, which is
asserted not to happen. -/
theorem onceResults_same {top : Nat} (h : (s.frames c).length = top) :
    onceResults s c top = (.aborted, s) := by
  have hnone : ¬ (0 : Int) < (s.frames c).length - top := by omega
  simp only [onceResults, hnone, ite_false]

/-- Once the control is done nothing is called, and nothing is returned. -/
theorem onceCall_done (h : s.control = .done) :
    onceCall prog loader (depth + 1) s c = some (.aborted, s) := by
  simp only [onceCall, h]
  rw [onceResults_same s c rfl]

/-- `once_wrapper` works on the frame of `loader` alone. -/
theorem onceWrapper_frames (h : s.control = .inProgress) (hc : c ≠ loader) :
    ∃ o s', onceWrapper (onceCall prog loader (depth + 1)) prog loader s = some (o, s') ∧
      s'.frames c = s.frames c := by
  cases hframe : s.frames loader with
  | nil => exact ⟨.undefined, s, by simp only [onceWrapper, hframe], rfl⟩
  | cons func args =>
    by_cases hfunc : func = onceObject
    · have hnested := onceCall_inProgress prog loader depth
        (s.setFrame loader (func :: args)) loader h
      refine ⟨.blocked, s.setFrame loader (func :: args), ?_, ?_⟩
      · simp only [onceWrapper, hframe, hfunc, ite_true]
        rw [hfunc] at hnested
        rw [hnested]
      · exact Function.update_of_ne hc ..
    · let s' : State := { s with log := s.log ++ [⟨func, args⟩] }
      cases hresult : prog s.log func args with
      | ok values =>
        refine ⟨.returned [], s'.setFrame loader (values ++ [.boolean true]), ?_, ?_⟩
        · simp only [onceWrapper, hframe, hfunc, ite_false, hresult, s']
        · exact Function.update_of_ne hc ..
      | error err =>
        refine ⟨.returned [], s'.setFrame loader [err, .boolean false], ?_, ?_⟩
        · simp only [onceWrapper, hframe, hfunc, ite_false, hresult, s']
        · exact Function.update_of_ne hc ..

/-- The Lua thread that loaded the module calls the once object again. -/
theorem onceCall_loader {rest : List Value} (h : s.control = .neverDone)
    (hframe : s.frames loader = onceObject :: rest) :
    ∃ s', onceCall prog loader (depth + 2) s loader = some (.blocked, s') := by
  let s₁ : State := { s with control := .inProgress }
  have hnested := onceCall_inProgress prog loader depth
    (s₁.setFrame loader (onceObject :: rest)) loader rfl
  have hwrapper : onceWrapper (onceCall prog loader (depth + 1)) prog loader s₁ =
      some (.blocked, s₁.setFrame loader (onceObject :: rest)) := by
    have hframe₁ : s₁.frames loader = onceObject :: rest := hframe
    simp only [onceWrapper, hframe₁, ite_true]
    rw [hnested]
  refine ⟨s₁.setFrame loader (onceObject :: rest), ?_⟩
  rw [onceCall]
  simp only [h]
  rw [show ({ s with control := .inProgress } : State) = s₁ from rfl, hwrapper]

/-- **No call of `once` returns**, whoever makes it, with whatever arguments and in
whatever state the control is. -/
theorem onceCall_not_returned {rest : List Value} (hframe : s.frames c = onceObject :: rest) :
    ∃ o s', onceCall prog loader (depth + 2) s c = some (o, s') ∧
      ∀ values, o ≠ .returned values := by
  cases hcontrol : s.control with
  | done => exact ⟨_, _, onceCall_done prog loader (depth + 1) s c hcontrol, fun _ h => by cases h⟩
  | inProgress =>
    exact ⟨_, _, onceCall_inProgress prog loader (depth + 1) s c hcontrol, fun _ h => by cases h⟩
  | neverDone =>
    by_cases hc : c = loader
    · subst hc
      obtain ⟨s', hblocked⟩ := onceCall_loader prog c depth s hcontrol hframe
      exact ⟨_, _, hblocked, fun _ h => by cases h⟩
    · obtain ⟨o, s', hwrapper, hsame⟩ :=
        onceWrapper_frames prog loader depth { s with control := .inProgress } c rfl hc
      by_cases hreturned : ∃ values, o = .returned values
      · obtain ⟨values, rfl⟩ := hreturned
        have hlength : (({ s' with control := .done } : State).frames c).length =
            (s.frames c).length := congrArg List.length hsame
        refine ⟨.aborted, { s' with control := .done }, ?_, fun _ h => by cases h⟩
        rw [onceCall]
        simp only [hcontrol, hwrapper, onceResults_same _ c hlength]
      · refine ⟨o, s', ?_, fun values h => hreturned ⟨values, h⟩⟩
        rw [onceCall]
        simp only [hcontrol, hwrapper]
        cases o with
        | returned values => exact absurd ⟨values, rfl⟩ hreturned
        | blocked | aborted | undefined => rfl

end Calls

/-- The first call is the last that the program makes. -/
theorem run_cons (prog : Program) (loader depth : Nat) (s : State) (i : Invocation)
    (is : List Invocation) :
    ∃ o s', run prog loader (depth + 2) s (i :: is) = [(o, s')] ∧
      ∀ values, o ≠ .returned values := by
  have hframe : (i.enter s).frames i.caller = onceObject :: i.func :: i.args :=
    Function.update_self ..
  obtain ⟨o, s', hcall, hnot⟩ := onceCall_not_returned prog loader depth (i.enter s) i.caller hframe
  refine ⟨o, s', ?_, hnot⟩
  cases o with
  | returned values => exact absurd rfl (hnot values)
  | blocked | aborted | undefined => simp only [run, hcall]

theorem statusOutcome_returned (result : Except Value (List Value)) :
    ∃ values, statusOutcome result = .returned values := by
  cases result <;> exact ⟨_, rfl⟩

/-- **`once` does what it is to do in no sequence of calls but the empty one.** -/
theorem once_conforms_iff (prog : Program) (loader depth : Nat) (s : State)
    (is : List Invocation) : Conforms prog loader (depth + 2) s is ↔ is = [] := by
  constructor
  · intro hconforms
    cases is with
    | nil => rfl
    | cons i is =>
      obtain ⟨o, s', hrun, hnot⟩ := run_cons prog loader depth s i is
      obtain ⟨houtcome, _⟩ := hconforms.first i rfl (o, s') (by rw [hrun]; rfl)
      obtain ⟨values, hreturned⟩ := statusOutcome_returned (prog s.log i.func i.args)
      exact absurd (houtcome.trans hreturned) (hnot values)
  · rintro rfl
    refine ⟨rfl, ?_, ?_⟩
    · intro i hi
      cases hi
    · intro r hr
      cases hr

/-- The first call of `once` from the Lua thread that loaded the module never returns. -/
theorem not_once_conforms :
    ¬ ∀ (prog : Program) (loader depth : Nat) (s : State) (is : List Invocation),
      s.control = .neverDone → Conforms prog loader (depth + 2) s is := by
  intro h
  obtain ⟨o, s', hrun, hnot⟩ := run_cons (fun _ _ _ => .ok []) 0 0
    ⟨.neverDone, fun _ => [], []⟩ ⟨0, .cfunction 0, [], fun _ => []⟩ []
  have hconforms := h (fun _ _ _ => .ok []) 0 0 ⟨.neverDone, fun _ => [], []⟩
    [⟨0, .cfunction 0, [], fun _ => []⟩] rfl
  exact hnot _ (hconforms.first _ rfl (o, s') (by rw [hrun]; rfl)).1

end Once
end FluaLibs
