import FluaLibs.CopyCapacity
import FluaLibs.LuaArguments

/-! # Folding over interfaces

`foreach_iface` and `foreach_ifaddr` hand a C function, `foreach_cb`, to an iterator of
libifconfig, which calls it for one `struct ifaddrs` after the other.  `foreach_cb` calls
back into Lua with what lies at fixed places of the stack, and leaves there the value
that the callback returned as the next accumulator.

The callback is any Lua function, so a call of it may change whatever Lua code can
reach (`World`) and may raise an error, which unwinds the iterator too.  The list is the
iterator's: the callback does not free it, as it would by closing the handle.
-/
namespace FluaLibs
namespace IfaceFolds
open LuaArguments
variable {R : Runtime} {σ : Type}

/-- What Lua code can reach: the handles and the `ifaddrs` userdata, with the pointers in
them, and everything else. -/
structure World (σ : Type) where
  handle : Nat → Option (Option Nat)
  ifaddrs : Nat → Option (Option Nat)
  count : Nat
  rest : σ

/-- An error of a check, or one that Lua code raises. -/
inductive Error where
  | raised (e : Raised)
  | thrown (v : Value)

abbrev LuaM (σ : Type) : Type → Type := ExceptT Error (StateM (World σ))

/-- What is outside the module: calls of Lua functions, and the lists that libifconfig
walks, if it gets one. -/
structure Env (σ : Type) where
  call : Value → List Value → LuaM σ (List Value)
  foreach_iface : Nat → Option (List Nat)
  foreach_ifaddr : Nat → Nat → List Nat

/-! ## The code -/

/-- An API function on the stack. -/
def apply (f : LuaState R → LuaState R) (L : Gauge R) : Gauge R := L.reach (f L.state)

/-- A userdata of a kind, and the pointer in it. -/
def checkpointer (pointer : World σ → Nat → Option (Option Nat)) (arg : Int)
    (metatable message : String) (v : Option Value) : LuaM σ Nat := do
  let w ← get
  match v with
  | some (.userdata u) =>
    match pointer w u with
    | some (some p) => return p
    | some none => throw (.raised (.argerror arg message))
    | none => throw (.raised (.typeerror arg metatable))
  | _ => throw (.raised (.typeerror arg metatable))

/-- `l_ifconfig_checkhandle` -/
def checkhandle (arg : Int) (v : Option Value) : LuaM σ Nat :=
  checkpointer World.handle arg "ifconfig_handle_t" "invalid ifconfig handle" v

/-- `l_ifconfig_checkifaddrs` -/
def checkifaddrs (arg : Int) (v : Option Value) : LuaM σ Nat :=
  checkpointer World.ifaddrs arg "struct ifaddrs *" "invalid ifaddr" v

/-- `LUA_TFUNCTION` -/
def isfunction : Value → Bool
  | .function _ | .cfunction _ => true
  | _ => false

/-- `luaL_checktype(L, arg, LUA_TFUNCTION)` -/
def checkfunction (arg : Int) (v : Option Value) : LuaM σ Unit :=
  if v.any isfunction then return () else throw (.raised (.typeerror arg "function"))

/-- An `ifaddrs` userdata. -/
def newIfaddrs (ifa : Nat) : LuaM σ Value := do
  let w ← get
  set { w with
    ifaddrs := Function.update w.ifaddrs w.count (some (some ifa))
    count := w.count + 1 }
  return .userdata w.count

/-- `lua_call(L, nargs, 1)` -/
def lua_call (env : Env σ) (nargs : Nat) (L : Gauge R) : LuaM σ (Gauge R) := do
  let f := (L.state.index (-(nargs + 1 : Nat))).getD .nil
  let results ← env.call f (L.state.stack.drop (L.state.gettop - nargs))
  return (L.pop (nargs + 1)).push (results.headD .nil)

def foreach_cb (env : Env σ) (L : Gauge R) (ifa : Nat) : LuaM σ (Gauge R) := do
  let L := apply (·.pushvalue 1) L
  let L := apply (·.pushvalue 2) L
  let L := apply (·.insert 3) L
  let L := apply (·.insert 4) L
  let ifap ← newIfaddrs ifa
  let L := L.push ifap
  -- `luaL_setmetatable` has the metatable on the stack for a moment
  let L := L.spend 1
  let L := apply (·.insert 5) L
  lua_call env 3 L

/-- A missing accumulator is nil, and further arguments are discarded. -/
def fitArgs (MAXARGS : Nat) (L : Gauge R) : Gauge R :=
  let n := L.state.gettop
  if n = MAXARGS - 1 then L.push .nil
  else if MAXARGS < n then L.pop (n - MAXARGS)
  else L

/-- The two functions. -/
inductive Iteration where
  | foreach_iface
  | foreach_ifaddr

/-- The stack when the iteration begins; what the checks of the arguments took is free again. -/
def Iteration.enter (L : LuaState R) : Iteration → Gauge R
  | foreach_iface => fitArgs 3 L.gauge
  | foreach_ifaddr => apply (·.remove 2) (fitArgs 4 L.gauge)

/-- The value that is returned: the one on top. -/
def result (L : Gauge R) : Value := (L.state.index (-1)).getD .nil

def l_ifconfig_foreach_iface (env : Env σ) (L : LuaState R) : LuaM σ Value := do
  let h ← checkhandle 1 (L.index 1)
  checkfunction 2 (L.index 2)
  match env.foreach_iface h with
  | none => throw (.raised (.error "iteration failed"))
  | some ifas => return result (← ifas.foldlM (foreach_cb env) (Iteration.foreach_iface.enter L))

def l_ifconfig_foreach_ifaddr (env : Env σ) (L : LuaState R) : LuaM σ Value := do
  let h ← checkhandle 1 (L.index 1)
  let ifa ← checkifaddrs 2 (L.index 2)
  checkfunction 3 (L.index 3)
  return result (← (env.foreach_ifaddr h ifa).foldlM (foreach_cb env)
    (Iteration.foreach_ifaddr.enter L))

def Iteration.run (env : Env σ) (L : LuaState R) : Iteration → LuaM σ Value
  | foreach_iface => l_ifconfig_foreach_iface env L
  | foreach_ifaddr => l_ifconfig_foreach_ifaddr env L

/-! ## A step of the fold -/

/-- The callback for one `struct ifaddrs`: from an accumulator to the next. -/
def step (env : Env σ) (h cb acc : Value) (ifa : Nat) : LuaM σ Value := do
  let ifap ← newIfaddrs ifa
  let results ← env.call cb [h, ifap, acc]
  return results.headD .nil

/-- The stack of an iteration between two callbacks. -/
def between (L : LuaState R) (h cb acc : Value) (peak : Nat) : Gauge R :=
  ⟨{ L with stack := [h, cb, acc] }, peak⟩

variable {env : Env σ} {L : LuaState R} {h cb acc a : Value} {w : World σ} {xs : List Nat}

/-- The call of the callback: function and arguments are replaced by one value. -/
theorem lua_call_of_stack (below args : List Value) (hstack : L.stack = below ++ cb :: args)
    (peak : Nat) :
    lua_call env args.length (⟨L, peak⟩ : Gauge R) =
      (fun results => ⟨{ L with stack := below ++ [results.headD .nil] },
        max (max peak below.length) (below.length + 1)⟩) <$> env.call cb args := by
  have hfunction : L.index (-(args.length + 1 : Nat)) = some cb := LuaState.index_below hstack
  have hargs : L.stack.drop (L.gettop - args.length) = args := by
    have hlength : L.gettop - args.length = (below ++ [cb]).length := by
      simp only [LuaState.gettop, hstack, List.length_append, List.length_cons, List.length_nil]
      omega
    rw [hlength, hstack, List.append_cons below cb args, List.drop_left]
  have hpop : L.pop (args.length + 1) = { L with stack := below } := by
    have hlength : L.gettop - (args.length + 1) = below.length := by
      simp only [LuaState.gettop, hstack, List.length_append, List.length_cons]
      omega
    rw [LuaState.pop, hlength, hstack, List.take_left]
  rw [lua_call, hfunction, hargs, map_eq_pure_bind]
  refine congrArg (env.call cb args >>= ·) (funext fun results => ?_)
  rw [Gauge.pop, hpop]
  simp only [Gauge.push, Gauge.reach, Metered.reach, LuaState.push, LuaState.gettop,
    List.length_append, List.length_singleton]

/-- **`foreach_cb`** is a step, and the stack is as before with the next accumulator.  There
are seven values on it at most: six, and a metatable. -/
theorem foreach_cb_between (env : Env σ) (L : LuaState R) (h cb acc : Value) (peak ifa : Nat) :
    foreach_cb env (between L h cb acc peak) ifa =
      (fun acc => between L h cb acc (max peak 7)) <$> step env h cb acc ifa := by
  rw [foreach_cb, step, map_bind]
  refine congrArg (newIfaddrs ifa >>= ·) (funext fun ifap => ?_)
  have hstack : apply (·.insert 5) (Gauge.spend (Gauge.push (apply (·.insert 4)
      (apply (·.insert 3) (apply (·.pushvalue 2) (apply (·.pushvalue 1)
        (between L h cb acc peak))))) ifap) 1) =
        ⟨{ L with stack := [h, cb, cb, h, ifap, acc] }, max peak 7⟩ := by
    refine congrArg₂ Metered.mk rfl ?_
    show max (max (max (max (max (max (max peak 4) 5) 5) 5) 6) (6 + 1)) 6 = max peak 7
    omega
  have hpeak : max (max (max peak 7) 2) (2 + 1) = max peak 7 := by omega
  have hcall : lua_call env 3 (⟨{ L with stack := [h, cb, cb, h, ifap, acc] }, max peak 7⟩ :
      Gauge R) = _ := lua_call_of_stack [h, cb] [h, ifap, acc] rfl (max peak 7)
  refine (congrArg (lua_call env 3) hstack).trans (hcall.trans ?_)
  rw [map_bind, map_eq_pure_bind]
  refine congrArg (env.call cb [h, ifap, acc] >>= ·) (funext fun results => ?_)
  rw [map_pure]
  exact congrArg pure (congrArg (Metered.mk _) hpeak)

/-- The most values there have been on the stack after some callbacks. -/
def peakAfter (peak : Nat) (xs : List Nat) : Nat := xs.foldl (fun peak _ => max peak 7) peak

theorem peakAfter_le (peak : Nat) (xs : List Nat) : peakAfter peak xs ≤ max peak 7 := by
  induction xs generalizing peak with
  | nil => exact Nat.le_max_left ..
  | cons x xs ih =>
    refine (ih (max peak 7)).trans ?_
    omega

/-- **The iterator**, on any list: a fold over the accumulators. -/
theorem foldlM_between (env : Env σ) (L : LuaState R) (h cb acc : Value) (peak : Nat)
    (xs : List Nat) :
    xs.foldlM (foreach_cb env) (between L h cb acc peak) =
      (fun acc => between L h cb acc (peakAfter peak xs)) <$> xs.foldlM (step env h cb) acc := by
  induction xs generalizing acc peak with
  | nil =>
    rw [List.foldlM_nil, List.foldlM_nil, map_pure]
    rfl
  | cons x xs ih =>
    rw [List.foldlM_cons, List.foldlM_cons, foreach_cb_between, bind_map_left, map_bind]
    refine congrArg (step env h cb acc x >>= ·) (funext fun acc => ?_)
    exact ih acc (max peak 7)

/-! ## The two functions -/

/-- The arguments of a call that iterates over a list, with the handle, the callback and the
first accumulator. -/
inductive Begins (env : Env σ) (w : World σ) (L : LuaState R) (cb a : Value) (xs : List Nat) :
    Iteration → Value → Prop where
  | foreach_iface {u hp : Nat} {rest : List Value}
      (hstack : L.stack = .userdata u :: cb :: rest) (ha : rest.headD .nil = a)
      (hhandle : w.handle u = some (some hp)) (hcb : isfunction cb = true)
      (hlist : env.foreach_iface hp = some xs) :
      Begins env w L cb a xs .foreach_iface (.userdata u)
  | foreach_ifaddr {u v hp ifa : Nat} {rest : List Value}
      (hstack : L.stack = .userdata u :: .userdata v :: cb :: rest) (ha : rest.headD .nil = a)
      (hhandle : w.handle u = some (some hp)) (hifa : w.ifaddrs v = some (some ifa))
      (hcb : isfunction cb = true) (hlist : env.foreach_ifaddr hp ifa = xs) :
      Begins env w L cb a xs .foreach_ifaddr (.userdata u)

theorem fitArgs_gauge (below : List Value) {rest : List Value} (hstack : L.stack = below ++ rest) :
    ∃ peak ≤ max L.gettop (below.length + 1), fitArgs (below.length + 1) L.gauge =
      ⟨{ L with stack := below ++ [rest.headD .nil] }, peak⟩ := by
  have htop : L.gettop = below.length + rest.length := by
    rw [LuaState.gettop, hstack, List.length_append]
  unfold fitArgs
  -- nil is pushed for what is missing, one value is left alone, and more are popped
  rcases rest with - | ⟨v, - | ⟨v', rest⟩⟩
  · have hn : L.gauge.state.gettop = below.length + 1 - 1 := htop
    refine ⟨max L.gettop (L.gettop + 1), by rw [htop]; exact Nat.le_refl _, ?_⟩
    rw [if_pos hn]
    have hpush : L.push .nil = { L with stack := below ++ [.nil] } := by
      rw [LuaState.push, hstack, List.append_nil]
    refine congrArg₂ Metered.mk hpush ?_
    show max L.gettop (L.push .nil).gettop = max L.gettop (L.gettop + 1)
    rw [LuaState.gettop_push]
  · have hn : L.gettop = below.length + 1 := htop
    have hfewer : ¬ L.gauge.state.gettop = below.length + 1 - 1 := by
      show ¬ L.gettop = below.length
      omega
    have hmore : ¬ below.length + 1 < L.gauge.state.gettop := by
      show ¬ below.length + 1 < L.gettop
      omega
    refine ⟨L.gettop, Nat.le_max_left .., ?_⟩
    rw [if_neg hfewer, if_neg hmore]
    refine congrArg₂ Metered.mk ?_ rfl
    rw [List.headD_cons, ← hstack]
  · have hn : L.gettop = below.length + 1 + (rest.length + 1) := by
      rw [htop, List.length_cons, List.length_cons]
      omega
    have hfewer : ¬ L.gauge.state.gettop = below.length + 1 - 1 := by
      show ¬ L.gettop = below.length
      omega
    have hmore : below.length + 1 < L.gauge.state.gettop := by
      show below.length + 1 < L.gettop
      omega
    have hpop : L.pop (L.gettop - (below.length + 1)) = { L with stack := below ++ [v] } := by
      have hlength : L.gettop - (L.gettop - (below.length + 1)) = (below ++ [v]).length := by
        rw [List.length_append, List.length_singleton]
        omega
      rw [LuaState.pop, hlength, hstack, List.append_cons below v (v' :: rest), List.take_left]
    refine ⟨max L.gettop (L.pop (L.gettop - (below.length + 1))).gettop, ?_, ?_⟩
    · have hlength : (below ++ [v]).length = below.length + 1 := List.length_append
      exact max_le_max (Nat.le_refl _) (by rw [hpop]; exact hlength.le)
    · rw [if_neg hfewer, if_pos hmore]
      exact congrArg₂ Metered.mk hpop rfl

/-- **The stack when the iteration begins.** -/
theorem Begins.enter {it : Iteration} (hbegins : Begins env w L cb a xs it h) :
    ∃ peak ≤ max L.gettop 7, it.enter L = between L h cb a peak := by
  cases hbegins with
  | @foreach_iface u hp rest hstack ha hhandle hcb hlist =>
    cases ha
    obtain ⟨peak, hle, hfit⟩ := fitArgs_gauge [.userdata u, cb] hstack
    refine ⟨peak, ?_, hfit⟩
    exact hle.trans (by simp only [List.length_cons, List.length_nil]; omega)
  | @foreach_ifaddr u v hp ifa rest hstack ha hhandle hifa hcb hlist =>
    cases ha
    cases hlist
    obtain ⟨peak, hle, hfit⟩ := fitArgs_gauge [.userdata u, .userdata v, cb] hstack
    refine ⟨max peak 3, ?_, ?_⟩
    · simp only [List.length_cons, List.length_nil] at hle
      omega
    · refine (congrArg (apply (·.remove 2)) hfit).trans ?_
      exact congrArg₂ Metered.mk rfl rfl

theorem bind_of_ok {α β : Type} {x : LuaM σ α} {v : α} {w' : World σ} (hx : x w = (.ok v, w'))
    (f : α → LuaM σ β) : (x >>= f) w = f v w' := by
  simp only [bind, ExceptT.bind, ExceptT.mk, StateT.bind, hx]
  rfl

theorem bind_of_error {α β : Type} {x : LuaM σ α} {e : Error} {w' : World σ}
    (hx : x w = (.error e, w')) (f : α → LuaM σ β) : (x >>= f) w = (.error e, w') := by
  simp only [bind, ExceptT.bind, ExceptT.mk, StateT.bind, hx]
  rfl

theorem checkpointer_ok {pointer : World σ → Nat → Option (Option Nat)} {u p : Nat}
    (h : pointer w u = some (some p)) (arg : Int) (metatable message : String) :
    checkpointer pointer arg metatable message (some (.userdata u)) w = (.ok p, w) := by
  have hget : (get : LuaM σ (World σ)) w = (.ok w, w) := rfl
  refine (bind_of_ok hget _).trans ?_
  simp only [h]
  rfl

theorem checkfunction_ok (hcb : isfunction cb = true) (arg : Int) :
    checkfunction arg (some cb) w = (.ok (), w) := by
  have hany : (some cb).any isfunction = true := hcb
  rw [checkfunction, if_pos hany]
  rfl

/-- **A call is a fold.** -/
theorem Begins.run {it : Iteration} (hbegins : Begins env w L cb a xs it h) :
    it.run env L w = xs.foldlM (step env h cb) a w := by
  obtain ⟨peak, -, henter⟩ := hbegins.enter
  have hfold : (do return result (← xs.foldlM (foreach_cb env) (it.enter L))) =
      xs.foldlM (step env h cb) a := by
    rw [henter, foldlM_between, bind_map_left]
    exact bind_pure _
  cases hbegins with
  | @foreach_iface u hp rest hstack ha hhandle hcb hlist =>
    cases ha
    have hfirst : L.index 1 = some (.userdata u) := by
      rw [LuaState.index, hstack]
      rfl
    have hsecond : L.index 2 = some cb := by
      rw [LuaState.index, hstack]
      rfl
    show l_ifconfig_foreach_iface env L w = _
    rw [l_ifconfig_foreach_iface, hfirst, hsecond]
    refine (bind_of_ok (checkpointer_ok hhandle ..) _).trans ?_
    refine (bind_of_ok (checkfunction_ok hcb 2) _).trans ?_
    rw [hlist]
    exact congrFun hfold w
  | @foreach_ifaddr u v hp ifa rest hstack ha hhandle hifa hcb hlist =>
    cases ha
    cases hlist
    have hfirst : L.index 1 = some (.userdata u) := by
      rw [LuaState.index, hstack]
      rfl
    have hsecond : L.index 2 = some (.userdata v) := by
      rw [LuaState.index, hstack]
      rfl
    have hthird : L.index 3 = some cb := by
      rw [LuaState.index, hstack]
      rfl
    show l_ifconfig_foreach_ifaddr env L w = _
    rw [l_ifconfig_foreach_ifaddr, hfirst, hsecond, hthird]
    refine (bind_of_ok (checkpointer_ok hhandle ..) _).trans ?_
    refine (bind_of_ok (checkpointer_ok hifa ..) _).trans ?_
    refine (bind_of_ok (checkfunction_ok hcb 3) _).trans ?_
    exact congrFun hfold w

/-- What is to hold of a call with the callback `cb` and the first accumulator `a`, for the
list `xs`. -/
structure IsFold (env : Env σ) (w : World σ) (L : LuaState R) (it : Iteration) (h cb a : Value)
    (xs : List Nat) : Prop where
  /-- Every callback gets the accumulator that the one before it has returned. -/
  result : it.run env L w = xs.foldlM (step env h cb) a w
  /-- The fold of a callback that computes `f`, whatever else it does. -/
  foldl : ∀ f : Value → Nat → Value,
    (∀ acc ifa w, ∃ w', step env h cb acc ifa w = (.ok (f acc ifa), w')) →
      ∃ w', it.run env L w = (.ok (xs.foldl f a), w')
  /-- Between two callbacks the stack is the handle, the callback and the accumulator. -/
  stack : ∀ done, done <+: xs → ∀ acc w',
    done.foldlM (step env h cb) a w = (.ok acc, w') →
      ∃ peak ≤ max L.gettop 7,
        done.foldlM (foreach_cb env) (it.enter L) w = (.ok (between L h cb acc peak), w')
  /-- An error ends the iteration: nothing comes after it, whatever the rest of the list. -/
  raises : ∀ done x rest, xs = done ++ x :: rest → ∀ acc w₁ e w₂,
    done.foldlM (step env h cb) a w = (.ok acc, w₁) →
      step env h cb acc x w₁ = (.error e, w₂) → it.run env L w = (.error e, w₂)

/-- The fold of steps that compute `f`. -/
theorem foldlM_computes {f : Value → Nat → Value} {s : Value → Nat → LuaM σ Value}
    (hs : ∀ acc ifa w, ∃ w', s acc ifa w = (.ok (f acc ifa), w')) (acc : Value) (xs : List Nat)
    (w : World σ) : ∃ w', xs.foldlM s acc w = (.ok (xs.foldl f acc), w') := by
  induction xs generalizing acc w with
  | nil => exact ⟨w, rfl⟩
  | cons x xs ih =>
    obtain ⟨w₁, hstep⟩ := hs acc x w
    obtain ⟨w₂, hrest⟩ := ih (f acc x) w₁
    refine ⟨w₂, ?_⟩
    rw [List.foldlM_cons]
    exact (bind_of_ok hstep _).trans hrest

/-- **`foreach_iface` and `foreach_ifaddr` are left folds.** -/
theorem foreach_is_fold {it : Iteration} (hbegins : Begins env w L cb a xs it h) :
    IsFold env w L it h cb a xs where
  result := hbegins.run
  foldl f hf := by
    rw [hbegins.run]
    exact foldlM_computes hf a xs w
  stack done _ acc w' hdone := by
    obtain ⟨peak, hpeak, henter⟩ := hbegins.enter
    refine ⟨peakAfter peak done, ?_, ?_⟩
    · exact (peakAfter_le peak done).trans (by omega)
    · rw [henter, foldlM_between, map_eq_pure_bind]
      exact bind_of_ok hdone _
  raises done x rest hsplit acc w₁ e w₂ hdone hraise := by
    rw [hbegins.run, hsplit, List.foldlM_append]
    refine (bind_of_ok hdone _).trans ?_
    rw [List.foldlM_cons]
    exact bind_of_error hraise _

/-! ## Examples -/

/-- A callback that returns the list of what it was given so far, as a number. -/
def countingEnv : Env Unit where
  call _ args :=
    match args with
    | [_, _, .integer n] => return [.integer (10 * n + 1)]
    | _ => throw (.thrown .nil)
  foreach_iface _ := some [4, 8]
  foreach_ifaddr _ _ := [16]

def openWorld : World Unit := ⟨fun _ => some (some 1), fun _ => none, 3, ()⟩

/-- `ifcfg:foreach_iface(cb, 5, nil)` -/
def foreachCall : LuaState noFunctions := ⟨[.userdata 0, .cfunction 0, .integer 5, .nil], [], 0⟩

theorem foreach_is_fold_counting :
    IsFold countingEnv openWorld foreachCall .foreach_iface (.userdata 0) (.cfunction 0)
      (.integer 5) [4, 8] :=
  foreach_is_fold (.foreach_iface rfl rfl rfl rfl rfl)

/-- Both callbacks have run. -/
example : (Iteration.foreach_iface.run countingEnv foreachCall openWorld).1.toOption =
    some (.integer 511) := rfl

end IfaceFolds
end FluaLibs
