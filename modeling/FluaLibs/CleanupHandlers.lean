import FluaLibs.PackedArguments

/-! # Cleanup handlers

`cleanup.push` packs a function and its arguments in a table and appends that table
to the thread's cleanup stack, a table in the registry; `cleanup.pop` removes the last
one and may call it, and `thread_cleanup` calls those that are left when the thread is
cancelled.  Each call of a C function has its own stack, so each starts from a state
with its arguments alone.

The functions are Lua code: what a call leads to is a parameter, which may depend on
everything that was called before.  A handler that itself pushes or pops handlers does
that after `cleanup.pop` has removed it, so those are further pushes and pops.

All this is with enough Lua stack for the arguments and results of a handler: `tunpack`
asks for no room, no more than the converters of `StackCapacity` do.
-/
namespace FluaLibs
namespace Cleanup
variable {R : Runtime}

open TableState

/-- What the handlers can be seen by: calls, and the end of the Lua state. -/
inductive Event where
  | call (func : Value) (args : List Value)
  | close
  deriving DecidableEq

/-- What calling a function with arguments leads to, after what has happened: its
results, or the error it raises. -/
abbrev Program := List Event → Value → List Value → Except Value (List Value)

/-- A thread's Lua state, the slot of its registry that `getcleanupstack` reads, and
what has happened. -/
structure ThreadState (R : Runtime) where
  lua : TableState R
  cleanup : Value
  log : List Event

/-- How a C function ends: with results, or with an error. -/
inductive Outcome where
  | returned (values : List Value)
  | raised (err : Value)
  deriving DecidableEq

/-- What is pushed as a handler: a function with its arguments. -/
structure Handler where
  func : Value
  args : List Value
  callable : func ≠ .nil
  deriving DecidableEq

namespace Handler

def values (h : Handler) : List Value := h.func :: h.args

/-- Its call with all its arguments. -/
def event (h : Handler) : Event := .call h.func h.args

end Handler

namespace ThreadState
variable (S : ThreadState R)

def withLua (T : TableState R) : ThreadState R := { S with lua := T }

/-- The frame of a C function that is called with `args`. -/
def frame (args : List Value) : ThreadState R := S.withLua (S.lua.withStack args)

@[simp] theorem withLua_lua (T : TableState R) : (S.withLua T).lua = T := rfl

@[simp] theorem withLua_withLua (T T' : TableState R) :
    (S.withLua T).withLua T' = S.withLua T' := rfl

@[simp] theorem frame_withLua (args : List Value) (T : TableState R) :
    (S.frame args).withLua T = S.withLua T := rfl

end ThreadState

/-! ## The code -/

/-- The number of results a caller asks for: any number, or a fixed one. -/
def adjust (nresults : Option Nat) (rs : List Value) : List Value :=
  match nresults with
  | none => rs
  | some n => rs.take n ++ List.replicate (n - rs.length) .nil

/-- `lua_pcall(L, nargs, nresults, 0)`: whether the call returned, and the state with
its results or its error in place of the function and the arguments.  A negative number
of arguments is undefined. -/
def pcall (prog : Program) (S : ThreadState R) (nargs : Int) (nresults : Option Nat) :
    Option (Bool × ThreadState R) :=
  if nargs < 0 then none
  else
    let base := S.lua.gettop - (nargs.toNat + 1)
    match S.lua.stack.drop base with
    | [] => none
    | func :: args =>
      let log := S.log ++ [.call func args]
      match prog S.log func args with
      | .ok rs =>
        some (true, ⟨S.lua.withStack (S.lua.stack.take base ++ adjust nresults rs), S.cleanup, log⟩)
      | .error err =>
        some (false, ⟨S.lua.withStack (S.lua.stack.take base ++ [err]), S.cleanup, log⟩)

/-- `lua_toboolean` -/
def toboolean : Option Value → Bool
  | none | some .nil | some (.boolean false) => false
  | some _ => true

def getcleanupstack (S : ThreadState R) : ThreadState R := S.withLua (S.lua.push S.cleanup)

@[simp] theorem getcleanupstack_withLua (S : ThreadState R) (T : TableState R) :
    (getcleanupstack S).withLua T = S.withLua T := rfl

def initcleanupstack (S : ThreadState R) : ThreadState R :=
  let T := S.lua.createtable
  { S with lua := T.pop 1, cleanup := (T.index (-1)).getD .nil }

/-- `return n`: the topmost `n` values are the results. -/
def returnTop (S : ThreadState R) (n : Int) : Outcome :=
  .returned (S.lua.stack.drop (S.lua.gettop - n.toNat))

/-- `cleanup.pop(...)`, in its frame.  `none` is undefined behaviour. -/
def cleanupPop (prog : Program) (length : Length) (S : ThreadState R) :
    Option (Outcome × ThreadState R) :=
  let execute := toboolean (S.lua.index 1)
  let S₁ := getcleanupstack S
  let idx : Int := S₁.lua.gettop
  match tpop length S₁.lua idx with
  | .error err => some (.raised err, S₁)
  | .ok T =>
    let S₂ := S₁.withLua (T.remove idx)
    if execute then
      match tunpack length S₂.lua (-1) with
      | .error err => some (.raised err, S₂)
      | .ok (len, T₃) =>
        match pcall prog (S₂.withLua T₃) (len - 1) none with
        | none => none
        | some (ok, S₄) =>
          let S₅ := S₄.withLua ((S₄.lua.push (.boolean ok)).insert idx)
          some (returnTop S₅ (S₅.lua.gettop - idx), S₅)
    else
      let S₃ := S₂.withLua (S₂.lua.push (.boolean true))
      some (returnTop S₃ (S₃.lua.gettop - idx), S₃)

/-- `cleanup.push(...)`, in its frame. -/
def cleanupPush (length : Length) (S : ThreadState R) : Outcome × ThreadState R :=
  let S₁ := S.withLua (tpack S.lua S.lua.gettop)
  let idx : Int := S₁.lua.gettop
  let S₂ := getcleanupstack S₁
  match tpush length (S₂.lua.pushvalue idx) (-2) with
  | .error err => (.raised err, S₂)
  | .ok T => (.returned [], S₂.withLua T)

/-- The loop of `thread_cleanup`, for a number of keys from `i` on.  An error outside a
protected call ends the process, which is `none` too. -/
def cleanupLoop (prog : Program) (length : Length) (idx : Int) :
    Nat → Nat → ThreadState R → Option (ThreadState R)
  | _, 0, S => some S
  | i, n + 1, S =>
    let S₁ := S.withLua (S.lua.rawgeti idx i)
    match tunpack length S₁.lua (-1) with
    | .error _ => none
    | .ok (len, T) =>
      match pcall prog (S₁.withLua T) (len - 1) (some 0) with
      | none => none
      | some (_, S₂) => cleanupLoop prog length idx (i + 1) n S₂

/-- `thread_cleanup` -/
def threadCleanup (prog : Program) (length : Length) (S : ThreadState R) :
    Option (ThreadState R) :=
  let S₁ := getcleanupstack S
  let idx : Int := S₁.lua.gettop
  match S₁.lua.len length (-1) with
  | .error _ => none
  | .ok n =>
    match cleanupLoop prog length idx 1 n S₁ with
    | none => none
    | some S₂ => some { S₂ with log := S₂.log ++ [.close] }

/-! ## Calling a handler -/

section Call
variable {prog : Program} {S : ThreadState R} {below args rs : List Value} {func err : Value}

theorem base_of_stack (h : S.lua.stack = below ++ func :: args) :
    S.lua.gettop - ((args.length : Int).toNat + 1) = below.length := by
  rw [LuaState.gettop, h, List.length_append, List.length_cons]
  omega

theorem pcall_ok (h : S.lua.stack = below ++ func :: args)
    (hr : prog S.log func args = .ok rs) (nresults : Option Nat) :
    pcall prog S args.length nresults =
      some (true, ⟨S.lua.withStack (below ++ adjust nresults rs), S.cleanup,
        S.log ++ [.call func args]⟩) := by
  have hneg : ¬ (args.length : Int) < 0 := by omega
  simp only [pcall, hneg, ite_false, base_of_stack h, h, List.drop_left, List.take_left, hr]

theorem pcall_error (h : S.lua.stack = below ++ func :: args)
    (hr : prog S.log func args = .error err) (nresults : Option Nat) :
    pcall prog S args.length nresults =
      some (false, ⟨S.lua.withStack (below ++ [err]), S.cleanup,
        S.log ++ [.call func args]⟩) := by
  have hneg : ¬ (args.length : Int) < 0 := by omega
  simp only [pcall, hneg, ite_false, base_of_stack h, h, List.drop_left, List.take_left, hr]

end Call

namespace Handler
variable (h : Handler) (length : Length) (r : Nat)

/-- The arguments that come back when the handler is unpacked from table `r`. -/
def unpacked : List Value := h.args.take (length.border r (.ofList h.values) - 1)

theorem border_pos : 0 < length.border r (.ofList h.values) :=
  (length.isBorder r (.ofList h.values)).pos h.callable

theorem border_le : length.border r (.ofList h.values) ≤ h.args.length + 1 :=
  (length.isBorder r (.ofList h.values)).le_length

theorem length_unpacked :
    (h.unpacked length r).length + 1 = length.border r (.ofList h.values) := by
  have hpos := h.border_pos length r
  have hle := h.border_le length r
  rw [unpacked, List.length_take]
  omega

theorem length_unpacked_le : (h.unpacked length r).length ≤ h.args.length := by
  rw [unpacked, List.length_take]
  omega

/-- The arguments come back as they were exactly when as many come back. -/
theorem unpacked_eq_of_length (hle : h.args.length ≤ (h.unpacked length r).length) :
    h.unpacked length r = h.args := by
  rw [unpacked, List.length_take] at hle
  exact List.take_of_length_le (by omega)

theorem unpacked_of_not_mem (hnil : .nil ∉ h.args) : h.unpacked length r = h.args := by
  have hvalues : .nil ∉ h.values := by
    intro hmem
    rcases List.mem_cons.mp hmem with heq | hmem
    · exact h.callable heq.symm
    · exact hnil hmem
  apply h.unpacked_eq_of_length
  have hlen := h.length_unpacked length r
  rw [length.border_ofList hvalues] at hlen
  have : h.values.length = h.args.length + 1 := rfl
  omega

/-- An implementation that answers the smallest border loses arguments. -/
theorem unpacked_least (hnil : .nil ∈ h.args) : h.unpacked .least r ≠ h.args := by
  intro heq
  have hlen := h.length_unpacked .least r
  have hmem : .nil ∈ h.values := List.mem_cons_of_mem _ hnil
  obtain ⟨b, hlt, hborder⟩ := Table.exists_shorter_border hmem
  have hmin : Length.least.border r (.ofList h.values) ≤ b := Nat.find_min' _ hborder
  have : h.values.length = h.args.length + 1 := rfl
  rw [heq] at hlen
  omega

/-- The call that unpacking the handler leads to. -/
def seen : Event := .call h.func (h.unpacked length r)

theorem seen_eq_event_iff : h.seen length r = h.event ↔ h.unpacked length r = h.args := by
  simp [seen, event]

end Handler

/-- Unpacking a handler leaves its function and arguments on the stack. -/
theorem tunpack_handler (length : Length) (h : Handler) {T : TableState R} {below : List Value}
    {r : Nat} (hstack : T.stack = below ++ [.table r])
    (ht : T.tables[r]? = some (.ofList h.values)) :
    tunpack length T (-1) =
      .ok ((h.unpacked length r).length + 1,
        T.withStack (below ++ h.func :: h.unpacked length r)) := by
  have hidx : T.absindex (-1) = below.length + 1 := absindex_of_stack hstack
  have htake : h.values.take (length.border r (.ofList h.values)) =
      h.func :: h.unpacked length r := by
    obtain ⟨b, hb⟩ := Nat.exists_eq_succ_of_ne_zero (Nat.ne_of_gt (h.border_pos length r))
    rw [Handler.unpacked, hb]
    rfl
  rw [tunpack_spec length hstack ht hidx, h.length_unpacked, List.append_nil,
    Table.values_ofList_of_le (h.border_le length r), htake]

/-! ## The stack of handlers -/

/-- The cleanup stack is table `c`, and holds the tables of the handlers in order. -/
structure HoldsAt (S : ThreadState R) (c : Nat) (entries : List (Nat × Handler)) : Prop where
  cleanup : S.cleanup = .table c
  stack : S.lua.tables[c]? = some (.ofList (entries.map (fun p => .table p.1)))
  packed : ∀ p ∈ entries, p.1 ≠ c ∧ S.lua.tables[p.1]? = some (.ofList p.2.values)

/-- The thread has the handlers `hs` on its cleanup stack, the last on top. -/
def Holds (S : ThreadState R) (hs : List Handler) : Prop :=
  ∃ c entries, HoldsAt S c entries ∧ entries.map Prod.snd = hs

section Holds
variable {S : ThreadState R} {c r : Nat} {entries : List (Nat × Handler)} {h : Handler}

theorem nil_not_mem_tables (entries : List (Nat × Handler)) :
    Value.nil ∉ entries.map (fun p => Value.table p.1) := by
  intro hmem
  obtain ⟨p, _, hp⟩ := List.mem_map.mp hmem
  cases hp

/-- The cleanup stack has no holes, so that its length is the number of handlers. -/
theorem border_entries (length : Length) (c : Nat) (entries : List (Nat × Handler)) :
    length.border c (.ofList (entries.map (fun p => .table p.1))) = entries.length := by
  rw [length.border_ofList (nil_not_mem_tables entries), List.length_map]

/-- The stack and the calls do not matter. -/
theorem HoldsAt.congr (hS : HoldsAt S c entries) {S' : ThreadState R}
    (hcleanup : S'.cleanup = S.cleanup) (htables : S'.lua.tables = S.lua.tables) :
    HoldsAt S' c entries where
  cleanup := hcleanup.trans hS.cleanup
  stack := by rw [htables, hS.stack]
  packed p hp := by
    rw [htables]
    exact hS.packed p hp

theorem holds_init (S : ThreadState R) : Holds (initcleanupstack S) [] := by
  refine ⟨S.lua.tables.length, [], ⟨?_, ?_, ?_⟩, rfl⟩
  · have htop : S.lua.createtable.stack = S.lua.stack ++ [.table S.lua.tables.length] := rfl
    have hindex : S.lua.createtable.index (-1) = some (.table S.lua.tables.length) :=
      LuaState.index_top htop
    simp [initcleanupstack, hindex]
  · exact List.getElem?_concat_length
  · intro p hp
    cases hp

/-- **`cleanup.push` pushes a handler.** -/
theorem HoldsAt.push (hS : HoldsAt S c entries) (length : Length) (h : Handler) :
    ∃ S', cleanupPush length (S.frame h.values) = (.returned [], S') ∧ S'.log = S.log ∧
      HoldsAt S' c (entries ++ [(S.lua.tables.length, h)]) := by
  let r := S.lua.tables.length
  have hc : c < S.lua.tables.length := (List.getElem?_eq_some_iff.mp hS.stack).1
  -- the arguments are packed in a new table
  let T₁ : TableState R :=
    { S.lua.withStack [.table r] with tables := S.lua.tables ++ [.ofList h.values] }
  have hvalues : (S.lua.withStack h.values).stack = [] ++ h.values := rfl
  have hpack : tpack (S.lua.withStack h.values) (S.lua.withStack h.values).gettop = T₁ :=
    tpack_spec hvalues
  -- its reference is appended to the cleanup stack
  let T₂ := T₁.withStack [.table r, .table c, .table r]
  have hstack₁ : (T₁.push (.table c)).stack = [] ++ .table r :: [.table c] := rfl
  have hpush : ((T₁.push (.table c)).pushvalue T₁.gettop) = T₂ := pushvalue_of_stack hstack₁
  have htable : T₂.tables[c]? = some (.ofList (entries.map (fun p => .table p.1))) := by
    change (S.lua.tables ++ [.ofList h.values])[c]? = _
    rw [List.getElem?_append_left hc, hS.stack]
  have hstack₂ : T₂.stack = [.table r] ++ [.table c, .table r] := rfl
  have hset := tpush_spec length hstack₂ htable
  have hlen : (entries.map (fun p => Value.table p.1)).length + 1 = entries.length + 1 := by simp
  rw [border_entries, ← hlen, Table.ofList_set_length] at hset
  let T₃ := (T₂.withStack [.table r, .table c]).setTable c
    (.ofList ((entries ++ [(r, h)]).map (fun p => .table p.1)))
  have hset' : tpush length T₂ (-2) = .ok T₃ := by
    rw [hset]
    simp only [T₃, List.map_append]
    rfl
  refine ⟨{ S with lua := T₃ }, ?_, rfl, ?_⟩
  · simp only [cleanupPush, hpack, getcleanupstack, ThreadState.withLua, ThreadState.frame,
      hS.cleanup, hpush, hset']
  · have hget : ∀ k ≠ c, T₃.tables[k]? = (S.lua.tables ++ [Table.ofList h.values])[k]? := by
      intro k hk
      exact List.getElem?_set_ne (Ne.symm hk)
    refine ⟨hS.cleanup, ?_, ?_⟩
    · apply List.getElem?_set_self
      change c < (S.lua.tables ++ [Table.ofList h.values]).length
      rw [List.length_append]
      omega
    · intro p hp
      rcases List.mem_append.mp hp with hp | hp
      · obtain ⟨hne, htable⟩ := hS.packed p hp
        have hlt := (List.getElem?_eq_some_iff.mp htable).1
        exact ⟨hne, by rw [hget _ hne, List.getElem?_append_left hlt, htable]⟩
      · obtain rfl := List.mem_singleton.mp hp
        have hne : r ≠ c := by omega
        exact ⟨hne, by rw [hget _ hne, List.getElem?_concat_length]⟩

/-- What `tpop` and `lua_remove` make of the cleanup stack: the last table is on top of
the arguments, and the others are left. -/
theorem HoldsAt.popTable (hS : HoldsAt S c (entries ++ [(r, h)])) (length : Length)
    (args : List Value) :
    ∃ T, tpop length (getcleanupstack (S.frame args)).lua (args.length + 1) = .ok T ∧
      (T.remove (args.length + 1)).stack = args ++ [.table r] ∧
      (T.remove (args.length + 1)).tables[r]? = some (.ofList h.values) ∧
      HoldsAt (S.withLua (T.remove (args.length + 1))) c entries := by
  let T₁ := (getcleanupstack (S.frame args)).lua
  have hstack : T₁.stack = args ++ .table c :: [] := by
    change args ++ [S.cleanup] = _
    rw [hS.cleanup]
  have hlast : (Table.ofList ((entries ++ [(r, h)]).map (fun p => .table p.1))).get
      (entries.length + 1) = .table r := by
    simp
  have hrest : (Table.ofList ((entries ++ [(r, h)]).map (fun p => .table p.1))).set
      (entries.length + 1) .nil = .ofList (entries.map (fun p => .table p.1)) := by
    have := Table.ofList_concat_set_nil (entries.map (fun p => Value.table p.1)) (.table r)
    rwa [List.length_map, ← List.map_singleton (f := fun p : Nat × Handler => Value.table p.1)
      (a := (r, h)), ← List.map_append] at this
  have hpop := tpop_spec length hstack hS.stack
  rw [border_entries, List.length_append, List.length_singleton, hlast, hrest] at hpop
  let T₂ := (T₁.withStack (T₁.stack ++ [.table r])).setTable c
    (.ofList (entries.map (fun p => .table p.1)))
  have hremove : T₂.remove (args.length + 1) = T₂.withStack (args ++ [.table r]) := by
    apply remove_of_stack
    change T₁.stack ++ [.table r] = args ++ .table c :: [.table r]
    rw [hstack]
    simp
  have hc : c < S.lua.tables.length := (List.getElem?_eq_some_iff.mp hS.stack).1
  have hget : ∀ k ≠ c, T₂.tables[k]? = S.lua.tables[k]? := by
    intro k hk
    exact List.getElem?_set_ne (Ne.symm hk)
  obtain ⟨hne, htable⟩ := hS.packed (r, h) (by simp)
  refine ⟨T₂, hpop, ?_, ?_, ?_⟩
  · rw [hremove]
    rfl
  · rw [hremove]
    exact (hget r hne).trans htable
  · rw [hremove]
    refine ⟨hS.cleanup, List.getElem?_set_self hc, ?_⟩
    intro p hp
    obtain ⟨hne', htable'⟩ := hS.packed p (List.mem_append_left _ hp)
    exact ⟨hne', (hget p.1 hne').trans htable'⟩

/-- A function that returns what is above an index. -/
theorem returnTop_above {below ws : List Value} {v : Value}
    (hstack : S.lua.stack = below ++ v :: ws) :
    returnTop S (S.lua.gettop - (below.length + 1)) = .returned ws := by
  have hsplit : S.lua.stack = (below ++ [v]) ++ ws := by
    rw [hstack, List.append_assoc]
    rfl
  have hn : S.lua.gettop - ((S.lua.gettop : Int) - (below.length + 1)).toNat =
      (below ++ [v]).length := by
    simp only [LuaState.gettop, hsplit, List.length_append, List.length_singleton]
    omega
  rw [returnTop, hn, hsplit, List.drop_left]

theorem gettop_getcleanupstack (S : ThreadState R) (args : List Value) :
    ((getcleanupstack (S.frame args)).lua.gettop : Int) = args.length + 1 := by
  simp [getcleanupstack, ThreadState.frame, ThreadState.withLua, LuaState.gettop]

/-- **`cleanup.pop(false)` removes the last handler** and returns `true`. -/
theorem HoldsAt.pop (prog : Program) (hS : HoldsAt S c (entries ++ [(r, h)])) (length : Length)
    {args : List Value} (hexecute : toboolean args[0]? = false) :
    ∃ S', cleanupPop prog length (S.frame args) = some (.returned [.boolean true], S') ∧
      S'.log = S.log ∧ HoldsAt S' c entries := by
  obtain ⟨T, hpop, hstack, _, hrest⟩ := hS.popTable length args
  have hindex : (S.frame args).lua.index 1 = args[0]? := rfl
  let S' := S.withLua ((T.remove (args.length + 1)).push (.boolean true))
  have hfinal : S'.lua.stack = args ++ .table r :: [.boolean true] := by
    change (T.remove (args.length + 1)).stack ++ [.boolean true] = _
    rw [hstack, List.append_assoc]
    rfl
  refine ⟨S', ?_, rfl, hrest.congr rfl rfl⟩
  simp only [cleanupPop, hindex, hexecute, gettop_getcleanupstack, hpop]
  exact congrArg (fun o => some (o, S')) (returnTop_above hfinal)

/-- What `cleanup.pop(true)` returns when the handler it called ended with `result`. -/
def popOutcome : Except Value (List Value) → Outcome
  | .ok rs => .returned rs
  | .error err => .returned [err]

/-- What follows the call in `cleanup.pop`, when the call has left `ws`: the status is
inserted at the index that the results are counted from, and so is not returned. -/
theorem returnTop_insert (args ws : List Value) (ok : Bool) (hS : S.lua.stack = args ++ ws) :
    let S' := S.withLua ((S.lua.push (.boolean ok)).insert (args.length + 1))
    returnTop S' (S'.lua.gettop - (args.length + 1)) = .returned ws ∧
      S'.lua.tables = S.lua.tables := by
  intro S'
  have hpush : (S.lua.push (.boolean ok)).stack = args ++ ws ++ [.boolean ok] := by
    rw [push_stack, hS]
  have hinsert : S'.lua = (S.lua.push (.boolean ok)).withStack (args ++ .boolean ok :: ws) :=
    insert_of_stack hpush
  constructor
  · exact returnTop_above (by rw [hinsert, withStack_stack])
  · rw [hinsert]
    rfl

/-- **`cleanup.pop(true)` removes the last handler and calls it**, but returns what the
call left without the status. -/
theorem HoldsAt.popCall (prog : Program) (hS : HoldsAt S c (entries ++ [(r, h)]))
    (length : Length) {args : List Value} (hexecute : toboolean args[0]? = true) :
    ∃ S', cleanupPop prog length (S.frame args) =
        some (popOutcome (prog S.log h.func (h.unpacked length r)), S') ∧
      S'.log = S.log ++ [h.seen length r] ∧ HoldsAt S' c entries := by
  obtain ⟨T, hpop, hstack, htable, hrest⟩ := hS.popTable length args
  have hindex : (S.frame args).lua.index 1 = args[0]? := rfl
  have hunpack := tunpack_handler length h hstack htable
  let S₃ := S.withLua ((T.remove (args.length + 1)).withStack
    (args ++ h.func :: h.unpacked length r))
  have hcount : (((h.unpacked length r).length + 1 : Nat) : Int) - 1 =
      (h.unpacked length r).length := by omega
  have hstack₃ : S₃.lua.stack = args ++ h.func :: h.unpacked length r := rfl
  -- the call leaves `ws` above the arguments of `cleanup.pop`
  have hmain : ∀ (ok : Bool) (ws : List Value),
      pcall prog S₃ (h.unpacked length r).length none =
        some (ok, ⟨S₃.lua.withStack (args ++ ws), S.cleanup, S.log ++ [h.seen length r]⟩) →
      ∃ S', cleanupPop prog length (S.frame args) = some (.returned ws, S') ∧
        S'.log = S.log ++ [h.seen length r] ∧ HoldsAt S' c entries := by
    intro ok ws hcall
    let S₄ : ThreadState R := ⟨S₃.lua.withStack (args ++ ws), S.cleanup,
      S.log ++ [h.seen length r]⟩
    obtain ⟨hreturn, htables⟩ := returnTop_insert args ws ok (S := S₄) rfl
    refine ⟨S₄.withLua ((S₄.lua.push (.boolean ok)).insert (args.length + 1)), ?_, rfl,
      hrest.congr rfl htables⟩
    simp only [cleanupPop, hindex, hexecute, gettop_getcleanupstack, hpop, ite_true,
      getcleanupstack_withLua, ThreadState.frame_withLua, ThreadState.withLua_lua,
      ThreadState.withLua_withLua, hunpack, hcount]
    rw [show S.withLua _ = S₃ from rfl, hcall]
    exact congrArg (fun o => some (o, _)) hreturn
  cases hresult : prog S.log h.func (h.unpacked length r) with
  | ok rs => exact hmain true rs (pcall_ok hstack₃ hresult none)
  | error err => exact hmain false [err] (pcall_error hstack₃ hresult none)

/-- A thread with `h` on top of its handlers. -/
theorem Holds.exists_top {hs : List Handler} (hS : Holds S (hs ++ [h])) :
    ∃ c r entries, HoldsAt S c (entries ++ [(r, h)]) ∧ entries.map Prod.snd = hs := by
  obtain ⟨c, all, hat, hall⟩ := hS
  obtain ⟨entries, last, rfl, hentries, hlast⟩ := List.map_eq_append_iff.mp hall
  obtain ⟨⟨r, h'⟩, rfl, rfl⟩ := List.map_eq_singleton_iff.mp hlast
  exact ⟨c, r, entries, hat, hentries⟩

end Holds

/-! ## What `cleanup.pop` returns -/

/-- The status and what follows it. -/
def statusOutcome : Except Value (List Value) → Outcome
  | .ok rs => .returned (.boolean true :: rs)
  | .error err => .returned [.boolean false, err]

/-- What `cleanup.pop(args)` is to do in a thread with the handler `h` on top of `hs`: the
others are left, and if `h` is to be executed, it is called once, with its arguments, and
its results or its error are returned after the status. -/
structure PopsTop (prog : Program) (S : ThreadState R) (hs : List Handler) (h : Handler)
    (args : List Value) (result : Outcome × ThreadState R) : Prop where
  left : Holds result.2 hs
  executed : toboolean args[0]? = true → result.2.log = S.log ++ [h.event] ∧
    result.1 = statusOutcome (prog S.log h.func h.args)
  kept : toboolean args[0]? = false → result.2.log = S.log

section Pop
variable {prog : Program} {length : Length} {S : ThreadState R} {hs : List Handler}
  {h : Handler} {args : List Value}

/-- The results alone are never the status and the results. -/
theorem popOutcome_ne_statusOutcome (result : Except Value (List Value)) :
    popOutcome result ≠ statusOutcome result := by
  intro heq
  cases result with
  | ok rs =>
    have hlen := congrArg List.length (Outcome.returned.inj heq)
    rw [List.length_cons] at hlen
    omega
  | error err =>
    have hlen := congrArg List.length (Outcome.returned.inj heq)
    simp at hlen

theorem Holds.not_popsTop (hS : Holds S (hs ++ [h])) (hexecute : toboolean args[0]? = true) :
    ¬ ∃ result, cleanupPop prog length (S.frame args) = some result ∧
      PopsTop prog S hs h args result := by
  rintro ⟨result, hrun, hpops⟩
  obtain ⟨c, r, entries, hat, _⟩ := hS.exists_top
  obtain ⟨S', hrun', hlog, _⟩ := hat.popCall prog length hexecute
  obtain rfl := Option.some.inj (hrun'.symm.trans hrun)
  obtain ⟨hcalled, houtcome⟩ := hpops.executed hexecute
  -- with its own arguments the handler was called, so its results are those promised
  have hseen : h.seen length r = h.event :=
    List.singleton_inj.mp (List.append_cancel_left (hlog.symm.trans hcalled))
  rw [(h.seen_eq_event_iff length r).mp hseen] at houtcome
  exact popOutcome_ne_statusOutcome _ houtcome

/-- **`cleanup.pop` does what it is to do exactly when the handler is not executed.** -/
theorem cleanup_pop_iff (prog : Program) (length : Length) (S : ThreadState R)
    (hs : List Handler) (h : Handler) (args : List Value) (hS : Holds S (hs ++ [h])) :
    (∃ result, cleanupPop prog length (S.frame args) = some result ∧
      PopsTop prog S hs h args result) ↔ toboolean args[0]? = false := by
  constructor
  · intro hpops
    by_contra hexecute
    rw [Bool.not_eq_false] at hexecute
    exact hS.not_popsTop hexecute hpops
  · intro hexecute
    obtain ⟨c, r, entries, hat, hentries⟩ := hS.exists_top
    obtain ⟨S', hrun, hlog, hrest⟩ := hat.pop prog length hexecute
    refine ⟨_, hrun, ⟨c, entries, hrest, hentries⟩, ?_, fun _ => hlog⟩
    intro htrue
    rw [hexecute] at htrue
    cases htrue

end Pop

/-- A handler without arguments. -/
def sampleHandler (ref : Nat) : Handler := ⟨.cfunction ref, [], Value.noConfusion⟩

/-- A thread with one handler, which its table 1 holds. -/
def sampleThread : ThreadState sampleRuntime :=
  ⟨⟨⟨[], [], 0⟩, [.ofList [.table 1], .ofList (sampleHandler 7).values]⟩, .table 0, []⟩

theorem holds_sampleThread : Holds sampleThread ([] ++ [sampleHandler 7]) := by
  refine ⟨0, [(1, sampleHandler 7)], ⟨rfl, rfl, ?_⟩, rfl⟩
  intro p hp
  obtain rfl := List.mem_singleton.mp hp
  exact ⟨Nat.one_ne_zero, rfl⟩

theorem cleanup_pop_iff_false :
    ∃ result, cleanupPop (fun _ _ _ => .ok []) .least (sampleThread.frame [.boolean false]) =
        some result ∧
      PopsTop (fun _ _ _ => .ok []) sampleThread [] (sampleHandler 7) [.boolean false] result :=
  (cleanup_pop_iff _ _ sampleThread [] (sampleHandler 7) [.boolean false]
    holds_sampleThread).mpr rfl

/-- A handler that is executed returns nothing, and `cleanup.pop` no status. -/
theorem not_popsTop_executed :
    ¬ ∀ (R : Runtime) (prog : Program) (length : Length) (S : ThreadState R)
      (hs : List Handler) (h : Handler) (args : List Value), Holds S (hs ++ [h]) →
      ∃ result, cleanupPop prog length (S.frame args) = some result ∧
        PopsTop prog S hs h args result := by
  intro hall
  exact Holds.not_popsTop holds_sampleThread rfl
    (hall sampleRuntime (fun _ _ _ => .ok []) .least sampleThread [] (sampleHandler 7)
      [.boolean true] holds_sampleThread)

/-! ## Pushes, pops and a cancellation -/

/-- The calls that a thread makes: `cleanup.push` of a function and its arguments, and
`cleanup.pop` with any arguments. -/
inductive Op where
  | push (h : Handler)
  | pop (args : List Value)

/-- One call, in a frame of its own. -/
def step (prog : Program) (length : Length) (S : ThreadState R) : Op → Option (ThreadState R)
  | .push h => some (cleanupPush length (S.frame h.values)).2
  | .pop args => (cleanupPop prog length (S.frame args)).map Prod.snd

def run (prog : Program) (length : Length) (S : ThreadState R) : List Op → Option (ThreadState R)
  | [] => some S
  | op :: ops => (step prog length S op).bind (fun S' => run prog length S' ops)

/-- What a call does to the handlers that are pushed. -/
def Op.apply (hs : List Handler) : Op → List Handler
  | .push h => hs ++ [h]
  | .pop _ => hs.dropLast

/-- The handlers that are still pushed, the last on top. -/
def stillPushed (ops : List Op) : List Handler := ops.foldl Op.apply []

section Run
variable {S : ThreadState R} {c : Nat} {entries : List (Nat × Handler)}

/-- On an empty stack `cleanup.pop` finds nil, which it cannot execute. -/
theorem HoldsAt.popEmpty (prog : Program) (hS : HoldsAt S c []) (length : Length)
    (args : List Value) :
    ∃ o S', cleanupPop prog length (S.frame args) = some (o, S') ∧ HoldsAt S' c [] := by
  let T₁ := (getcleanupstack (S.frame args)).lua
  have hstack : T₁.stack = args ++ .table c :: [] := by
    change args ++ [S.cleanup] = _
    rw [hS.cleanup]
  have hpop : tpop length T₁ (args.length + 1) =
      .ok (T₁.withStack (T₁.stack ++ [.nil])) := by
    have hspec := tpop_spec length hstack hS.stack
    rw [border_entries, Table.set_nil_of_get_nil (by rfl)] at hspec
    exact hspec.trans (congrArg Except.ok (setTable_self hS.stack))
  have hremove : (T₁.withStack (T₁.stack ++ [.nil])).remove (args.length + 1) =
      T₁.withStack (args ++ [.nil]) := by
    apply remove_of_stack
    rw [withStack_stack, hstack, List.append_assoc]
    rfl
  let T₂ := T₁.withStack (args ++ [.nil])
  have hheld : HoldsAt (S.withLua T₂) c [] := hS.congr rfl rfl
  have hindex : (S.frame args).lua.index 1 = args[0]? := rfl
  cases hexecute : toboolean args[0]? with
  | false =>
    let S' := S.withLua (T₂.push (.boolean true))
    refine ⟨returnTop S' (S'.lua.gettop - (args.length + 1)), S', ?_, hS.congr rfl rfl⟩
    simp only [cleanupPop, hindex, hexecute, gettop_getcleanupstack, hpop, T₁, hremove]
    rfl
  | true =>
    have hstack₂ : T₂.stack = args ++ .nil :: [] := rfl
    have hlen : T₂.len length (T₂.absindex (-1)) = .error lengthMessage := by
      have hidx : T₂.absindex (-1) = args.length + 1 := absindex_of_stack hstack₂
      rw [hidx, len, tableAt, index_of_stack hstack₂]
    have hunpack : tunpack length T₂ (-1) = .error lengthMessage := by
      rw [tunpack, hlen]
    refine ⟨.raised lengthMessage, S.withLua T₂, ?_, hheld⟩
    simp only [cleanupPop, hindex, hexecute, gettop_getcleanupstack, hpop, T₁, hremove,
      ite_true, getcleanupstack_withLua, ThreadState.frame_withLua, ThreadState.withLua_lua]
    rw [show T₁.withStack _ = T₂ from rfl, hunpack]

/-- **Every call keeps the stack of handlers**, pushing one or removing the last. -/
theorem Holds.step (prog : Program) (length : Length) {hs : List Handler} (hS : Holds S hs)
    (op : Op) : ∃ S', step prog length S op = some S' ∧ Holds S' (op.apply hs) := by
  obtain ⟨c, entries, hat, rfl⟩ := hS
  cases op with
  | push h =>
    obtain ⟨S', hpush, _, hat'⟩ := hat.push length h
    refine ⟨S', ?_, c, _, hat', ?_⟩
    · rw [Cleanup.step, hpush]
    · rw [List.map_append]
      rfl
  | pop args =>
    rcases List.eq_nil_or_concat entries with rfl | ⟨rest, ⟨r, h⟩, rfl⟩
    · obtain ⟨o, S', hpop, hat'⟩ := hat.popEmpty prog length args
      refine ⟨S', ?_, c, [], hat', rfl⟩
      rw [Cleanup.step, hpop]
      rfl
    · rw [List.concat_eq_append] at hat ⊢
      have hrest : (Op.pop args).apply ((rest ++ [(r, h)]).map Prod.snd) =
          rest.map Prod.snd := by
        rw [List.map_append]
        exact List.dropLast_concat
      rw [hrest]
      cases hexecute : toboolean args[0]? with
      | false =>
        obtain ⟨S', hpop, _, hat'⟩ := hat.pop prog length hexecute
        refine ⟨S', ?_, c, rest, hat', rfl⟩
        rw [Cleanup.step, hpop]
        rfl
      | true =>
        obtain ⟨S', hpop, _, hat'⟩ := hat.popCall prog length hexecute
        refine ⟨S', ?_, c, rest, hat', rfl⟩
        rw [Cleanup.step, hpop]
        rfl

/-- After any calls the cleanup stack holds the handlers that are still pushed. -/
theorem Holds.run (prog : Program) (length : Length) (ops : List Op) {S : ThreadState R}
    {hs : List Handler} (hS : Holds S hs) :
    ∃ S', run prog length S ops = some S' ∧ Holds S' (ops.foldl Op.apply hs) := by
  induction ops generalizing S hs with
  | nil => exact ⟨S, rfl, hS⟩
  | cons op ops ih =>
    obtain ⟨S₁, hstep, hS₁⟩ := hS.step prog length op
    obtain ⟨S₂, hrun, hS₂⟩ := ih hS₁
    refine ⟨S₂, ?_, hS₂⟩
    rw [Cleanup.run, hstep]
    exact hrun

/-- What one handler that is called leaves: nothing, or the error on the stack. -/
theorem pcall_none (prog : Program) {func : Value} {below args : List Value}
    (h : S.lua.stack = below ++ func :: args) :
    ∃ junk ok, pcall prog S args.length (some 0) =
      some (ok, ⟨S.lua.withStack (below ++ junk), S.cleanup, S.log ++ [.call func args]⟩) := by
  cases hresult : prog S.log func args with
  | ok rs =>
    have hnone : adjust (some 0) rs = [] := by simp [adjust]
    refine ⟨[], true, ?_⟩
    rw [pcall_ok h hresult, hnone]
  | error err => exact ⟨[err], false, pcall_error h hresult (some 0)⟩

/-- The loop of `thread_cleanup` when the handlers in `done` have been called. -/
theorem HoldsAt.loop (prog : Program) (length : Length) {below junk : List Value}
    (done rest : List (Nat × Handler)) {S : ThreadState R} (hS : HoldsAt S c (done ++ rest))
    (hstack : S.lua.stack = below ++ .table c :: junk) :
    ∃ S', cleanupLoop prog length (below.length + 1) (done.length + 1) rest.length S = some S' ∧
      S'.log = S.log ++ rest.map (fun p => p.2.seen length p.1) := by
  induction rest generalizing done S junk with
  | nil => exact ⟨S, rfl, (List.append_nil _).symm⟩
  | cons p rest ih =>
    have htable := tableAt_of_stack hstack hS.stack
    have hkey : (Table.ofList ((done ++ p :: rest).map (fun p => .table p.1))).get
        (done.length + 1) = .table p.1 := by
      simp
    let below' := below ++ .table c :: junk
    let S₁ := S.withLua (S.lua.rawgeti (below.length + 1) (done.length + 1))
    have hlua : S₁.lua = S.lua.withStack (below' ++ [.table p.1]) := by
      rw [ThreadState.withLua_lua, rawgeti_of_tableAt htable, hkey, hstack]
    have htop : S₁.lua.stack = below' ++ [.table p.1] := by rw [hlua, withStack_stack]
    have hpacked : S₁.lua.tables[p.1]? = some (.ofList p.2.values) := by
      rw [hlua]
      exact (hS.packed p (by simp)).2
    have hunpack := tunpack_handler length p.2 htop hpacked
    let S₂ := S₁.withLua (S₁.lua.withStack (below' ++ p.2.func :: p.2.unpacked length p.1))
    have hstack₂ : S₂.lua.stack = below' ++ p.2.func :: p.2.unpacked length p.1 := rfl
    obtain ⟨junk', ok, hcall⟩ := pcall_none prog hstack₂
    have hcount : (((p.2.unpacked length p.1).length + 1 : Nat) : Int) - 1 =
        (p.2.unpacked length p.1).length := by omega
    let S₃ : ThreadState R :=
      ⟨S₂.lua.withStack (below' ++ junk'), S.cleanup, S.log ++ [p.2.seen length p.1]⟩
    have htables : S₃.lua.tables = S.lua.tables := by
      change S₁.lua.tables = _
      rw [hlua]
      rfl
    have hS₃ : HoldsAt S₃ c (done ++ [p] ++ rest) := by
      rw [List.append_assoc]
      exact hS.congr rfl htables
    have hstack₃ : S₃.lua.stack = below ++ .table c :: (junk ++ junk') := by
      change below ++ .table c :: junk ++ junk' = _
      rw [List.append_assoc]
      rfl
    obtain ⟨S', hrun, hlog⟩ := ih (done ++ [p]) hS₃ hstack₃
    refine ⟨S', ?_, ?_⟩
    · rw [List.length_append, List.length_singleton] at hrun
      rw [List.length_cons, cleanupLoop]
      simp only [show S.withLua (S.lua.rawgeti _ _) = S₁ from rfl, hunpack, hcount,
        show S₁.withLua _ = S₂ from rfl, hcall]
      exact hrun
    · rw [hlog, List.append_assoc]
      rfl

/-- **What a cancellation does**: the handlers are called from the first pushed to the
last, whatever else is on the stack and however each of them ends, and then the Lua
state is closed. -/
theorem HoldsAt.cancel (prog : Program) (length : Length) (hS : HoldsAt S c entries)
    (below : List Value) :
    ∃ S', threadCleanup prog length (S.frame below) = some S' ∧
      S'.log = S.log ++ entries.map (fun p => p.2.seen length p.1) ++ [.close] := by
  let S₁ := getcleanupstack (S.frame below)
  have hstack : S₁.lua.stack = below ++ .table c :: [] := by
    change below ++ [S.cleanup] = _
    rw [hS.cleanup]
  have hlen : S₁.lua.len length (-1) = .ok entries.length := by
    have htable : S₁.lua.tableAt (-1) = some (c, _) :=
      tableAt_of_index (index_neg_of_stack hstack) hS.stack
    rw [len_of_tableAt length htable, border_entries]
  have hS₁ : HoldsAt S₁ c ([] ++ entries) := hS.congr rfl rfl
  obtain ⟨S₂, hloop, hlog⟩ := hS₁.loop prog length [] entries hstack
  refine ⟨{ S₂ with log := S₂.log ++ [.close] }, ?_, ?_⟩
  · rw [threadCleanup]
    simp only [show getcleanupstack (S.frame below) = S₁ from rfl, hlen]
    rw [show (S₁.lua.gettop : Int) = below.length + 1 from gettop_getcleanupstack S below]
    simp only [show cleanupLoop prog length (below.length + 1) 1 entries.length S₁ = some S₂
      from hloop]
  · rw [hlog]
    rfl

end Run

/-! ## The order of the handlers -/

/-- The number of arguments of a call. -/
def Event.nargs : Event → Nat
  | .call _ args => args.length
  | .close => 0

/-- A list that is its own reverse up to a loss at each place has lost nothing. -/
theorem eq_of_le_of_eq_reverse {a b : List Nat} (hlen : a.length = b.length)
    (hle : ∀ i (ha : i < a.length) (hb : i < b.length), a[i] ≤ b[i]) (h : a = b.reverse) :
    a = b := by
  have hget : ∀ i (ha : i < a.length), a[i] = b[b.length - 1 - i] := by
    intro i ha
    have : a[i]? = b.reverse[i]? := by rw [← h]
    rw [List.getElem?_eq_getElem ha, List.getElem?_reverse (by omega),
      List.getElem?_eq_getElem (by omega)] at this
    exact Option.some.inj this
  apply List.ext_getElem hlen
  intro i ha hb
  -- `b i` stands in `a` at the mirrored place, where `a` has no more than `b`, which is `a i`
  have hmirror : b[i] = a[b.length - 1 - i] := by
    rw [hget (b.length - 1 - i) (by omega)]
    congr 1
    omega
  have hback := hle (b.length - 1 - i) (by omega) (by omega)
  rw [← hmirror, ← hget i ha] at hback
  exact Nat.le_antisymm (hle i ha hb) hback

theorem Handler.event_injective : Function.Injective Handler.event := by
  rintro ⟨func, args, _⟩ ⟨func', args', _⟩ heq
  obtain ⟨rfl, rfl⟩ := Event.call.inj heq
  rfl

/-- The handlers are called last-in first-out, each with its arguments, exactly when all
arguments come back and the order does not matter. -/
theorem seen_eq_reverse_iff (length : Length) (entries : List (Nat × Handler)) :
    entries.map (fun p => p.2.seen length p.1) =
        ((entries.map Prod.snd).reverse).map Handler.event ↔
      (∀ p ∈ entries, p.2.unpacked length p.1 = p.2.args) ∧
        (entries.map Prod.snd).reverse = entries.map Prod.snd := by
  constructor
  · intro heq
    have hcounts : (entries.map (fun p => (p.2.unpacked length p.1).length)) =
        entries.map (fun p => p.2.args.length) := by
      apply eq_of_le_of_eq_reverse
      · rw [List.length_map, List.length_map]
      · intro i ha _
        rw [List.getElem_map, List.getElem_map]
        exact Handler.length_unpacked_le ..
      · have := congrArg (List.map Event.nargs) heq
        simpa [Handler.seen, Handler.event, Event.nargs, List.map_reverse, Function.comp_def]
          using this
    have hargs : ∀ p ∈ entries, p.2.unpacked length p.1 = p.2.args := by
      intro p hp
      have hlen := List.map_inj_left.mp hcounts p hp
      exact p.2.unpacked_eq_of_length length p.1 (Nat.le_of_eq hlen.symm)
    refine ⟨hargs, ?_⟩
    have hseen : entries.map (fun p => p.2.seen length p.1) =
        (entries.map Prod.snd).map Handler.event := by
      rw [List.map_map]
      apply List.map_congr_left
      intro p hp
      exact (p.2.seen_eq_event_iff length p.1).mpr (hargs p hp)
    exact (List.map_injective_iff.mpr Handler.event_injective (hseen.symm.trans heq)).symm
  · rintro ⟨hargs, hreverse⟩
    rw [hreverse, List.map_map]
    apply List.map_congr_left
    intro p hp
    exact (p.2.seen_eq_event_iff length p.1).mpr (hargs p hp)

/-- The thread makes the calls `ops` and is then cancelled, with `below` on the stack: the
handlers still pushed are called once each, the last pushed first, each with its
arguments, and then the Lua state is closed. -/
def CancelsLifo (prog : Program) (length : Length) (S : ThreadState R) (ops : List Op)
    (below : List Value) : Prop :=
  ∃ S₁ S₂, run prog length (initcleanupstack S) ops = some S₁ ∧
    threadCleanup prog length (S₁.frame below) = some S₂ ∧
    S₂.log = S₁.log ++ (stillPushed ops).reverse.map Handler.event ++ [.close]

/-- For one choice of lengths: the arguments that come back decide. -/
theorem cancelsLifo_iff (prog : Program) (length : Length) (S : ThreadState R) (ops : List Op)
    (below : List Value) :
    ∃ entries : List (Nat × Handler), entries.map Prod.snd = stillPushed ops ∧
      (CancelsLifo prog length S ops below ↔
        (∀ p ∈ entries, p.2.unpacked length p.1 = p.2.args) ∧
          (stillPushed ops).reverse = stillPushed ops) := by
  obtain ⟨S₁, hrun, c, entries, hat, hpushed⟩ := (holds_init S).run prog length ops
  have hentries : entries.map Prod.snd = stillPushed ops := hpushed
  obtain ⟨S₂, hcleanup, hlog⟩ := hat.cancel prog length below
  refine ⟨entries, hentries, ?_⟩
  have hiff := seen_eq_reverse_iff length entries
  rw [hentries] at hiff
  rw [← hiff]
  constructor
  · rintro ⟨S₁', S₂', hrun', hcleanup', hlog'⟩
    obtain rfl := Option.some.inj (hrun.symm.trans hrun')
    obtain rfl := Option.some.inj (hcleanup.symm.trans hcleanup')
    rw [hlog] at hlog'
    exact List.append_cancel_left (List.append_cancel_right hlog')
  · intro hseen
    exact ⟨S₁, S₂, hrun, hcleanup, by rw [hlog, hseen]⟩

/-- **A cancelled thread runs its handlers last-in first-out, whatever length a table
with holes has, exactly when their order does not matter** — the handlers that are still
pushed read the same in both directions — and none of them has nil among its arguments. -/
theorem cleanup_lifo_iff (prog : Program) (S : ThreadState R) (ops : List Op)
    (below : List Value) :
    (∀ length, CancelsLifo prog length S ops below) ↔
      (stillPushed ops).reverse = stillPushed ops ∧ ∀ h ∈ stillPushed ops, .nil ∉ h.args := by
  constructor
  · intro hall
    obtain ⟨entries, hentries, hiff⟩ := cancelsLifo_iff prog .least S ops below
    obtain ⟨hargs, hreverse⟩ := hiff.mp (hall .least)
    refine ⟨hreverse, ?_⟩
    intro h hh hnil
    rw [← hentries] at hh
    obtain ⟨p, hp, rfl⟩ := List.mem_map.mp hh
    exact p.2.unpacked_least p.1 hnil (hargs p hp)
  · rintro ⟨hreverse, hnil⟩ length
    obtain ⟨entries, hentries, hiff⟩ := cancelsLifo_iff prog length S ops below
    refine hiff.mpr ⟨?_, hreverse⟩
    intro p hp
    apply p.2.unpacked_of_not_mem
    apply hnil
    rw [← hentries]
    exact List.mem_map_of_mem hp

/-- Two handlers are called in the order in which they were pushed. -/
theorem not_cancelsLifo_two :
    ¬ ∀ (R : Runtime) (prog : Program) (length : Length) (S : ThreadState R) (ops : List Op)
      (below : List Value), CancelsLifo prog length S ops below := by
  intro hall
  let ops := [Op.push (sampleHandler 1), .push (sampleHandler 2)]
  obtain ⟨entries, _, hiff⟩ :=
    cancelsLifo_iff (fun _ _ _ => .ok []) .least sampleThread ops []
  have hreverse : [sampleHandler 2, sampleHandler 1] = [sampleHandler 1, sampleHandler 2] :=
    (hiff.mp (hall _ _ _ _ _ _)).2
  exact absurd hreverse (by decide)

end Cleanup
end FluaLibs
