import FluaLibs.LuaState
import FluaLibs.NvLists

/-! # The elements of a table of lists

`getnvlist` and `getanynvlist` look at a value of the stack by its index, and they push the
metatables they compare above it.  An index that counts from the top then means another
slot: the user value that is read is not that of the element but that of a metatable, and of
the three metatables it is not the element's that is compared with the two kinds.  The methods
look at their arguments by absolute indices and at the elements of a table by `-1`, so the
former are right (`checknvlist_state`, `checkanynvlist_state`) and no array is passed through
as it is in the table (`not_passed_intact`).
-/
namespace FluaLibs
namespace NvElements

/-- What the calls meet: the metatables and the tables, libnv, `malloc`, how a number reads
as a string, and what `lua_getiuservalue` pushes for a value that is no full userdata. -/
structure Env where
  NVLIST_METATABLE : Nat
  CONST_NVLIST_METATABLE : Nat
  distinct : NVLIST_METATABLE ≠ CONST_NVLIST_METATABLE
  metatable : Value → Option Nat
  table : Nat → List Value
  nvlist_error : Nat → Bool
  malloc : Nat → Bool
  numeral : Value → List UInt8
  stray : Value → Value

/-- The Lua state, the cookie of every userdata (0 is NULL), the values whose user value has
been read, and the lists that have been destroyed. -/
structure Machine (R : Runtime) where
  lua : LuaState R
  cookies : Nat → Nat
  reads : List Value
  destroyed : List Nat

/-- The errors that are raised. -/
inductive Raised where
  | argerror (arg : Int) (extramsg : String)
  | typeerror (arg : Int) (tname : String)
  | error (message : String)
  deriving DecidableEq

variable {R : Runtime}

namespace Machine
variable (m : Machine R)

def push (v : Value) : Machine R := { m with lua := m.lua.push v }

def pop (n : Nat) : Machine R := { m with lua := m.lua.pop n }

def index (idx : Int) : Option Value := m.lua.index idx

/-- `nvlist_destroy` of the lists `value[i - 1]` to `value[0]`. -/
def destroyAll (values : List Nat) : Machine R :=
  { m with destroyed := m.destroyed ++ values.reverse }

/-- `setcookie(L, idx, NULL)`, of a full userdata. -/
def clear (idx : Int) : Machine R :=
  match m.index idx with
  | some (.userdata u) => { m with cookies := Function.update m.cookies u 0 }
  | _ => m

end Machine

/-! ## `lua_nv.h` -/

section Calls
variable (env : Env) (m : Machine R)

/-- `getcookie`; the value that is pushed is of any type. -/
def getcookie (idx : Int) : Machine R :=
  match m.index idx with
  | some (.userdata u) =>
    { m.push (.lightuserdata (m.cookies u)) with reads := m.reads ++ [.userdata u] }
  | some v => { m.push (env.stray v) with reads := m.reads ++ [v] }
  | none => m.push (env.stray .nil)

/-- The pointer of the cookie at `idx`, `above` values of the helper being popped with it. -/
def readcookie (idx : Int) (above : Nat) : Machine R × Except Raised Nat :=
  match (getcookie env m idx).index (-1) with
  | some (.lightuserdata p) => ((getcookie env m idx).pop above, .ok p)
  | _ => (getcookie env m idx, .error (.argerror idx "invalid cookie"))

def getnvlist (idx : Int) (metatable : Nat) : Machine R × Except Raised Nat :=
  match (m.index idx).bind env.metatable with
  | none => (m, .ok 0)
  | some mt =>
    let m := (m.push (.table mt)).push (.table metatable)
    if m.index (-1) = m.index (-2) then readcookie env m idx 3
    else (m.pop 2, .ok 0)

def getanynvlist (idx : Int) : Machine R × Except Raised Nat :=
  match (m.index idx).bind env.metatable with
  | none => (m, .ok 0)
  | some mt =>
    let m := ((m.push (.table mt)).push (.table env.NVLIST_METATABLE)).push
      (.table env.CONST_NVLIST_METATABLE)
    if m.index (-1) = m.index (-2) ∨ m.index (-1) = m.index (-3) then readcookie env m idx 4
    else (m.pop 3, .ok 0)

/-- The checks that follow `getnvlist` and `getanynvlist`. -/
def checked (idx : Int) (r : Machine R × Except Raised Nat) : Machine R × Except Raised Nat :=
  match r with
  | (m, .error e) => (m, .error e)
  | (m, .ok nvl) =>
    if nvl = 0 then (m, .error (.typeerror idx "nvlist_t"))
    else if env.nvlist_error nvl then (m, .error (.argerror idx "nvlist has error"))
    else (m, .ok nvl)

def checknvlist (idx : Int) : Machine R × Except Raised Nat :=
  checked env idx (getnvlist env m idx env.NVLIST_METATABLE)

def checkanynvlist (idx : Int) : Machine R × Except Raised Nat :=
  checked env idx (getanynvlist env m idx)

/-! ## `lua_nv.c` -/

/-- `lua_geti`, of a table or of an index that is not in use. -/
def geti (idx : Int) (i : Nat) : Machine R × Except Raised Unit :=
  match m.index idx with
  | some (.table t) => (m.push ((env.table t)[i - 1]?.getD .nil), .ok ())
  | _ => (m, .error (.error "attempt to index a nil value"))

/-- The loop of the two methods, with `n` elements to go: how it looks at the element on top
of the stack, what it does before it raises an error, and before it goes on. -/
def elements (get : Machine R → Machine R × Except Raised Nat)
    (giveUp : Machine R → List Nat → Machine R) (goOn : Machine R → Machine R)
    (m : Machine R) (value : List Nat) : Nat → Machine R × Except Raised (List Nat)
  | 0 => (m, .ok value)
  | n + 1 =>
    match geti env m 3 (value.length + 1) with
    | (m, .error e) => (m, .error e)
    | (m, .ok ()) =>
      match get m with
      | (m, .error e) => (m, .error e)
      | (m, .ok nvl) =>
        if nvl = 0 then (giveUp m value, .error (.argerror 3 "nvlists expected"))
        else if env.nvlist_error nvl then
          (giveUp m value, .error (.argerror 3 "nvlist has error"))
        else elements get giveUp goOn (goOn m) (value ++ [nvl]) n

/-- It pops the table with the first element. -/
def addElements (m : Machine R) : Nat → Machine R × Except Raised (List Nat) :=
  elements env (fun m => getanynvlist env m (-1)) (fun m _ => m) (fun m => m.pop 2) m []

def moveElements (m : Machine R) : Nat → Machine R × Except Raised (List Nat) :=
  elements env (fun m => getnvlist env m (-1) env.NVLIST_METATABLE) Machine.destroyAll
    (fun m => (m.clear (-1)).pop 1) m []

/-- `luaL_checkstring`. -/
def checkstring (idx : Int) : Except Raised (List UInt8) :=
  match m.index idx with
  | some (.string s) => .ok s
  | some (.integer i) => .ok (env.numeral (.integer i))
  | some (.number x) => .ok (env.numeral (.number x))
  | _ => .error (.typeerror idx "string")

/-- The list, the name and the array that libnv is handed. -/
structure Passed where
  nvl : Nat
  name : List UInt8
  value : List Nat
  deriving DecidableEq

/-- What the two methods have in common: the checks, and the loop on as many elements as the
table has. -/
def passArray (loop : Machine R → Nat → Machine R × Except Raised (List Nat)) :
    Machine R × Except Raised Passed :=
  match checknvlist env m 1 with
  | (m, .error e) => (m, .error e)
  | (m, .ok nvl) =>
    match checkstring env m 2, m.index 3 with
    | .error e, _ => (m, .error e)
    | .ok name, some (.table t) =>
      let nitems := (env.table t).length
      if nitems = 0 then (m, .error (.argerror 3 "cannot be empty"))
      else if env.malloc nitems = false then
        (m, .error (.error "malloc: Cannot allocate memory"))
      else
        match loop m nitems with
        | (m, .error e) => (m, .error e)
        | (m, .ok value) => (m, .ok ⟨nvl, name, value⟩)
    | .ok _, _ => (m, .error (.typeerror 3 "table"))

def l_nvlist_add_nvlist_array : Machine R × Except Raised Passed :=
  passArray env m (addElements env)

def l_nvlist_move_nvlist_array : Machine R × Except Raised Passed :=
  passArray env m (moveElements env)

end Calls

/-! ## The stack -/

namespace Machine
variable {m : Machine R}

@[simp] theorem push_reads (v : Value) : (m.push v).reads = m.reads := rfl
@[simp] theorem push_cookies (v : Value) : (m.push v).cookies = m.cookies := rfl
@[simp] theorem pop_reads (n : Nat) : (m.pop n).reads = m.reads := rfl
@[simp] theorem pop_cookies (n : Nat) : (m.pop n).cookies = m.cookies := rfl
@[simp] theorem destroyAll_reads (values : List Nat) : (m.destroyAll values).reads = m.reads := rfl

@[simp] theorem clear_reads (idx : Int) : (m.clear idx).reads = m.reads := by
  unfold clear
  split <;> rfl

@[simp] theorem index_push (v : Value) : (m.push v).index (-1) = some v :=
  LuaState.index_push_top v

@[simp] theorem index_push_push (v w : Value) : ((m.push v).push w).index (-2) = some v :=
  LuaState.index_below (show _ = m.lua.stack ++ v :: [w] by
    simp only [push, LuaState.push_stack, List.append_assoc, List.singleton_append])

@[simp] theorem index_push_push_push (v w x : Value) :
    (((m.push v).push w).push x).index (-3) = some v :=
  LuaState.index_below (show _ = m.lua.stack ++ v :: [w, x] by
    simp only [push, LuaState.push_stack, List.append_assoc, List.cons_append, List.nil_append])

end Machine

section Reads
variable {env : Env} {m : Machine R} {idx : Int} {v : Value}

/-- The value at the index is the one whose user value is read. -/
theorem getcookie_reads (h : m.index idx = some v) :
    (getcookie env m idx).reads = m.reads ++ [v] := by
  unfold getcookie
  rw [h]
  split
  · rename_i u heq
    cases heq
    rfl
  · rename_i w _ heq
    cases heq
    rfl
  · rename_i heq
    cases heq

theorem readcookie_reads (h : m.index idx = some v) (n : Nat) :
    v ∈ (readcookie env m idx n).1.reads := by
  have hmem : v ∈ (getcookie env m idx).reads := by
    rw [getcookie_reads h]
    exact List.mem_append_right _ (List.mem_singleton_self v)
  unfold readcookie
  split <;> exact hmem

theorem checked_machine (r : Machine R × Except Raised Nat) :
    (checked env idx r).1 = r.1 := by
  unfold checked
  split
  · rfl
  · split
    · rfl
    · split <;> rfl

/-! Nothing is taken back of what has been read. -/

theorem subset_getcookie : m.reads ⊆ (getcookie env m idx).reads := by
  unfold getcookie
  split
  · exact List.subset_append_left ..
  · exact List.subset_append_left ..
  · exact List.Subset.refl _

theorem subset_readcookie (n : Nat) : m.reads ⊆ (readcookie env m idx n).1.reads := by
  unfold readcookie
  split <;> exact subset_getcookie

theorem subset_getnvlist (metatable : Nat) :
    m.reads ⊆ (getnvlist env m idx metatable).1.reads := by
  unfold getnvlist
  split
  · exact List.Subset.refl _
  · dsimp only
    split
    · exact subset_readcookie (m := (m.push _).push _) 3
    · exact List.Subset.refl _

theorem subset_getanynvlist : m.reads ⊆ (getanynvlist env m idx).1.reads := by
  unfold getanynvlist
  split
  · exact List.Subset.refl _
  · dsimp only
    split
    · exact subset_readcookie (m := ((m.push _).push _).push _) 4
    · exact List.Subset.refl _

theorem geti_reads (i : Nat) : (geti env m idx i).1.reads = m.reads := by
  unfold geti
  split <;> rfl

/-- What looks at an element forgets nothing that has been read, nor does what follows. -/
structure Keeps (get : Machine R → Machine R × Except Raised Nat)
    (giveUp : Machine R → List Nat → Machine R) (goOn : Machine R → Machine R) : Prop where
  get : ∀ m, m.reads ⊆ (get m).1.reads
  giveUp : ∀ m value, (giveUp m value).reads = m.reads
  goOn : ∀ m, (goOn m).reads = m.reads

theorem keeps_add : Keeps (R := R) (fun m => getanynvlist env m (-1)) (fun m _ => m)
    (fun m => m.pop 2) :=
  ⟨fun _ => subset_getanynvlist, fun _ _ => rfl, fun _ => rfl⟩

theorem keeps_move : Keeps (R := R) (fun m => getnvlist env m (-1) env.NVLIST_METATABLE)
    Machine.destroyAll (fun m => (m.clear (-1)).pop 1) :=
  ⟨fun _ => subset_getnvlist _, fun _ _ => rfl, fun _ => Machine.clear_reads _⟩

variable {get : Machine R → Machine R × Except Raised Nat}
  {giveUp : Machine R → List Nat → Machine R} {goOn : Machine R → Machine R}

theorem Keeps.elements (h : Keeps get giveUp goOn) (m : Machine R) (value : List Nat) (n : Nat) :
    m.reads ⊆ (elements env get giveUp goOn m value n).1.reads := by
  induction n generalizing m value with
  | zero => exact List.Subset.refl _
  | succ n ih =>
    have hgeti : (geti env m 3 (value.length + 1)).1.reads = m.reads := geti_reads _
    unfold NvElements.elements
    generalize geti env m 3 (value.length + 1) = r at hgeti
    obtain ⟨m₁, _ | _⟩ := r
    · exact hgeti ▸ List.Subset.refl _
    · have hget : m.reads ⊆ (get m₁).1.reads := hgeti ▸ h.get m₁
      dsimp only
      generalize get m₁ = r at hget
      obtain ⟨m₂, _ | nvl⟩ := r
      · exact hget
      · dsimp only
        split
        · rw [h.giveUp]
          exact hget
        · split
          · rw [h.giveUp]
            exact hget
          · exact List.Subset.trans ((h.goOn m₂).symm ▸ hget) (ih _ _)

end Reads

/-! ## Absolute indices -/

section Absolute
variable {env : Env} {m : Machine R} {idx : Int} {u : Nat}

/-- A userdata has been read. -/
def Machine.read (m : Machine R) (u : Nat) : Machine R :=
  { m with reads := m.reads ++ [.userdata u] }

/-- With values pushed on the stack. -/
def Machine.above (m : Machine R) (vs : List Value) : Machine R :=
  { m with lua := { m.lua with stack := m.lua.stack ++ vs } }

theorem Machine.above_pop (vs : List Value) : (m.above vs).pop vs.length = m := by
  simp [above, pop, LuaState.pop, LuaState.gettop]

theorem Machine.above_index {vs : List Value} {v : Value} (hidx : 0 < idx)
    (h : m.index idx = some v) : (m.above vs).index idx = some v := by
  have hsome : m.lua.index idx ≠ none := by
    rw [show m.lua.index idx = some v from h]
    exact Option.some_ne_none v
  exact (LuaState.index_of_prefix hidx rfl hsome).trans h

/-- At an absolute index the cookie is the one of the value, whatever lies above it. -/
theorem readcookie_absolute (vs : List Value) (hidx : 0 < idx)
    (h : m.index idx = some (.userdata u)) :
    readcookie env (m.above vs) idx (vs.length + 1) = (m.read u, .ok (m.cookies u)) := by
  have hget : getcookie env (m.above vs) idx =
      (m.read u).above (vs ++ [.lightuserdata (m.cookies u)]) := by
    unfold getcookie
    rw [Machine.above_index hidx h]
    simp [Machine.above, Machine.push, Machine.read, LuaState.push]
  have htop : ((m.read u).above (vs ++ [.lightuserdata (m.cookies u)])).index (-1) =
      some (.lightuserdata (m.cookies u)) := by
    exact LuaState.index_top (List.append_assoc ..).symm
  have hpop := Machine.above_pop (m := m.read u) (vs ++ [.lightuserdata (m.cookies u)])
  rw [List.length_append, List.length_singleton] at hpop
  unfold readcookie
  rw [hget, htop]
  dsimp only
  rw [hpop]

theorem getnvlist_absolute (hidx : 0 < idx) (h : m.index idx = some (.userdata u))
    (metatable : Nat) : getnvlist env m idx metatable =
      if env.metatable (.userdata u) = some metatable then (m.read u, .ok (m.cookies u))
      else (m, .ok 0) := by
  unfold getnvlist
  rw [h]
  dsimp only [Option.bind_some]
  split
  · rename_i heq
    rw [heq, if_neg nofun]
  · rename_i mt heq
    have habove : (m.push (.table mt)).push (.table metatable) =
        m.above [.table mt, .table metatable] := by
      simp [Machine.above, Machine.push, LuaState.push]
    have hpop : (m.above [.table mt, .table metatable]).pop 2 = m := Machine.above_pop _
    simp only [Machine.index_push, Machine.index_push_push, heq, Option.some.injEq,
      Value.table.injEq, eq_comm (a := metatable)]
    have hread : readcookie env (m.above [.table mt, .table metatable]) idx 3 = _ :=
      readcookie_absolute _ hidx h
    rw [habove, hread, hpop]

theorem getanynvlist_absolute (hidx : 0 < idx) (h : m.index idx = some (.userdata u)) :
    getanynvlist env m idx =
      if env.metatable (.userdata u) = some env.CONST_NVLIST_METATABLE then
        (m.read u, .ok (m.cookies u))
      else (m, .ok 0) := by
  unfold getanynvlist
  rw [h]
  dsimp only [Option.bind_some]
  split
  · rename_i heq
    rw [heq, if_neg nofun]
  · rename_i mt heq
    have habove : ((m.push (.table mt)).push (.table env.NVLIST_METATABLE)).push
        (.table env.CONST_NVLIST_METATABLE) = m.above [.table mt, .table env.NVLIST_METATABLE,
          .table env.CONST_NVLIST_METATABLE] := by
      simp [Machine.above, Machine.push, LuaState.push]
    have hpop : (m.above [.table mt, .table env.NVLIST_METATABLE,
      .table env.CONST_NVLIST_METATABLE]).pop 3 = m := Machine.above_pop _
    simp only [Machine.index_push, Machine.index_push_push, Machine.index_push_push_push, heq,
      Option.some.injEq, Value.table.injEq, env.distinct.symm, false_or,
      eq_comm (a := env.CONST_NVLIST_METATABLE)]
    have hread : readcookie env (m.above [.table mt, .table env.NVLIST_METATABLE,
      .table env.CONST_NVLIST_METATABLE]) idx 4 = _ := readcookie_absolute _ hidx h
    rw [habove, hread, hpop]

/-- The userdata of the system as the calls see them. -/
structure Shows (env : Env) (m : Machine R) (s : Nv.State) : Prop where
  metatable : ∀ u d, s.userdata[u]? = some d → d.collected = false →
    (env.metatable (.userdata u) = some env.NVLIST_METATABLE ↔ d.kind = .nvlist) ∧
    (env.metatable (.userdata u) = some env.CONST_NVLIST_METATABLE ↔ d.kind = .const_nvlist) ∧
    m.cookies u = d.cookie.elim 0 (· + 1)
  nvlist_error : ∀ n, env.nvlist_error (n + 1) = s.heap.error n

variable {s : Nv.State} {d : Nv.Userdata}

theorem checked_state {kind : Nv.Kind} {metatable : Nat} (hs : Shows env m s)
    (hd : s.userdata[u]? = some d) (hc : d.collected = false)
    (hkind : env.metatable (.userdata u) = some metatable ↔ d.kind = kind) :
    (checked env idx (if env.metatable (.userdata u) = some metatable then
      (m.read u, .ok (m.cookies u)) else (m, .ok 0))).2.toOption =
      ((s.checkcookie kind u).filter (fun n => !s.heap.error n)).map (· + 1) := by
  have hpointer : s.pointer u = d.cookie.map (fun n => (d.kind, n)) := by
    simp [Nv.State.pointer, hd, hc]
  rw [Nv.State.checkcookie, hpointer]
  by_cases hk : d.kind = kind
  · rw [if_pos (hkind.mpr hk), (hs.metatable u d hd hc).2.2]
    cases d.cookie with
    | none => simp [checked, Except.toOption]
    | some n =>
      cases he : s.heap.error n <;>
        simp [checked, hk, hs.nvlist_error, he, Except.toOption, Option.filter]
  · rw [if_neg (fun h => hk (hkind.mp h))]
    cases d.cookie with
    | none => simp [checked, Except.toOption]
    | some n => simp [checked, hk, Except.toOption]

/-- An argument is checked as in the system. -/
theorem checknvlist_state (hs : Shows env m s) (hd : s.userdata[u]? = some d)
    (hc : d.collected = false) (hidx : 0 < idx) (h : m.index idx = some (.userdata u)) :
    (checknvlist env m idx).2.toOption = (s.checknvlist u).map (· + 1) := by
  rw [checknvlist, getnvlist_absolute hidx h]
  exact checked_state hs hd hc (hs.metatable u d hd hc).1

theorem checkanynvlist_state (hs : Shows env m s) (hd : s.userdata[u]? = some d)
    (hc : d.collected = false) (hidx : 0 < idx) (h : m.index idx = some (.userdata u)) :
    (checkanynvlist env m idx).2.toOption = (s.checkanynvlist u).map (· + 1) := by
  rw [checkanynvlist, getanynvlist_absolute hidx h]
  exact checked_state hs hd hc (hs.metatable u d hd hc).2.1

end Absolute

/-! ## The arrays -/

/-- A method is called on a userdata with a name and a table. -/
def Machine.call (L : LuaState R) (cookies : Nat → Nat) (receiver : Nat) (name : Value) (t : Nat) :
    Machine R :=
  ⟨{ L with stack := [.userdata receiver, name, .table t] }, cookies, [], []⟩

/-- The table has the userdata `vs`, different ones, of lists without an error; their
metatables are among `kinds`. -/
structure ListTable (env : Env) (cookies : Nat → Nat) (kinds : List Nat) (t : Nat)
    (vs : List Nat) : Prop where
  nonempty : vs ≠ []
  contents : env.table t = vs.map .userdata
  nodup : vs.Nodup
  kind : ∀ v ∈ vs, ∃ metatable ∈ kinds, env.metatable (.userdata v) = some metatable
  cookie : ∀ v ∈ vs, cookies v ≠ 0
  nvlist_error : ∀ v ∈ vs, env.nvlist_error (cookies v) = false

/-- The pointers of `vs` are passed in their order, no user value is read but those of `vs` and
the receiver's own, and of all the cookies those of `cleared` are set to NULL. -/
structure Intact (cookies : Nat → Nat) (receiver : Nat) (vs cleared : List Nat)
    (r : Machine R × Except Raised Passed) : Prop where
  passed : ∃ p, r.2 = .ok p ∧ p.value = vs.map cookies
  reads : ∀ v ∈ r.1.reads, v ∈ (receiver :: vs).map Value.userdata
  cookies : ∀ u, r.1.cookies u = if u ∈ cleared then 0 else cookies u

section Arrays
variable {env : Env} {m : Machine R} {get : Machine R → Machine R × Except Raised Nat}
  {giveUp : Machine R → List Nat → Machine R} {goOn : Machine R → Machine R}

/-- The loop that succeeds has accepted the first element, and all that was read for it stays
read. -/
theorem Keeps.first (h : Keeps get giveUp goOn) {t n : Nat} {v : Value} {vs : List Value}
    (ht : m.index 3 = some (.table t)) (hv : env.table t = v :: vs) {value : List Nat}
    (hok : (NvElements.elements env get giveUp goOn m [] (n + 1)).2 = .ok value) :
    (∃ nvl ≠ 0, (get (m.push v)).2 = .ok nvl) ∧
      (get (m.push v)).1.reads ⊆
        (NvElements.elements env get giveUp goOn m [] (n + 1)).1.reads := by
  have hgeti : geti env m 3 1 = (m.push v, .ok ()) := by
    unfold geti
    rw [ht]
    dsimp only
    rw [hv]
    rfl
  unfold NvElements.elements at hok ⊢
  rw [List.length_nil, Nat.zero_add, hgeti] at hok ⊢
  dsimp only at hok ⊢
  generalize get (m.push v) = r at hok ⊢
  obtain ⟨m₁, _ | nvl⟩ := r
  · cases hok
  · dsimp only at hok ⊢
    split at hok
    · cases hok
    · rename_i hne
      split at hok
      · cases hok
      · rename_i hnoerror
        rw [if_neg hne, if_neg hnoerror]
        exact ⟨⟨nvl, hne, rfl⟩, List.Subset.trans ((h.goOn m₁).symm ▸ List.Subset.refl _)
          (h.elements (goOn m₁) _ n)⟩

/-- A call that passes an array has come to the end of its loop, with the stack as it was when
the call began. -/
theorem passArray_ok {loop : Machine R → Nat → Machine R × Except Raised (List Nat)}
    {L : LuaState R} {cookies : Nat → Nat} {receiver t : Nat} {name : Value} {p : Passed}
    (hok : (passArray env (Machine.call L cookies receiver name t) loop).2 = .ok p) :
    ∃ m : Machine R, m.lua = (Machine.call L cookies receiver name t).lua ∧
      loop m (env.table t).length =
        ((passArray env (Machine.call L cookies receiver name t) loop).1, .ok p.value) := by
  have hcheck : (checknvlist env (Machine.call L cookies receiver name t) 1).1.lua =
      (Machine.call L cookies receiver name t).lua := by
    rw [checknvlist, checked_machine,
      getnvlist_absolute (u := receiver) Int.one_pos (by rfl)]
    split <;> rfl
  unfold passArray at hok ⊢
  generalize checknvlist env (Machine.call L cookies receiver name t) 1 = r at hcheck hok ⊢
  obtain ⟨m, _ | nvl⟩ := r
  · cases hok
  · have htable : m.index 3 = some (.table t) := by
      show m.lua.index 3 = _
      rw [show m.lua = _ from hcheck]
      rfl
    refine ⟨m, hcheck, ?_⟩
    dsimp only at hok ⊢
    rw [htable] at hok ⊢
    cases hname : checkstring env m 2 with
    | error e =>
      rw [hname] at hok
      cases hok
    | ok name =>
      rw [hname] at hok
      dsimp only at hok ⊢
      split at hok
      · cases hok
      · rename_i hne
        split at hok
        · cases hok
        · rename_i hmalloc
          rw [if_neg hne, if_neg hmalloc]
          generalize loop m (env.table t).length = r at hok ⊢
          obtain ⟨m', _ | value⟩ := r
          · cases hok
          · cases hok
            rfl

/-- An array that is passed through intact has a first element, for which the userdata of a
list was accepted and no metatable was read. -/
theorem Intact.first (h : Keeps get giveUp goOn) {L : LuaState R} {cookies : Nat → Nat}
    {receiver t : Nat} {name : Value} {kinds vs cleared : List Nat}
    (ht : ListTable env cookies kinds t vs)
    (hintact : Intact cookies receiver vs cleared (passArray env
      (Machine.call L cookies receiver name t)
      (fun m => NvElements.elements env get giveUp goOn m []))) :
    ∃ (m : Machine R) (v : Nat), v ∈ vs ∧
      (∃ nvl ≠ 0, (get (m.push (.userdata v))).2 = .ok nvl) ∧
      ∀ metatable, .table metatable ∉ (get (m.push (.userdata v))).1.reads := by
  obtain ⟨p, hp, -⟩ := hintact.passed
  obtain ⟨m, hlua, hloop⟩ := passArray_ok hp
  obtain ⟨v, rest, rfl⟩ := List.exists_cons_of_ne_nil ht.nonempty
  have htable : m.index 3 = some (.table t) := by
    show m.lua.index 3 = _
    rw [hlua]
    rfl
  have hcontents : env.table t = .userdata v :: rest.map .userdata := ht.contents
  rw [hcontents, List.length_cons] at hloop
  obtain ⟨haccepted, hsub⟩ := h.first htable hcontents (congrArg Prod.snd hloop)
  refine ⟨m, v, List.mem_cons_self .., haccepted, fun metatable hmem => ?_⟩
  have hread := hsub hmem
  rw [hloop] at hread
  obtain ⟨u, -, hu⟩ := List.mem_map.mp (hintact.reads _ hread)
  cases hu

/-- The metatable that has just been pushed is read. -/
theorem getnvlist_top {v : Value} {metatable : Nat} (h : env.metatable v = some metatable) :
    .table metatable ∈ (getnvlist env (m.push v) (-1) metatable).1.reads := by
  unfold getnvlist
  rw [Machine.index_push]
  dsimp only [Option.bind_some]
  rw [h]
  dsimp only
  rw [Machine.index_push, Machine.index_push_push, if_pos rfl]
  exact readcookie_reads (Machine.index_push _) 3

theorem getanynvlist_top {v : Value}
    (h : env.metatable v = some env.CONST_NVLIST_METATABLE) :
    .table env.CONST_NVLIST_METATABLE ∈ (getanynvlist env (m.push v) (-1)).1.reads := by
  unfold getanynvlist
  rw [Machine.index_push]
  dsimp only [Option.bind_some]
  rw [h]
  dsimp only
  rw [Machine.index_push, Machine.index_push_push_push, if_pos (Or.inr rfl)]
  exact readcookie_reads (Machine.index_push _) 4

/-- The metatable of the value is compared with one of the two kinds only. -/
theorem getanynvlist_owned {v : Value} (h : env.metatable v = some env.NVLIST_METATABLE) :
    (getanynvlist env (m.push v) (-1)).2 = .ok 0 := by
  unfold getanynvlist
  rw [Machine.index_push]
  dsimp only [Option.bind_some]
  rw [h]
  dsimp only
  simp only [Machine.index_push, Machine.index_push_push, Machine.index_push_push_push,
    Option.some.injEq, Value.table.injEq, env.distinct.symm, or_self, ite_false]

/-- **No array is passed through as it is in the table**, whatever comes of reading the user
value of a metatable. -/
theorem not_passed_intact (env : Env) (L : LuaState R) (cookies : Nat → Nat) (receiver : Nat)
    (name : Value) (t : Nat) (vs : List Nat) :
    (ListTable env cookies [env.NVLIST_METATABLE, env.CONST_NVLIST_METATABLE] t vs →
      ¬ Intact cookies receiver vs []
        (l_nvlist_add_nvlist_array env (Machine.call L cookies receiver name t))) ∧
    (ListTable env cookies [env.NVLIST_METATABLE] t vs →
      ¬ Intact cookies receiver vs vs
        (l_nvlist_move_nvlist_array env (Machine.call L cookies receiver name t))) := by
  refine ⟨fun ht hintact => ?_, fun ht hintact => ?_⟩
  · obtain ⟨m, v, hv, ⟨nvl, hnvl, hok⟩, hnotable⟩ := hintact.first keeps_add ht
    obtain ⟨metatable, hmem, hmetatable⟩ := ht.kind v hv
    rcases List.mem_cons.mp hmem with rfl | hmem
    · rw [getanynvlist_owned hmetatable] at hok
      cases hok
      exact hnvl rfl
    · cases List.mem_singleton.mp hmem
      exact hnotable _ (getanynvlist_top hmetatable)
  · obtain ⟨m, v, hv, -, hnotable⟩ := hintact.first keeps_move ht
    obtain ⟨metatable, hmem, hmetatable⟩ := ht.kind v hv
    cases List.mem_singleton.mp hmem
    exact hnotable _ (getnvlist_top hmetatable)

end Arrays

/-! ## A table of one list -/

/-- Table 10 has the userdata 7 in it, of the kind that is given; reading a metatable gives a
pointer to 99. -/
def single (kind : Nat) : Env where
  NVLIST_METATABLE := 1
  CONST_NVLIST_METATABLE := 2
  distinct := by decide
  metatable v := if v = .userdata 7 then some kind else if v = .userdata 3 then some 1 else none
  table _ := [.userdata 7]
  nvlist_error _ := false
  malloc _ := true
  numeral _ := []
  stray _ := .lightuserdata 99

/-- The lists are at 30 and 70. -/
def cookiesOf (u : Nat) : Nat := 10 * u

theorem single_listTable {kind : Nat} {kinds : List Nat} (h : kind ∈ kinds) :
    ListTable (single kind) cookiesOf kinds 10 [7] where
  nonempty := List.cons_ne_nil _ _
  contents := rfl
  nodup := List.nodup_singleton 7
  kind v hv := by
    cases List.mem_singleton.mp hv
    exact ⟨kind, h, rfl⟩
  cookie v hv := by
    cases List.mem_singleton.mp hv
    decide
  nvlist_error _ _ := rfl

/-- The call on the list of userdata 3. -/
def single_call : Machine noFunctions := Machine.call ⟨[], [], 0⟩ cookiesOf 3 (.literal "a") 10

theorem not_passed_intact_single :
    ¬ Intact cookiesOf 3 [7] [] (l_nvlist_add_nvlist_array (single 2) single_call) ∧
    ¬ Intact cookiesOf 3 [7] [7] (l_nvlist_move_nvlist_array (single 1) single_call) :=
  ⟨(not_passed_intact (single 2) ⟨[], [], 0⟩ cookiesOf 3 (.literal "a") 10 [7]).1
      (single_listTable (.tail _ (.head _))),
    (not_passed_intact (single 1) ⟨[], [], 0⟩ cookiesOf 3 (.literal "a") 10 [7]).2
      (single_listTable (.head _))⟩

/-- An `nvlist_t` is refused when it is to be added, and in place of a `const nvlist_t`
libnv is handed what the metatable gave. -/
theorem not_arrays_intact :
    ((l_nvlist_add_nvlist_array (single 1) single_call).2 =
        .error (.argerror 3 "nvlists expected") ∧
      ((l_nvlist_add_nvlist_array (single 2) single_call).2.toOption.map Passed.value =
        some [99]) ∧
      (l_nvlist_add_nvlist_array (single 2) single_call).1.reads = [.userdata 3, .table 2]) ∧
    ¬ ∀ (env : Env) (L : LuaState noFunctions) (cookies : Nat → Nat) (receiver : Nat) (name : Value)
      (t : Nat) (vs : List Nat),
      (ListTable env cookies [env.NVLIST_METATABLE, env.CONST_NVLIST_METATABLE] t vs →
        Intact cookies receiver vs []
          (l_nvlist_add_nvlist_array env (Machine.call L cookies receiver name t))) ∧
      (ListTable env cookies [env.NVLIST_METATABLE] t vs →
        Intact cookies receiver vs vs
          (l_nvlist_move_nvlist_array env (Machine.call L cookies receiver name t))) := by
  have hrefused : (l_nvlist_add_nvlist_array (single 1) single_call).2 =
      .error (.argerror 3 "nvlists expected") := by decide
  refine ⟨⟨hrefused, by decide, by decide⟩, fun h => ?_⟩
  obtain ⟨p, hp, -⟩ := ((h (single 1) ⟨[], [], 0⟩ cookiesOf 3 (.literal "a") 10 [7]).1
    (single_listTable (.head _))).passed
  cases hrefused.symm.trans hp

end NvElements
end FluaLibs
