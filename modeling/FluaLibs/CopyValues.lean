import FluaLibs.LuaState
import Mathlib.Data.List.Forall2

/-! # Copying values between Lua states

`copyn` copies `n` values from the stack of one Lua state to another: scalars
as they are, and Lua functions by dumping the prototype, loading it in the
other state and copying the upvalues one by one.  A value of any other type
ends the copy with the index of the offending value.

The upvalues are copied by a recursive call on the relative index -1.  There the
function case first lets the buffer take its stack slot and only then reads the
index again, so it dumps the buffer's placeholder and fails: a function is
copied only when all its upvalues, `_ENV` apart, are scalars (`copyable`).
`copyn_of_copyable` and `copyn_of_not_copyable` say what a call does on either
kind of list; everything else about `copyn` follows from these two.

All this is with enough Lua stack on both sides: `copyn` checks for none.  `CopyCapacity`
has the same function with the slots that it takes.
-/
namespace FluaLibs
variable {R : Runtime}

/-- The outcome of a call of `copyn`: its return value, and both states. -/
structure Copied (R : Runtime) where
  ret : Int
  src : LuaState R
  dst : LuaState R

/-- The loop over the upvalues of the function at `idx`, from `uv` on, whose copy
is at `lidx`.  `nested` is the recursive call on the value on top of the stack.
The first argument bounds the number of rounds; `none` is never reached when it
exceeds the number of upvalues. -/
def copyUpvalues (nested : LuaState R → LuaState R → Option (Copied R)) (idx lidx : Int) :
    Nat → Nat → LuaState R → LuaState R → Option (Bool × LuaState R × LuaState R)
  | 0, _, _, _ => none
  | rounds + 1, uv, L, l =>
    match L.getupvalue idx uv with
    | none => some (true, L, l)
    | some (name, L') =>
      -- leave the _ENV table alone
      if name = "_ENV" then copyUpvalues nested idx lidx rounds (uv + 1) (L'.pop 1) l
      else
        match nested L' l with
        | none => none
        | some c =>
          if c.ret ≠ 0 then some (false, c.src, c.dst)
          else copyUpvalues nested idx lidx rounds (uv + 1) (c.src.pop 1)
            (c.dst.setupvalue lidx uv)

/-- The number of upvalues of the function at an index. -/
def LuaState.upvalueCount (L : LuaState R) (idx : Int) : Nat :=
  ((L.closureAt idx).map (fun c => c.upvalues.length)).getD 0

/-- The `LUA_TFUNCTION` case.  The Boolean tells whether the loop goes on. -/
def copyFunction (nested : LuaState R → LuaState R → Option (Copied R)) (L l : LuaState R)
    (idx : Int) : Option (Bool × LuaState R × LuaState R) :=
  let L₁ := L.buffinit.pushvalue idx
  match L₁.dump with
  | none => some (false, L₁, l)
  | some chunk =>
    let L₂ := (L₁.addlstring chunk).pushresult chunk
    match l.loadbuffer chunk with
    | (false, l₁) => some (false, L₂, l₁)
    | (true, l₁) =>
      let L₃ := L₂.pop 2
      copyUpvalues nested idx l₁.gettop (L₃.upvalueCount idx + 1) 1 L₃ l₁

/-- One round of the loop of `copyn`, by the type of the value. -/
def copyValue (nested : LuaState R → LuaState R → Option (Copied R)) (L l : LuaState R)
    (idx : Int) : Option (Bool × LuaState R × LuaState R) :=
  match L.index idx with
  | some .nil => some (true, L, l.push .nil)
  | some (.boolean b) => some (true, L, l.push (.boolean b))
  | some (.lightuserdata p) => some (true, L, l.push (.lightuserdata p))
  | some (.integer i) => some (true, L, l.push (.integer i))
  | some (.number x) => some (true, L, l.push (.number x))
  | some (.string s) => some (true, L, l.push (.string s))
  | some (.function _) | some (.cfunction _) => copyFunction nested L l idx
  | _ => some (false, L, l)

/-- The loop of `copyn`, for a number of values from `idx` on. -/
def copyLoop (nested : LuaState R → LuaState R → Option (Copied R)) :
    Nat → LuaState R → LuaState R → Int → Option (Copied R)
  | 0, L, l, _ => some ⟨0, L, l⟩
  | n + 1, L, l, idx =>
    match copyValue nested L l idx with
    | none => none
    | some (false, L', l') => some ⟨idx, L', l'⟩
    | some (true, L', l') => copyLoop nested n L' l' (idx + 1)

/-- `copyn(L, l, idx, n)`.  `depth` bounds the nesting of recursive calls and
`none` means that the bound was hit; a depth of 2 is always enough. -/
def copyn : Nat → LuaState R → LuaState R → Int → Int → Option (Copied R)
  | 0, _, _, _, _ => none
  | depth + 1, L, l, idx, n =>
    copyLoop (fun L' l' => copyn depth L' l' (-1) 1) n.toNat L l idx

/-! ## What is copied -/

/-- The values `copyn` accepts, in a state with the closures `H`. -/
def copyable (H : List (Closure R)) : Value → Bool
  | .function r =>
    match H[r]? with
    | some c => c.upvalues.all (fun p => decide (p.1 = "_ENV") || p.2.isScalar)
    | none => false
  | v => v.isScalar

/-- The copy of a closure once its first `k` upvalues have been transferred, in a
state with the given globals table. -/
def Closure.copyUpTo (c : Closure R) (globals : Nat) : Nat → Closure R
  | 0 => Closure.fresh globals c.proto
  | k + 1 =>
    match c.upvalues[k]? with
    | some (name, v) =>
      if name = "_ENV" then c.copyUpTo globals k else (c.copyUpTo globals k).setUpvalue k v
    | none => c.copyUpTo globals k

/-- The finished copy of a closure. -/
def Closure.copyTo (c : Closure R) (globals : Nat) : Closure R :=
  c.copyUpTo globals c.upvalues.length

/-- A state after it has received a copy of `v`, whose closures are in `H`. -/
def LuaState.receive (H : List (Closure R)) (l : LuaState R) : Value → LuaState R
  | .function r =>
    match H[r]? with
    | some c =>
      { l with
        stack := l.stack ++ [.function l.closures.length]
        closures := l.closures ++ [c.copyTo l.globals] }
    | none => l
  | v => l.push v

/-- A state after it has received copies of a list of values, in order. -/
def LuaState.receiveAll (H : List (Closure R)) (l : LuaState R) (vs : List Value) : LuaState R :=
  vs.foldl (LuaState.receive H) l

/-- `L'` is `L` with values pushed and closures allocated. -/
structure LuaState.Extends (L L' : LuaState R) : Prop where
  stack : ∃ vs, L'.stack = L.stack ++ vs
  closures : ∃ cs, L'.closures = L.closures ++ cs
  globals : L'.globals = L.globals

namespace LuaState.Extends

theorem refl (L : LuaState R) : L.Extends L := ⟨⟨[], by simp⟩, ⟨[], by simp⟩, rfl⟩

theorem trans {L L' L'' : LuaState R} (h : L.Extends L') (h' : L'.Extends L'') :
    L.Extends L'' := by
  obtain ⟨vs, hvs⟩ := h.stack
  obtain ⟨ws, hws⟩ := h'.stack
  obtain ⟨cs, hcs⟩ := h.closures
  obtain ⟨ds, hds⟩ := h'.closures
  exact ⟨⟨vs ++ ws, by rw [hws, hvs, List.append_assoc]⟩,
    ⟨cs ++ ds, by rw [hds, hcs, List.append_assoc]⟩, h'.globals.trans h.globals⟩

theorem push (L : LuaState R) (v : Value) : L.Extends (L.push v) :=
  ⟨⟨[v], rfl⟩, ⟨[], by simp⟩, rfl⟩

theorem receive (H : List (Closure R)) (l : LuaState R) (v : Value) :
    l.Extends (l.receive H v) := by
  unfold LuaState.receive
  split
  · split
    · exact ⟨⟨_, rfl⟩, ⟨_, rfl⟩, rfl⟩
    · exact refl l
  · exact push l _

theorem receiveAll (H : List (Closure R)) (l : LuaState R) (vs : List Value) :
    l.Extends (l.receiveAll H vs) := by
  induction vs generalizing l with
  | nil => exact refl l
  | cons v vs ih => exact (receive H l v).trans (ih (l.receive H v))

end LuaState.Extends

/-! ## The recursive call -/

theorem copyn_top_of_scalar {depth : Nat} {L l : LuaState R} {v : Value} (hv : v.isScalar) :
    copyn (depth + 1) (L.push v) l (-1) 1 = some ⟨0, L.push v, l.push v⟩ := by
  have hone : (1 : Int).toNat = 1 := rfl
  cases v with
  | nil | boolean | lightuserdata | integer | number | string =>
    simp [copyn, hone, copyLoop, copyValue]
  | table | function | cfunction | userdata | thread => simp [Value.isScalar] at hv

/-- On a function the recursive call dumps the placeholder of its own buffer. -/
theorem copyFunction_top (nested : LuaState R → LuaState R → Option (Copied R))
    (L l : LuaState R) : ∃ L', copyFunction nested L l (-1) = some (false, L', l) ∧
      L.Extends L' := by
  refine ⟨L.buffinit.pushvalue (-1), ?_, ?_⟩
  · have hdump : (L.buffinit.pushvalue (-1)).dump = none := by
      simp [LuaState.buffinit, LuaState.pushvalue, LuaState.dump, LuaState.closureAt]
    simp only [copyFunction, hdump]
  · rw [show L.buffinit.pushvalue (-1) = L.buffinit.push (.lightuserdata LuaState.bufferAddress) by
      simp [LuaState.buffinit, LuaState.pushvalue]]
    exact (LuaState.Extends.push L _).trans (LuaState.Extends.push _ _)

theorem copyn_top_of_not_scalar {depth : Nat} {L l : LuaState R} {v : Value}
    (hv : v.isScalar = false) :
    ∃ L', copyn (depth + 1) (L.push v) l (-1) 1 = some ⟨-1, L', l⟩ ∧ L.Extends L' := by
  have hone : (1 : Int).toNat = 1 := rfl
  have hpush := LuaState.Extends.push L v
  cases v with
  | nil | boolean | lightuserdata | integer | number | string => simp [Value.isScalar] at hv
  | table | userdata | thread =>
    exact ⟨L.push _, by simp [copyn, hone, copyLoop, copyValue], hpush⟩
  | function | cfunction =>
    obtain ⟨L', hL', hext⟩ := copyFunction_top (fun L' l' => copyn depth L' l' (-1) 1) (L.push _) l
    exact ⟨L', by simp [copyn, hone, copyLoop, copyValue, hL'], hpush.trans hext⟩

/-! ## The upvalue loop -/

section Upvalues
variable {c : Closure R} {idx : Int}

theorem getupvalue_of_closureAt {L : LuaState R} (hc : L.closureAt idx = some c) (k : Nat) :
    L.getupvalue idx (k + 1) = (c.upvalues[k]?).map (fun p => (p.1, L.push p.2)) := by
  simp [LuaState.getupvalue, hc]

theorem modify_concat (cs : List (Closure R)) (d : Closure R) (f : Closure R → Closure R) :
    (cs ++ [d]).modify cs.length f = cs ++ [f d] := by
  induction cs with
  | nil => rfl
  | cons c cs ih => simp [List.modify_succ_cons, ih]

/-- Setting an upvalue of the function that was pushed last. -/
theorem setupvalue_top {l : LuaState R} {base : List Value} {cs : List (Closure R)}
    {d : Closure R} (hstack : l.stack = base ++ [.function cs.length])
    (hclosures : l.closures = cs ++ [d]) (k : Nat) (v : Value) :
    (l.push v).setupvalue (base.length + 1) (k + 1) =
      { l with closures := cs ++ [d.setUpvalue k v] } := by
  have hidx : (l.push v).index (base.length + 1) = some (.function cs.length) := by
    have hpos : (0 : Int) < base.length + 1 := by omega
    simp [LuaState.index, LuaState.pos, hpos, hstack]
  have hlast : (l.push v).stack.getLast? = some v := by simp
  simp only [LuaState.setupvalue, hidx, hlast]
  simp only [LuaState.push_stack, List.dropLast_concat, LuaState.push_closures, hclosures,
    modify_concat, Nat.add_sub_cancel]
  rfl

/-- The loop copies the upvalues from position `k` on when it meets scalars only. -/
theorem copyUpvalues_of_scalars {depth : Nat} {L : LuaState R} (hc : L.closureAt idx = some c)
    (base : List Value) (cs : List (Closure R)) :
    ∀ (todo k : Nat) (l : LuaState R), k + todo = c.upvalues.length →
      (∀ p ∈ c.upvalues.drop k, p.1 = "_ENV" ∨ p.2.isScalar = true) →
      l.stack = base ++ [.function cs.length] →
      l.closures = cs ++ [c.copyUpTo l.globals k] →
      copyUpvalues (fun L' l' => copyn (depth + 1) L' l' (-1) 1) idx (base.length + 1)
          (todo + 1) (k + 1) L l =
        some (true, L, { l with closures := cs ++ [c.copyTo l.globals] }) := by
  intro todo
  induction todo with
  | zero =>
    intro k l hk _ _ hclosures
    have hnone : L.getupvalue idx (k + 1) = none := by
      rw [getupvalue_of_closureAt hc, List.getElem?_eq_none (by omega)]
      rfl
    have hdone : c.copyTo l.globals = c.copyUpTo l.globals k := by
      rw [Closure.copyTo, ← hk, Nat.add_zero]
    simp only [copyUpvalues, hnone, hdone, ← hclosures]
  | succ todo ih =>
    intro k l hk hscalar hstack hclosures
    obtain ⟨p, hp⟩ : ∃ p, c.upvalues[k]? = some p := ⟨_, List.getElem?_eq_getElem (by omega)⟩
    obtain ⟨name, v⟩ := p
    have hget : L.getupvalue idx (k + 1) = some (name, L.push v) := by
      rw [getupvalue_of_closureAt hc, hp]
      rfl
    have hrest : ∀ p ∈ c.upvalues.drop (k + 1), p.1 = "_ENV" ∨ p.2.isScalar = true :=
      fun q hq => hscalar q (List.mem_of_mem_drop (by rwa [← List.drop_drop] at hq))
    have hmem : (name, v) ∈ c.upvalues.drop k :=
      List.mem_of_getElem? (i := 0) (by rw [List.getElem?_drop, Nat.add_zero]; exact hp)
    rw [copyUpvalues, hget]
    by_cases henv : name = "_ENV"
    · have hcopy : c.copyUpTo l.globals (k + 1) = c.copyUpTo l.globals k := by
        simp [Closure.copyUpTo, hp, henv]
      simp only [henv, ite_true, LuaState.push_pop]
      exact ih (k + 1) l (by omega) hrest hstack (by rw [hcopy]; exact hclosures)
    · have hv : v.isScalar = true := (hscalar _ hmem).resolve_left henv
      have hcopy : c.copyUpTo l.globals (k + 1) =
          (c.copyUpTo l.globals k).setUpvalue k v := by
        simp [Closure.copyUpTo, hp, henv]
      simp only [henv, ite_false, copyn_top_of_scalar hv, ne_eq, not_true_eq_false,
        LuaState.push_pop, setupvalue_top hstack hclosures]
      exact ih (k + 1) _ (by omega) hrest hstack (by rw [hcopy])

/-- The loop stops at the first upvalue that is not a scalar. -/
theorem copyUpvalues_of_not_scalar {depth : Nat} {L : LuaState R} (hc : L.closureAt idx = some c)
    (base : List Value) (cs : List (Closure R)) :
    ∀ (todo k : Nat) (l : LuaState R), k + todo = c.upvalues.length →
      (∃ p ∈ c.upvalues.drop k, p.1 ≠ "_ENV" ∧ p.2.isScalar = false) →
      l.stack = base ++ [.function cs.length] → (∃ d, l.closures = cs ++ [d]) →
      ∃ L' d, copyUpvalues (fun L' l' => copyn (depth + 1) L' l' (-1) 1) idx (base.length + 1)
          (todo + 1) (k + 1) L l = some (false, L', { l with closures := cs ++ [d] }) ∧
        L.Extends L' := by
  intro todo
  induction todo with
  | zero =>
    intro k l hk hbad _ _
    obtain ⟨p, hp, _⟩ := hbad
    rw [List.drop_eq_nil_of_le (by omega)] at hp
    cases hp
  | succ todo ih =>
    intro k l hk hbad hstack hclosures
    obtain ⟨d, hd⟩ := hclosures
    have hlt : k < c.upvalues.length := by omega
    rcases hp : c.upvalues[k] with ⟨name, v⟩
    have hp' : c.upvalues[k]? = some (name, v) := by rw [List.getElem?_eq_getElem hlt, hp]
    have hget : L.getupvalue idx (k + 1) = some (name, L.push v) := by
      rw [getupvalue_of_closureAt hc, hp']
      rfl
    rw [List.drop_eq_getElem_cons hlt, hp] at hbad
    rw [copyUpvalues, hget]
    by_cases henv : name = "_ENV"
    · have hrest : ∃ p ∈ c.upvalues.drop (k + 1), p.1 ≠ "_ENV" ∧ p.2.isScalar = false := by
        obtain ⟨p, hmem, hne, hv⟩ := hbad
        rcases List.mem_cons.mp hmem with rfl | hmem
        · exact absurd henv hne
        · exact ⟨p, hmem, hne, hv⟩
      simp only [henv, ite_true, LuaState.push_pop]
      exact ih (k + 1) l (by omega) hrest hstack ⟨d, hd⟩
    · cases hv : v.isScalar with
      | false =>
        obtain ⟨L', hL', hext⟩ := @copyn_top_of_not_scalar R depth L l v hv
        refine ⟨L', d, ?_, hext⟩
        simp [henv, hL', ← hd]
      | true =>
        have hrest : ∃ p ∈ c.upvalues.drop (k + 1), p.1 ≠ "_ENV" ∧ p.2.isScalar = false := by
          obtain ⟨p, hmem, hne, hpv⟩ := hbad
          rcases List.mem_cons.mp hmem with rfl | hmem
          · exact absurd hpv (by simp [hv])
          · exact ⟨p, hmem, hne, hpv⟩
        simp only [henv, ite_false, copyn_top_of_scalar hv, ne_eq, not_true_eq_false,
          LuaState.push_pop, setupvalue_top hstack hd]
        exact ih (k + 1) _ (by omega) hrest hstack ⟨_, rfl⟩

end Upvalues

/-! ## One value -/

section Function
variable {L l : LuaState R} {idx : Int} {r : Nat} {c : Closure R} {v : Value}

theorem pushvalue_buffinit (hidx : 0 < idx) (hv : L.index idx = some v) :
    L.buffinit.pushvalue idx = (L.push (.lightuserdata LuaState.bufferAddress)).push v := by
  have hstack : L.buffinit.stack = L.stack ++ [.lightuserdata LuaState.bufferAddress] := rfl
  have h : L.buffinit.index idx = some v := by
    rw [LuaState.index_of_prefix hidx hstack (by simp [hv]), hv]
  simp only [LuaState.pushvalue, h]
  rfl

/-- Whether or not the chunk fits the buffer, what the buffer and the dumped
function take on the stack is gone after the two pops. -/
theorem buffer_balanced (v w : Value) (s : List UInt8) :
    ((((L.push v).push w).addlstring s).pushresult s).pop 2 = L := by
  unfold LuaState.addlstring LuaState.pushresult
  split
  · rw [LuaState.remove_below_top, LuaState.push_push_pop]
  · rw [LuaState.push_pop, LuaState.remove_below_top, LuaState.push_push_pop]

/-- What `lua_dump` refuses is not copied. -/
theorem copyFunction_of_closureAt_none (nested : LuaState R → LuaState R → Option (Copied R))
    (hidx : 0 < idx) (hv : L.index idx = some v) (hc : L.closureAt idx = none) :
    ∃ L' l', copyFunction nested L l idx = some (false, L', l') ∧ L.Extends L' ∧
      l.Extends l' := by
  refine ⟨L.buffinit.pushvalue idx, l, ?_, ?_, LuaState.Extends.refl l⟩
  · have hdump : (L.buffinit.pushvalue idx).dump = none := by
      rw [pushvalue_buffinit hidx hv]
      cases v with
      | function r =>
        simp only [LuaState.closureAt, hv] at hc
        simp [LuaState.dump, LuaState.closureAt, hc]
      | _ => simp [LuaState.dump, LuaState.closureAt]
    simp only [copyFunction, hdump]
  · rw [pushvalue_buffinit hidx hv]
    exact (LuaState.Extends.push L _).trans (LuaState.Extends.push _ _)

theorem closureAt_of_index (hv : L.index idx = some (.function r))
    (hc : L.closures[r]? = some c) : L.closureAt idx = some c := by
  simp [LuaState.closureAt, hv, hc]

/-- The function case up to the upvalue loop. -/
theorem copyFunction_eq (nested : LuaState R → LuaState R → Option (Copied R)) (hidx : 0 < idx)
    (hv : L.index idx = some (.function r)) (hc : L.closures[r]? = some c) :
    copyFunction nested L l idx =
      copyUpvalues nested idx (l.stack.length + 1) (c.upvalues.length + 1) 1 L
        { l with
          stack := l.stack ++ [.function l.closures.length]
          closures := l.closures ++ [c.copyUpTo l.globals 0] } := by
  have hdump : (L.buffinit.pushvalue idx).dump = some (R.dump c.proto) := by
    rw [pushvalue_buffinit hidx hv]
    simp [LuaState.dump, LuaState.closureAt, hc]
  have hload : l.loadbuffer (R.dump c.proto) =
      (true,
        { l with
          stack := l.stack ++ [.function l.closures.length]
          closures := l.closures ++ [c.copyUpTo l.globals 0] }) := by
    simp [LuaState.loadbuffer, R.load_dump, Closure.copyUpTo]
  have hcount : L.upvalueCount idx = c.upvalues.length := by
    simp [LuaState.upvalueCount, closureAt_of_index hv hc]
  simp only [copyFunction, hdump, hload]
  rw [pushvalue_buffinit hidx hv, buffer_balanced, hcount]
  simp [LuaState.gettop]

theorem copyable_function (hc : L.closures[r]? = some c) :
    copyable L.closures (.function r) = true ↔
      ∀ p ∈ c.upvalues, p.1 = "_ENV" ∨ p.2.isScalar = true := by
  simp [copyable, hc]

theorem copyFunction_of_copyable {depth : Nat} (hidx : 0 < idx)
    (hv : L.index idx = some (.function r))
    (hcopy : copyable L.closures (.function r) = true) :
    copyFunction (fun L' l' => copyn (depth + 1) L' l' (-1) 1) L l idx =
      some (true, L, l.receive L.closures (.function r)) := by
  cases hc : L.closures[r]? with
  | none => simp [copyable, hc] at hcopy
  | some c =>
    have hscalar := (copyable_function hc).mp hcopy
    rw [copyFunction_eq _ hidx hv hc,
      copyUpvalues_of_scalars (closureAt_of_index hv hc) l.stack l.closures _ 0 _ (by omega)
        hscalar rfl rfl]
    simp [LuaState.receive, hc]

theorem copyFunction_of_not_copyable {depth : Nat} (hidx : 0 < idx)
    (hv : L.index idx = some (.function r))
    (hcopy : copyable L.closures (.function r) = false) :
    ∃ L' l', copyFunction (fun L' l' => copyn (depth + 1) L' l' (-1) 1) L l idx =
      some (false, L', l') ∧ L.Extends L' ∧ l.Extends l' := by
  cases hc : L.closures[r]? with
  | none =>
    exact copyFunction_of_closureAt_none _ hidx hv (by simp [LuaState.closureAt, hv, hc])
  | some c =>
    have hbad : ∃ p ∈ c.upvalues.drop 0, p.1 ≠ "_ENV" ∧ p.2.isScalar = false := by
      have hno : ¬ ∀ p ∈ c.upvalues, p.1 = "_ENV" ∨ p.2.isScalar = true :=
        fun h => absurd ((copyable_function hc).mpr h) (by simp [hcopy])
      simp only [not_forall, not_or, Bool.not_eq_true] at hno
      obtain ⟨p, hmem, hne, hp⟩ := hno
      exact ⟨p, hmem, hne, hp⟩
    rw [copyFunction_eq _ hidx hv hc]
    obtain ⟨L', d, h, hext⟩ := @copyUpvalues_of_not_scalar R c idx depth L
      (closureAt_of_index hv hc) l.stack l.closures c.upvalues.length 0
      { l with
        stack := l.stack ++ [.function l.closures.length]
        closures := l.closures ++ [c.copyUpTo l.globals 0] } (by omega) hbad rfl ⟨_, rfl⟩
    exact ⟨L', _, h, hext, ⟨_, rfl⟩, ⟨_, rfl⟩, rfl⟩

end Function

theorem copyValue_of_copyable {depth : Nat} {L l : LuaState R} {idx : Int} {v : Value}
    (hidx : 0 < idx) (hv : L.index idx = some v) (hcopy : copyable L.closures v = true) :
    copyValue (fun L' l' => copyn (depth + 1) L' l' (-1) 1) L l idx =
      some (true, L, l.receive L.closures v) := by
  cases v with
  | nil | boolean | lightuserdata | integer | number | string =>
    simp [copyValue, hv, LuaState.receive]
  | function r =>
    simp only [copyValue, hv]
    exact copyFunction_of_copyable hidx hv hcopy
  | table | cfunction | userdata | thread => simp [copyable, Value.isScalar] at hcopy

theorem copyValue_of_not_copyable {depth : Nat} {L l : LuaState R} {idx : Int} {v : Value}
    (hidx : 0 < idx) (hv : L.index idx = some v) (hcopy : copyable L.closures v = false) :
    ∃ L' l', copyValue (fun L' l' => copyn (depth + 1) L' l' (-1) 1) L l idx =
      some (false, L', l') ∧ L.Extends L' ∧ l.Extends l' := by
  cases v with
  | nil | boolean | lightuserdata | integer | number | string =>
    simp [copyable, Value.isScalar] at hcopy
  | function r =>
    simp only [copyValue, hv]
    exact copyFunction_of_not_copyable hidx hv hcopy
  | table | userdata | thread =>
    exact ⟨L, l, by simp [copyValue, hv], LuaState.Extends.refl L, LuaState.Extends.refl l⟩
  | cfunction r =>
    simp only [copyValue, hv]
    exact copyFunction_of_closureAt_none _ hidx hv (by simp [LuaState.closureAt, hv])

/-! ## Lists of values -/

section Lists
variable {depth : Nat} {L : LuaState R}

theorem index_append_cons {below above : List Value} {v : Value}
    (hs : L.stack = below ++ v :: above) : L.index (below.length + 1) = some v := by
  have hpos : (0 : Int) < below.length + 1 := by omega
  simp [LuaState.index, LuaState.pos, hpos, hs]

theorem copyLoop_of_copyable (vs : List Value) :
    ∀ (below above : List Value) (l : LuaState R), L.stack = below ++ vs ++ above →
      (∀ v ∈ vs, copyable L.closures v = true) →
      copyLoop (fun L' l' => copyn (depth + 1) L' l' (-1) 1) vs.length L l (below.length + 1) =
        some ⟨0, L, l.receiveAll L.closures vs⟩ := by
  induction vs with
  | nil => intro below above l _ _; rfl
  | cons v vs ih =>
    intro below above l hs hcopy
    have hidx : (0 : Int) < below.length + 1 := by omega
    have hv : L.index (below.length + 1) = some v :=
      index_append_cons (by simpa using hs)
    have hvcopy := hcopy v (List.mem_cons_self ..)
    have hnext : ((below ++ [v]).length : Int) + 1 = below.length + 1 + 1 := by simp
    rw [List.length_cons, copyLoop, copyValue_of_copyable hidx hv hvcopy]
    have hrest := ih (below ++ [v]) above (l.receive L.closures v) (by simpa using hs)
      (fun w hw => hcopy w (List.mem_cons_of_mem _ hw))
    rw [hnext] at hrest
    exact hrest

theorem copyLoop_of_not_copyable (vs : List Value) :
    ∀ (below above : List Value) (l : LuaState R), L.stack = below ++ vs ++ above →
      (∃ v ∈ vs, copyable L.closures v = false) →
      ∃ (i : Nat) (L' l' : LuaState R), i < vs.length ∧
        copyLoop (fun L' l' => copyn (depth + 1) L' l' (-1) 1) vs.length L l
            (below.length + 1) = some ⟨below.length + 1 + i, L', l'⟩ ∧
          L.Extends L' ∧ l.Extends l' := by
  induction vs with
  | nil =>
    intro _ _ _ _ hbad
    obtain ⟨v, hv, _⟩ := hbad
    cases hv
  | cons v vs ih =>
    intro below above l hs hbad
    have hidx : (0 : Int) < below.length + 1 := by omega
    have hv : L.index (below.length + 1) = some v :=
      index_append_cons (by simpa using hs)
    cases hvcopy : copyable L.closures v with
    | false =>
      obtain ⟨L', l', h, hL, hl⟩ :=
        @copyValue_of_not_copyable R depth L l (below.length + 1) v hidx hv hvcopy
      refine ⟨0, L', l', by simp, ?_, hL, hl⟩
      rw [List.length_cons, copyLoop, h]
      simp
    | true =>
      have hrest : ∃ w ∈ vs, copyable L.closures w = false := by
        obtain ⟨w, hw, hwbad⟩ := hbad
        rcases List.mem_cons.mp hw with rfl | hw
        · exact absurd hwbad (by simp [hvcopy])
        · exact ⟨w, hw, hwbad⟩
      obtain ⟨i, L', l', hi, h, hL, hl⟩ := ih (below ++ [v]) above (l.receive L.closures v)
        (by simpa using hs) hrest
      refine ⟨i + 1, L', l', by simpa using hi, ?_, hL,
        (LuaState.Extends.receive L.closures l v).trans hl⟩
      have hnext : ((below ++ [v]).length : Int) + 1 = below.length + 1 + 1 := by simp
      have hret : (below.length : Int) + 1 + 1 + i = below.length + 1 + (i + 1 : Nat) := by
        push_cast
        omega
      rw [List.length_cons, copyLoop, copyValue_of_copyable hidx hv hvcopy]
      rw [hnext, hret] at h
      exact h

/-- **What `copyn` does with values it accepts**: it returns 0, leaves the source
state as it was, and the destination receives a copy of each value. -/
theorem copyn_of_copyable {vs below above : List Value} (depth : Nat) (l : LuaState R)
    (hs : L.stack = below ++ vs ++ above) (hcopy : ∀ v ∈ vs, copyable L.closures v = true) :
    copyn (depth + 2) L l (below.length + 1) vs.length =
      some ⟨0, L, l.receiveAll L.closures vs⟩ :=
  copyLoop_of_copyable vs below above l hs hcopy

/-- **What `copyn` does when it meets a value it rejects**: it returns the index of
the first such value, and what it has pushed by then stays on both stacks. -/
theorem copyn_of_not_copyable {vs below above : List Value} (depth : Nat) (l : LuaState R)
    (hs : L.stack = below ++ vs ++ above) (hbad : ∃ v ∈ vs, copyable L.closures v = false) :
    ∃ (i : Nat) (L' l' : LuaState R), i < vs.length ∧
      copyn (depth + 2) L l (below.length + 1) vs.length =
        some ⟨below.length + 1 + i, L', l'⟩ ∧ L.Extends L' ∧ l.Extends l' :=
  copyLoop_of_not_copyable vs below above l hs hbad

end Lists

/-! ## Equal copies -/

/-- `SameValue H H' v w`: the value `w` of a state with closures `H'` is equal to
the value `v` of a state with closures `H`: the same scalar, or functions with
the same prototype and, at every upvalue other than `_ENV`, equal values. -/
inductive SameValue (H H' : List (Closure R)) : Value → Value → Prop
  | scalar {v : Value} : v.isScalar = true → SameValue H H' v v
  | function {r r' : Nat} {c c' : Closure R} (g : Nat → Value) :
      H[r]? = some c → H'[r']? = some c' → c'.proto = c.proto →
      (∀ i name v, c.upvalues[i]? = some (name, v) → name ≠ "_ENV" →
        c'.upvalues[i]? = some (name, g i)) →
      (∀ i name v, c.upvalues[i]? = some (name, v) → name ≠ "_ENV" → SameValue H H' v (g i)) →
      SameValue H H' (.function r) (.function r')

/-- Equality is not lost when closures are allocated on either side. -/
theorem SameValue.mono {H H' : List (Closure R)} {v w : Value} (h : SameValue H H' v w)
    (cs cs' : List (Closure R)) : SameValue (H ++ cs) (H' ++ cs') v w := by
  have grow : ∀ {G ds : List (Closure R)} {r : Nat} {c : Closure R},
      G[r]? = some c → (G ++ ds)[r]? = some c := by
    intro G ds r c hc
    rw [List.getElem?_append_left (List.getElem?_eq_some_iff.mp hc).1, hc]
  induction h with
  | scalar hv => exact .scalar hv
  | function g hc hc' hproto hname _ ih =>
    exact .function g (grow hc) (grow hc') hproto hname ih

namespace Closure

theorem copyUpTo_proto (c : Closure R) (globals k : Nat) :
    (c.copyUpTo globals k).proto = c.proto := by
  induction k with
  | zero => rfl
  | succ k ih =>
    unfold copyUpTo
    split
    · split
      · exact ih
      · exact ih
    · exact ih

/-- A copy has the names of the original, position by position. -/
theorem copyUpTo_name {c : Closure R} {i : Nat} {name : String} {v : Value}
    (globals k : Nat) (h : c.upvalues[i]? = some (name, v)) :
    ∃ w, (c.copyUpTo globals k).upvalues[i]? = some (name, w) := by
  have hnames : (c.copyUpTo globals k).upvalues.map Prod.fst = c.upvalues.map Prod.fst := by
    rw [(c.copyUpTo globals k).names_eq, c.names_eq, copyUpTo_proto]
  have hi := congrArg (fun l : List String => l[i]?) hnames
  simp only [List.getElem?_map, h, Option.map_some] at hi
  obtain ⟨p, hp, rfl⟩ := Option.map_eq_some_iff.mp hi
  exact ⟨p.2, hp⟩

/-- The upvalues transferred so far, `_ENV` apart, have their values. -/
theorem copyUpTo_upvalue {c : Closure R} {i : Nat} {name : String} {v : Value}
    (globals : Nat) (h : c.upvalues[i]? = some (name, v)) (hname : name ≠ "_ENV") :
    ∀ k, i < k → (c.copyUpTo globals k).upvalues[i]? = some (name, v) := by
  intro k
  induction k with
  | zero => intro hi; omega
  | succ k ih =>
    intro hi
    by_cases hik : i = k
    · subst i
      obtain ⟨w, hw⟩ := copyUpTo_name globals k h
      simp [copyUpTo, h, hname, setUpvalue, hw]
    · have hold := ih (by omega)
      unfold copyUpTo
      split
      · split
        · exact hold
        · simp [setUpvalue, Ne.symm hik, hold]
      · exact hold

theorem copyTo_upvalue {c : Closure R} {i : Nat} {name : String} {v : Value} (globals : Nat)
    (h : c.upvalues[i]? = some (name, v)) (hname : name ≠ "_ENV") :
    (c.copyTo globals).upvalues[i]? = some (name, v) :=
  copyUpTo_upvalue globals h hname _ (List.getElem?_eq_some_iff.mp h).1

end Closure

/-- What a state receives for a value is an equal value on top of its stack. -/
theorem receive_same {H : List (Closure R)} {v : Value} (l : LuaState R)
    (hcopy : copyable H v = true) :
    ∃ w, (l.receive H v).stack = l.stack ++ [w] ∧ SameValue H (l.receive H v).closures v w := by
  cases v with
  | nil | boolean | lightuserdata | integer | number | string =>
    exact ⟨_, rfl, .scalar rfl⟩
  | table | cfunction | userdata | thread => simp [copyable, Value.isScalar] at hcopy
  | function r =>
    cases hc : H[r]? with
    | none => simp [copyable, hc] at hcopy
    | some c =>
      simp only [copyable, hc, List.all_eq_true, Bool.or_eq_true, decide_eq_true_eq] at hcopy
      have hupvalue : ∀ i name v, c.upvalues[i]? = some (name, v) → name ≠ "_ENV" →
          (c.copyTo l.globals).upvalues[i]? = some (name, v) :=
        fun i name v h hname => Closure.copyTo_upvalue _ h hname
      have hnew : (l.receive H (.function r)).closures[l.closures.length]? =
          some (c.copyTo l.globals) := by simp [LuaState.receive, hc]
      refine ⟨.function l.closures.length, by simp [LuaState.receive, hc], ?_⟩
      refine .function (fun i => ((c.upvalues[i]?).map Prod.snd).getD .nil) hc hnew
        (c.copyUpTo_proto _ _) ?_ ?_
      · intro i name v h hname
        rw [hupvalue i name v h hname, h]
        rfl
      · intro i name v h hname
        rw [h]
        exact .scalar ((hcopy _ (List.mem_of_getElem? h)).resolve_left hname)

/-- The values a state receives for a list are equal to the list, in order. -/
theorem receiveAll_same {H : List (Closure R)} (vs : List Value) :
    ∀ l : LuaState R, (∀ v ∈ vs, copyable H v = true) →
      ∃ ws, (l.receiveAll H vs).stack = l.stack ++ ws ∧
        List.Forall₂ (SameValue H (l.receiveAll H vs).closures) vs ws := by
  induction vs with
  | nil => intro l _; exact ⟨[], by simp [LuaState.receiveAll], .nil⟩
  | cons v vs ih =>
    intro l hcopy
    obtain ⟨w, hw, hsame⟩ := receive_same l (hcopy v (List.mem_cons_self ..))
    obtain ⟨ws, hws, hall⟩ := ih (l.receive H v)
      (fun u hu => hcopy u (List.mem_cons_of_mem _ hu))
    obtain ⟨cs, hcs⟩ := (LuaState.Extends.receiveAll H (l.receive H v) vs).closures
    refine ⟨w :: ws, ?_, .cons ?_ hall⟩
    · change ((l.receive H v).receiveAll H vs).stack = l.stack ++ w :: ws
      rw [hws, hw, List.append_assoc]
      rfl
    · change SameValue H ((l.receive H v).receiveAll H vs).closures v w
      rw [hcs]
      have hmono := hsame.mono [] cs
      rwa [List.append_nil] at hmono

/-! ## Allocating closures in the source state -/

section Allocation
variable {H : List (Closure R)} (cs : List (Closure R)) {v : Value}

theorem copyable_append (hin : ∀ r, v = .function r → r < H.length) :
    copyable (H ++ cs) v = copyable H v := by
  cases v with
  | function r => simp only [copyable, List.getElem?_append_left (hin r rfl)]
  | _ => rfl

theorem receive_append (l : LuaState R) (hin : ∀ r, v = .function r → r < H.length) :
    l.receive (H ++ cs) v = l.receive H v := by
  cases v with
  | function r => simp only [LuaState.receive, List.getElem?_append_left (hin r rfl)]
  | _ => rfl

theorem receiveAll_append (l : LuaState R) {vs : List Value}
    (hin : ∀ r, Value.function r ∈ vs → r < H.length) :
    l.receiveAll (H ++ cs) vs = l.receiveAll H vs := by
  induction vs generalizing l with
  | nil => rfl
  | cons v vs ih =>
    have hv : ∀ r, v = .function r → r < H.length :=
      fun r hr => hin r (hr ▸ List.mem_cons_self ..)
    change (l.receive (H ++ cs) v).receiveAll (H ++ cs) vs = (l.receive H v).receiveAll H vs
    rw [receive_append cs l hv, ih _ (fun r hr => hin r (List.mem_cons_of_mem _ hr))]

end Allocation

/-! ## Serializable values -/

/-- The serializable values of a state with the given globals table and closures:
scalars, and Lua functions all of whose upvalues, other than the globals table
named `_ENV`, are serializable. -/
inductive Serializable (globals : Nat) (H : List (Closure R)) : Value → Prop
  | scalar {v : Value} : v.isScalar = true → Serializable globals H v
  | function {r : Nat} {c : Closure R} : H[r]? = some c →
      (∀ p ∈ c.upvalues, ¬ (p.1 = "_ENV" ∧ p.2 = .table globals) →
        Serializable globals H p.2) →
      Serializable globals H (.function r)

/-- `v` is a Lua function with an upvalue, other than `_ENV`, that is itself a Lua
function. -/
def HasFunctionUpvalue (H : List (Closure R)) (v : Value) : Prop :=
  ∃ r c name r', v = .function r ∧ H[r]? = some c ∧ (name, Value.function r') ∈ c.upvalues ∧
    name ≠ "_ENV"

/-- A serializable value is accepted exactly when no function is nested in it. -/
theorem copyable_iff_of_serializable {globals : Nat} {H : List (Closure R)} {v : Value}
    (h : Serializable globals H v) : copyable H v = true ↔ ¬ HasFunctionUpvalue H v := by
  cases h with
  | scalar hv =>
    have hcopy : copyable H v = true := by
      cases v <;> first | exact hv | simp [Value.isScalar] at hv
    refine ⟨fun _ hnested => ?_, fun _ => hcopy⟩
    obtain ⟨r, c, name, r', rfl, _⟩ := hnested
    simp [Value.isScalar] at hv
  | @function r c hc hup =>
    simp only [copyable, hc, List.all_eq_true, Bool.or_eq_true, decide_eq_true_eq]
    constructor
    · rintro hall ⟨r₂, c₂, name, r', heq, hc₂, hmem, hname⟩
      cases heq
      obtain rfl := Option.some.inj (hc.symm.trans hc₂)
      have hscalar := (hall _ hmem).resolve_left hname
      simp [Value.isScalar] at hscalar
    · intro hnested p hp
      by_cases hname : p.1 = "_ENV"
      · exact Or.inl hname
      · right
        have hser := hup p hp (fun h => hname h.1)
        obtain ⟨name, w⟩ := p
        cases hser with
        | scalar hw => exact hw
        | function => exact absurd ⟨r, c, name, _, rfl, hc, hp, hname⟩ hnested

/-- What a faithful copy of the `n` values from `idx` on is: the call returns 0,
leaves the source state as it was, and pushes exactly `n` values, each equal to
the original at its place. -/
def CopiesFaithfully (L l : LuaState R) (idx : Int) (n : Nat) (res : Option (Copied R)) : Prop :=
  ∃ dst ws, res = some ⟨0, L, dst⟩ ∧ dst.stack = l.stack ++ ws ∧ ws.length = n ∧
    ∀ i < n, ∀ v, L.index (idx + i) = some v →
      ∃ w, ws[i]? = some w ∧ SameValue L.closures dst.closures v w

/-- The values from an absolute index on, as a part of the stack. -/
theorem stack_split {L : LuaState R} {idx : Int} {n : Nat} (hidx : 0 < idx) (hn : 0 < n)
    (hvalid : ∀ i < n, ∃ v, L.index (idx + i) = some v) :
    ∃ below vs above, L.stack = below ++ vs ++ above ∧ (below.length : Int) + 1 = idx ∧
      vs.length = n ∧ ∀ i < n, L.index (idx + i) = vs[i]? := by
  have hpos : ∀ i : Nat, L.index (idx + i) = L.stack[(idx - 1).toNat + i]? := by
    intro i
    have h : (0 : Int) < idx + i := by omega
    have hnat : (idx + i - 1).toNat = (idx - 1).toNat + i := by omega
    simp only [LuaState.index, LuaState.pos, h, ite_true, hnat]
  obtain ⟨v, hv⟩ := hvalid (n - 1) (by omega)
  rw [hpos] at hv
  have hlen := (List.getElem?_eq_some_iff.mp hv).1
  refine ⟨L.stack.take (idx - 1).toNat, (L.stack.drop (idx - 1).toNat).take n,
    (L.stack.drop (idx - 1).toNat).drop n, ?_, ?_, ?_, ?_⟩
  · rw [List.append_assoc, List.take_append_drop, List.take_append_drop]
  · rw [List.length_take]
    omega
  · rw [List.length_take, List.length_drop]
    omega
  · intro i hi
    rw [hpos, List.getElem?_take_of_lt hi, List.getElem?_drop]

/-- **Faithful transfer, exactly when no function is nested in a function.**  Of
serializable values, `copyn` makes a faithful copy if and only if none of them is
a function with a function among its upvalues. -/
theorem copyn_faithful_iff (depth : Nat) (L l : LuaState R) (idx : Int) (n : Nat)
    (hidx : 0 < idx)
    (hser : ∀ i < n, ∃ v, L.index (idx + i) = some v ∧ Serializable L.globals L.closures v) :
    CopiesFaithfully L l idx n (copyn (depth + 2) L l idx n) ↔
      ∀ i < n, ∀ v, L.index (idx + i) = some v → ¬ HasFunctionUpvalue L.closures v := by
  rcases Nat.eq_zero_or_pos n with rfl | hn
  · exact ⟨fun _ i hi => absurd hi (Nat.not_lt_zero i), fun _ =>
      ⟨l, [], rfl, by simp, rfl, fun i hi => absurd hi (Nat.not_lt_zero i)⟩⟩
  obtain ⟨below, vs, above, hs, hbelow, hlen, hget⟩ :=
    stack_split hidx hn (fun i hi => (hser i hi).imp (fun _ h => h.1))
  have hmem : ∀ v ∈ vs, ∃ i < n, L.index (idx + i) = some v := by
    intro v hv
    obtain ⟨i, hi⟩ := List.mem_iff_getElem?.mp hv
    have hin : i < n := hlen ▸ (List.getElem?_eq_some_iff.mp hi).1
    exact ⟨i, hin, (hget i hin).trans hi⟩
  have hcopy : ∀ v ∈ vs, (copyable L.closures v = true ↔ ¬ HasFunctionUpvalue L.closures v) := by
    intro v hv
    obtain ⟨i, hi, hvi⟩ := hmem v hv
    obtain ⟨w, hw, hserw⟩ := hser i hi
    obtain rfl := Option.some.inj (hvi.symm.trans hw)
    exact copyable_iff_of_serializable hserw
  constructor
  · rintro ⟨dst, ws, hres, _⟩ i hi v hv hnested
    have hvs : v ∈ vs := List.mem_of_getElem? ((hget i hi).symm.trans hv)
    have hbad : copyable L.closures v = false := by
      cases hcv : copyable L.closures v with
      | false => rfl
      | true => exact absurd hnested ((hcopy v hvs).mp hcv)
    obtain ⟨j, L', l', _, h, _⟩ := copyn_of_not_copyable depth l hs ⟨v, hvs, hbad⟩
    rw [hbelow, hlen, hres] at h
    have hret : (0 : Int) = idx + j := congrArg Copied.ret (Option.some.inj h)
    omega
  · intro hflat
    have hall : ∀ v ∈ vs, copyable L.closures v = true := by
      intro v hv
      obtain ⟨i, hi, hvi⟩ := hmem v hv
      exact (hcopy v hv).mpr (hflat i hi v hvi)
    have hrun := copyn_of_copyable depth l hs hall
    rw [hbelow, hlen] at hrun
    obtain ⟨ws, hws, hsame⟩ := receiveAll_same vs l hall
    refine ⟨_, ws, hrun, hws, hsame.length_eq.symm.trans hlen, ?_⟩
    intro i hi v hv
    rw [hget i hi] at hv
    obtain ⟨hi₁, hv₁⟩ := List.getElem?_eq_some_iff.mp hv
    have hi₂ : i < ws.length := hsame.length_eq ▸ hi₁
    refine ⟨ws[i], List.getElem?_eq_getElem hi₂, ?_⟩
    rw [← hv₁]
    exact hsame.get hi₁ hi₂

/-! ### Two concrete transfers -/

/-- A runtime with a prototype for each byte: 0 has the upvalue `_ENV` alone,
the others have `_ENV` and `f`.  A chunk is the signature byte and the byte. -/
def sampleRuntime : Runtime where
  Proto := UInt8
  upvalueNames p := if p = 0 then ["_ENV"] else ["_ENV", "f"]
  dump p := [27, p]
  load
    | [27, p] => .ok p
    | _ => .error []
  load_dump _ := rfl

/-- A function whose only upvalue is `_ENV`. -/
def plainClosure : Closure sampleRuntime where
  proto := (0 : UInt8)
  upvalues := [("_ENV", .table 0)]
  names_eq := rfl

/-- A function with the upvalues `_ENV` and `f`. -/
def closureOver (f : Value) : Closure sampleRuntime where
  proto := (1 : UInt8)
  upvalues := [("_ENV", .table 0), ("f", f)]
  names_eq := rfl

/-- A state with an integer and a function over `f` on its stack. -/
def senderState (f : Value) : LuaState sampleRuntime where
  stack := [.integer 7, .function 1]
  closures := [plainClosure, closureOver f]
  globals := 0

/-- A state with nothing on its stack. -/
def emptyState : LuaState sampleRuntime := ⟨[], [], 0⟩

theorem serializable_senderState {f : Value}
    (hf : Serializable 0 (senderState f).closures f) :
    ∀ i < 2, ∃ v, (senderState f).index (1 + (i : Nat)) = some v ∧
      Serializable (senderState f).globals (senderState f).closures v := by
  intro i hi
  obtain rfl | rfl : i = 0 ∨ i = 1 := by omega
  · exact ⟨.integer 7, rfl, .scalar rfl⟩
  · refine ⟨.function 1, rfl, ?_⟩
    refine Serializable.function (c := closureOver f) rfl ?_
    intro p hp hne
    rcases List.mem_cons.mp hp with rfl | hp
    · exact absurd ⟨rfl, rfl⟩ hne
    · obtain rfl := List.mem_singleton.mp hp
      exact hf

theorem copyn_faithful_flat :
    CopiesFaithfully (senderState (.boolean true)) emptyState 1 2
      (copyn 2 (senderState (.boolean true)) emptyState 1 (2 : Nat)) := by
  refine (copyn_faithful_iff 0 (senderState (.boolean true)) emptyState 1 2 (by decide)
    (serializable_senderState (.scalar rfl))).mpr ?_
  rintro i hi v hv ⟨r, c, name, r', rfl, hc, hmem, hname⟩
  obtain rfl | rfl : i = 0 ∨ i = 1 := by omega
  · have h0 : (senderState (.boolean true)).index (1 + (0 : Nat)) = some (.integer 7) := rfl
    cases h0.symm.trans hv
  · have h1 : (senderState (.boolean true)).index (1 + (1 : Nat)) = some (.function 1) := rfl
    cases h1.symm.trans hv
    obtain rfl := Option.some.inj hc
    simp [closureOver] at hmem

/-- A serializable function over a serializable function is not copied. -/
theorem copyn_nested_not_faithful :
    ¬ ∀ (R : Runtime) (depth : Nat) (L l : LuaState R) (idx : Int) (n : Nat), 0 < idx →
      (∀ i < n, ∃ v, L.index (idx + i) = some v ∧ Serializable L.globals L.closures v) →
      CopiesFaithfully L l idx n (copyn (depth + 2) L l idx n) := by
  intro h
  have hplain : Serializable 0 (senderState (.function 0)).closures (.function 0) := by
    refine Serializable.function (c := plainClosure) rfl ?_
    intro p hp hne
    obtain rfl := List.mem_singleton.mp hp
    exact absurd ⟨rfl, rfl⟩ hne
  obtain ⟨dst, ws, hres, _⟩ := h sampleRuntime 0 (senderState (.function 0)) emptyState 1 2
    (by decide) (serializable_senderState hplain)
  have hret : (copyn 2 (senderState (.function 0)) emptyState 1 (2 : Nat)).map Copied.ret =
      some 2 := by decide
  rw [hres] at hret
  exact absurd hret (by simp)

end FluaLibs
