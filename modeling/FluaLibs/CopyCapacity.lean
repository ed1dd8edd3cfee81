import FluaLibs.CopyValues
import FluaLibs.Metering
import Mathlib.Tactic.Tauto

/-! # The stack slots that copying takes

`copyn` reserves no stack slots in either state.  Here it is run on metered states, one
recorded state for each call of the API; forgetting the meters gives `copyn`
(`gaugedCopyn_erases`).

In the source state a function takes three slots for a while: the placeholder of the
buffer, the copy that is dumped, and the chunk; more when the chunk outgrows the buffer, which
then makes a box for it.  In the destination every value stays,
and the upvalues of a function take one more slot each in turn.  So a list of `n` values
takes `n` slots there or one more, whatever is free.
-/
namespace FluaLibs
variable {R : Runtime}

/-- A Lua state whose stack is observed. -/
abbrev Gauge (R : Runtime) := Metered (LuaState R)

/-- A call of the API leads to the state `s`. -/
def Gauge.reach (L : Gauge R) (s : LuaState R) : Gauge R := Metered.reach LuaState.gettop L s

def Gauge.push (L : Gauge R) (v : Value) : Gauge R := L.reach (L.state.push v)

def Gauge.pop (L : Gauge R) (n : Nat) : Gauge R := L.reach (L.state.pop n)

/-- A function of the API takes `n` slots for a while. -/
def Gauge.spend (L : Gauge R) (n : Nat) : Gauge R := Metered.spend LuaState.gettop L n

def LuaState.gauge (L : LuaState R) : Gauge R := Metered.start LuaState.gettop L

/-- The outcome of a call of `copyn` on observed states. -/
structure GaugedCopy (R : Runtime) where
  ret : Int
  src : Gauge R
  dst : Gauge R

def GaugedCopy.forget (c : GaugedCopy R) : Copied R := ⟨c.ret, c.src.state, c.dst.state⟩

/-- What `luaL_addlstring` takes for a while above the box it makes for a chunk that does not
fit; `box` is for the metatable of the box, and its name when it is the first one. -/
def boxSlots (box : Nat) (chunk : List UInt8) : Nat :=
  if chunk.length ≤ LuaState.bufferSize then 0 else box

/-! ## The code, with meters -/

/-- `copyUpvalues` -/
def gaugedUpvalues (nested : Gauge R → Gauge R → Option (GaugedCopy R)) (idx lidx : Int) :
    Nat → Nat → Gauge R → Gauge R → Option (Bool × Gauge R × Gauge R)
  | 0, _, _, _ => none
  | rounds + 1, uv, L, l =>
    match L.state.getupvalue idx uv with
    | none => some (true, L, l)
    | some (name, s) =>
      let L' := L.reach s
      if name = "_ENV" then
        gaugedUpvalues nested idx lidx rounds (uv + 1) (L'.reach (L'.state.pop 1)) l
      else
        match nested L' l with
        | none => none
        | some c =>
          if c.ret ≠ 0 then some (false, c.src, c.dst)
          else gaugedUpvalues nested idx lidx rounds (uv + 1) (c.src.reach (c.src.state.pop 1))
            (c.dst.reach (c.dst.state.setupvalue lidx uv))

/-- `copyFunction` -/
def gaugedFunction (box : Nat) (nested : Gauge R → Gauge R → Option (GaugedCopy R)) (L l : Gauge R)
    (idx : Int) : Option (Bool × Gauge R × Gauge R) :=
  let L₀ := L.reach L.state.buffinit
  let L₁ := L₀.reach (L₀.state.pushvalue idx)
  match L₁.state.dump with
  | none => some (false, L₁, l)
  | some chunk =>
    let L₂ := (L₁.reach (L₁.state.addlstring chunk)).spend (boxSlots box chunk)
    -- luaL_pushresult pushes the chunk and then removes the value below it
    let L₃ := L₂.reach (L₂.state.push (.string chunk))
    let L₄ := L₃.reach (L₂.state.pushresult chunk)
    match l.state.loadbuffer chunk with
    | (false, s) => some (false, L₄, l.reach s)
    | (true, s) =>
      let L₅ := L₄.reach (L₄.state.pop 2)
      gaugedUpvalues nested idx s.gettop (L₅.state.upvalueCount idx + 1) 1 L₅ (l.reach s)

/-- `copyValue` -/
def gaugedValue (box : Nat) (nested : Gauge R → Gauge R → Option (GaugedCopy R)) (L l : Gauge R)
    (idx : Int) : Option (Bool × Gauge R × Gauge R) :=
  match L.state.index idx with
  | some .nil => some (true, L, l.reach (l.state.push .nil))
  | some (.boolean b) => some (true, L, l.reach (l.state.push (.boolean b)))
  | some (.lightuserdata p) => some (true, L, l.reach (l.state.push (.lightuserdata p)))
  | some (.integer i) => some (true, L, l.reach (l.state.push (.integer i)))
  | some (.number x) => some (true, L, l.reach (l.state.push (.number x)))
  | some (.string s) => some (true, L, l.reach (l.state.push (.string s)))
  | some (.function _) | some (.cfunction _) => gaugedFunction box nested L l idx
  | _ => some (false, L, l)

/-- `copyLoop` -/
def gaugedLoop (box : Nat) (nested : Gauge R → Gauge R → Option (GaugedCopy R)) :
    Nat → Gauge R → Gauge R → Int → Option (GaugedCopy R)
  | 0, L, l, _ => some ⟨0, L, l⟩
  | n + 1, L, l, idx =>
    match gaugedValue box nested L l idx with
    | none => none
    | some (false, L', l') => some ⟨idx, L', l'⟩
    | some (true, L', l') => gaugedLoop box nested n L' l' (idx + 1)

/-- `copyn` -/
def gaugedCopyn (box : Nat) : Nat → Gauge R → Gauge R → Int → Int → Option (GaugedCopy R)
  | 0, _, _, _, _ => none
  | depth + 1, L, l, idx, n =>
    gaugedLoop box (fun L' l' => gaugedCopyn box depth L' l' (-1) 1) n.toNat L l idx

/-! ## Forgetting the meters -/

@[simp] theorem Gauge.reach_state (L : Gauge R) (s : LuaState R) : (L.reach s).state = s :=
  Metered.reach_state LuaState.gettop

@[simp] theorem Gauge.reach_peak (L : Gauge R) (s : LuaState R) :
    (L.reach s).peak = max L.peak s.gettop :=
  Metered.reach_peak LuaState.gettop

@[simp] theorem Gauge.spend_state (L : Gauge R) (n : Nat) : (L.spend n).state = L.state :=
  Metered.spend_state LuaState.gettop n

@[simp] theorem Gauge.spend_peak (L : Gauge R) (n : Nat) :
    (L.spend n).peak = max L.peak (L.state.gettop + n) :=
  Metered.spend_peak LuaState.gettop n

/-- The outcome of a step of `copyn` on observed states, without the meters. -/
def forgetStep (r : Bool × Gauge R × Gauge R) : Bool × LuaState R × LuaState R :=
  (r.1, r.2.1.state, r.2.2.state)

section Erasure
variable (box : Nat) {nested : Gauge R → Gauge R → Option (GaugedCopy R)}
  {nested' : LuaState R → LuaState R → Option (Copied R)}
  (hnested : ∀ L l, (nested L l).map GaugedCopy.forget = nested' L.state l.state)

include hnested

theorem gaugedUpvalues_erases (idx lidx : Int) (rounds : Nat) :
    ∀ (uv : Nat) (L l : Gauge R),
      (gaugedUpvalues nested idx lidx rounds uv L l).map forgetStep =
        copyUpvalues nested' idx lidx rounds uv L.state l.state := by
  induction rounds with
  | zero => intro uv L l; rfl
  | succ rounds ih =>
    intro uv L l
    rw [gaugedUpvalues, copyUpvalues]
    cases L.state.getupvalue idx uv with
    | none => rfl
    | some p =>
      obtain ⟨name, s⟩ := p
      by_cases henv : name = "_ENV"
      · simp only [henv, ite_true]
        exact ih ..
      · simp only [henv, ite_false]
        have hcall := hnested (L.reach s) l
        rw [Gauge.reach_state] at hcall
        rw [← hcall]
        cases nested (L.reach s) l with
        | none => rfl
        | some c =>
          by_cases hret : c.ret = 0
          · simp only [Option.map_some, GaugedCopy.forget, hret, ne_eq, not_true_eq_false,
              ite_false]
            exact ih ..
          · simp only [Option.map_some, GaugedCopy.forget, hret, ne_eq, not_false_eq_true,
              ite_true, forgetStep]

theorem gaugedFunction_erases (L l : Gauge R) (idx : Int) :
    (gaugedFunction box nested L l idx).map forgetStep =
      copyFunction nested' L.state l.state idx := by
  simp only [gaugedFunction, copyFunction, Gauge.reach_state]
  cases (L.state.buffinit.pushvalue idx).dump with
  | none => rfl
  | some chunk =>
    dsimp only
    rcases l.state.loadbuffer chunk with ⟨loaded, s⟩
    cases loaded with
    | false => rfl
    | true => exact gaugedUpvalues_erases hnested ..

theorem gaugedValue_erases (L l : Gauge R) (idx : Int) :
    (gaugedValue box nested L l idx).map forgetStep = copyValue nested' L.state l.state idx := by
  cases hv : L.state.index idx with
  | none => simp only [gaugedValue, copyValue, hv, Option.map_some, forgetStep]
  | some v =>
    cases v with
    | function r | cfunction r =>
      simp only [gaugedValue, copyValue, hv]
      exact gaugedFunction_erases box hnested ..
    | _ => simp only [gaugedValue, copyValue, hv, Option.map_some, forgetStep, Gauge.reach_state]

theorem gaugedLoop_erases (n : Nat) : ∀ (L l : Gauge R) (idx : Int),
    (gaugedLoop box nested n L l idx).map GaugedCopy.forget =
      copyLoop nested' n L.state l.state idx := by
  induction n with
  | zero => intro L l idx; rfl
  | succ n ih =>
    intro L l idx
    rw [gaugedLoop, copyLoop, ← gaugedValue_erases box hnested]
    cases gaugedValue box nested L l idx with
    | none => rfl
    | some r =>
      obtain ⟨more, L', l'⟩ := r
      cases more with
      | false => rfl
      | true => exact ih ..

end Erasure

/-- **Without the meters it is `copyn`.** -/
theorem gaugedCopyn_erases (box depth : Nat) : ∀ (L l : Gauge R) (idx n : Int),
    (gaugedCopyn box depth L l idx n).map GaugedCopy.forget =
      copyn depth L.state l.state idx n := by
  induction depth with
  | zero => intro L l idx n; rfl
  | succ depth ih =>
    intro L l idx n
    exact gaugedLoop_erases box (fun L' l' => ih L' l' (-1) 1) ..

/-! ## The peaks -/

/-- Some upvalue is put on the stack of the copy's state: the first one that is not
`_ENV` is a scalar. -/
def pushesUpvalue : List (String × Value) → Bool
  | [] => false
  | (name, v) :: upvalues => if name = "_ENV" then pushesUpvalue upvalues else v.isScalar

/-- The slots of the source state that copying a value takes for a while. -/
def sourceSlots (box : Nat) (H : List (Closure R)) : Value → Nat
  | .function r =>
    match H[r]? with
    | some c => max 3 (2 + boxSlots box (R.dump c.proto))
    | none => 2
  | .cfunction _ => 2
  | _ => 0

/-- The slots of the destination that copying a value takes. -/
def targetSlots (H : List (Closure R)) : Value → Nat
  | .function r =>
    match H[r]? with
    | some c => if pushesUpvalue c.upvalues then 2 else 1
    | none => 0
  | v => if v.isScalar then 1 else 0

@[simp] theorem LuaState.gettop_push (L : LuaState R) (v : Value) :
    (L.push v).gettop = L.gettop + 1 := by
  simp [LuaState.gettop]

theorem Gauge.reach_push_pop {L : Gauge R} (v : Value) (h : L.state.gettop + 1 ≤ L.peak) :
    (L.reach (L.state.push v)).reach ((L.state.push v).pop 1) = L := by
  have hpeak : max (max L.peak (L.state.gettop + 1)) L.state.gettop = L.peak := by omega
  simp only [Gauge.reach, Metered.reach, LuaState.push_pop, LuaState.gettop_push, hpeak]

section Nested
variable (box depth : Nat) {L l : Gauge R} {v : Value}

theorem gaugedCopyn_top_of_scalar (htop : L.state.index (-1) = some v) (hv : v.isScalar) :
    gaugedCopyn box (depth + 1) L l (-1) 1 = some ⟨0, L, l.reach (l.state.push v)⟩ := by
  have hone : (1 : Int).toNat = 1 := rfl
  cases v with
  | nil | boolean | lightuserdata | integer | number | string =>
    simp only [gaugedCopyn, hone, gaugedLoop, gaugedValue, htop]
  | table | function | cfunction | userdata | thread => simp [Value.isScalar] at hv

/-- A refused upvalue takes no more slots than the function did. -/
theorem gaugedCopyn_top_of_not_scalar (htop : L.state.index (-1) = some v)
    (hv : v.isScalar = false) (hroom : L.state.gettop + 2 ≤ L.peak) :
    ∃ L', gaugedCopyn box (depth + 1) L l (-1) 1 = some ⟨-1, L', l⟩ ∧ L'.peak = L.peak := by
  have hone : (1 : Int).toNat = 1 := rfl
  cases v with
  | nil | boolean | lightuserdata | integer | number | string => simp [Value.isScalar] at hv
  | table | userdata | thread =>
    exact ⟨L, by simp only [gaugedCopyn, hone, gaugedLoop, gaugedValue, htop], rfl⟩
  | function r | cfunction r =>
    have hbuffer : L.state.buffinit.pushvalue (-1) =
        L.state.buffinit.push (.lightuserdata LuaState.bufferAddress) := by
      simp [LuaState.buffinit, LuaState.pushvalue]
    have hdump : (L.state.buffinit.push (.lightuserdata LuaState.bufferAddress)).dump = none := by
      simp [LuaState.dump, LuaState.closureAt]
    refine ⟨(L.reach L.state.buffinit).reach (L.state.buffinit.pushvalue (-1)), ?_, ?_⟩
    · simp only [gaugedCopyn, hone, gaugedLoop, gaugedValue, htop, gaugedFunction,
        Gauge.reach_state, hbuffer, hdump]
    · have hsize : L.state.buffinit.gettop = L.state.gettop + 1 := LuaState.gettop_push ..
      simp only [Gauge.reach_peak, hbuffer, LuaState.gettop_push, hsize]
      omega

/-- Setting an upvalue of the function on top leaves the stack as it was. -/
theorem setupvalue_push_stack {l : LuaState R} {base : List Value} {r : Nat}
    (hstack : l.stack = base ++ [.function r]) (uv : Nat) (v : Value) :
    ((l.push v).setupvalue (base.length + 1) uv).stack = l.stack := by
  have hidx : (l.push v).index (base.length + 1) = some (.function r) := by
    have hpos : (0 : Int) < base.length + 1 := by omega
    simp [LuaState.index, LuaState.pos, hpos, hstack]
  have hlast : (l.stack ++ [v]).getLast? = some v := List.getLast?_concat
  simp only [LuaState.setupvalue, hidx, LuaState.push_stack, hlast, List.dropLast_concat]

/-- An upvalue that is set takes the slot above the function for a while. -/
theorem reach_setupvalue {base : List Value} {r : Nat}
    (hstack : l.state.stack = base ++ [.function r]) (uv : Nat) (v : Value) :
    ((l.reach (l.state.push v)).reach
        ((l.state.push v).setupvalue (base.length + 1) uv)).state.stack = base ++ [.function r] ∧
      ((l.reach (l.state.push v)).reach
        ((l.state.push v).setupvalue (base.length + 1) uv)).peak =
          max l.peak (base.length + 2) := by
  have hstack' : ((l.state.push v).setupvalue (base.length + 1) uv).stack =
      base ++ [.function r] := (setupvalue_push_stack hstack uv v).trans hstack
  have hsize : l.state.gettop = base.length + 1 := by
    rw [LuaState.gettop, hstack, List.length_append]
    rfl
  have hsize' : ((l.state.push v).setupvalue (base.length + 1) uv).gettop = base.length + 1 := by
    rw [LuaState.gettop, hstack', List.length_append]
    rfl
  refine ⟨hstack', ?_⟩
  rw [Gauge.reach_peak, Gauge.reach_peak, LuaState.gettop_push, hsize, hsize']
  omega

end Nested

/-- The upvalue loop takes one slot of the destination, or none. -/
theorem gaugedUpvalues_peaks (box depth : Nat) {c : Closure R} {idx : Int} {L : Gauge R}
    (hc : L.state.closureAt idx = some c) (hL : L.state.gettop + 3 ≤ L.peak)
    (base : List Value) (r : Nat) :
    ∀ (todo k : Nat) (l : Gauge R), k + todo = c.upvalues.length →
      l.state.stack = base ++ [.function r] → base.length + 1 ≤ l.peak →
      ∃ more L' l', gaugedUpvalues (fun L' l' => gaugedCopyn box (depth + 1) L' l' (-1) 1) idx
          (base.length + 1) (todo + 1) (k + 1) L l = some (more, L', l') ∧
        L'.peak = L.peak ∧
        l'.peak = if pushesUpvalue (c.upvalues.drop k) then max l.peak (base.length + 2)
          else l.peak := by
  intro todo
  induction todo with
  | zero =>
    intro k l hk _ _
    have hnone : L.state.getupvalue idx (k + 1) = none := by
      rw [getupvalue_of_closureAt hc, List.getElem?_eq_none (by omega)]
      rfl
    refine ⟨true, L, l, by simp only [gaugedUpvalues, hnone], rfl, ?_⟩
    rw [List.drop_eq_nil_of_le (by omega)]
    rfl
  | succ todo ih =>
    intro k l hk hstack hpeak
    have hlt : k < c.upvalues.length := by omega
    rcases hp : c.upvalues[k] with ⟨name, v⟩
    have hget : L.state.getupvalue idx (k + 1) = some (name, L.state.push v) := by
      rw [getupvalue_of_closureAt hc, List.getElem?_eq_getElem hlt, hp]
      rfl
    have hback := Gauge.reach_push_pop (L := L) v (by omega)
    have htop : (L.reach (L.state.push v)).state.index (-1) = some v := by simp
    rw [List.drop_eq_getElem_cons hlt, hp]
    by_cases henv : name = "_ENV"
    · -- `_ENV` is only taken off the source's stack again
      obtain ⟨more, L', l', hloop, hpeaks⟩ := ih (k + 1) l (by omega) hstack hpeak
      refine ⟨more, L', l', ?_, by simpa only [pushesUpvalue, henv, ite_true] using hpeaks⟩
      rw [gaugedUpvalues, hget]
      simp only [henv, ite_true, Gauge.reach_state, hback]
      exact hloop
    · cases hv : v.isScalar with
      | true =>
        obtain ⟨hstack₁, hpeak₁⟩ := reach_setupvalue hstack (k + 1) v
        set l₁ := (l.reach (l.state.push v)).reach
          ((l.state.push v).setupvalue (base.length + 1) (k + 1))
        obtain ⟨more, L', l', hloop, hsrc, hdst⟩ := ih (k + 1) l₁ (by omega) hstack₁ (by omega)
        refine ⟨more, L', l', ?_, hsrc, ?_⟩
        · rw [gaugedUpvalues, hget]
          simp only [henv, ite_false, gaugedCopyn_top_of_scalar box depth htop hv, ne_eq,
            not_true_eq_false, Gauge.reach_state, hback]
          exact hloop
        · simp only [pushesUpvalue, henv, ite_false, hv, ite_true]
          rw [hdst, hpeak₁]
          split <;> omega
      | false =>
        -- a refused upvalue ends the loop
        have hroom : (L.reach (L.state.push v)).state.gettop + 2 ≤
            (L.reach (L.state.push v)).peak := by
          simp only [Gauge.reach_state, Gauge.reach_peak, LuaState.gettop_push]
          omega
        obtain ⟨L', hcall, hsame⟩ :=
          gaugedCopyn_top_of_not_scalar box depth (l := l) htop hv hroom
        refine ⟨false, L', l, ?_, ?_, ?_⟩
        · rw [gaugedUpvalues, hget]
          simp only [henv, ite_false, hcall]
          rfl
        · rw [hsame, Gauge.reach_peak, LuaState.gettop_push]
          omega
        · simp only [pushesUpvalue, henv, ite_false, hv]
          rfl

/-! ### One value -/

section Value
variable (box depth : Nat) {L l : Gauge R} {idx : Int} {v : Value}

/-- What `lua_dump` refuses has taken two slots. -/
theorem gaugedFunction_of_closureAt_none (nested : Gauge R → Gauge R → Option (GaugedCopy R))
    (hidx : 0 < idx) (hv : L.state.index idx = some v) (hc : L.state.closureAt idx = none) :
    ∃ L', gaugedFunction box nested L l idx = some (false, L', l) ∧
      L'.peak = max L.peak (L.state.gettop + 2) := by
  have hpush := pushvalue_buffinit hidx hv
  have hdump : (L.state.buffinit.pushvalue idx).dump = none := by
    rw [hpush]
    cases v with
    | function r =>
      simp only [LuaState.closureAt, hv] at hc
      simp [LuaState.dump, LuaState.closureAt, hc]
    | _ => simp [LuaState.dump, LuaState.closureAt]
  have hsize : L.state.buffinit.gettop = L.state.gettop + 1 := LuaState.gettop_push ..
  refine ⟨(L.reach L.state.buffinit).reach (L.state.buffinit.pushvalue idx), ?_, ?_⟩
  · simp only [gaugedFunction, Gauge.reach_state, hdump]
  · simp only [Gauge.reach_peak, hpush, LuaState.gettop_push, hsize]
    omega

/-- A large chunk does not change the height either. -/
theorem gettop_addlstring (L : LuaState R) (v w : Value) (s : List UInt8) :
    (((L.push v).push w).addlstring s).gettop = L.gettop + 2 := by
  unfold LuaState.addlstring
  split
  · simp only [LuaState.gettop_push]
  · simp only [LuaState.push_pop, LuaState.gettop_push]

theorem gettop_pushresult (L : LuaState R) (v w : Value) (s : List UInt8) :
    ((((L.push v).push w).addlstring s).pushresult s).gettop = L.gettop + 2 := by
  unfold LuaState.addlstring LuaState.pushresult
  split
  · rw [LuaState.remove_below_top, LuaState.gettop_push, LuaState.gettop_push]
  · rw [LuaState.push_pop, LuaState.remove_below_top, LuaState.gettop_push, LuaState.gettop_push]

/-- The heights that the source has while the function is dumped. -/
theorem max_buffer (p n b : Nat) :
    max (max (max (max (max (max (max p (n + 1)) (n + 1 + 1)) (n + 2)) (n + 2 + b)) (n + 2 + 1))
      (n + 2)) n = max p (n + max 3 (2 + b)) := by
  omega

/-- The function case up to the upvalue loop: the source is as it was, and was higher for a
while by what the dump takes. -/
theorem gaugedFunction_eq {r : Nat} {c : Closure R}
    (nested : Gauge R → Gauge R → Option (GaugedCopy R)) (hidx : 0 < idx)
    (hv : L.state.index idx = some (.function r)) (hc : L.state.closures[r]? = some c) :
    ∃ s : LuaState R, s.stack = l.state.stack ++ [.function l.state.closures.length] ∧
      gaugedFunction box nested L l idx =
        gaugedUpvalues nested idx (l.state.stack.length + 1) (c.upvalues.length + 1) 1
          ⟨L.state, max L.peak (L.state.gettop +
            max 3 (2 + boxSlots box (R.dump c.proto)))⟩ (l.reach s) := by
  have hpush := pushvalue_buffinit hidx hv
  have hdump : (L.state.buffinit.pushvalue idx).dump = some (R.dump c.proto) := by
    rw [hpush]
    simp [LuaState.dump, LuaState.closureAt, hc]
  obtain ⟨s, hstack, hload⟩ : ∃ s : LuaState R,
      s.stack = l.state.stack ++ [.function l.state.closures.length] ∧
        l.state.loadbuffer (R.dump c.proto) = (true, s) :=
    ⟨{ l.state with
        stack := l.state.stack ++ [.function l.state.closures.length]
        closures := l.state.closures ++ [Closure.fresh l.state.globals c.proto] },
      rfl, by simp only [LuaState.loadbuffer, R.load_dump]⟩
  have hcount : L.state.upvalueCount idx = c.upvalues.length := by
    simp [LuaState.upvalueCount, closureAt_of_index hv hc]
  have hsize : L.state.buffinit.gettop = L.state.gettop + 1 := LuaState.gettop_push ..
  have htop : (s.gettop : Int) = l.state.stack.length + 1 := by
    rw [LuaState.gettop, hstack, List.length_append]
    rfl
  refine ⟨s, hstack, ?_⟩
  simp only [gaugedFunction, Gauge.reach_state, Gauge.spend_state, hdump, hload, htop]
  rw [hpush, buffer_balanced, hcount]
  simp only [Gauge.reach, Gauge.spend, Metered.reach, Metered.spend, LuaState.gettop_push, hsize,
    gettop_addlstring, gettop_pushresult]
  rw [max_buffer]

theorem gaugedFunction_peaks {r : Nat} {c : Closure R} (hidx : 0 < idx)
    (hv : L.state.index idx = some (.function r)) (hc : L.state.closures[r]? = some c)
    (hl : l.state.gettop ≤ l.peak) :
    ∃ more L' l',
      gaugedFunction box (fun L' l' => gaugedCopyn box (depth + 1) L' l' (-1) 1) L l idx =
        some (more, L', l') ∧
      L'.peak = max L.peak (L.state.gettop + max 3 (2 + boxSlots box (R.dump c.proto))) ∧
      l'.peak = max l.peak (l.state.gettop + if pushesUpvalue c.upvalues then 2 else 1) := by
  obtain ⟨s, hstack, heq⟩ := gaugedFunction_eq box (l := l)
    (fun L' l' => gaugedCopyn box (depth + 1) L' l' (-1) 1) hidx hv hc
  have hsize : s.gettop = l.state.stack.length + 1 := by
    rw [LuaState.gettop, hstack, List.length_append]
    rfl
  have htop : l.state.gettop = l.state.stack.length := rfl
  have hpeak : l.state.stack.length + 1 ≤ (l.reach s).peak := by
    rw [Gauge.reach_peak, hsize]
    exact Nat.le_max_right ..
  let L₅ : Gauge R := ⟨L.state, max L.peak (L.state.gettop +
    max 3 (2 + boxSlots box (R.dump c.proto)))⟩
  have hclosure : L₅.state.closureAt idx = some c := closureAt_of_index hv hc
  obtain ⟨more, L', l', hloop, hsrc, hdst⟩ := gaugedUpvalues_peaks box depth hclosure
    (by simp only [L₅]; omega) l.state.stack l.state.closures.length c.upvalues.length 0 (l.reach s)
    (Nat.zero_add _) hstack hpeak
  refine ⟨more, L', l', heq.trans hloop, hsrc, ?_⟩
  rw [hdst, Gauge.reach_peak, hsize, List.drop_zero]
  split <;> omega

theorem gaugedValue_of_scalar (nested : Gauge R → Gauge R → Option (GaugedCopy R))
    (hv : L.state.index idx = some v) (hscalar : v.isScalar) :
    gaugedValue box nested L l idx = some (true, L, l.reach (l.state.push v)) := by
  cases v with
  | nil | boolean | lightuserdata | integer | number | string => simp only [gaugedValue, hv]
  | table | function | cfunction | userdata | thread => simp [Value.isScalar] at hscalar

theorem sourceSlots_of_scalar (H : List (Closure R)) (hscalar : v.isScalar) :
    sourceSlots box H v = 0 := by
  cases v with
  | nil | boolean | lightuserdata | integer | number | string => rfl
  | table | function | cfunction | userdata | thread => simp [Value.isScalar] at hscalar

theorem targetSlots_of_scalar (H : List (Closure R)) (hscalar : v.isScalar) :
    targetSlots H v = 1 := by
  cases v with
  | nil | boolean | lightuserdata | integer | number | string => rfl
  | table | function | cfunction | userdata | thread => simp [Value.isScalar] at hscalar

theorem gaugedValue_peaks (hidx : 0 < idx) (hv : L.state.index idx = some v)
    (hL : L.state.gettop ≤ L.peak) (hl : l.state.gettop ≤ l.peak) :
    ∃ more L' l',
      gaugedValue box (fun L' l' => gaugedCopyn box (depth + 1) L' l' (-1) 1) L l idx =
        some (more, L', l') ∧
      L'.peak = max L.peak (L.state.gettop + sourceSlots box L.state.closures v) ∧
      l'.peak = max l.peak (l.state.gettop + targetSlots L.state.closures v) := by
  have hsame : max L.peak L.state.gettop = L.peak := by omega
  have hsame' : max l.peak l.state.gettop = l.peak := by omega
  by_cases hscalar : v.isScalar
  · refine ⟨true, L, l.reach (l.state.push v), gaugedValue_of_scalar box _ hv hscalar, ?_, ?_⟩
    · rw [sourceSlots_of_scalar box _ hscalar, Nat.add_zero, hsame]
    · rw [targetSlots_of_scalar _ hscalar, Gauge.reach_peak, LuaState.gettop_push]
  cases v with
  | nil | boolean | lightuserdata | integer | number | string => exact absurd rfl hscalar
  | table | userdata | thread =>
    refine ⟨false, L, l, by simp only [gaugedValue, hv], ?_, ?_⟩
    · simp only [sourceSlots, Nat.add_zero, hsame]
    · simp [targetSlots, Value.isScalar, hsame']
  | cfunction r =>
    obtain ⟨L', hcopy, hpeak⟩ := gaugedFunction_of_closureAt_none box (l := l)
      (fun L' l' => gaugedCopyn box (depth + 1) L' l' (-1) 1) hidx hv
      (by simp [LuaState.closureAt, hv])
    refine ⟨false, L', l, by simp only [gaugedValue, hv, hcopy], hpeak, ?_⟩
    simp [targetSlots, Value.isScalar, hsame']
  | function r =>
    cases hc : L.state.closures[r]? with
    | none =>
      obtain ⟨L', hcopy, hpeak⟩ := gaugedFunction_of_closureAt_none box (l := l)
        (fun L' l' => gaugedCopyn box (depth + 1) L' l' (-1) 1) hidx hv
        (by simp [LuaState.closureAt, hv, hc])
      refine ⟨false, L', l, by simp only [gaugedValue, hv, hcopy], ?_, ?_⟩
      · simpa only [sourceSlots, hc] using hpeak
      · simp only [targetSlots, hc, Nat.add_zero, hsame']
    | some c =>
      obtain ⟨more, L', l', hcopy, hsrc, hdst⟩ :=
        gaugedFunction_peaks box depth hidx hv hc hl
      refine ⟨more, L', l', by simp only [gaugedValue, hv, hcopy], ?_, ?_⟩
      · simpa only [sourceSlots, hc] using hsrc
      · simpa only [targetSlots, hc] using hdst

end Value

/-! ### Lists of values -/

/-- The free slots of the two states are enough for each value that the loop comes to,
after it has copied `copied` others: the first one that is refused is the last. -/
def CopyRoom (box : Nat) (H : List (Closure R)) (srcFree dstFree : Nat) :
    Nat → List Value → Prop
  | _, [] => True
  | copied, v :: vs =>
    sourceSlots box H v ≤ srcFree ∧ copied + targetSlots H v ≤ dstFree ∧
      (copyable H v = true → CopyRoom box H srcFree dstFree (copied + 1) vs)

/-- Every value that is copied takes a slot. -/
theorem targetSlots_pos_of_copyable {H : List (Closure R)} {v : Value}
    (h : copyable H v = true) : 0 < targetSlots H v := by
  by_cases hscalar : v.isScalar
  · rw [targetSlots_of_scalar H hscalar]
    exact Nat.one_pos
  cases v with
  | nil | boolean | lightuserdata | integer | number | string => exact absurd rfl hscalar
  | table | cfunction | userdata | thread => simp [copyable, Value.isScalar] at h
  | function r =>
    cases hc : H[r]? with
    | none => simp [copyable, hc] at h
    | some c =>
      simp only [targetSlots, hc]
      split <;> omega

theorem gettop_receive (H : List (Closure R)) (l : LuaState R) {v : Value}
    (h : copyable H v = true) : (l.receive H v).gettop = l.gettop + 1 := by
  cases v with
  | nil | boolean | lightuserdata | integer | number | string => exact LuaState.gettop_push ..
  | table | cfunction | userdata | thread => simp [copyable, Value.isScalar] at h
  | function r =>
    cases hc : H[r]? with
    | none => simp [copyable, hc] at h
    | some c => simp [LuaState.receive, hc, LuaState.gettop]

section Lists
variable (box depth : Nat)

/-- The erased outcome of a step tells which states it leaves. -/
theorem gaugedValue_states {L l L' l' : Gauge R} {idx : Int} {v : Value} {more : Bool}
    (hidx : 0 < idx) (hv : L.state.index idx = some v)
    (h : gaugedValue box (fun L' l' => gaugedCopyn box (depth + 1) L' l' (-1) 1) L l idx =
      some (more, L', l')) :
    more = copyable L.state.closures v ∧
      (more = true → L'.state = L.state ∧ l'.state = l.state.receive L.state.closures v) := by
  have herase := @gaugedValue_erases R box (fun L' l' => gaugedCopyn box (depth + 1) L' l' (-1) 1)
    (fun L' l' => copyn (depth + 1) L' l' (-1) 1)
    (fun L l => gaugedCopyn_erases box (depth + 1) L l (-1) 1) L l idx
  rw [h] at herase
  cases hcopy : copyable L.state.closures v with
  | true =>
    rw [copyValue_of_copyable hidx hv hcopy, Option.map_some, Option.some.injEq] at herase
    simp only [forgetStep, Prod.mk.injEq] at herase
    exact ⟨herase.1, fun _ => herase.2⟩
  | false =>
    obtain ⟨s, t, hrefused, _⟩ := @copyValue_of_not_copyable R depth L.state l.state idx v hidx
      hv hcopy
    rw [hrefused, Option.map_some, Option.some.injEq] at herase
    simp only [forgetStep, Prod.mk.injEq] at herase
    exact ⟨herase.1, fun hmore => absurd (hmore.symm.trans herase.1) (by decide)⟩

theorem gaugedLoop_peaks (base srcFree dstFree : Nat) (vs : List Value) :
    ∀ (below above : List Value) (L l : Gauge R) (copied : Nat),
      L.state.stack = below ++ vs ++ above → L.state.gettop ≤ L.peak →
      l.state.gettop = base + copied → base + copied ≤ l.peak →
      ∃ c, gaugedLoop box (fun L' l' => gaugedCopyn box (depth + 1) L' l' (-1) 1) vs.length L l
          (below.length + 1) = some c ∧
        (c.src.peak ≤ L.state.gettop + srcFree ∧ c.dst.peak ≤ base + dstFree ↔
          L.peak ≤ L.state.gettop + srcFree ∧ l.peak ≤ base + dstFree ∧
            CopyRoom box L.state.closures srcFree dstFree copied vs) := by
  induction vs with
  | nil =>
    intro below above L l copied _ _ _ _
    exact ⟨⟨0, L, l⟩, rfl, by simp only [CopyRoom, and_true]⟩
  | cons v vs ih =>
    intro below above L l copied hstack hL htop hl
    have hidx : (0 : Int) < below.length + 1 := by omega
    have hv : L.state.index (below.length + 1) = some v :=
      index_append_cons (by simpa using hstack)
    obtain ⟨more, L', l', hstep, hsrc, hdst⟩ :=
      gaugedValue_peaks box depth (l := l) hidx hv hL (by omega)
    obtain ⟨hmore, hstates⟩ := gaugedValue_states box depth hidx hv hstep
    rw [List.length_cons, gaugedLoop, hstep]
    cases hcopy : copyable L.state.closures v with
    | false =>
      rw [hcopy] at hmore
      subst hmore
      refine ⟨⟨below.length + 1, L', l'⟩, rfl, ?_⟩
      simp only [CopyRoom, hcopy, hsrc, hdst, Bool.false_eq_true, false_implies, and_true]
      omega
    | true =>
      rw [hcopy] at hmore
      subst hmore
      obtain ⟨hLstate, hlstate⟩ := hstates rfl
      have hnext : ((below ++ [v]).length : Int) + 1 = below.length + 1 + 1 := by simp
      have htop' : l'.state.gettop = base + (copied + 1) := by
        rw [hlstate, gettop_receive L.state.closures l.state hcopy]
        omega
      have hpos := targetSlots_pos_of_copyable hcopy
      obtain ⟨c, hloop, hiff⟩ := ih (below ++ [v]) above L' l' (copied + 1)
        (by rw [hLstate]; simpa using hstack) (by rw [hLstate]; omega) htop' (by omega)
      rw [hnext] at hloop
      rw [hLstate, hsrc, hdst] at hiff
      refine ⟨c, hloop, hiff.trans ?_⟩
      have hsrcFree : max L.peak (L.state.gettop + sourceSlots box L.state.closures v) ≤
          L.state.gettop + srcFree ↔
            L.peak ≤ L.state.gettop + srcFree ∧ sourceSlots box L.state.closures v ≤ srcFree := by
        omega
      have hdstFree : max l.peak (l.state.gettop + targetSlots L.state.closures v) ≤
          base + dstFree ↔
            l.peak ≤ base + dstFree ∧ copied + targetSlots L.state.closures v ≤ dstFree := by
        omega
      simp only [CopyRoom, hcopy, true_implies, hsrcFree, hdstFree]
      rw [and_assoc, and_assoc, and_left_comm (a := sourceSlots box L.state.closures v ≤ srcFree)]

end Lists

end FluaLibs
