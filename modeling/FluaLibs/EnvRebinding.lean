import FluaLibs.CopyValues

/-! # The `_ENV` of a copied function

A function that is copied to another state is to see that state's globals.  `copyn`
leaves this to `lua_load`, which gives a loaded function the globals table as its first
upvalue, and skips the upvalues named `_ENV`.  The first upvalue of a function is the
first outer name its text mentions, so `_ENV` comes first in a function that begins by
calling a global function, and later in one that begins with a local of its maker.  An
`_ENV` that is not the first upvalue stays nil.
-/
namespace FluaLibs
variable {R : Runtime} {H H' : List (Closure R)}

/-! ## Copies -/

/-- `w` is the copy that `copyn` makes of `v`: the same scalar, or a function with the
finished copy of the closure. -/
inductive CopyOf (globals : Nat) (H H' : List (Closure R)) : Value → Value → Prop
  | scalar {v : Value} : v.isScalar = true → CopyOf globals H H' v v
  | function {r r' : Nat} {c : Closure R} : H[r]? = some c →
      H'[r']? = some (c.copyTo globals) → CopyOf globals H H' (.function r) (.function r')

theorem CopyOf.mono {globals : Nat} {v w : Value} (h : CopyOf globals H H' v w)
    (cs : List (Closure R)) : CopyOf globals H (H' ++ cs) v w := by
  cases h with
  | scalar hv => exact .scalar hv
  | function hc hc' =>
    refine .function hc ?_
    rw [List.getElem?_append_left (List.getElem?_eq_some_iff.mp hc').1, hc']

theorem receive_copyOf {v : Value} (l : LuaState R) (hcopy : copyable H v = true) :
    ∃ w, (l.receive H v).stack = l.stack ++ [w] ∧
      CopyOf l.globals H (l.receive H v).closures v w := by
  cases v with
  | nil | boolean | lightuserdata | integer | number | string => exact ⟨_, rfl, .scalar rfl⟩
  | table | cfunction | userdata | thread => simp [copyable, Value.isScalar] at hcopy
  | function r =>
    cases hc : H[r]? with
    | none => simp [copyable, hc] at hcopy
    | some c =>
      have hnew : (l.receive H (.function r)).closures[l.closures.length]? =
          some (c.copyTo l.globals) := by simp [LuaState.receive, hc]
      exact ⟨.function l.closures.length, by simp [LuaState.receive, hc], .function hc hnew⟩

/-- The values a state receives for a list are the copies of the list, in order. -/
theorem receiveAll_copyOf (vs : List Value) :
    ∀ l : LuaState R, (∀ v ∈ vs, copyable H v = true) →
      ∃ ws, (l.receiveAll H vs).stack = l.stack ++ ws ∧
        List.Forall₂ (CopyOf l.globals H (l.receiveAll H vs).closures) vs ws := by
  induction vs with
  | nil => exact fun l _ => ⟨[], by simp [LuaState.receiveAll], .nil⟩
  | cons v vs ih =>
    intro l hcopy
    obtain ⟨w, hw, hone⟩ := receive_copyOf l (hcopy v (List.mem_cons_self ..))
    obtain ⟨ws, hws, hall⟩ := ih (l.receive H v)
      (fun u hu => hcopy u (List.mem_cons_of_mem _ hu))
    obtain ⟨cs, hcs⟩ := (LuaState.Extends.receiveAll H (l.receive H v) vs).closures
    rw [(LuaState.Extends.receive H l v).globals] at hall
    refine ⟨w :: ws, ?_, .cons ?_ hall⟩
    · show ((l.receive H v).receiveAll H vs).stack = l.stack ++ w :: ws
      rw [hws, hw, List.append_assoc]
      rfl
    · show CopyOf l.globals H ((l.receive H v).receiveAll H vs).closures v w
      rw [hcs]
      exact hone.mono cs

/-! ## The upvalues of a copy -/

namespace Closure

/-- The loop leaves an upvalue named `_ENV` as it was loaded. -/
theorem copyUpTo_env {c : Closure R} {i : Nat} {v : Value} (globals : Nat)
    (h : c.upvalues[i]? = some ("_ENV", v)) (k : Nat) :
    (c.copyUpTo globals k).upvalues[i]? = (Closure.fresh globals c.proto).upvalues[i]? := by
  induction k with
  | zero => rfl
  | succ k ih =>
    unfold copyUpTo
    split
    · next name w hk =>
      by_cases henv : name = "_ENV"
      · rw [if_pos henv]
        exact ih
      · have hne : k ≠ i := by
          rintro rfl
          rw [h] at hk
          cases hk
          exact henv rfl
        rw [if_neg henv]
        simp [setUpvalue, hne, ih]
    · exact ih

/-- A loaded function has the globals table at its first upvalue and nil at the others. -/
theorem fresh_upvalue {c : Closure R} {i : Nat} {name : String} {v : Value} (globals : Nat)
    (h : c.upvalues[i]? = some (name, v)) :
    (Closure.fresh globals c.proto).upvalues[i]? =
      some (name, if i = 0 then .table globals else .nil) := by
  have hname : (R.upvalueNames c.proto)[i]? = some name := by
    rw [← c.names_eq, List.getElem?_map, h]
    rfl
  show (freshUpvalues globals (R.upvalueNames c.proto))[i]? = _
  cases hnames : R.upvalueNames c.proto with
  | nil =>
    rw [hnames] at hname
    cases hname
  | cons first names =>
    rw [hnames] at hname
    cases i with
    | zero =>
      cases hname
      rfl
    | succ i =>
      rw [List.getElem?_cons_succ] at hname
      simp [freshUpvalues, hname]

theorem copyTo_env {c : Closure R} {i : Nat} {v : Value} (globals : Nat)
    (h : c.upvalues[i]? = some ("_ENV", v)) :
    (c.copyTo globals).upvalues[i]? =
      some ("_ENV", if i = 0 then .table globals else .nil) := by
  rw [copyTo, copyUpTo_env globals h, fresh_upvalue globals h]

end Closure

/-! ## Rebinding -/

/-- The copy `w` of `v` has the globals table at every upvalue named `_ENV` and copies
at the others, and so have the functions in it. -/
inductive Rebound (globals : Nat) (H H' : List (Closure R)) : Value → Value → Prop
  | scalar {v : Value} : v.isScalar = true → Rebound globals H H' v v
  | function {r r' : Nat} {c c' : Closure R} (g : Nat → Value) :
      H[r]? = some c → H'[r']? = some c' → c'.proto = c.proto →
      (∀ (i : Nat) (v : Value), c.upvalues[i]? = some ("_ENV", v) →
        c'.upvalues[i]? = some ("_ENV", Value.table globals)) →
      (∀ i name v, c.upvalues[i]? = some (name, v) → name ≠ "_ENV" →
        c'.upvalues[i]? = some (name, g i)) →
      (∀ i name v, c.upvalues[i]? = some (name, v) → name ≠ "_ENV" →
        Rebound globals H H' v (g i)) →
      Rebound globals H H' (.function r) (.function r')

/-- The closures of a value: its own, and those reached through its upvalues. -/
inductive Reaches (H : List (Closure R)) : Value → Closure R → Prop
  | self {r : Nat} {c : Closure R} : H[r]? = some c → Reaches H (.function r) c
  | upvalue {r i : Nat} {c d : Closure R} {name : String} {v : Value} : H[r]? = some c →
      c.upvalues[i]? = some (name, v) → name ≠ "_ENV" → Reaches H v d →
      Reaches H (.function r) d

/-- In every closure of the value `_ENV` is the first upvalue, if it is one at all. -/
def EnvFirst (H : List (Closure R)) (v : Value) : Prop :=
  ∀ c, Reaches H v c → ∀ (i : Nat) (w : Value), c.upvalues[i]? = some ("_ENV", w) → i = 0

theorem not_reaches_scalar {v : Value} {c : Closure R} (hv : v.isScalar = true) :
    ¬ Reaches H v c := by
  intro h
  cases h with
  | self => cases hv
  | upvalue => cases hv

/-- A copy is rebound exactly when `_ENV` comes first in the original. -/
theorem CopyOf.rebound_iff {globals : Nat} {v w : Value} (h : CopyOf globals H H' v w)
    (hcopy : copyable H v = true) : Rebound globals H H' v w ↔ EnvFirst H v := by
  cases h with
  | scalar hv =>
    exact iff_of_true (.scalar hv) (fun c hc => absurd hc (not_reaches_scalar hv))
  | @function r r' c hc hc' =>
    simp only [copyable, hc, List.all_eq_true, Bool.or_eq_true, decide_eq_true_eq] at hcopy
    have hscalar : ∀ (i : Nat) (name : String) (v : Value), c.upvalues[i]? = some (name, v) →
        name ≠ "_ENV" → v.isScalar = true := fun i name v hi hname =>
      (hcopy _ (List.mem_of_getElem? hi)).resolve_left hname
    constructor
    · intro hrebound
      cases hrebound with
      | scalar hv => cases hv
      | @function _ _ d d' g hd hd' _ henv =>
        obtain rfl := Option.some.inj (hc.symm.trans hd)
        obtain rfl := Option.some.inj (hc'.symm.trans hd')
        intro e he i w hi
        cases he with
        | self he =>
          obtain rfl := Option.some.inj (hc.symm.trans he)
          by_contra hne
          -- the loaded function has nil there
          have hnil := (Closure.copyTo_env globals hi).symm.trans (henv i w hi)
          rw [if_neg hne] at hnil
          cases hnil
        | upvalue he hj hname hreach =>
          obtain rfl := Option.some.inj (hc.symm.trans he)
          exact absurd hreach (not_reaches_scalar (hscalar _ _ _ hj hname))
    · intro hfirst
      refine .function (fun i => ((c.upvalues[i]?).map Prod.snd).getD .nil) hc hc'
        (c.copyUpTo_proto _ _) ?_ ?_ ?_
      · intro i v hi
        rw [Closure.copyTo_env globals hi, if_pos (hfirst c (.self hc) i v hi)]
      · intro i name v hi hname
        rw [Closure.copyTo_upvalue globals hi hname, hi]
        rfl
      · intro i name v hi hname
        rw [hi]
        exact .scalar (hscalar i name v hi hname)

/-- What a rebinding copy of the `n` values from `idx` on is: it pushes `n` values, each
of which is rebound to the globals of the state. -/
def CopiesRebound (L l dst : LuaState R) (idx : Int) (n : Nat) : Prop :=
  ∃ ws, dst.stack = l.stack ++ ws ∧ ws.length = n ∧ dst.globals = l.globals ∧
    ∀ i < n, ∀ v, L.index (idx + i) = some v →
      ∃ w, ws[i]? = some w ∧ Rebound dst.globals L.closures dst.closures v w

/-- **Rebinding of `_ENV`**: the copies that a successful call makes have the globals of
their state for `_ENV`, exactly when in all functions copied `_ENV` comes first. -/
theorem copyn_rebound_iff (depth : Nat) (L l src dst : LuaState R) (idx : Int) (n : Nat)
    (hidx : 0 < idx) (hvalid : ∀ i < n, ∃ v, L.index (idx + i) = some v)
    (hres : copyn (depth + 2) L l idx n = some ⟨0, src, dst⟩) :
    CopiesRebound L l dst idx n ↔
      ∀ i < n, ∀ v, L.index (idx + i) = some v → EnvFirst L.closures v := by
  rcases Nat.eq_zero_or_pos n with rfl | hn
  · have hdst : some (⟨0, L, l⟩ : Copied R) = some ⟨0, src, dst⟩ := hres
    cases hdst
    exact iff_of_true
      ⟨[], by simp, rfl, rfl, fun i hi => absurd hi (Nat.not_lt_zero i)⟩
      (fun i hi => absurd hi (Nat.not_lt_zero i))
  obtain ⟨below, vs, above, hs, hbelow, hlen, hget⟩ := stack_split hidx hn hvalid
  -- the call succeeded, so every value could be copied
  have hall : ∀ v ∈ vs, copyable L.closures v = true := by
    intro v hv
    cases hcopy : copyable L.closures v with
    | true => rfl
    | false =>
      obtain ⟨j, L', l', _, h, _⟩ := copyn_of_not_copyable depth l hs ⟨v, hv, hcopy⟩
      rw [hbelow, hlen, hres] at h
      have hret : (0 : Int) = idx + j := congrArg Copied.ret (Option.some.inj h)
      omega
  have hrun := copyn_of_copyable depth l hs hall
  rw [hbelow, hlen, hres] at hrun
  cases hrun
  have hglobals := (LuaState.Extends.receiveAll L.closures l vs).globals
  obtain ⟨ws, hws, hcopies⟩ := receiveAll_copyOf vs l hall
  have hpair : ∀ i < n, ∀ v, L.index (idx + i) = some v → ∃ w, ws[i]? = some w ∧
      (Rebound (l.receiveAll L.closures vs).globals L.closures
        (l.receiveAll L.closures vs).closures v w ↔ EnvFirst L.closures v) := by
    intro i hi v hv
    rw [hget i hi] at hv
    obtain ⟨hi₁, rfl⟩ := List.getElem?_eq_some_iff.mp hv
    have hi₂ : i < ws.length := hcopies.length_eq ▸ hi₁
    refine ⟨ws[i], List.getElem?_eq_getElem hi₂, ?_⟩
    rw [hglobals]
    exact (hcopies.get hi₁ hi₂).rebound_iff (hall _ (List.getElem_mem hi₁))
  constructor
  · rintro ⟨ws', hws', _, _, hrebound⟩ i hi v hv
    -- the pushed values are determined by the stacks
    obtain rfl := List.append_cancel_left (hws.symm.trans hws')
    obtain ⟨w, hw, hiff⟩ := hpair i hi v hv
    obtain ⟨w', hw', hone⟩ := hrebound i hi v hv
    obtain rfl := Option.some.inj (hw.symm.trans hw')
    exact hiff.mp hone
  · intro hfirst
    refine ⟨ws, hws, hcopies.length_eq.symm.trans hlen, hglobals, fun i hi v hv => ?_⟩
    obtain ⟨w, hw, hiff⟩ := hpair i hi v hv
    exact ⟨w, hw, hiff.mpr (hfirst i hi v hv)⟩

/-! ### Two concrete functions -/

/-- The function has `_ENV` and a flag as its upvalues, in this order. -/
theorem envFirst_closureOver (b : Bool) :
    EnvFirst (senderState (.boolean b)).closures (.function 1) := by
  intro c hc i w hi
  cases hc with
  | self hc =>
    obtain rfl := Option.some.inj hc
    match i, hi with
    | 0, _ => rfl
    | 1, hi => exact absurd (Prod.mk.inj (Option.some.inj hi)).1 (by decide)
  | @upvalue _ j _ _ name v hc hj hname hreach =>
    obtain rfl := Option.some.inj hc
    match j, hj with
    | 0, hj =>
      cases hj
      exact absurd rfl hname
    | 1, hj =>
      cases hj
      exact absurd hreach (not_reaches_scalar rfl)

theorem copyn_rebound_flat :
    CopiesRebound (senderState (.boolean true)) emptyState
      (emptyState.receiveAll (senderState (.boolean true)).closures [.integer 7, .function 1])
      1 2 := by
  refine (copyn_rebound_iff 0 (senderState (.boolean true)) emptyState
    (senderState (.boolean true)) _ 1 2 (by decide) ?_ ?_).mpr ?_
  · intro i hi
    obtain rfl | rfl : i = 0 ∨ i = 1 := by omega
    · exact ⟨.integer 7, rfl⟩
    · exact ⟨.function 1, rfl⟩
  · exact @copyn_of_copyable _ (senderState (.boolean true)) [.integer 7, .function 1] [] []
      0 emptyState rfl (by decide)
  · intro i hi v hv
    obtain rfl | rfl : i = 0 ∨ i = 1 := by omega
    · cases hv
      exact fun c hc => absurd hc (not_reaches_scalar rfl)
    · cases hv
      exact envFirst_closureOver true

/-- A runtime whose functions have the upvalues `x` and `_ENV`, in this order. -/
def lateRuntime : Runtime where
  Proto := Unit
  upvalueNames _ := ["x", "_ENV"]
  dump _ := [27]
  load _ := .ok ()
  load_dump _ := rfl

/-- A state with such a function on its stack. -/
def lateState : LuaState lateRuntime where
  stack := [.function 0]
  closures := [⟨(), [("x", .integer 1), ("_ENV", .table 0)], rfl⟩]
  globals := 0

/-- The copy of such a function has nil for `_ENV`. -/
theorem copyn_late_not_rebound :
    ¬ ∀ (R : Runtime) (depth : Nat) (L l src dst : LuaState R) (idx : Int) (n : Nat), 0 < idx →
      (∀ i < n, ∃ v, L.index (idx + i) = some v) →
      copyn (depth + 2) L l idx n = some ⟨0, src, dst⟩ → CopiesRebound L l dst idx n := by
  intro h
  have hres := @copyn_of_copyable _ lateState [.function 0] [] [] 0 ⟨[], [], 3⟩ rfl (by decide)
  obtain ⟨ws, hws, _, _, hrebound⟩ := h lateRuntime 0 lateState ⟨[], [], 3⟩ _ _ 1 1 (by decide)
    (fun i hi => by
      obtain rfl : i = 0 := by omega
      exact ⟨.function 0, rfl⟩) hres
  obtain ⟨w, hw, hone⟩ := hrebound 0 (by decide) (.function 0) rfl
  cases hws
  cases hw
  cases hone with
  | scalar hv => cases hv
  | function g hc hc' _ henv =>
    obtain rfl := Option.some.inj hc
    obtain rfl := Option.some.inj hc'
    have hnil := henv 1 (.table 0) rfl
    cases hnil

end FluaLibs
