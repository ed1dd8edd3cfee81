import FluaLibs.AioControlBlock
import Mathlib.Data.List.Nodup

/-! # The failures of `listio`

`listio` begins the control blocks of a table one after the other and keeps, in two
parallel arrays, their addresses and the states they had.  When an entry is no control
block, or one that is not available, it rolls back the control blocks begun so far and
raises.  Here the call is run by itself, from the first entry to the last, over arrays
whose entries hold whatever was in memory until the call fills them in.

`testcookie` says which entries are control blocks.  It looks for the cookie in the
metatable it has just pushed and not in the value, so that no entry passes for one: every
table that is not empty is refused at its first entry.  The loop is studied for any such
test, and the call for the one it makes.
-/
namespace FluaLibs
namespace Aio
namespace Listio

/-! ## `testcookie` -/

/-- A value on the Lua stack: a userdata with `AIOCB_METATABLE` and its cookie, a metatable,
or another value. -/
inductive Value where
  | aiocb (cookie : Nat)
  | metatable
  | other
  deriving DecidableEq, Repr

/-- The pointer of `getcookie`, when it is a light userdata and not NULL.  On a table
`lua_getiuservalue` reads the fields of a table as those of a userdata: in the place of the
first user value lies the table's own metatable, which a metatable of `luaL_newmetatable`
does not have, so that the pointer is NULL. -/
def getcookie : Value → Option Nat
  | .aiocb cookie => some cookie
  | .metatable => none
  | .other => none

/-- `testcookie(L, -1, AIOCB_METATABLE)`, with `value` on top of the stack. -/
def testcookie (value : Value) : Option Nat :=
  match value with
  | .aiocb _ =>
    -- two metatables lie on the value when `-1` is used again
    let stack := [Value.metatable, Value.metatable, value]
    stack.head?.bind getcookie
  | _ => none

/-- `-1` is the metatable by the time the cookie is read. -/
theorem testcookie_eq_none (value : Value) : testcookie value = none := by
  cases value <;> rfl

/-! ## The call -/

/-- The arrays `cbs` and `states`; `none` in the entries that the call has not filled in. -/
structure Arrays where
  cbs : List (Option Nat)
  states : List (Option AiocbState)
  deriving DecidableEq, Repr

/-- `lua_newuserdatauv`. -/
def Arrays.new (nent : Nat) : Arrays := ⟨List.replicate nent none, List.replicate nent none⟩

/-- What the new arrays happen to hold: pointers, of which some may be those of control
blocks, and states. -/
structure Garbage where
  cbs : Nat → Option Nat
  states : Nat → AiocbState

/-- The control blocks, and the entries that `rollback_states` has read before they were
filled in. -/
structure Memory where
  cbs : Nat → Rcaiocb
  unfilled : List Nat

namespace Memory
variable (call : Nat) (garbage : Garbage) (m : Memory)

def setCb (a : Nat) (cb : Rcaiocb) : Memory := { m with cbs := Function.update m.cbs a cb }

/-- `rcaiocb_rollback(aiocb_container(cbs[i]), states[i])`. -/
def rollback (arrays : Arrays) (i : Nat) : Memory :=
  let cb := arrays.cbs[i]?.join
  let state := arrays.states[i]?.join
  let m := if cb.isSome && state.isSome then m else { m with unfilled := m.unfilled ++ [i] }
  match cb.or (garbage.cbs i) with
  | some a => m.setCb a ((m.cbs a).store call .refused (state.getD (garbage.states i)))
  | none => m

/-- `rollback_states`. -/
def rollbackStates (arrays : Arrays) : Nat → Memory
  | 0 => m
  | n + 1 => (rollbackStates arrays n).rollback call garbage arrays n

end Memory

/-- `rcaiocb_trybeginread` or `rcaiocb_trybeginwrite`, by the opcode. -/
def trybegin (call : Nat) (cb : Rcaiocb) : Option Rcaiocb :=
  if cb.lioRead then (cb.trybeginread call).or (cb.trybeginwrite call) else cb.trybeginwrite call

/-- The loop of `l_lio_listio` from entry `i` on, and `lio_listio(2)` at its end; `test` tells
the control blocks from other values, and `ok` is the answer of the system call. -/
def loop (call : Nat) (garbage : Garbage) (test : Value → Option Nat) (ok : Bool) :
    List Value → Nat → Arrays → Memory → Outcome × Memory
  | [], i, arrays, m =>
    if ok then (.success, m) else (.fail, m.rollbackStates call garbage arrays i)
  | value :: todo, i, arrays, m =>
    match test value with
    | none => (.argerror 2 "invalid aiocb", m.rollbackStates call garbage arrays i)
    | some a =>
      -- the compare-exchange stores the state it has seen, whether it succeeds or not
      let arrays := { arrays with states := arrays.states.set i (some (m.cbs a).state) }
      match trybegin call (m.cbs a) with
      | none =>
        (.argerror 2 "buffer not initialized", m.rollbackStates call garbage arrays (i + 1))
      | some cb =>
        loop call garbage test ok todo (i + 1) { arrays with cbs := arrays.cbs.set i (some a) }
          (m.setCb a cb)

/-- `l_lio_listio` after its checks of the arguments, called on a table when the control
blocks are as in `cbs`. -/
def listio (call : Nat) (garbage : Garbage) (ok : Bool) (table : List Value)
    (cbs : Nat → Rcaiocb) : Outcome × Memory :=
  loop call garbage testcookie ok table 0 (Arrays.new table.length) ⟨cbs, []⟩

/-- A control block that `listio` can begin. -/
def Available (cb : Rcaiocb) : Prop := cb.state = .init ∨ cb.lioRead = true ∧ cb.state = .uninit

instance (cb : Rcaiocb) : Decidable (Available cb) := inferInstanceAs (Decidable (_ ∨ _))

/-- The control blocks that `test` gives for a table, up to the first value for which it
gives none. -/
def leading (test : Value → Option Nat) : List Value → List Nat
  | [] => []
  | value :: todo =>
    match test value with
    | none => []
    | some a => a :: leading test todo

/-- The call has raised an error. -/
def Raised : Outcome → Prop
  | .error _ | .argerror _ _ => True
  | .success | .fail | .nothing => False

/-- If the call raises, the control blocks are in the states they were in before it, and
it has read only what it had written. -/
structure Atomic (cbs : Nat → Rcaiocb) (result : Outcome × Memory) : Prop where
  restored : Raised result.1 → ∀ a, (result.2.cbs a).state = (cbs a).state
  filled : Raised result.1 → result.2.unfilled = []

/-! ## Beginning one entry -/

section Trybegin
variable (call : Nat) {cb : Rcaiocb}

theorem trybegin_of_available (h : Available cb) :
    ∃ action, trybegin call cb = some (cb.store call action .pending) := by
  rcases h with hinit | ⟨hread, huninit⟩
  · refine ⟨.beginWrite, ?_⟩
    simp [trybegin, Rcaiocb.trybeginread, Rcaiocb.trybeginwrite, Rcaiocb.compareExchange,
      hinit]
  · refine ⟨.beginRead, ?_⟩
    simp [trybegin, Rcaiocb.trybeginread, Rcaiocb.compareExchange, hread, huninit]

theorem trybegin_of_not_available (h : ¬ Available cb) : trybegin call cb = none := by
  obtain ⟨hinit, huninit⟩ := not_or.mp h
  by_cases hread : cb.lioRead = true
  · have : cb.state ≠ .uninit := fun hs => huninit ⟨hread, hs⟩
    simp [trybegin, Rcaiocb.trybeginread, Rcaiocb.trybeginwrite, Rcaiocb.compareExchange, hread,
      hinit, this]
  · simp [trybegin, Rcaiocb.trybeginwrite, Rcaiocb.compareExchange, hread, hinit]

/-- The compare-exchanges that an entry takes. -/
def attempts (cb : Rcaiocb) : Nat := if cb.lioRead = true ∧ cb.state ≠ .uninit then 2 else 1

/-- **The loop here takes the steps of the machine's calls.** -/
theorem exec_entry (ok : Bool) (a : Nat) (todo : List (Option (Nat × Bool)))
    (begun : List (Nat × AiocbState)) :
    (fun r : Rcaiocb × Pc => r.2.exec call ok r.1)^[attempts cb]
        (cb, nextEntry begun (some (a, cb.lioRead) :: todo)) =
      match trybegin call cb with
      | some cb' => (cb', nextEntry (begun ++ [(a, cb.state)]) todo)
      | none => (cb, .refused begun cb.state) := by
  by_cases hread : cb.lioRead = true
  · by_cases huninit : cb.state = .uninit
    · simp [attempts, hread, huninit, nextEntry, Pc.exec, trybegin, Rcaiocb.trybeginread,
        Rcaiocb.compareExchange, afterBegin]
    · have hr : cb.trybeginread call = none := by
        simp [Rcaiocb.trybeginread, Rcaiocb.compareExchange, huninit]
      have htwo : attempts cb = 2 := if_pos ⟨hread, huninit⟩
      rw [htwo]
      simp only [Function.iterate_succ, Function.iterate_zero, Function.comp_apply, id_eq,
        nextEntry, hread, Pc.exec, hr, trybegin, if_true, Option.none_or]
      cases cb.trybeginwrite call <;> rfl
  · have hone : attempts cb = 1 := if_neg fun h => hread h.1
    rw [Bool.not_eq_true] at hread
    rw [hone]
    simp only [Function.iterate_one, nextEntry, hread, Pc.exec, trybegin]
    cases cb.trybeginwrite call <;> rfl

end Trybegin

/-! ## The loop -/

/-- The entries before the current one have been begun: they are `done`. -/
structure Begun (cbs : Nat → Rcaiocb) (done : List Nat) (arrays : Arrays) (m : Memory) :
    Prop where
  pointers : ∀ j : Nat, arrays.cbs[j]?.join = done[j]?
  states : ∀ j : Nat, j < done.length →
    arrays.states[j]?.join = done[j]?.map (fun a => (cbs a).state)
  pending : ∀ a ∈ done, (m.cbs a).state = .pending
  others : ∀ a, a ∉ done → m.cbs a = cbs a
  filled : m.unfilled = []

section Loop
variable (call : Nat) (garbage : Garbage) {cbs : Nat → Rcaiocb} {done : List Nat}
  {arrays : Arrays} {m : Memory}

theorem join_replicate_none {α : Type} (n j : Nat) :
    ((List.replicate n (none : Option α))[j]?).join = none := by
  rw [List.getElem?_replicate]
  split <;> rfl

theorem Begun.new (cbs : Nat → Rcaiocb) (n : Nat) :
    Begun cbs [] (Arrays.new n) ⟨cbs, []⟩ where
  pointers j := by rw [Arrays.new, join_replicate_none, List.getElem?_nil]
  states j hj := absurd hj (Nat.not_lt_zero j)
  pending a ha := absurd ha List.not_mem_nil
  others a _ := rfl
  filled := rfl

/-- Rolling back the first `n` entries restores their control blocks and no others. -/
theorem Begun.rollbackStates (h : Begun cbs done arrays m) {n : Nat} (hn : n ≤ done.length) :
    (m.rollbackStates call garbage arrays n).unfilled = [] ∧
    ∀ a, ((m.rollbackStates call garbage arrays n).cbs a).state =
      if a ∈ done.take n then (cbs a).state else (m.cbs a).state := by
  induction n with
  | zero => exact ⟨h.filled, fun a => by simp [Memory.rollbackStates]⟩
  | succ n ih =>
    obtain ⟨hfilled, hstates⟩ := ih (Nat.le_of_succ_le hn)
    have hlt : n < done.length := hn
    have hp : arrays.cbs[n]?.join = some done[n] := by
      rw [h.pointers, List.getElem?_eq_getElem hlt]
    have hs : arrays.states[n]?.join = some (cbs done[n]).state := by
      rw [h.states n hlt, List.getElem?_eq_getElem hlt, Option.map_some]
    have hstep : m.rollbackStates call garbage arrays (n + 1) =
        (m.rollbackStates call garbage arrays n).setCb done[n]
          (((m.rollbackStates call garbage arrays n).cbs done[n]).store call .refused
            (cbs done[n]).state) := by
      simp [Memory.rollbackStates, Memory.rollback, hp, hs]
    have hmem : ∀ a, a ∈ done.take (n + 1) ↔ a ∈ done.take n ∨ a = done[n] := fun a => by
      rw [List.take_succ_eq_append_getElem hlt, List.mem_append, List.mem_singleton]
    refine ⟨by rw [hstep]; exact hfilled, fun a => ?_⟩
    rw [hstep]
    by_cases ha : a = done[n]
    · subst ha
      simp [Memory.setCb, hmem]
    · simp only [Memory.setCb, Function.update_of_ne ha, hstates, hmem, ha, or_false]

/-- Reading an entry that was not filled in is not forgotten. -/
theorem mem_unfilled_rollback {i : Nat} (hi : arrays.cbs[i]?.join = none) :
    i ∈ (m.rollback call garbage arrays i).unfilled := by
  simp only [Memory.rollback, hi, Option.isSome_none, Bool.false_and, Option.none_or]
  cases garbage.cbs i <;> simp [Memory.setCb]

/-- The next entry is available and is begun. -/
theorem Begun.begin_ {a : Nat} (action : Action) (h : Begun cbs done arrays m) (ha : a ∉ done)
    (hpos : done.length < arrays.cbs.length) (hpos' : done.length < arrays.states.length) :
    Begun cbs (done ++ [a])
      ⟨arrays.cbs.set done.length (some a),
        arrays.states.set done.length (some (m.cbs a).state)⟩
      (m.setCb a ((m.cbs a).store call action .pending)) where
  pointers j := by
    by_cases hj : done.length = j
    · subst hj
      simp [hpos]
    · rw [List.getElem?_set_ne hj, h.pointers, List.getElem?_append]
      grind
  states j hj := by
    by_cases hj' : done.length = j
    · subst hj'
      simp [hpos', h.others a ha]
    · have hlt : j < done.length := by
        rw [List.length_append, List.length_singleton] at hj
        omega
      rw [List.getElem?_set_ne hj', h.states j hlt, List.getElem?_append_left hlt]
  pending b hb := by
    by_cases hba : b = a
    · subst hba
      simp [Memory.setCb]
    · simp only [Memory.setCb, Function.update_of_ne hba]
      exact h.pending b (by simpa [hba] using hb)
  others b hb := by
    rw [List.mem_append, List.mem_singleton, not_or] at hb
    simp only [Memory.setCb, Function.update_of_ne hb.2]
    exact h.others b hb.1
  filled := h.filled

/-- **What the loop does** from an entry on, when those before it have been begun. -/
theorem Begun.loop (test : Value → Option Nat) (ok : Bool) (todo : List Value) :
    ∀ {done : List Nat} {arrays : Arrays} {m : Memory}, Begun cbs done arrays m →
      arrays.cbs.length = done.length + todo.length →
      arrays.states.length = done.length + todo.length →
      (Atomic cbs (Listio.loop call garbage test ok todo done.length arrays m) ↔
        (∀ a ∈ leading test todo, a ∉ done ∧ Available (cbs a)) ∧
          (leading test todo).Nodup) := by
  induction todo with
  | nil =>
    intro done arrays m h _ _
    have hraised : ¬ Raised (Listio.loop call garbage test ok [] done.length arrays m).1 := by
      cases ok <;> simp [Listio.loop, Raised]
    simp only [leading, List.not_mem_nil, List.nodup_nil]
    exact ⟨fun _ => ⟨fun _ ha => ha.elim, trivial⟩,
      fun _ => ⟨fun hr => absurd hr hraised, fun hr => absurd hr hraised⟩⟩
  | cons value todo ih =>
    intro done arrays m h hlen hlen'
    cases htest : test value with
    | none =>
      -- no control block: exactly what was begun is rolled back
      obtain ⟨hfilled, hstates⟩ :=
        h.rollbackStates call garbage (Nat.le_refl _)
      simp only [leading, htest, List.not_mem_nil, List.nodup_nil, Listio.loop]
      refine ⟨fun _ => ⟨fun _ ha => ha.elim, trivial⟩,
        fun _ => ⟨fun _ a => ?_, fun _ => hfilled⟩⟩
      rw [hstates, List.take_length]
      by_cases ha : a ∈ done
      · rw [if_pos ha]
      · rw [if_neg ha, h.others a ha]
    | some a =>
      have hleading : leading test (value :: todo) =
          a :: leading test todo := by
        simp only [leading, htest]
      by_cases hav : a ∉ done ∧ Available (cbs a)
      · obtain ⟨hnew, havail⟩ := hav
        rw [← h.others a hnew] at havail
        obtain ⟨action, hbegin⟩ := trybegin_of_available call havail
        have hroom : done.length < arrays.cbs.length := by rw [hlen]; simp
        have hroom' : done.length < arrays.states.length := by rw [hlen']; simp
        have hnext := ih (h.begin_ call action hnew hroom hroom')
          (by simp [hlen]; omega) (by simp [hlen']; omega)
        rw [List.length_append, List.length_singleton] at hnext
        rw [Listio.loop]
        simp only [htest, hbegin]
        rw [hnext]
        rw [h.others a hnew] at havail
        simp only [hleading, List.mem_append, List.mem_cons, List.nodup_cons]
        grind
      · -- unavailable: the call rolls back one entry more than it has begun
        have hrefused : trybegin call (m.cbs a) = none := by
          apply trybegin_of_not_available
          by_cases ha : a ∈ done
          · simp [Available, h.pending a ha]
          · rw [h.others a ha]
            exact fun havail => hav ⟨ha, havail⟩
        have hunfilled : (Listio.loop call garbage test ok (value :: todo) done.length arrays
            m).2.unfilled ≠ [] := by
          rw [Listio.loop]
          simp only [htest, hrefused, Memory.rollbackStates]
          apply List.ne_nil_of_mem
          apply mem_unfilled_rollback
          rw [h.pointers, List.getElem?_eq_none (Nat.le_refl _)]
        have hraised : Raised (Listio.loop call garbage test ok (value :: todo) done.length
            arrays m).1 := by
          rw [Listio.loop]
          simp only [htest, hrefused]
          trivial
        refine ⟨fun hat => absurd (hat.filled hraised) hunfilled, fun hc => absurd ?_ hav⟩
        exact hc.1 a (by simp [hleading])

end Loop

/-- The call whose test is `test` is atomic exactly when the control blocks it gives for the
table, up to the first value for which it gives none, are available and all different. -/
theorem loop_atomic_iff (call : Nat) (garbage : Garbage) (test : Value → Option Nat)
    (ok : Bool) (table : List Value) (cbs : Nat → Rcaiocb) :
    Atomic cbs (loop call garbage test ok table 0 (Arrays.new table.length) ⟨cbs, []⟩) ↔
      (∀ a ∈ leading test table, Available (cbs a)) ∧ (leading test table).Nodup := by
  have h := (Begun.new cbs table.length).loop call garbage test ok table
    (by simp [Arrays.new]) (by simp [Arrays.new])
  rw [← List.length_nil (α := Nat), h]
  simp

/-- No value passes for a control block. -/
theorem leading_testcookie (table : List Value) : leading testcookie table = [] := by
  cases table with
  | nil => rfl
  | cons value todo => simp only [leading, testcookie_eq_none]

/-- A call on a table that is not empty fails before it has begun anything. -/
theorem listio_cons (call : Nat) (garbage : Garbage) (ok : Bool) (value : Value)
    (todo : List Value) (cbs : Nat → Rcaiocb) :
    listio call garbage ok (value :: todo) cbs =
      (.argerror 2 "invalid aiocb", ⟨cbs, []⟩) := by
  rw [listio, loop]
  simp only [testcookie_eq_none]
  rfl

/-- **`listio` is atomic on failure**, for every table, whatever the control blocks' states
and the contents of the new arrays are.  It rolls back one entry too many where it refuses a
control block that is not available, but it never gets there. -/
theorem listio_atomic (call : Nat) (garbage : Garbage) (ok : Bool) (table : List Value)
    (cbs : Nat → Rcaiocb) : Atomic cbs (listio call garbage ok table cbs) := by
  have hleading := leading_testcookie table
  rw [listio, loop_atomic_iff, hleading]
  exact ⟨fun a ha => absurd ha List.not_mem_nil, List.nodup_nil⟩

end Listio
end Aio
end FluaLibs
