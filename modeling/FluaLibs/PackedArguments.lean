import FluaLibs.CopyValues
import FluaLibs.LuaTables

/-! # Lists of values packed in a table

`tpack` moves the topmost values of the stack into a new table and `tunpack` pushes
the values of a table; `tpush` and `tpop` use a table as a stack.  A table does not
record how many values were packed: `tunpack` reads back as many as `luaL_len` says.
So the values come back as they were exactly when the length of the table is their
number, and for every implementation of the length only without nils
(`tpack_tunpack_iff`).  This is with enough Lua stack: `tunpack` asks for no room, no more
than the converters of `StackCapacity` do.
-/
namespace FluaLibs
namespace TableState
variable {R : Runtime}

/-- `tpush(L, idx)`: append the value on top to the table. -/
def tpush (length : Length) (T : TableState R) (idx : Int) : Except Value (TableState R) :=
  match T.len length idx with
  | .ok len => .ok (T.rawseti idx (len + 1))
  | .error err => .error err

/-- `tpop(L, idx)`: push the last value of the table and clear its key. -/
def tpop (length : Length) (T : TableState R) (idx : Int) : Except Value (TableState R) :=
  let idx := T.absindex idx
  match T.len length idx with
  | .ok len => .ok (((T.rawgeti idx len).push .nil).rawseti idx len)
  | .error err => .error err

/-- The loop of `tpack`, for a number of values from the `i`-th on. -/
def packLoop (idx : Int) : Nat → Nat → TableState R → TableState R
  | _, 0, T => T
  | i, n + 1, T => packLoop idx (i + 1) n ((T.pushvalue (idx + i)).rawseti idx i)

/-- `tpack(L, n)`: replace the `n` values on top by a table of them. -/
def tpack (T : TableState R) (n : Nat) : TableState R :=
  let T₁ := T.createtable
  if 0 < n then
    let idx : Int := T₁.gettop - n
    (packLoop idx 1 n (T₁.insert idx)).settop idx
  else T₁

/-- The loop of `tunpack`, for a number of keys from `i` on. -/
def unpackLoop (idx : Int) : Nat → Nat → TableState R → TableState R
  | _, 0, T => T
  | i, n + 1, T => unpackLoop idx (i + 1) n (T.rawgeti idx i)

/-- `tunpack(L, idx)`: push the values of the table and remove it. -/
def tunpack (length : Length) (T : TableState R) (idx : Int) : Except Value (Nat × TableState R) :=
  let idx := T.absindex idx
  match T.len length idx with
  | .ok len => .ok (len, (unpackLoop idx 1 len T).remove idx)
  | .error err => .error err

/-! ## What the helpers do -/

section Specs
variable {T : TableState R} {below above vs : List Value} {v : Value} {r : Nat} {t : Table}

/-- The table stands below the value. -/
theorem tpush_spec (length : Length) (h : T.stack = below ++ [.table r, v])
    (ht : T.tables[r]? = some t) :
    tpush length T (-2) = .ok ((T.withStack (below ++ [.table r])).setTable r
      (t.set (length.border r t + 1) v)) := by
  have htable : T.tableAt (-2) = some (r, t) := tableAt_of_index (index_neg_of_stack h) ht
  have hstack : T.stack = below ++ [.table r] ++ [v] := by
    rw [h, List.append_assoc]
    rfl
  rw [tpush, len_of_tableAt length htable]
  simp only [rawseti_of_tableAt htable hstack]

/-- The table may stand anywhere. -/
theorem tpop_spec (length : Length) (h : T.stack = below ++ .table r :: above)
    (ht : T.tables[r]? = some t) :
    tpop length T (below.length + 1) =
      .ok ((T.withStack (T.stack ++ [t.get (length.border r t)])).setTable r
        (t.set (length.border r t) .nil)) := by
  have htable := tableAt_of_stack h ht
  let b := length.border r t
  let T₁ := (T.withStack (T.stack ++ [t.get b])).push .nil
  have hstack : T₁.stack = T.stack ++ [t.get b] ++ [.nil] := rfl
  have hstack' : T₁.stack = below ++ .table r :: (above ++ [t.get b, .nil]) := by
    rw [hstack, h]
    simp
  have htable' : T₁.tableAt (below.length + 1) = some (r, t) := tableAt_of_stack hstack' ht
  rw [tpop, absindex_pos]
  simp only [len_of_tableAt length htable, rawgeti_of_tableAt htable]
  exact congrArg Except.ok (rawseti_of_tableAt htable' hstack b)

/-- The loop of `tpack` when `done` has been packed and `vs` has not. -/
theorem packLoop_spec (done vs : List Value) {T : TableState R}
    (h : T.stack = below ++ .table r :: (done ++ vs)) (ht : T.tables[r]? = some (.ofList done)) :
    packLoop (below.length + 1) (done.length + 1) vs.length T =
      T.setTable r (.ofList (done ++ vs)) := by
  induction vs generalizing done T with
  | nil =>
    rw [List.append_nil, setTable_self ht]
    rfl
  | cons v vs ih =>
    -- one round: the value is pushed, and then set at the next key
    have hvalue : T.stack = (below ++ .table r :: done) ++ v :: vs := by
      rw [h]
      simp
    have hidx : (below.length : Int) + 1 + (done.length + 1 : Nat) =
        ((below ++ .table r :: done).length : Int) + 1 := by
      rw [List.length_append, List.length_cons]
      push_cast
      omega
    have hpush := pushvalue_of_stack hvalue
    let T₁ := T.withStack (T.stack ++ [v])
    have hstack : T₁.stack = below ++ .table r :: (done ++ v :: vs ++ [v]) := by
      change T.stack ++ [v] = _
      rw [h]
      simp
    have htable : T₁.tableAt (below.length + 1) = some (r, .ofList done) :=
      tableAt_of_stack hstack ht
    have hround : (T.pushvalue (below.length + 1 + (done.length + 1 : Nat))).rawseti
        (below.length + 1) (done.length + 1) = T.setTable r (.ofList (done ++ [v])) := by
      rw [hidx, hpush, rawseti_of_tableAt htable rfl, Table.ofList_set_length]
      rfl
    have hlt : r < T.tables.length := (List.getElem?_eq_some_iff.mp ht).1
    have hnext : (T.setTable r (.ofList (done ++ [v]))).stack =
        below ++ .table r :: (done ++ [v] ++ vs) := by
      change T.stack = _
      rw [h]
      simp
    have hlen : done.length + 1 = (done ++ [v]).length := by simp
    rw [List.length_cons, packLoop, hround, hlen, ih (done ++ [v]) hnext]
    · simp
    · simp [setTable, hlt]

/-- **What `tpack` does**: the values on top become a new table. -/
theorem tpack_spec (h : T.stack = below ++ vs) :
    tpack T vs.length =
      { T.withStack (below ++ [.table T.tables.length]) with
        tables := T.tables ++ [.ofList vs] } := by
  let r := T.tables.length
  by_cases hpos : 0 < vs.length
  · have hstack : T.createtable.stack = below ++ vs ++ [.table r] := by
      change T.stack ++ [.table r] = _
      rw [h]
    have hidx : (T.createtable.gettop : Int) - vs.length = below.length + 1 := by
      rw [LuaState.gettop, hstack]
      simp only [List.length_append, List.length_singleton]
      omega
    let T₁ := T.createtable.withStack (below ++ .table r :: vs)
    have htable : T₁.tables[r]? = some (.ofList []) := List.getElem?_concat_length
    have hinsert : T.createtable.insert (below.length + 1) = T₁ := insert_of_stack hstack
    have hloop : packLoop (below.length + 1) 1 vs.length T₁ = T₁.setTable r (.ofList vs) :=
      packLoop_spec [] vs rfl htable
    have hsettop : (T₁.setTable r (.ofList vs)).settop (below.length + 1) =
        (T₁.setTable r (.ofList vs)).withStack (below ++ [.table r]) :=
      settop_of_stack rfl
    have hset : (T.tables ++ [Table.ofList []]).set r (.ofList vs) = T.tables ++ [.ofList vs] := by
      simp [r]
    simp only [tpack, hpos, ite_true, hidx]
    rw [hinsert, hloop, hsettop, ← hset]
    rfl
  · obtain rfl : vs = [] := List.eq_nil_of_length_eq_zero (by omega)
    rw [List.append_nil] at h
    simp only [tpack, List.length_nil, Nat.lt_irrefl, ite_false, ← h]
    rfl

/-- The loop of `tunpack` when the first `k` keys have been pushed. -/
theorem unpackLoop_spec (k n : Nat) {T : TableState R}
    (h : T.stack = below ++ .table r :: (above ++ t.values k)) (ht : T.tables[r]? = some t) :
    unpackLoop (below.length + 1) (k + 1) n T =
      T.withStack (below ++ .table r :: (above ++ t.values (k + n))) := by
  induction n generalizing k T with
  | zero => exact eq_withStack h
  | succ n ih =>
    have htable := tableAt_of_stack h ht
    have hstack : (T.withStack (T.stack ++ [t.get (k + 1)])).stack =
        below ++ .table r :: (above ++ t.values (k + 1)) := by
      rw [withStack_stack, h, Table.values_succ]
      simp
    rw [unpackLoop, rawgeti_of_tableAt htable, ih (k + 1) hstack ht, withStack_withStack]
    congr 5
    omega

/-- **What `tunpack` does**: as many values as the length of the table says are pushed,
and the table is removed. -/
theorem tunpack_spec (length : Length) {idx : Int} (h : T.stack = below ++ .table r :: above)
    (ht : T.tables[r]? = some t) (hidx : T.absindex idx = below.length + 1) :
    tunpack length T idx = .ok (length.border r t,
      T.withStack (below ++ above ++ t.values (length.border r t))) := by
  have htable := tableAt_of_stack h ht
  have hstart : T.stack = below ++ .table r :: (above ++ t.values 0) := by
    rw [h]
    simp [Table.values]
  have hloop := unpackLoop_spec 0 (length.border r t) hstart ht
  simp only [Nat.zero_add] at hloop
  rw [tunpack, hidx]
  simp only [len_of_tableAt length htable]
  rw [hloop, remove_of_stack (withStack_stack _), withStack_withStack, List.append_assoc]

end Specs

/-! ## The round trip -/

/-- Unpacking table `r`, wherever it then stands and whatever else the state then has,
pushes `vs`, returns their number and leaves the rest of the stack as it was. -/
def UnpacksTo (length : Length) (T : TableState R) (r : Nat) (vs : List Value) : Prop :=
  ∀ (T' : TableState R) (below above : List Value) (idx : Int),
    T'.tables[r]? = T.tables[r]? → T'.stack = below ++ .table r :: above →
    T'.absindex idx = below.length + 1 →
    tunpack length T' idx = .ok (vs.length, T'.withStack (below ++ above ++ vs))

/-- Packing the values `vs` above `below` puts a new table in their place and changes
nothing else, and unpacking it later gives them back. -/
def RoundTrips (length : Length) (T : TableState R) (below vs : List Value) : Prop :=
  ∃ r t, tpack T vs.length =
      { T.withStack (below ++ [.table r]) with tables := T.tables ++ [t] } ∧
    UnpacksTo length (tpack T vs.length) r vs

section RoundTrip
variable {T : TableState R} {below vs : List Value}

theorem tables_tpack (h : T.stack = below ++ vs) :
    (tpack T vs.length).tables[T.tables.length]? = some (.ofList vs) := by
  rw [tpack_spec h]
  exact List.getElem?_concat_length

/-- The values come back exactly when the length of the table is their number. -/
theorem roundTrips_iff_border (length : Length) (h : T.stack = below ++ vs) :
    RoundTrips length T below vs ↔ length.border T.tables.length (.ofList vs) = vs.length := by
  have htable := tables_tpack h
  constructor
  · rintro ⟨r, t, heq, hunpacks⟩
    have hr : r = T.tables.length := by
      rw [tpack_spec h] at heq
      have hstack := congrArg (fun T' : TableState R => T'.stack) heq
      simpa using hstack.symm
    subst hr
    have hstack : (tpack T vs.length).stack = below ++ .table T.tables.length :: [] := by
      rw [heq]
      rfl
    have hidx := absindex_of_stack hstack
    have hgot := hunpacks _ _ _ _ rfl hstack hidx
    rw [tunpack_spec length hstack htable hidx] at hgot
    exact (Prod.mk.inj (Except.ok.inj hgot)).1
  · intro hborder
    refine ⟨_, _, tpack_spec h, ?_⟩
    intro T' below' above idx htable' hstack hidx
    rw [htable] at htable'
    rw [tunpack_spec length hstack htable' hidx, hborder, Table.values_ofList]

/-- With a nil at the end they never do. -/
theorem not_roundTrips_of_last (length : Length) (h : T.stack = below ++ vs)
    (hlast : vs.getLast? = some .nil) : ¬ RoundTrips length T below vs := by
  rw [roundTrips_iff_border length h]
  exact length.border_ne_of_last hlast _

/-- **Packed values come back, whatever length a table with holes has, exactly when
none of them is nil.** -/
theorem tpack_tunpack_iff (T : TableState R) (below vs : List Value) (h : T.stack = below ++ vs) :
    (∀ length, RoundTrips length T below vs) ↔ .nil ∉ vs := by
  rw [← Length.border_eq_iff vs T.tables.length]
  exact forall_congr' (fun length => roundTrips_iff_border length h)

end RoundTrip

/-- A state with the given values on its stack and no tables. -/
def stateWith (vs : List Value) : TableState sampleRuntime := ⟨⟨vs, [], 0⟩, []⟩

theorem tpack_tunpack_two :
    RoundTrips .least (stateWith [.integer 1, .cfunction 0, .boolean false]) [.integer 1]
      [.cfunction 0, .boolean false] :=
  (tpack_tunpack_iff _ _ _ rfl).mpr (by decide) .least

/-- A function packed with the argument nil comes back without it. -/
theorem not_roundTrips_nil :
    ¬ ∀ (R : Runtime) (length : Length) (T : TableState R) (below vs : List Value),
      T.stack = below ++ vs → RoundTrips length T below vs := by
  intro h
  exact not_roundTrips_of_last .least rfl rfl
    (h sampleRuntime .least (stateWith [.cfunction 0, .nil]) [] [.cfunction 0, .nil] rfl)

end TableState
end FluaLibs
