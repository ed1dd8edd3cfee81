import FluaLibs.LuaState
import Mathlib.Data.Nat.Find
import Mathlib.Logic.Function.Basic

/-! # Lua tables as sequences

The bindings keep lists of values in tables, at the integer keys from 1 on, and read
the length of such a list back with `luaL_len`.  The length of a table is a *border*:
0 or a key with a value, followed by a key without one.  A table whose values have no
hole has one border (`Table.isBorder_ofList_iff`); for any other table the language
leaves open which border is given, so here the choice is a parameter (`Length`).

`TableState` is a Lua state with the tables its values refer to, and the API
functions on them.
-/
namespace FluaLibs

/-- The values a table has at the positive integer keys: nil at all but finitely many. -/
@[ext] structure Table where
  get : Nat → Value
  bounded : ∃ n, ∀ i, n < i → get i = .nil

namespace Table

/-- `t[i] = v` -/
def set (t : Table) (i : Nat) (v : Value) : Table where
  get := Function.update t.get i v
  bounded := by
    obtain ⟨n, hn⟩ := t.bounded
    refine ⟨max n i, fun j hj => ?_⟩
    have hne : j ≠ i := by omega
    rw [Function.update_of_ne hne]
    exact hn j (by omega)

/-- The value at an index when the list begins at 1. -/
def entry (vs : List Value) : Nat → Value
  | 0 => .nil
  | i + 1 => vs[i]?.getD .nil

theorem entry_bounded (vs : List Value) : ∃ n, ∀ i, n < i → entry vs i = .nil := by
  refine ⟨vs.length, fun i hi => ?_⟩
  cases i with
  | zero => rfl
  | succ i =>
    have hi' : vs.length ≤ i := by omega
    simp [entry, List.getElem?_eq_none hi']

/-- The table with the given values at 1, 2, … -/
def ofList (vs : List Value) : Table := ⟨entry vs, entry_bounded vs⟩

@[simp] theorem set_get_self (t : Table) (i : Nat) (v : Value) : (t.set i v).get i = v :=
  Function.update_self ..

theorem set_get_of_ne (t : Table) {i j : Nat} (v : Value) (h : j ≠ i) :
    (t.set i v).get j = t.get j :=
  Function.update_of_ne h ..

@[simp] theorem ofList_succ (vs : List Value) (i : Nat) :
    (ofList vs).get (i + 1) = vs[i]?.getD .nil := rfl

theorem ofList_get_of_lt {vs : List Value} {i : Nat} (h : i < vs.length) :
    (ofList vs).get (i + 1) = vs[i] := by
  rw [ofList_succ, List.getElem?_eq_getElem h]
  rfl

theorem ofList_get_of_le {vs : List Value} {i : Nat} (h : vs.length ≤ i) :
    (ofList vs).get (i + 1) = .nil := by
  rw [ofList_succ, List.getElem?_eq_none h]
  rfl

/-- Setting the key after the last appends. -/
theorem ofList_set_length (vs : List Value) (v : Value) :
    (ofList vs).set (vs.length + 1) v = ofList (vs ++ [v]) := by
  apply Table.ext
  funext i
  by_cases hi : i = vs.length + 1
  · subst hi
    rw [set_get_self, ofList_succ, List.getElem?_concat_length]
    rfl
  · rw [set_get_of_ne _ _ hi]
    cases i with
    | zero => rfl
    | succ i =>
      have hne : i ≠ vs.length := fun h => hi (congrArg (· + 1) h)
      rw [ofList_succ, ofList_succ, List.getElem?_append]
      by_cases hlt : i < vs.length
      · rw [if_pos hlt]
      · have hpos : 1 ≤ i - vs.length := by omega
        rw [if_neg hlt, List.getElem?_eq_none (by omega : vs.length ≤ i),
          List.getElem?_eq_none hpos]

/-- Clearing the last key removes it. -/
theorem ofList_concat_set_nil (vs : List Value) (v : Value) :
    (ofList (vs ++ [v])).set (vs.length + 1) .nil = ofList vs := by
  rw [← ofList_set_length]
  apply Table.ext
  funext i
  by_cases hi : i = vs.length + 1
  · subst hi
    rw [set_get_self, ofList_get_of_le (le_refl _)]
  · rw [set_get_of_ne _ _ hi, set_get_of_ne _ _ hi]

/-- Clearing a key that has no value changes nothing. -/
theorem set_nil_of_get_nil {t : Table} {i : Nat} (h : t.get i = .nil) : t.set i .nil = t := by
  apply Table.ext
  funext j
  by_cases hj : j = i
  · subst hj
    rw [set_get_self, h]
  · exact set_get_of_ne _ _ hj

/-! ### Borders -/

/-- What the length operator may answer. -/
def IsBorder (t : Table) (b : Nat) : Prop := (b = 0 ∨ t.get b ≠ .nil) ∧ t.get (b + 1) = .nil

instance (t : Table) (b : Nat) : Decidable (t.IsBorder b) := inferInstanceAs (Decidable (_ ∧ _))

/-- Below a key without a value there is a border. -/
theorem exists_isBorder_le {t : Table} {n : Nat} (h : t.get (n + 1) = .nil) :
    ∃ b ≤ n, t.IsBorder b := by
  induction n with
  | zero => exact ⟨0, le_refl 0, Or.inl rfl, h⟩
  | succ n ih =>
    by_cases hn : t.get (n + 1) = .nil
    · obtain ⟨b, hb, hborder⟩ := ih hn
      exact ⟨b, by omega, hborder⟩
    · exact ⟨n + 1, le_refl _, Or.inr hn, h⟩

theorem exists_isBorder (t : Table) : ∃ b, t.IsBorder b := by
  obtain ⟨n, hn⟩ := t.bounded
  obtain ⟨b, _, hb⟩ := exists_isBorder_le (hn (n + 1) (by omega))
  exact ⟨b, hb⟩

/-- The length of the list is a border when the last value is not nil. -/
theorem isBorder_length_iff (vs : List Value) :
    (ofList vs).IsBorder vs.length ↔ vs.getLast? ≠ some .nil := by
  rcases List.eq_nil_or_concat vs with rfl | ⟨us, v, rfl⟩
  · simp [IsBorder]
  · simp [IsBorder]

/-- No border lies beyond the list. -/
theorem IsBorder.le_length {vs : List Value} {b : Nat} (h : (ofList vs).IsBorder b) :
    b ≤ vs.length := by
  by_contra hgt
  rcases h.1 with rfl | hvalue
  · omega
  · obtain ⟨c, rfl⟩ := Nat.exists_eq_succ_of_ne_zero (show b ≠ 0 by omega)
    exact hvalue (ofList_get_of_le (by omega))

/-- A list that starts with a value has no empty border. -/
theorem IsBorder.pos {v : Value} {vs : List Value} {b : Nat} (h : (ofList (v :: vs)).IsBorder b)
    (hv : v ≠ .nil) : 0 < b := by
  rcases Nat.eq_zero_or_pos b with rfl | hpos
  · exact absurd h.2 hv
  · exact hpos

/-- A list without nil has one border, its length. -/
theorem isBorder_ofList_iff {vs : List Value} (h : .nil ∉ vs) {b : Nat} :
    (ofList vs).IsBorder b ↔ b = vs.length := by
  constructor
  · intro hborder
    rcases Nat.lt_or_eq_of_le hborder.le_length with hlt | heq
    · have hend := hborder.2
      rw [ofList_get_of_lt hlt] at hend
      exact absurd (hend ▸ List.getElem_mem hlt) h
    · exact heq
  · rintro rfl
    rw [isBorder_length_iff]
    exact fun hlast => h (List.mem_of_getLast? hlast)

/-- A list with a nil in it has a border that is not its length. -/
theorem exists_shorter_border {vs : List Value} (h : .nil ∈ vs) :
    ∃ b < vs.length, (ofList vs).IsBorder b := by
  obtain ⟨i, hi, hnil⟩ := List.getElem_of_mem h
  have hget : (ofList vs).get (i + 1) = .nil := by
    rw [ofList_get_of_lt hi, hnil]
  obtain ⟨b, hb, hborder⟩ := exists_isBorder_le hget
  exact ⟨b, by omega, hborder⟩

/-- The values at the first `n` keys. -/
def values (t : Table) (n : Nat) : List Value := (List.range n).map (fun i => t.get (i + 1))

@[simp] theorem values_length (t : Table) (n : Nat) : (t.values n).length = n := by
  rw [values, List.length_map, List.length_range]

theorem values_succ (t : Table) (n : Nat) : t.values (n + 1) = t.values n ++ [t.get (n + 1)] := by
  rw [values, List.range_succ, List.map_append]
  rfl

theorem values_ofList_of_le {vs : List Value} {n : Nat} (h : n ≤ vs.length) :
    (ofList vs).values n = vs.take n := by
  apply List.ext_getElem
  · rw [values_length, List.length_take, Nat.min_eq_left h]
  · intro i hi _
    rw [values_length] at hi
    simp [values, List.getElem?_eq_getElem (Nat.lt_of_lt_of_le hi h)]

theorem values_ofList (vs : List Value) : (ofList vs).values vs.length = vs := by
  rw [values_ofList_of_le (le_refl _), List.take_length]

/-- Lists without nil make different tables. -/
theorem ofList_injective {vs ws : List Value} (hvs : .nil ∉ vs) (hws : .nil ∉ ws)
    (h : ofList vs = ofList ws) : vs = ws := by
  have hborder : (ofList ws).IsBorder vs.length := by
    rw [← h, isBorder_ofList_iff hvs]
  have hlength := (isBorder_ofList_iff hws).mp hborder
  rw [← values_ofList vs, ← values_ofList ws, ← hlength, h]

end Table

/-- How the implementation answers `#`: for each table, by its reference and its
values, some border. -/
structure Length where
  border : Nat → Table → Nat
  isBorder : ∀ (r : Nat) (t : Table), t.IsBorder (border r t)

namespace Length

/-- The smallest border. -/
def least : Length where
  border _ t := Nat.find t.exists_isBorder
  isBorder _ t := Nat.find_spec t.exists_isBorder

/-- The answer for one table may be any of its borders. -/
theorem exists_border_eq {t : Table} {b : Nat} (h : t.IsBorder b) (r : Nat) :
    ∃ len : Length, len.border r t = b := by
  classical
  refine ⟨⟨fun r' t' => if r' = r ∧ t' = t then b else least.border r' t', ?_⟩, ?_⟩
  · intro r' t'
    by_cases heq : r' = r ∧ t' = t
    · rw [if_pos heq, heq.2]
      exact h
    · rw [if_neg heq]
      exact least.isBorder r' t'
  · exact if_pos ⟨rfl, rfl⟩

theorem border_ofList (len : Length) {vs : List Value} (h : .nil ∉ vs) (r : Nat) :
    len.border r (.ofList vs) = vs.length :=
  (Table.isBorder_ofList_iff h).mp (len.isBorder r _)

/-- A nil at the end of a list is not counted. -/
theorem border_ne_of_last (len : Length) {vs : List Value} (h : vs.getLast? = some .nil) (r : Nat) :
    len.border r (.ofList vs) ≠ vs.length := by
  intro heq
  have hborder := len.isBorder r (.ofList vs)
  rw [heq, Table.isBorder_length_iff] at hborder
  exact hborder h

/-- The length of a list is what every implementation answers exactly when the list has
no nil. -/
theorem border_eq_iff (vs : List Value) (r : Nat) :
    (∀ len : Length, len.border r (.ofList vs) = vs.length) ↔ .nil ∉ vs := by
  constructor
  · intro hall hnil
    obtain ⟨b, hlt, hborder⟩ := Table.exists_shorter_border hnil
    obtain ⟨len, hlen⟩ := exists_border_eq hborder r
    have := hall len
    omega
  · intro h len
    exact len.border_ofList h r

end Length

/-! ## States with tables -/

/-- A Lua state with the tables its values refer to. -/
structure TableState (R : Runtime) extends LuaState R where
  tables : List Table

namespace TableState
variable {R : Runtime} (T : TableState R)

/-- The same stack operation on a state with tables. -/
def lift (f : LuaState R → LuaState R) : TableState R := { T with toLuaState := f T.toLuaState }

def push (v : Value) : TableState R := T.lift (·.push v)
def pop (n : Nat) : TableState R := T.lift (·.pop n)
def pushvalue (idx : Int) : TableState R := T.lift (·.pushvalue idx)
def insert (idx : Int) : TableState R := T.lift (·.insert idx)
def remove (idx : Int) : TableState R := T.lift (·.remove idx)

/-- The state with another stack. -/
def withStack (vs : List Value) : TableState R := { T with stack := vs }

/-- The state with another table at a reference. -/
def setTable (r : Nat) (t : Table) : TableState R := { T with tables := T.tables.set r t }

/-- `lua_absindex` -/
def absindex (idx : Int) : Int := if 0 < idx then idx else T.gettop + idx + 1

/-- `lua_settop`, to a smaller or a larger number of values. -/
def settop (idx : Int) : TableState R :=
  T.withStack (T.stack.take idx.toNat ++ List.replicate (idx.toNat - T.gettop) .nil)

/-- `lua_createtable`; the sizes are hints. -/
def createtable : TableState R :=
  { T.push (.table T.tables.length) with tables := T.tables ++ [.ofList []] }

/-- The table at an index. -/
def tableAt (idx : Int) : Option (Nat × Table) :=
  match T.index idx with
  | some (.table r) => T.tables[r]?.map (fun t => (r, t))
  | _ => none

/-- `lua_rawgeti` at the index of a table. -/
def rawgeti (idx : Int) (i : Nat) : TableState R :=
  match T.tableAt idx with
  | some (_, t) => T.push (t.get i)
  | none => T

/-- `lua_rawseti` at the index of a table: pops the value. -/
def rawseti (idx : Int) (i : Nat) : TableState R :=
  match T.tableAt idx, T.stack.getLast? with
  | some (r, _), some v => { T.pop 1 with tables := T.tables.modify r (fun t => t.set i v) }
  | _, _ => T

def lengthMessage : Value := .literal "attempt to get length of a nil value"

/-- `luaL_len`.  The bindings apply it to tables without metatables, and to the nil that
an empty stack of handlers gives. -/
def len (length : Length) (idx : Int) : Except Value Nat :=
  match T.tableAt idx with
  | some (r, t) => .ok (length.border r t)
  | none => .error lengthMessage

/-! ### The operations on a known stack -/

section Stack
variable {T}

@[simp] theorem push_stack (v : Value) : (T.push v).stack = T.stack ++ [v] := rfl
@[simp] theorem withStack_stack (vs : List Value) : (T.withStack vs).stack = vs := rfl

@[simp] theorem withStack_withStack (vs ws : List Value) :
    (T.withStack vs).withStack ws = T.withStack ws := rfl

theorem withStack_self : T.withStack T.stack = T := rfl

theorem eq_withStack {vs : List Value} (h : T.stack = vs) : T = T.withStack vs := by
  rw [← h, withStack_self]

variable {below above : List Value} {v : Value} {r : Nat} {t : Table}

theorem pos_of_stack (vs : List Value) : T.pos (vs.length + 1) = vs.length := by
  have hpos : (0 : Int) < vs.length + 1 := by omega
  rw [LuaState.pos, if_pos hpos]
  omega

theorem index_of_stack (h : T.stack = below ++ v :: above) :
    T.index (below.length + 1) = some v := by
  rw [LuaState.index, pos_of_stack, h]
  simp

theorem pushvalue_of_stack (h : T.stack = below ++ v :: above) :
    T.pushvalue (below.length + 1) = T.withStack (T.stack ++ [v]) := by
  rw [pushvalue, lift, LuaState.pushvalue, index_of_stack h]
  rfl

theorem remove_of_stack (h : T.stack = below ++ v :: above) :
    T.remove (below.length + 1) = T.withStack (below ++ above) := by
  rw [remove, lift, LuaState.remove, pos_of_stack, h,
    List.eraseIdx_append_of_length_le (le_refl _), Nat.sub_self]
  rfl

theorem insert_of_stack (h : T.stack = below ++ above ++ [v]) :
    T.insert (below.length + 1) = T.withStack (below ++ v :: above) := by
  have hlast : T.stack.getLast? = some v := by rw [h, List.getLast?_concat]
  have hinsert : T.stack.dropLast.insertIdx below.length v = below ++ v :: above := by
    rw [h, List.dropLast_concat, LuaState.insertIdx_append_length]
  rw [insert, lift, LuaState.insert, hlast, pos_of_stack]
  simp only [hinsert]
  rfl

theorem pop_of_stack (h : T.stack = below ++ [v]) : T.pop 1 = T.withStack below := by
  rw [pop, lift, LuaState.pop, LuaState.gettop, h]
  simp [withStack]

theorem settop_of_stack (h : T.stack = below ++ v :: above) :
    T.settop (below.length + 1) = T.withStack (below ++ [v]) := by
  have hnat : ((below.length : Int) + 1).toNat = below.length + 1 := by omega
  have hzero : below.length + 1 - (below ++ v :: above).length = 0 := by
    rw [List.length_append, List.length_cons]
    omega
  have htake : (below ++ v :: above).take (below.length + 1) = below ++ [v] := by
    rw [List.take_length_add_append]
    rfl
  rw [settop, LuaState.gettop, h, hnat, hzero, htake]
  simp

theorem setTable_self (ht : T.tables[r]? = some t) : T.setTable r t = T := by
  obtain ⟨hlt, hget⟩ := List.getElem?_eq_some_iff.mp ht
  rw [setTable, ← hget, List.set_getElem_self]

@[simp] theorem setTable_setTable (t t' : Table) :
    (T.setTable r t).setTable r t' = T.setTable r t' := by
  simp [setTable]

theorem tableAt_of_index {idx : Int} (h : T.index idx = some (.table r))
    (ht : T.tables[r]? = some t) : T.tableAt idx = some (r, t) := by
  rw [tableAt, h]
  simp [ht]

theorem tableAt_of_stack (h : T.stack = below ++ .table r :: above) (ht : T.tables[r]? = some t) :
    T.tableAt (below.length + 1) = some (r, t) :=
  tableAt_of_index (index_of_stack h) ht

theorem getElem?_of_tableAt {idx : Int} (h : T.tableAt idx = some (r, t)) :
    T.tables[r]? = some t := by
  unfold tableAt at h
  split at h
  · obtain ⟨t', ht', heq⟩ := Option.map_eq_some_iff.mp h
    cases heq
    exact ht'
  · cases h

theorem rawgeti_of_tableAt {idx : Int} (h : T.tableAt idx = some (r, t)) (i : Nat) :
    T.rawgeti idx i = T.withStack (T.stack ++ [t.get i]) := by
  rw [rawgeti, h]
  rfl

theorem rawseti_of_tableAt {idx : Int} (h : T.tableAt idx = some (r, t))
    (hstack : T.stack = below ++ [v]) (i : Nat) :
    T.rawseti idx i = (T.withStack below).setTable r (t.set i v) := by
  have hmodify : T.tables.modify r (fun t => t.set i v) = T.tables.set r (t.set i v) := by
    rw [List.modify_eq_set_getElem?]
    simp [getElem?_of_tableAt h]
  rw [rawseti, h, hstack, List.getLast?_concat, pop_of_stack hstack]
  simp only [hmodify]
  rfl

theorem len_of_tableAt {idx : Int} (length : Length) (h : T.tableAt idx = some (r, t)) :
    T.len length idx = .ok (length.border r t) := by
  rw [len, h]

/-- An index counts from the top when it is negative. -/
theorem index_neg_of_stack (h : T.stack = below ++ v :: above) :
    T.index (-(above.length + 1)) = some v := by
  have hneg : ¬ (0 : Int) < -((above.length : Int) + 1) := by omega
  have hpos : T.pos (-(above.length + 1)) = below.length := by
    rw [LuaState.pos, if_neg hneg, LuaState.gettop, h, List.length_append, List.length_cons]
    omega
  rw [LuaState.index, hpos, h]
  simp

theorem absindex_of_stack (h : T.stack = below ++ v :: above) :
    T.absindex (-(above.length + 1)) = below.length + 1 := by
  have hneg : ¬ (0 : Int) < -((above.length : Int) + 1) := by omega
  rw [absindex, if_neg hneg, LuaState.gettop, h, List.length_append, List.length_cons]
  omega

@[simp] theorem absindex_pos (n : Nat) : T.absindex (n + 1) = n + 1 := by
  have hpos : (0 : Int) < n + 1 := by omega
  rw [absindex, if_pos hpos]

end Stack
end TableState
end FluaLibs
