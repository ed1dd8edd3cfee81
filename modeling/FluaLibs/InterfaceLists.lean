import FluaLibs.LuaArguments
import FluaLibs.LuaTables
import Mathlib.Data.List.TakeWhile

/-! # Lists of names from libifconfig

`list_cloners` and the information about a media word give Lua a list of the names that
libifconfig returns.  Both loops use the index of a C array as the key, so the lists begin
at the key 0: what Lua takes for the list is all names but the first.
-/
namespace FluaLibs
namespace IfaceLists
open LuaArguments
variable {R : Runtime}

abbrev Bytes : Type := List UInt8

/-- `IFNAMSIZ` -/
def IFNAMSIZ : Nat := 16

/-- A buffer for a name, and the NUL at its end. -/
structure NameBuffer where
  bytes : Bytes
  length_eq : bytes.length = IFNAMSIZ
  terminated : 0 ∈ bytes

def NameBuffer.name (b : NameBuffer) : Bytes := cstr b.bytes

/-- What is outside the module: the handles, with the pointers in them, and libifconfig. -/
structure Env where
  handle : Nat → Option (Option Nat)
  list_cloners : Nat → Option (List NameBuffer)
  get_type : Nat → Option Bytes
  get_subtype : Nat → Option Bytes
  get_mode : Nat → Option Bytes
  /-- `ifconfig_media_get_options`: an array that ends with NULL, if there is one. -/
  get_options : Nat → Option (List Bytes)

/-! ## The code -/

/-- `l_ifconfig_checkhandle` -/
def checkhandle (env : Env) (arg : Int) : Option Value → Except Raised Nat
  | some (.userdata u) =>
    match env.handle u with
    | some (some h) => .ok h
    | some none => .error (.argerror arg "invalid ifconfig handle")
    | none => .error (.typeerror arg "ifconfig_handle_t")
  | _ => .error (.typeerror arg "ifconfig_handle_t")

/-- The loops: `lua_pushstring(L, name); lua_rawseti(L, -2, i);` for the names from the one
with the index `i` on. -/
def pushNames : Nat → List Bytes → TableState R → TableState R
  | _, [], T => T
  | i, name :: names, T => pushNames (i + 1) names ((T.push (.string name)).rawseti (-2) i)

/-- `const char *name = cloners + i * IFNAMSIZ` -/
def clonerName (cloners : Bytes) (i : Nat) : Bytes := cstr (cloners.drop (i * IFNAMSIZ))

def l_ifconfig_list_cloners (env : Env) (T : TableState R) : Except Raised (TableState R) := do
  let h ← checkhandle env 1 (T.index 1)
  match env.list_cloners h with
  | none => return T.push .nil
  | some buffers =>
    let cloners := buffers.flatMap NameBuffer.bytes
    let names := (List.range buffers.length).map (clonerName cloners)
    return pushNames 0 names T.createtable

/-- `lua_pushstring` and `lua_setfield`, for a name that is not NULL. -/
def nameField (field : String) (name : Option Bytes) : List (String × Value) :=
  (name.map (fun s => (field, Value.string s))).toList

/-- The table on top of the stack and the fields that it has, from the keys that are strings. -/
structure MediaInfo (R : Runtime) where
  state : TableState R
  fields : List (String × Value)

def push_media_info (env : Env) (media : Nat) (T : TableState R) : MediaInfo R :=
  let T := T.createtable
  let fields := nameField "type" (env.get_type media) ++
    nameField "subtype" (env.get_subtype media) ++ nameField "mode" (env.get_mode media)
  let T := T.createtable
  let T :=
    match env.get_options media with
    | none => T
    | some opts => pushNames 0 opts T
  ⟨T.pop 1, fields ++ [("options", (T.index (-1)).getD .nil)]⟩

/-! ## What the loops make -/

section Loops
variable {T : TableState R} {below : List Value} {r : Nat} {t : Table}

/-- A round: the name is set in the table below it. -/
theorem push_rawseti (hstack : T.stack = below ++ [.table r]) (ht : T.tables[r]? = some t)
    (v : Value) (i : Nat) : (T.push v).rawseti (-2) i = T.setTable r (t.set i v) := by
  have hpush : (T.push v).stack = below ++ .table r :: [v] := by
    rw [TableState.push_stack, hstack, List.append_assoc]
    rfl
  have hindex : (T.push v).index (-2) = some (.table r) := LuaState.index_below hpush
  have htable : (T.push v).tableAt (-2) = some (r, t) := TableState.tableAt_of_index hindex ht
  have htop : (T.push v).stack = (below ++ [.table r]) ++ [v] := by
    rw [TableState.push_stack, hstack]
  rw [TableState.rawseti_of_tableAt htable htop, ← hstack]
  rfl

/-- Keys that differ can be set in any order. -/
theorem set_comm (t : Table) {i j : Nat} (v w : Value) (h : i ≠ j) :
    (t.set i v).set j w = (t.set j w).set i v :=
  Table.ext (Function.update_comm h ..)

/-- The table after the first name and some others. -/
def shifted (first : Bytes) (names : List Bytes) : Table :=
  (Table.ofList (names.map .string)).set 0 (.string first)

theorem shifted_append (first : Bytes) (names : List Bytes) (name : Bytes) :
    (shifted first names).set (names.length + 1) (.string name) =
      shifted first (names ++ [name]) := by
  have hset := Table.ofList_set_length (names.map .string) (.string name)
  rw [List.length_map] at hset
  rw [shifted, set_comm _ _ _ (Nat.zero_ne_add_one _), hset, shifted, List.map_append]
  rfl

theorem pushNames_shifted {first : Bytes} (done : List Bytes)
    (hstack : T.stack = below ++ [.table r]) (ht : T.tables[r]? = some (shifted first done))
    (names : List Bytes) :
    pushNames (done.length + 1) names T = T.setTable r (shifted first (done ++ names)) := by
  induction names generalizing done T with
  | nil =>
    rw [List.append_nil]
    exact (TableState.setTable_self ht).symm
  | cons name names ih =>
    obtain ⟨hlt, -⟩ := List.getElem?_eq_some_iff.mp ht
    have hround := push_rawseti hstack ht (.string name) (done.length + 1)
    rw [shifted_append] at hround
    have hnext : (T.setTable r (shifted first (done ++ [name]))).tables[r]? =
        some (shifted first (done ++ [name])) := List.getElem?_set_self hlt
    have hrest := ih (T := T.setTable r (shifted first (done ++ [name]))) (done ++ [name]) hstack
      hnext
    rw [List.length_append, List.length_singleton, List.append_assoc,
      TableState.setTable_setTable] at hrest
    rw [pushNames, hround]
    exact hrest

/-- The table that a loop makes. -/
def listOf : List Bytes → Table
  | [] => .ofList []
  | first :: names => shifted first names

/-- **A loop** fills the table on top of the stack, from the key 0 on. -/
theorem pushNames_eq (hstack : T.stack = below ++ [.table r])
    (ht : T.tables[r]? = some (.ofList [])) (names : List Bytes) :
    pushNames 0 names T = T.setTable r (listOf names) := by
  cases names with
  | nil => exact (TableState.setTable_self ht).symm
  | cons first names =>
    obtain ⟨hlt, -⟩ := List.getElem?_eq_some_iff.mp ht
    have hround : (T.push (.string first)).rawseti (-2) 0 = T.setTable r (shifted first []) :=
      push_rawseti hstack ht (.string first) 0
    have hnext : (T.setTable r (shifted first [])).tables[r]? = some (shifted first []) :=
      List.getElem?_set_self hlt
    have hrest := pushNames_shifted (T := T.setTable r (shifted first [])) [] hstack hnext
      names
    rw [TableState.setTable_setTable] at hrest
    rw [pushNames, hround]
    exact hrest

end Loops

/-! ## The names of the cloners -/

/-- What is behind a NUL does not belong to a string. -/
theorem cstr_append {s : Bytes} (h : 0 ∈ s) (rest : Bytes) : cstr (s ++ rest) = cstr s := by
  have hshort : ¬ (s.takeWhile (fun b => b ≠ 0)).length = s.length := by
    intro hlength
    have hall := List.takeWhile_eq_self_iff.mp ((List.takeWhile_prefix _).eq_of_length hlength)
    exact of_decide_eq_true (hall 0 h) rfl
  rw [cstr, List.takeWhile_append, if_neg hshort]
  rfl

theorem drop_buffers (buffers : List NameBuffer) (i : Nat) :
    (buffers.flatMap NameBuffer.bytes).drop (i * IFNAMSIZ) =
      (buffers.drop i).flatMap NameBuffer.bytes := by
  induction i generalizing buffers with
  | zero => rw [Nat.zero_mul, List.drop_zero, List.drop_zero]
  | succ i ih =>
    cases buffers with
    | nil => rw [List.flatMap_nil, List.drop_nil, List.drop_nil, List.flatMap_nil]
    | cons b buffers =>
      have hlength : (i + 1) * IFNAMSIZ = b.bytes.length + i * IFNAMSIZ := by
        rw [b.length_eq, Nat.succ_mul, Nat.add_comm]
      rw [List.flatMap_cons, hlength, List.drop_length_add_append, ih, List.drop_succ_cons]

/-- The `i`-th name is read from the `i`-th buffer. -/
theorem clonerNames_eq (buffers : List NameBuffer) :
    (List.range buffers.length).map (clonerName (buffers.flatMap NameBuffer.bytes)) =
      buffers.map NameBuffer.name := by
  apply List.ext_getElem
  · rw [List.length_map, List.length_range, List.length_map]
  · intro i hi hi'
    have hlt : i < buffers.length := by rwa [List.length_map] at hi'
    rw [List.getElem_map, List.getElem_map, List.getElem_range, clonerName, drop_buffers,
      List.drop_eq_getElem_cons hlt, List.flatMap_cons, cstr_append buffers[i].terminated]
    rfl

/-! ## Lists as sequences -/

/-- The functions that give Lua a list. -/
inductive Listing (R : Runtime) where
  | list_cloners (env : Env) (T : TableState R)
  | push_media_info (env : Env) (media : Nat) (T : TableState R)

namespace Listing

/-- The names that libifconfig returns to the call, if it gets to ask and has a list. -/
def names : Listing R → Option (List Bytes)
  | list_cloners env T =>
    match checkhandle env 1 (T.index 1) with
    | .ok h => (env.list_cloners h).map (List.map NameBuffer.name)
    | .error _ => none
  | push_media_info env media _ => some ((env.get_options media).getD [])

/-- The list that Lua gets. -/
def table : Listing R → Option (Nat × Table)
  | list_cloners env T =>
    match l_ifconfig_list_cloners env T with
    | .ok T => T.tableAt (-1)
    | .error _ => none
  | push_media_info env media T =>
    let info := IfaceLists.push_media_info env media T
    match info.fields.lookup "options" with
    | some (.table r) => info.state.tables[r]?.map (fun t => (r, t))
    | _ => none

end Listing

/-- `ipairs` visits some values: it ends where there is none. -/
def Visits (t : Table) (vs : List Value) : Prop :=
  t.values vs.length = vs ∧ t.get (vs.length + 1) = .nil

/-- A table is the sequence of some names. -/
structure IsSequence (length : Length) (r : Nat) (t : Table) (names : List Bytes) : Prop where
  keys : t = .ofList (names.map .string)
  len : length.border r t = names.length
  ipairs : Visits t (names.map .string)

/-- What is to hold of a call: what libifconfig lists, Lua gets as a sequence. -/
def Listing.Listed (length : Length) (l : Listing R) : Prop :=
  ∀ names, l.names = some names → ∃ r t, l.table = some (r, t) ∧ IsSequence length r t names

section Sequences
variable {length : Length} {r : Nat} {names : List Bytes}

theorem nil_not_mem_names (names : List Bytes) : .nil ∉ names.map Value.string := by
  simp

/-- **What Lua takes for the list** is all names but the first. -/
theorem shifted_sequence (length : Length) (r : Nat) (first : Bytes) (names : List Bytes) :
    length.border r (shifted first names) = names.length ∧
      Visits (shifted first names) (names.map .string) := by
  have hget (i : Nat) : (shifted first names).get (i + 1) =
      (Table.ofList (names.map .string)).get (i + 1) :=
    Table.set_get_of_ne _ _ (Nat.succ_ne_zero i)
  constructor
  · have hborder := length.isBorder r (shifted first names)
    have hlist : (Table.ofList (names.map .string)).IsBorder
        (length.border r (shifted first names)) := by
      refine ⟨?_, (hget _).symm.trans hborder.2⟩
      rcases hborder.1 with hzero | hvalue
      · exact Or.inl hzero
      · rcases Nat.eq_zero_or_pos (length.border r (shifted first names)) with hzero | hpos
        · exact Or.inl hzero
        · obtain ⟨b, hb⟩ := Nat.exists_eq_succ_of_ne_zero (Nat.ne_of_gt hpos)
          rw [hb] at hvalue ⊢
          rw [hget] at hvalue
          exact Or.inr hvalue
    rw [(Table.isBorder_ofList_iff (nil_not_mem_names names)).mp hlist, List.length_map]
  · constructor
    · have hvalues := Table.values_ofList (names.map Value.string)
      rw [← hvalues]
      simp only [Table.values, List.length_map, hget, List.length_range]
    · rw [hget]
      exact Table.ofList_get_of_le (Nat.le_refl _)

/-- **When a loop makes a sequence**: there are no names. -/
theorem listOf_isSequence_iff : IsSequence length r (listOf names) names ↔ names = [] := by
  constructor
  · intro hsequence
    cases names with
    | nil => rfl
    | cons first names =>
      have hlen := hsequence.len
      rw [listOf, (shifted_sequence length r first names).1, List.length_cons] at hlen
      omega
  · rintro rfl
    exact ⟨rfl, length.border_ofList (List.not_mem_nil) r, rfl, rfl⟩

end Sequences

section Calls
variable {T : TableState R} {l : Listing R} {names : List Bytes}

/-- A loop on a new table. -/
theorem pushNames_createtable (T : TableState R) (names : List Bytes) :
    pushNames 0 names T.createtable =
      { T with
        stack := T.stack ++ [.table T.tables.length]
        tables := T.tables ++ [listOf names] } := by
  have htable : T.createtable.tables[T.tables.length]? = some (.ofList []) :=
    List.getElem?_concat_length
  have hstack : T.createtable.stack = T.stack ++ [.table T.tables.length] := rfl
  rw [pushNames_eq hstack htable]
  have hset : (T.tables ++ [Table.ofList []]).set T.tables.length (listOf names) =
      T.tables ++ [listOf names] := by
    rw [List.set_append_right _ _ (Nat.le_refl _), Nat.sub_self]
    rfl
  simp only [TableState.setTable, TableState.createtable, TableState.push, TableState.lift, hset]
  rfl

theorem lookup_nameField {field key : String} (h : (key == field) = false) (name : Option Bytes)
    (fields : List (String × Value)) :
    (nameField field name ++ fields).lookup key = fields.lookup key := by
  cases name with
  | none => rfl
  | some s =>
    show List.lookup key ((field, Value.string s) :: fields) = _
    rw [List.lookup_cons, h]

/-- **The information about a media word** has the list in its field `options`. -/
theorem push_media_info_eq (env : Env) (media : Nat) (T : TableState R) :
    (push_media_info env media T).state.tables =
        T.tables ++ [.ofList []] ++ [listOf ((env.get_options media).getD [])] ∧
      (push_media_info env media T).fields.lookup "options" =
        some (.table (T.tables.length + 1)) := by
  have hlength : T.createtable.tables.length = T.tables.length + 1 := List.length_append
  have hloop : (match env.get_options media with
      | none => T.createtable.createtable
      | some opts => pushNames 0 opts T.createtable.createtable) =
      { T.createtable with
        stack := T.createtable.stack ++ [.table T.createtable.tables.length]
        tables := T.createtable.tables ++ [listOf ((env.get_options media).getD [])] } := by
    cases env.get_options media with
    | none => exact pushNames_createtable T.createtable []
    | some opts => exact pushNames_createtable T.createtable opts
  unfold push_media_info
  dsimp only
  rw [hloop]
  constructor
  · rfl
  · have hindex : ({ T.createtable with
        stack := T.createtable.stack ++ [.table T.createtable.tables.length]
        tables := T.createtable.tables ++ [listOf ((env.get_options media).getD [])] } :
          TableState R).index (-1) = some (.table (T.tables.length + 1)) := by
      rw [hlength]
      exact LuaState.index_top rfl
    rw [hindex, List.append_assoc, List.append_assoc, lookup_nameField (by decide),
      lookup_nameField (by decide), lookup_nameField (by decide)]
    rfl

/-- **The list that Lua gets.** -/
theorem Listing.table_eq (h : l.names = some names) :
    ∃ r, l.table = some (r, listOf names) := by
  cases l with
  | list_cloners env T =>
    unfold Listing.names at h
    dsimp only at h
    split at h
    · next hp hhandle =>
      obtain ⟨buffers, hbuffers, hnames⟩ := Option.map_eq_some_iff.mp h
      have hcall : l_ifconfig_list_cloners env T = .ok (pushNames 0 names T.createtable) := by
        rw [l_ifconfig_list_cloners, hhandle]
        show (match env.list_cloners hp with
          | none => _
          | some buffers => _) = _
        rw [hbuffers]
        dsimp only
        rw [clonerNames_eq, hnames]
        rfl
      refine ⟨T.tables.length, ?_⟩
      simp only [Listing.table, hcall, pushNames_createtable]
      refine TableState.tableAt_of_index (LuaState.index_top rfl) ?_
      exact List.getElem?_concat_length
    · cases h
  | push_media_info env media T =>
    cases h
    obtain ⟨htables, hoptions⟩ := push_media_info_eq env media T
    refine ⟨T.tables.length + 1, ?_⟩
    have hlist : (IfaceLists.push_media_info env media T).state.tables[T.tables.length + 1]? =
        some (listOf ((env.get_options media).getD [])) := by
      have hlength : (T.tables ++ [Table.ofList []]).length = T.tables.length + 1 :=
        List.length_append
      rw [htables, ← hlength]
      exact List.getElem?_concat_length
    simp only [Listing.table, hoptions, hlist]
    rfl

/-- **When Lua gets a list as a sequence**: it is empty. -/
theorem listed_iff (length : Length) (l : Listing R) :
    l.Listed length ↔ ∀ names ∈ l.names, names = [] := by
  constructor
  · intro hlisted names hnames
    obtain ⟨r, t, htable, hsequence⟩ := hlisted names hnames
    obtain ⟨r', htable'⟩ := Listing.table_eq hnames
    cases htable.symm.trans htable'
    exact listOf_isSequence_iff.mp hsequence
  · intro hempty names hnames
    obtain ⟨r, htable⟩ := Listing.table_eq hnames
    exact ⟨r, _, htable, listOf_isSequence_iff.mpr (hempty names hnames)⟩

end Calls

/-! ## Examples -/

/-- One cloner, `lo`. -/
def clonerEnv : Env where
  handle _ := some (some 1)
  list_cloners _ := some [⟨[108, 111] ++ List.replicate 14 0, rfl, by decide⟩]
  get_type _ := none
  get_subtype _ := none
  get_mode _ := none
  get_options _ := none

/-- `ifcfg:list_cloners()` -/
def clonerCall : TableState noFunctions := ⟨⟨[.userdata 0], [], 0⟩, []⟩

theorem not_listed : ¬ ∀ (length : Length) (l : Listing noFunctions), l.Listed length := by
  intro hall
  have hnames : (Listing.list_cloners clonerEnv clonerCall).names = some [[108, 111]] := by decide
  obtain ⟨r, t, htable, hsequence⟩ := hall .least (.list_cloners clonerEnv clonerCall) _ hnames
  obtain ⟨r', htable'⟩ := Listing.table_eq hnames
  cases htable.symm.trans htable'
  exact absurd (listOf_isSequence_iff.mp hsequence) (by decide)

end IfaceLists
end FluaLibs
