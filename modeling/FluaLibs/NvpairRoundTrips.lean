import FluaLibs.NvpairIteration

/-! # Adding a value to an nvlist and looking it up

A value that has been added to a list can be looked up by its name, with its type or without,
and a loop over the pairs gives it.  The library stores and returns the C values as they are;
whether Lua gets back the value it gave is decided by the conversions
(`roundTrips_iff`).  The length of an array is one of them: it is kept in an unsigned `int`.
-/
namespace FluaLibs
namespace NvpairRoundTrips

open NvpairValues NvpairIteration
open Capacity (ArrayType)
open LuaArguments (Raised ENOMEM)

variable {C : Type}

/-- Of the pairs of a list, those with the name. -/
def valuesOf (nvl : Nvlist C) (name : CString) : List (Stored C) :=
  (nvl.pairs.filter (fun p => p.name = name)).map Cell.value

/-- What is used of libnvpair, on lists whose names are unique: a value that has been added is
the one of its name, and it is returned as it was stored.  An error changes nothing. -/
structure Libnvpair (C : Type) extends Library C where
  malloc : Nat → Bool
  nvlist_add : Nvlist C → CString → Stored C → Except Nat (Nvlist C)
  nvlist_lookup_nvpair : Nvlist C → CString → Except Nat (Stored C)
  nvlist_lookup : (type : DataType) → Nvlist C → CString → Except Nat (type.Data C)
  added : ∀ {nvl name d nvl'}, nvlist_add nvl name d = .ok nvl' → valuesOf nvl' name = [d]
  lookup_nvpair : ∀ {nvl name d}, valuesOf nvl name = [d] →
    nvlist_lookup_nvpair nvl name = .ok d
  lookup : ∀ {nvl name d}, valuesOf nvl name = [d] → nvlist_lookup d.type nvl name = .ok d.data

/-- The types with an add function. -/
inductive AddType where
  | scalar (type : ScalarType)
  | array (type : ArrayType)

/-- The type that a value is stored with. -/
def AddType.dataType : AddType → DataType
  | .scalar type => .scalar type
  | .array type => .array type

/-- The part of the names of the functions. -/
def AddType.ftype : AddType → String
  | .scalar type => type.ftype
  | .array type => type.ftype ++ "_array"

section Code
variable (lua : Lua C) (lib : Libnvpair C)

/-! ## Adding -/

/-- `lcheck(L, 3)` of a scalar type. -/
def scalarValue (type : ScalarType) (v : Value) : Except Raised (type.ctype.Val C) :=
  lcheck lua 3 v type.ctype

/-- The loop of `NVLIST_ADD_ARRAY`, from the element after `i` on. -/
def readValues (c : CType) (t : Nat) : Nat → Nat → Except Raised (List (c.Val C))
  | 0, _ => .ok []
  | n + 1, i =>
    match lua.geti t (i + 1) with
    | .error e => .error e
    | .ok v =>
      match lcheck lua (-1) v.val c with
      | .error e => .error e
      | .ok value => (readValues c t n (i + 1)).map (fun values => value :: values)

/-- `uint_t len = luaL_len(L, 3)` -/
def uint_t (len : Int) : Nat := (len % 2 ^ 32).toNat

/-- The table, its length, and the array that is filled from it. -/
def arrayValue (malloc : Nat → Bool) (type : ArrayType) (v : Value) :
    Except Raised (List ((arrayCtype type).Val C)) :=
  match v with
  | .table t =>
    match lua.len t with
    | .error e => .error e
    | .ok len =>
      if malloc (uint_t len) = false then .error (.fatal "malloc" ENOMEM)
      else readValues lua (arrayCtype type) t (uint_t len) 0
  | _ => .error (.typeerror 3 "table")

/-- The value that is taken from the third argument. -/
def valueOf (malloc : Nat → Bool) (v : Value) :
    (type : AddType) → Except Raised (type.dataType.Data C)
  | .scalar type => scalarValue lua type v
  | .array type => arrayValue lua malloc type v

/-- `NVLIST_ADD` and `NVLIST_ADD_ARRAY` -/
def l_nvlist_add (type : AddType) (nvl : Nvlist C) (name v : Value) :
    Nvlist C × Except Raised Unit :=
  match checkstring lua 2 name with
  | .error e => (nvl, .error e)
  | .ok name =>
    match valueOf lua lib.malloc v type with
    | .error e => (nvl, .error e)
    | .ok data =>
      match lib.nvlist_add nvl (cstring name) ⟨type.dataType, data⟩ with
      | .error error => (nvl, .error (.fatal ("nvlist_add_" ++ type.ftype) error))
      | .ok nvl => (nvl, .ok ())

/-! ## Looking up -/

/-- `l_nvlist_lookup`; without such a pair it returns no value. -/
def l_nvlist_lookup (nvl : Nvlist C) (name : Value) : Except Raised (Option (Result C × Int)) :=
  match checkstring lua 2 name with
  | .error e => .error e
  | .ok name =>
    match lib.nvlist_lookup_nvpair nvl (cstring name) with
    | .error _ => .ok none
    | .ok d => .ok (some (pushvalue d, lib.code d.type))

/-- What the lookup functions of the types have in common. -/
def lookupValue (ftype : String) (type : DataType) (push : type.Data C → Result C)
    (nvl : Nvlist C) (name : Value) : Except Raised (Result C) :=
  match checkstring lua 2 name with
  | .error e => .error e
  | .ok name =>
    match lib.nvlist_lookup type nvl (cstring name) with
    | .error error => .error (.fatal ("nvlist_lookup_" ++ ftype) error)
    | .ok value => .ok (push value)

/-- `NVLIST_LOOKUP` and `NVLIST_LOOKUP_ARRAY`, for the types that have one. -/
def l_nvlist_lookup_type : AddType → Option (Nvlist C → Value → Except Raised (Result C))
  | .scalar type => some (lookupValue lua lib type.ftype (.scalar type)
      (fun value => .one (lpush type.ctype value)))
  | .array type =>
    if hasLookup type then some (lookupValue lua lib (type.ftype ++ "_array") (.array type)
      (fun values => .table (values.map (lpush (arrayCtype type)))))
    else none

/-! ## The same value -/

/-- The Lua value is the result: for a table, the same length and elements in order. -/
def EqualResult (v : Value) : Result C → Prop
  | .one p => Equal lua v p
  | .table ps => ∃ t, v = .table t ∧ lua.len t = .ok ps.length ∧
      ∀ i p, ps[i]? = some p → ∃ w, lua.geti t (i + 1) = .ok w ∧ Equal lua w.val p

/-- The list gives the value back under the name. -/
structure GivesBack (type : AddType) (nvl : Nvlist C) (name v : Value) : Prop where
  lookup : ∃ r code, l_nvlist_lookup lua lib nvl name = .ok (some (r, code)) ∧
    EqualResult lua v r
  lookup_type : ∀ f ∈ l_nvlist_lookup_type lua lib type, ∃ r, f nvl name = .ok r ∧
    EqualResult lua v r
  pairs : ∃ s, checkstring lua 2 name = .ok s ∧ ∀ rounds, nvl.pairs.length < rounds →
    ∃ visits, forLoop lib.toLibrary nvl (fun _ => .keep) rounds = (visits, .ended) ∧
      (∃ visit ∈ visits, visit.name = .string (cstring s).bytes) ∧
      ∀ visit ∈ visits, visit.name = .string (cstring s).bytes → EqualResult lua v visit.value

/-- The value is added and given back, or an error is raised and the list is as it was. -/
def RoundTrips (type : AddType) (nvl : Nvlist C) (name v : Value) : Prop :=
  match l_nvlist_add lua lib type nvl name v with
  | (nvl', .error _) => nvl' = nvl
  | (nvl', .ok ()) => GivesBack lua lib type nvl' name v

end Code

/-! ## What is given back -/

section GivesBack
variable {lua : Lua C} {lib : Libnvpair C} {nvl : Nvlist C} {name v : Value} {s : List UInt8}

/-- A loop gives the value of the one pair with the name. -/
theorem forLoop_named (lib : Libnvpair C) (rounds : Nat)
    (hrounds : nvl.pairs.length < rounds) {n : CString} {d : Stored C} (h : valuesOf nvl n = [d]) :
    ∃ visits, forLoop lib.toLibrary nvl (fun _ => .keep) rounds = (visits, .ended) ∧
      (∃ visit ∈ visits, visit.name = .string n.bytes) ∧
      ∀ visit ∈ visits, visit.name = .string n.bytes → visit.value = pushvalue d := by
  have hmem (p : Cell C) : p ∈ nvl.pairs ∧ p.name = n ↔
      p ∈ nvl.pairs.filter (fun p => p.name = n) := by
    rw [List.mem_filter, decide_eq_true_eq]
  refine ⟨nvl.pairs.map (visitOf lib.toLibrary), ?_, ?_, ?_⟩
  · unfold forLoop l_nvlist_pairs
    rw [lib.first]
    exact loop_split _ [] rfl (Or.inl fun _ => rfl) hrounds
  · have hd : d ∈ valuesOf nvl n := by
      rw [h]
      exact List.mem_singleton_self d
    obtain ⟨p, hp, -⟩ := List.mem_map.mp hd
    obtain ⟨hpairs, rfl⟩ := (hmem p).mpr hp
    exact ⟨visitOf lib.toLibrary p, List.mem_map_of_mem hpairs, rfl⟩
  · intro visit hvisit hname
    obtain ⟨p, hp, rfl⟩ := List.mem_map.mp hvisit
    have hpn : p.name = n := CString.ext (Value.string.inj hname)
    have hvalue : p.value ∈ valuesOf nvl n := List.mem_map_of_mem ((hmem p).mp ⟨hp, hpn⟩)
    rw [h] at hvalue
    show pushvalue p.value = pushvalue d
    rw [List.mem_singleton.mp hvalue]

theorem lookup_type_eq {type : AddType} (hname : checkstring lua 2 name = .ok s)
    {data : type.dataType.Data C} (h : valuesOf nvl (cstring s) = [⟨type.dataType, data⟩])
    {f : Nvlist C → Value → Except Raised (Result C)}
    (hf : f ∈ l_nvlist_lookup_type lua lib type) :
    f nvl name = .ok (pushvalue ⟨type.dataType, data⟩) := by
  have hlookup := lib.lookup h
  dsimp only at hlookup
  cases type with
  | scalar type =>
    cases hf
    unfold lookupValue
    rw [hname]
    dsimp only
    rw [show lib.nvlist_lookup (.scalar type) nvl (cstring s) = .ok data from hlookup]
    rfl
  | array type =>
    unfold l_nvlist_lookup_type at hf
    dsimp only at hf
    split at hf
    · cases hf
      unfold lookupValue
      rw [hname]
      dsimp only
      rw [show lib.nvlist_lookup (.array type) nvl (cstring s) = .ok data from hlookup]
      rfl
    · cases hf

/-- **The value that is stored** is given back in every way if it is the same to Lua. -/
theorem givesBack_iff {type : AddType} (hname : checkstring lua 2 name = .ok s)
    {data : type.dataType.Data C} (h : valuesOf nvl (cstring s) = [⟨type.dataType, data⟩]) :
    GivesBack lua lib type nvl name v ↔ EqualResult lua v (pushvalue ⟨type.dataType, data⟩) := by
  have hlookup : l_nvlist_lookup lua lib nvl name = .ok (some
      (pushvalue ⟨type.dataType, data⟩, lib.code type.dataType)) := by
    unfold l_nvlist_lookup
    rw [hname]
    dsimp only
    rw [lib.lookup_nvpair h]
  constructor
  · rintro ⟨⟨r, code, hr, hequal⟩, -, -⟩
    cases hlookup.symm.trans hr
    exact hequal
  · intro hequal
    refine ⟨⟨_, _, hlookup, hequal⟩, fun f hf => ⟨_, lookup_type_eq hname h hf, hequal⟩, s, hname,
      fun rounds hrounds => ?_⟩
    obtain ⟨visits, hloop, hsome, hall⟩ := forLoop_named lib rounds hrounds h
    exact ⟨visits, hloop, hsome, fun visit hvisit hn => hall visit hvisit hn ▸ hequal⟩

end GivesBack

/-! ## What is taken from the arguments -/

/-- An element cannot be read: looking it up raises an error, or the type refuses it. -/
def Unreadable (lua : Lua C) (c : CType) (t i : Nat) : Prop :=
  (∃ e, lua.geti t i = .error e) ∨ ∃ w, lua.geti t i = .ok w ∧ Refused lua w.val c

/-- The table gives its elements as the type keeps them and is not too long, or one of the
elements that are read is refused. -/
def TableKept (lua : Lua C) (c : CType) (t : Nat) (len : Int) : Prop :=
  (∃ i < uint_t len, Unreadable lua c t (i + 1)) ∨
  ((uint_t len : Nat) : Int) = len ∧
    ∀ i < uint_t len, ∀ w, lua.geti t (i + 1) = .ok w → Kept w.val c

/-- The values that survive: those that the type refuses or keeps. -/
def Survives (lua : Lua C) (v : Value) : AddType → Prop
  | .scalar type => Refused lua v type.ctype ∨ Kept v type.ctype
  | .array type => ∀ t len, v = .table t → lua.len t = .ok len →
    TableKept lua (arrayCtype type) t len

section Values
variable {lua : Lua C} {c : CType} {t n i : Nat}

/-- One element. -/
theorem readValues_succ (lua : Lua C) (c : CType) (t n i : Nat) :
    (∃ w value, lua.geti t (i + 1) = .ok w ∧ lcheck lua (-1) w.val c = .ok value ∧
      readValues lua c t (n + 1) i =
        (readValues lua c t n (i + 1)).map (fun values => value :: values)) ∨
    (Unreadable lua c t (i + 1) ∧ ∃ e, readValues lua c t (n + 1) i = .error e) := by
  cases hget : lua.geti t (i + 1) with
  | error e => exact Or.inr ⟨Or.inl ⟨e, hget⟩, e, by rw [readValues, hget]⟩
  | ok w =>
    cases hcheck : lcheck lua (-1) w.val c with
    | ok value => exact Or.inl ⟨w, value, rfl, hcheck, by simp only [readValues, hget, hcheck]⟩
    | error e =>
      have hrefused : Refused lua w.val c := by
        refine (refused_iff (-1)).mpr fun x hx => ?_
        cases hcheck.symm.trans hx
      exact Or.inr ⟨Or.inr ⟨w, hget, hrefused⟩, e, by simp only [readValues, hget, hcheck]⟩

/-- The elements that have been read. -/
theorem readValues_ok {values : List (c.Val C)} (h : readValues lua c t n i = .ok values) :
    values.length = n ∧ ∀ j value, values[j]? = some value → ∃ w, lua.geti t (i + j + 1) = .ok w ∧
      lcheck lua (-1) w.val c = .ok value := by
  induction n generalizing i values with
  | zero =>
    cases h
    exact ⟨rfl, fun _ _ => nofun⟩
  | succ n ih =>
    obtain ⟨w, value, hget, hcheck, hstep⟩ | ⟨-, e, he⟩ := readValues_succ lua c t n i
    · rw [hstep] at h
      obtain ⟨rest, hrest, rfl⟩ : ∃ rest, readValues lua c t n (i + 1) = .ok rest ∧
          value :: rest = values := by
        cases hread : readValues lua c t n (i + 1) with
        | ok rest => exact ⟨rest, rfl, by simpa [hread, Except.map] using h⟩
        | error e => simp [hread, Except.map] at h
      obtain ⟨hlength, helements⟩ := ih hrest
      refine ⟨by rw [List.length_cons, hlength], fun j x hx => ?_⟩
      match j with
      | 0 =>
        cases hx
        exact ⟨w, hget, hcheck⟩
      | j + 1 =>
        have hplace : i + (j + 1) + 1 = i + 1 + j + 1 := by omega
        rw [hplace]
        exact helements j x hx
    · cases he.symm.trans h

/-- All elements are read unless one cannot be. -/
theorem readValues_error {e : Raised} (h : readValues lua c t n i = .error e) :
    ∃ j < n, Unreadable lua c t (i + j + 1) := by
  induction n generalizing i with
  | zero => cases h
  | succ n ih =>
    obtain ⟨w, value, -, -, hstep⟩ | ⟨hunreadable, -⟩ := readValues_succ lua c t n i
    · rw [hstep] at h
      have hrest : readValues lua c t n (i + 1) = .error e := by
        cases hread : readValues lua c t n (i + 1) with
        | ok rest => simp [hread, Except.map] at h
        | error e' => simpa [hread, Except.map] using h
      obtain ⟨j, hj, hunreadable⟩ := ih hrest
      have hplace : i + 1 + j + 1 = i + (j + 1) + 1 := by omega
      rw [hplace] at hunreadable
      exact ⟨j + 1, Nat.succ_lt_succ hj, hunreadable⟩
    · exact ⟨0, Nat.succ_pos n, hunreadable⟩

/-- Each element up to the length has been read and taken. -/
theorem readValues_at {values : List (c.Val C)} (h : readValues lua c t n 0 = .ok values) {i : Nat}
    (hi : i < n) : ∃ w x, values[i]? = some x ∧ lua.geti t (i + 1) = .ok w ∧
      lcheck lua (-1) w.val c = .ok x := by
  obtain ⟨hlength, helements⟩ := readValues_ok h
  obtain ⟨x, hx⟩ : ∃ x, values[i]? = some x := ⟨_, List.getElem?_eq_getElem (by omega)⟩
  obtain ⟨w, hw, hcheck⟩ := helements i x hx
  rw [Nat.zero_add] at hw
  exact ⟨w, x, hx, hw, hcheck⟩

/-- What has been read is readable. -/
theorem not_unreadable {values : List (c.Val C)} (h : readValues lua c t n 0 = .ok values)
    {i : Nat} (hi : i < n) : ¬ Unreadable lua c t (i + 1) := by
  obtain ⟨w, x, -, hw, hcheck⟩ := readValues_at h hi
  rintro (⟨e, he⟩ | ⟨w', hw', hrefused⟩)
  · cases hw.symm.trans he
  · cases hw.symm.trans hw'
    exact (refused_iff _).mp hrefused x hcheck

/-- The array that has been read is the table if it has all its elements, each kept. -/
theorem equalResult_table_iff {len : Int} (hlen : lua.len t = .ok len)
    {values : List (c.Val C)} (h : readValues lua c t (uint_t len) 0 = .ok values) :
    EqualResult lua (.table t) (.table (values.map (lpush c))) ↔ TableKept lua c t len := by
  have hlength := (readValues_ok h).1
  constructor
  · rintro ⟨t', ht, hlen', hequal⟩
    cases ht
    have hcast : ((uint_t len : Nat) : Int) = len := by
      have hok := hlen'.symm.trans hlen
      rw [List.length_map, hlength] at hok
      exact Except.ok.inj hok
    refine Or.inr ⟨hcast, fun i hi w hw => ?_⟩
    obtain ⟨w', x, hx, hw', hcheck⟩ := readValues_at h hi
    cases hw.symm.trans hw'
    obtain ⟨w', hw', heq⟩ := hequal i (lpush c x) (by rw [List.getElem?_map, hx, Option.map_some])
    cases hw.symm.trans hw'
    exact (equal_lpush_iff hcheck).mp heq
  · rintro (⟨i, hi, hunreadable⟩ | ⟨hcast, hkept⟩)
    · exact absurd hunreadable (not_unreadable h hi)
    · refine ⟨t, rfl, ?_, fun i p hp => ?_⟩
      · rw [hlen, List.length_map, hlength, hcast]
      · rw [List.getElem?_map, Option.map_eq_some_iff] at hp
        obtain ⟨x, hx, rfl⟩ := hp
        have hi : i < uint_t len := hlength ▸ (List.getElem?_eq_some_iff.mp hx).1
        obtain ⟨w, x', hx', hw, hcheck⟩ := readValues_at h hi
        cases hx.symm.trans hx'
        exact ⟨w, hw, (equal_lpush_iff hcheck).mpr (hkept i hi w hw)⟩

end Values

section Arguments
variable {lua : Lua C} {v : LuaValue} {type : AddType}

theorem arrayValue_ok {malloc : Nat → Bool} {type : ArrayType} {v : Value}
    {values : List ((arrayCtype type).Val C)} (h : arrayValue lua malloc type v = .ok values) :
    ∃ t len, v = .table t ∧ lua.len t = .ok len ∧
      readValues lua (arrayCtype type) t (uint_t len) 0 = .ok values := by
  unfold arrayValue at h
  split at h
  · rename_i t
    cases hlen : lua.len t with
    | error e =>
      rw [hlen] at h
      cases h
    | ok len =>
      rw [hlen] at h
      dsimp only at h
      split at h
      · cases h
      · exact ⟨t, len, rfl, hlen, h⟩
  · cases h

/-- What is stored of a value that survives is the same to Lua. -/
theorem equalResult_of_survives (h : Survives lua v.val type) {malloc : Nat → Bool}
    {data : type.dataType.Data C} (hdata : valueOf lua malloc v.val type = .ok data) :
    EqualResult lua v.val (pushvalue ⟨type.dataType, data⟩) := by
  cases type with
  | scalar type =>
    have hcheck : lcheck lua 3 v.val type.ctype = .ok data := hdata
    rcases h with hrefused | hkept
    · exact absurd hcheck ((refused_iff _).mp hrefused data)
    · exact (equal_lpush_iff hcheck).mpr hkept
  | array type =>
    obtain ⟨t, len, hv, hlen, hread⟩ := arrayValue_ok hdata
    show EqualResult lua v.val (.table _)
    rw [hv]
    exact (equalResult_table_iff hlen hread).mpr (h t len hv hlen)

/-- A value that does not survive is stored, and what is stored is another one. -/
theorem stored_of_not_survives (h : ¬ Survives lua v.val type) :
    ∃ data, valueOf lua (fun _ => true) v.val type = .ok data ∧
      ¬ EqualResult lua v.val (pushvalue ⟨type.dataType, data⟩) := by
  cases type with
  | scalar type =>
    obtain ⟨hnotrefused, hnotkept⟩ := not_or.mp h
    rw [refused_iff 3] at hnotrefused
    push Not at hnotrefused
    obtain ⟨x, hcheck⟩ := hnotrefused
    exact ⟨x, hcheck, fun hequal => hnotkept ((equal_lpush_iff hcheck).mp hequal)⟩
  | array type =>
    unfold Survives at h
    push Not at h
    obtain ⟨t, len, hv, hlen, hnot⟩ := h
    cases hread : readValues lua (arrayCtype type) t (uint_t len) 0 with
    | error e =>
      obtain ⟨i, hi, hrefused⟩ := readValues_error hread
      rw [Nat.zero_add] at hrefused
      exact absurd (Or.inl ⟨i, hi, hrefused⟩) hnot
    | ok values =>
      have hvalue : arrayValue lua (fun _ => true) type v.val = .ok values := by
        rw [hv, arrayValue, hlen]
        exact hread
      refine ⟨values, hvalue, fun hequal => hnot ?_⟩
      · have htable : EqualResult lua v.val (.table (values.map (lpush (arrayCtype type)))) :=
          hequal
        rw [hv] at htable
        exact (equalResult_table_iff hlen hread).mp htable

end Arguments

/-! ## A library that keeps the names unique -/

/-- An address that no pair of the list has. -/
def fresh (nvl : Nvlist C) : Nat := (nvl.pairs.map Cell.addr).sum + 1

theorem lt_fresh {nvl : Nvlist C} {p : Cell C} (hp : p ∈ nvl.pairs) : p.addr < fresh nvl :=
  Nat.lt_succ_of_le (List.single_le_sum (fun _ _ => Nat.zero_le _) _ (List.mem_map_of_mem hp))

/-- The pairs of the name are replaced by a new one at the end. -/
def replace (nvl : Nvlist C) (name : CString) (d : Stored C) : Nvlist C where
  pairs := nvl.pairs.filter (fun p => p.name ≠ name) ++ [⟨fresh nvl, name, d⟩]
  addr_ne p hp := by
    rcases List.mem_append.mp hp with hp | hp
    · exact nvl.addr_ne p (List.mem_of_mem_filter hp)
    · rw [List.mem_singleton.mp hp]
      exact Nat.succ_ne_zero _
  nodup := by
    rw [List.map_append, List.nodup_append]
    refine ⟨(nvl.keep (fun p => p.name ≠ name)).nodup, List.nodup_singleton _, ?_⟩
    intro a ha b hb
    obtain ⟨p, hp, rfl⟩ := List.mem_map.mp ha
    cases List.mem_singleton.mp hb
    exact (lt_fresh (List.mem_of_mem_filter hp)).ne

theorem valuesOf_replace (nvl : Nvlist C) (name : CString) (d : Stored C) :
    valuesOf (replace nvl name d) name = [d] := by
  simp [valuesOf, replace, List.filter_append, List.filter_filter]

/-- The value of the first pair with the name, if it has the type. -/
def dataOf (type : DataType) (ds : List (Stored C)) : Except Nat (type.Data C) :=
  match ds with
  | d :: _ => if h : d.type = type then .ok (h ▸ d.data) else .error ENOENT
  | [] => .error ENOENT

def uniqueNames : Libnvpair C where
  toLibrary := libnvpair
  malloc _ := true
  nvlist_add nvl name d := .ok (replace nvl name d)
  nvlist_lookup_nvpair nvl name := (valuesOf nvl name).head?.elim (.error ENOENT) .ok
  nvlist_lookup type nvl name := dataOf type (valuesOf nvl name)
  added h := by
    cases h
    exact valuesOf_replace ..
  lookup_nvpair h := by rw [h]; rfl
  lookup h := by rw [h, dataOf, dif_pos rfl]

def noPairs : Nvlist C where
  pairs := []
  addr_ne := by simp
  nodup := List.nodup_nil

/-- **A value round-trips** in every list and library if and only if it survives its
conversions, or the name is refused. -/
theorem roundTrips_iff (lua : Lua C) (type : AddType) (name : Value) (v : LuaValue) :
    (∀ lib nvl, RoundTrips lua lib type nvl name v.val) ↔
      (∀ s, checkstring lua 2 name ≠ .ok s) ∨ Survives lua v.val type := by
  constructor
  · intro h
    by_contra hnot
    obtain ⟨hname, hsurvives⟩ := not_or.mp hnot
    push Not at hname
    obtain ⟨s, hname⟩ := hname
    obtain ⟨data, hdata, hdiffers⟩ := stored_of_not_survives hsurvives
    have hround := h uniqueNames noPairs
    have hadd : l_nvlist_add lua uniqueNames type noPairs name v.val =
        (replace noPairs (cstring s) ⟨type.dataType, data⟩, .ok ()) := by
      unfold l_nvlist_add
      rw [hname]
      dsimp only
      rw [show valueOf lua (uniqueNames (C := C)).malloc v.val type = .ok data from hdata]
      rfl
    unfold RoundTrips at hround
    rw [hadd] at hround
    exact hdiffers ((givesBack_iff hname (valuesOf_replace ..)).mp hround)
  · intro h lib nvl
    unfold RoundTrips l_nvlist_add
    cases hname : checkstring lua 2 name with
    | error e => rfl
    | ok s =>
      dsimp only
      cases hdata : valueOf lua lib.malloc v.val type with
      | error e => rfl
      | ok data =>
        dsimp only
        cases hadd : lib.nvlist_add nvl (cstring s) ⟨type.dataType, data⟩ with
        | error e => rfl
        | ok nvl' =>
          have hsurvives := h.resolve_left (fun hrefused => hrefused s hname)
          exact (givesBack_iff hname (lib.added hadd)).mpr
            (equalResult_of_survives hsurvives hdata)

/-- A Lua without tables and userdata. -/
def plainLua : Lua Unit where
  cvt _ := none
  numeral _ := []
  contents _ := none
  notNvlist arg _ := .typeerror arg "nvlist_t*"
  len _ := .ok 0
  geti _ _ := .ok ⟨.nil, nofun⟩

/-- `nvl:add_uint8('n', 256)` stores 0, which is what `nvl:lookup('n')` returns. -/
theorem not_roundTrips :
    l_nvlist_lookup plainLua uniqueNames (l_nvlist_add plainLua uniqueNames (.scalar .uint8)
      noPairs (.string [110]) (.integer 256)).1 (.string [110]) =
        .ok (some (.one (.plain (.integer 0)), 23)) ∧
    ¬ ∀ (lua : Lua Unit) (type : AddType) (name : Value) (v : LuaValue) (lib : Libnvpair Unit)
      (nvl : Nvlist Unit), RoundTrips lua lib type nvl name v.val := by
  have hadd : l_nvlist_add plainLua uniqueNames (.scalar .uint8) noPairs (.string [110])
      (.integer 256) =
      (replace noPairs (cstring [110]) ⟨.scalar .uint8, ⟨0, by decide⟩⟩, .ok ()) := by rfl
  have hlookup : l_nvlist_lookup plainLua uniqueNames
      (replace noPairs (cstring [110]) ⟨.scalar .uint8, ⟨0, by decide⟩⟩) (.string [110]) =
      .ok (some (.one (.plain (.integer 0)), 23)) := by rfl
  refine ⟨by rw [hadd, hlookup], fun h => ?_⟩
  have hround := h plainLua (.scalar .uint8) (.string [110])
    ⟨.integer 256, fun i hi => Value.integer.inj hi ▸ by decide⟩ uniqueNames noPairs
  unfold RoundTrips at hround
  dsimp only at hround
  rw [hadd] at hround
  obtain ⟨r, code, hr, hequal⟩ := hround.lookup
  cases hlookup.symm.trans hr
  have hsame : LuaNumbers.Same (.integer 256) (.integer 0) := hequal
  revert hsame
  decide

end NvpairRoundTrips
end FluaLibs
