import FluaLibs.LuaArguments
import FluaLibs.ResourceTrace

/-! # The changes of a `kevent` call

`l_kevent` converts a table of entries to an array of changes, and passes the array to
`kevent(2)`.  An entry is a table: its fields are pushed one after the other, checked,
converted and popped, and an error is raised if one is not of its type, so that the
array is passed on exactly if all entries can be converted.  The array is never released.
-/
namespace FluaLibs
namespace KQueue
open LuaArguments
variable {R : Runtime}

/-- `struct kevent`; `udata` is a coroutine. -/
structure Kevent where
  ident : UInt64
  filter : Int16
  flags : UInt16
  fflags : UInt32
  data : Int64
  udata : Option Nat
  deriving DecidableEq

/-- `sizeof(struct kevent)` -/
def keventSize : Nat := 64

/-- What `kevent(2)` returns when it has room for one event. -/
inductive Answer where
  | event (e : Kevent)
  | failed (errno : Nat)
  | other

/-- What is outside the module.  Reading a table may call a metamethod, which may return or
raise anything; the fields of the `i`-th entry are read once each. -/
structure Env where
  host : Host
  kqueue : Nat → Option Int
  len : Option Value → Except Raised Int
  geti : Option Value → Int → Except Raised Value
  getfield : Nat → Option Value → String → Except Raised Value
  malloc : Nat → Bool
  kevent : Int → Int → List Kevent → Answer

/-! ## The code -/

/-- `luaL_checkudata` for a kqueue. -/
def checkkqueue (env : Env) : Option Value → Except Raised Int
  | some (.userdata u) =>
    match env.kqueue u with
    | some kq => .ok kq
    | none => .error (.typeerror 1 "kqueue")
  | _ => .error (.typeerror 1 "kqueue")

/-- `"`changelist' invalid " #name` -/
def invalid (name : String) : Raised := .argerror 2 ("`changelist' invalid " ++ name)

section Conversions
variable (host : Host)

/-- `LUA_TTABLE` -/
def istable : Value → Bool
  | .table _ => true
  | _ => false

/-- `LUA_TLIGHTUSERDATA`, and `lua_touserdata` -/
def pointer : Value → Option Nat
  | .lightuserdata p => some p
  | _ => none

/-- `LUA_TNUMBER`, and `lua_tointeger` -/
def number : Value → Option Int
  | .integer i => some i
  | .number bits => some (LuaNumbers.tointeger host.cvt (.number bits))
  | _ => none

/-- `LUA_TNIL`, or `lua_isinteger` and `lua_tointeger` -/
def optinteger : Value → Option Int
  | .nil => some 0
  | .integer i => some i
  | _ => none

/-- `LUA_TNIL`, or `LUA_TTHREAD` and `lua_tothread` -/
def coroutine : Value → Option (Option Nat)
  | .nil => some none
  | .thread t => some (some t)
  | _ => none

end Conversions

section Entries
variable (env : Env) (i : Nat)

/-- A field of the entry on top of the stack. -/
def field {α : Type} (name : String) (convert : Value → Option α) (L : LuaState R) :
    Except Raised (α × LuaState R) := do
  let v ← env.getfield i (L.index (-1)) name
  match ((L.push v).index (-1)).bind convert with
  | some a => .ok (a, (L.push v).pop 1)
  | none => .error (invalid name)

/-- `INTFIELD(name)` -/
def intfield (name : String) (L : LuaState R) : Except Raised (Int × LuaState R) :=
  field env i name (number env.host) L

/-- `OPTINTFIELD(name)` -/
def optintfield (name : String) (L : LuaState R) : Except Raised (Int × LuaState R) :=
  field env i name optinteger L

/-- The `udata` field. -/
def udatafield (L : LuaState R) : Except Raised (Option Nat × LuaState R) :=
  field env i "udata" coroutine L

/-- The `cookie` field, or the `ident` field. -/
def identfield (L : LuaState R) : Except Raised (UInt64 × LuaState R) := do
  let cookie ← env.getfield i (L.index (-1)) "cookie"
  match ((L.push cookie).index (-1)).bind pointer with
  | some p => .ok (UInt64.ofNat p, (L.push cookie).pop 1)
  | none =>
    let ident ← env.getfield i ((L.push cookie).index (-2)) "ident"
    -- the cookie is still below the ident
    match (((L.push cookie).push ident).index (-1)).bind (number env.host) with
    | some n => .ok (UInt64.ofInt n, ((L.push cookie).push ident).pop 2)
    | none => .error (invalid "ident")

/-- The change of the `i`-th entry. -/
def readChange (L : LuaState R) : Except Raised (Kevent × LuaState R) := do
  let entry ← env.geti (L.index 2) (IntType.int64.wrap i)
  if istable entry then
    let (ident, L) ← identfield env i (L.push entry)
    let (filter, L) ← intfield env i "filter" L
    let (flags, L) ← intfield env i "flags" L
    let (fflags, L) ← optintfield env i "fflags" L
    let (data, L) ← optintfield env i "data" L
    let (udata, L) ← udatafield env i L
    .ok (⟨ident, Int16.ofInt filter, UInt16.ofInt flags, UInt32.ofInt fflags, Int64.ofInt data,
      udata⟩, L.pop 1)
  else .error (.argerror 2 "`changelist' invalid")

/-- The changes of a number of entries from the `i`-th on. -/
def readChanges : Nat → Nat → LuaState R → Except Raised (List Kevent × LuaState R)
  | 0, _, L => .ok ([], L)
  | n + 1, i, L => do
    let (c, L) ← readChange env i L
    let (cs, L) ← readChanges n (i + 1) L
    .ok (c :: cs, L)

end Entries

/-- The fields of the table that is returned, in the order in which they are set. -/
def eventFields (e : Kevent) : List (String × Value) :=
  [("ident", .integer (IntType.int64.wrap e.ident.toNat)),
    ("cookie", .lightuserdata e.ident.toNat),
    ("filter", .integer e.filter.toInt),
    ("flags", .integer e.flags.toNat),
    ("fflags", .integer e.fflags.toNat),
    ("data", .integer e.data.toInt)] ++
  match e.udata with
  | some t => [("udata", .thread t)]
  | none => []

inductive Outcome where
  | returned (fields : List (String × Value))
  | failed (errno : Nat)
  | raised (e : Raised)
  deriving DecidableEq

/-- A call: what becomes of the array, what is passed to `kevent(2)`, if it is called, and how
the call ends. -/
structure Call where
  trace : ResourceTrace Unit
  kernel : Option (Int × List Kevent)
  outcome : Outcome

/-- The system call, and what follows it. -/
def Env.call (env : Env) (trace : ResourceTrace Unit) (kq nchanges : Int)
    (changelist : List Kevent) : Call :=
  match env.kevent kq nchanges changelist with
  | .event e => ⟨trace, some (nchanges, changelist), .returned (eventFields e)⟩
  | .failed errno => ⟨trace, some (nchanges, changelist), .failed errno⟩
  | .other =>
    ⟨trace, some (nchanges, changelist), .raised (.error "kevent failed spectacularly")⟩

/-- `nchanges * sizeof(struct kevent)`, as a `size_t`. -/
def changelistSize (nchanges : Int) : Nat :=
  (IntType.uint64.wrap (IntType.uint64.wrap nchanges * keventSize)).toNat

/-- `l_kevent` -/
def l_kevent (env : Env) (L : LuaState R) : Call :=
  match checkkqueue env (L.index 1) with
  | .error e => ⟨[], none, .raised e⟩
  | .ok kq =>
    match L.index 2 with
    | none | some .nil => env.call [] kq 0 []
    | some (.table _) =>
      match env.len (L.index 2) with
      | .error e => ⟨[], none, .raised e⟩
      | .ok len =>
        let nchanges := IntType.int.wrap len
        if env.malloc (changelistSize nchanges) then
          match readChanges env (IntType.uint64.wrap nchanges).toNat 1 L with
          | .error e => ⟨[((), .acquire)], none, .raised e⟩
          | .ok (changelist, _) => env.call [((), .acquire)] kq nchanges changelist
        else ⟨[], none, .raised (.fatal "malloc" ENOMEM)⟩
    | some _ => ⟨[], none, .raised (.argerror 2 "`changelist' expected")⟩

/-! ## Entries -/

section Fields
variable {env : Env} {i : Nat} {L L' : LuaState R} {entry : Value}

/-- **A field** is pushed, converted and popped. -/
theorem field_eq_ok_iff {α : Type} {name : String} {convert : Value → Option α} {a : α} :
    field env i name convert (L.push entry) = .ok (a, L') ↔
      (∃ v, env.getfield i (some entry) name = .ok v ∧ convert v = some a) ∧
        L' = L.push entry := by
  rw [field, LuaState.index_push_top, bind_eq_ok_iff]
  simp only [LuaState.index_push_top, Option.bind_some, LuaState.push_pop]
  constructor
  · rintro ⟨v, hv, hmatch⟩
    split at hmatch
    · next b hb =>
      cases hmatch
      exact ⟨⟨v, hv, hb⟩, rfl⟩
    · cases hmatch
  · rintro ⟨⟨v, hv, ha⟩, rfl⟩
    refine ⟨v, hv, ?_⟩
    rw [ha]

/-- What identifies a change: the cookie if that is a pointer, and the ident otherwise. -/
inductive Ident (env : Env) (i : Nat) (entry : Value) : UInt64 → Prop where
  | cookie {v : Value} {p : Nat} (hcookie : env.getfield i (some entry) "cookie" = .ok v)
      (hpointer : pointer v = some p) : Ident env i entry (UInt64.ofNat p)
  | ident {v w : Value} {n : Int} (hcookie : env.getfield i (some entry) "cookie" = .ok v)
      (hpointer : pointer v = none) (hident : env.getfield i (some entry) "ident" = .ok w)
      (hnumber : number env.host w = some n) : Ident env i entry (UInt64.ofInt n)

/-- **The identifier**: one value is pushed, or two, and they are popped. -/
theorem identfield_eq_ok_iff {ident : UInt64} :
    identfield env i (L.push entry) = .ok (ident, L') ↔
      Ident env i entry ident ∧ L' = L.push entry := by
  have hentry (v : Value) : ((L.push entry).push v).index (-2) = some entry := by
    have hstack : ((L.push entry).push v).stack = L.stack ++ entry :: [v] :=
      List.append_assoc ..
    exact LuaState.index_below hstack
  rw [identfield, LuaState.index_push_top, bind_eq_ok_iff]
  simp only [LuaState.index_push_top, Option.bind_some, LuaState.push_pop,
    LuaState.push_push_pop, hentry]
  constructor
  · rintro ⟨v, hv, hmatch⟩
    split at hmatch
    · next p hp =>
      cases hmatch
      exact ⟨.cookie hv hp, rfl⟩
    · next hp =>
      obtain ⟨w, hw, hmatch⟩ := bind_eq_ok_iff.mp hmatch
      split at hmatch
      · next n hn =>
        cases hmatch
        exact ⟨.ident hv hp hw hn, rfl⟩
      · cases hmatch
  · rintro ⟨hident, rfl⟩
    cases hident with
    | cookie hv hp =>
      refine ⟨_, hv, ?_⟩
      rw [hp]
    | ident hv hp hw hn =>
      refine ⟨_, hv, ?_⟩
      rw [hp]
      refine bind_eq_ok_iff.mpr ⟨_, hw, ?_⟩
      rw [hn]

end Fields

/-- What an entry is converted to. -/
structure Converts (env : Env) (i : Nat) (entry : Value) (c : Kevent) : Prop where
  table : istable entry = true
  ident : Ident env i entry c.ident
  filter : ∃ v n, env.getfield i (some entry) "filter" = .ok v ∧ number env.host v = some n ∧
    c.filter = Int16.ofInt n
  flags : ∃ v n, env.getfield i (some entry) "flags" = .ok v ∧ number env.host v = some n ∧
    c.flags = UInt16.ofInt n
  fflags : ∃ v n, env.getfield i (some entry) "fflags" = .ok v ∧ optinteger v = some n ∧
    c.fflags = UInt32.ofInt n
  data : ∃ v n, env.getfield i (some entry) "data" = .ok v ∧ optinteger v = some n ∧
    c.data = Int64.ofInt n
  udata : ∃ v, env.getfield i (some entry) "udata" = .ok v ∧ coroutine v = some c.udata

section Entries
variable {env : Env} {i n : Nat} {L L' : LuaState R} {c : Kevent} {cs : List Kevent}

/-- **An entry** is pushed, converted and popped. -/
theorem readChange_eq_ok_iff :
    readChange env i L = .ok (c, L') ↔
      (∃ entry, env.geti (L.index 2) (IntType.int64.wrap i) = .ok entry ∧
        Converts env i entry c) ∧ L' = L := by
  constructor
  · intro h
    obtain ⟨entry, hentry, h⟩ := bind_eq_ok_iff.mp h
    split at h
    · next htable =>
      obtain ⟨⟨ident, L₁⟩, heq₁, h₁⟩ := bind_eq_ok_iff.mp h
      obtain ⟨hident, rfl⟩ := identfield_eq_ok_iff.mp heq₁
      obtain ⟨⟨filter, L₂⟩, heq₂, h₂⟩ := bind_eq_ok_iff.mp h₁
      obtain ⟨⟨v₂, hv₂, hfilter⟩, rfl⟩ := field_eq_ok_iff.mp heq₂
      obtain ⟨⟨flags, L₃⟩, heq₃, h₃⟩ := bind_eq_ok_iff.mp h₂
      obtain ⟨⟨v₃, hv₃, hflags⟩, rfl⟩ := field_eq_ok_iff.mp heq₃
      obtain ⟨⟨fflags, L₄⟩, heq₄, h₄⟩ := bind_eq_ok_iff.mp h₃
      obtain ⟨⟨v₄, hv₄, hfflags⟩, rfl⟩ := field_eq_ok_iff.mp heq₄
      obtain ⟨⟨data, L₅⟩, heq₅, h₅⟩ := bind_eq_ok_iff.mp h₄
      obtain ⟨⟨v₅, hv₅, hdata⟩, rfl⟩ := field_eq_ok_iff.mp heq₅
      obtain ⟨⟨udata, L₆⟩, heq₆, h₆⟩ := bind_eq_ok_iff.mp h₅
      obtain ⟨⟨v₆, hv₆, hudata⟩, rfl⟩ := field_eq_ok_iff.mp heq₆
      cases h₆
      exact ⟨⟨entry, hentry, htable, hident, ⟨v₂, filter, hv₂, hfilter, rfl⟩,
        ⟨v₃, flags, hv₃, hflags, rfl⟩, ⟨v₄, fflags, hv₄, hfflags, rfl⟩,
        ⟨v₅, data, hv₅, hdata, rfl⟩, ⟨v₆, hv₆, hudata⟩⟩, LuaState.push_pop entry⟩
    · cases h
  · rintro ⟨⟨entry, hentry, hconverts⟩, rfl⟩
    obtain ⟨htable, hident, ⟨v₂, filter, hv₂, hfilter, h₂⟩, ⟨v₃, flags, hv₃, hflags, h₃⟩,
      ⟨v₄, fflags, hv₄, hfflags, h₄⟩, ⟨v₅, data, hv₅, hdata, h₅⟩, ⟨v₆, hv₆, hudata⟩⟩ := hconverts
    refine bind_eq_ok_iff.mpr ⟨entry, hentry, ?_⟩
    rw [if_pos htable]
    refine bind_eq_ok_iff.mpr ⟨_, identfield_eq_ok_iff.mpr ⟨hident, rfl⟩, ?_⟩
    refine bind_eq_ok_iff.mpr ⟨_, field_eq_ok_iff.mpr ⟨⟨v₂, hv₂, hfilter⟩, rfl⟩, ?_⟩
    refine bind_eq_ok_iff.mpr ⟨_, field_eq_ok_iff.mpr ⟨⟨v₃, hv₃, hflags⟩, rfl⟩, ?_⟩
    refine bind_eq_ok_iff.mpr ⟨_, field_eq_ok_iff.mpr ⟨⟨v₄, hv₄, hfflags⟩, rfl⟩, ?_⟩
    refine bind_eq_ok_iff.mpr ⟨_, field_eq_ok_iff.mpr ⟨⟨v₅, hv₅, hdata⟩, rfl⟩, ?_⟩
    refine bind_eq_ok_iff.mpr ⟨_, field_eq_ok_iff.mpr ⟨⟨v₆, hv₆, hudata⟩, rfl⟩, ?_⟩
    show Except.ok (_, (L'.push entry).pop 1) = _
    rw [LuaState.push_pop, ← h₂, ← h₃, ← h₄, ← h₅]

/-- **The loop**: every entry is converted, and the stack is as it was. -/
theorem readChanges_eq_ok_iff :
    readChanges env n i L = .ok (cs, L') ↔
      (cs.length = n ∧ ∀ j c, cs[j]? = some c →
        ∃ entry, env.geti (L.index 2) (IntType.int64.wrap (i + j : Nat)) = .ok entry ∧
          Converts env (i + j) entry c) ∧ L' = L := by
  induction n generalizing i L L' cs with
  | zero =>
    constructor
    · intro h
      cases h
      exact ⟨⟨rfl, fun j c hc => by cases hc⟩, rfl⟩
    · rintro ⟨⟨hlength, -⟩, rfl⟩
      rw [List.length_eq_zero_iff.mp hlength]
      rfl
  | succ n ih =>
    constructor
    · intro h
      obtain ⟨⟨c, L₁⟩, hc, h₁⟩ := bind_eq_ok_iff.mp h
      obtain ⟨hfirst, rfl⟩ := readChange_eq_ok_iff.mp hc
      obtain ⟨⟨cs', L₂⟩, hcs, h₂⟩ := bind_eq_ok_iff.mp h₁
      obtain ⟨⟨hlength, hrest⟩, rfl⟩ := ih.mp hcs
      cases h₂
      refine ⟨⟨congrArg Nat.succ hlength, fun j c' hc' => ?_⟩, rfl⟩
      cases j with
      | zero =>
        cases hc'
        exact hfirst
      | succ j =>
        rw [Nat.add_comm j 1, ← Nat.add_assoc]
        exact hrest j c' hc'
    · rintro ⟨⟨hlength, hall⟩, rfl⟩
      obtain ⟨c, cs, rfl⟩ := List.exists_cons_of_length_eq_add_one hlength
      refine bind_eq_ok_iff.mpr ⟨_, readChange_eq_ok_iff.mpr ⟨hall 0 c rfl, rfl⟩, ?_⟩
      refine bind_eq_ok_iff.mpr ⟨(cs, L'), ih.mpr ⟨⟨Nat.succ.inj hlength, fun j c' hc' => ?_⟩,
        rfl⟩, rfl⟩
      have hnext := hall (j + 1) c' hc'
      rw [Nat.add_comm j 1, ← Nat.add_assoc] at hnext
      exact hnext

end Entries

/-! ## Tables of changes -/

/-- What identifies a change, in the range of its type. -/
inductive Names (env : Env) (i : Nat) (entry : Value) (ident : UInt64) : Prop where
  | cookie (hcookie : env.getfield i (some entry) "cookie" = .ok (.lightuserdata ident.toNat))
  | ident {v w : Value} (hcookie : env.getfield i (some entry) "cookie" = .ok v)
      (hpointer : pointer v = none) (hident : env.getfield i (some entry) "ident" = .ok w)
      (hnumber : LuaNumbers.numberToInteger w = some (ident.toNat : Int))

/-- A field with an integer. -/
def HasInteger (env : Env) (i : Nat) (entry : Value) (name : String) (n : Int) : Prop :=
  ∃ v, env.getfield i (some entry) name = .ok v ∧ LuaNumbers.numberToInteger v = some n

/-- A field that is nil or an integer. -/
def HasOptional (env : Env) (i : Nat) (entry : Value) (name : String) (n : Int) : Prop :=
  env.getfield i (some entry) name = .ok .nil ∧ n = 0 ∨
    env.getfield i (some entry) name = .ok (.integer n)

/-- An entry whose fields are a change. -/
structure Denotes (env : Env) (i : Nat) (entry : Value) (c : Kevent) : Prop where
  table : istable entry = true
  ident : Names env i entry c.ident
  filter : HasInteger env i entry "filter" c.filter.toInt
  flags : HasInteger env i entry "flags" c.flags.toNat
  fflags : HasOptional env i entry "fflags" c.fflags.toNat
  data : HasOptional env i entry "data" c.data.toInt
  udata : ∃ v, env.getfield i (some entry) "udata" = .ok v ∧ coroutine v = some c.udata

/-- An entry that is no table, or has a field of a wrong type. -/
inductive Malformed (env : Env) (i : Nat) (entry : Value) : Prop where
  | entry (h : istable entry = false)
  | ident {v w : Value} (hcookie : env.getfield i (some entry) "cookie" = .ok v)
      (hpointer : pointer v = none) (hident : env.getfield i (some entry) "ident" = .ok w)
      (hnumber : number env.host w = none)
  | filter {v : Value} (hv : env.getfield i (some entry) "filter" = .ok v)
      (h : number env.host v = none)
  | flags {v : Value} (hv : env.getfield i (some entry) "flags" = .ok v)
      (h : number env.host v = none)
  | fflags {v : Value} (hv : env.getfield i (some entry) "fflags" = .ok v)
      (h : optinteger v = none)
  | data {v : Value} (hv : env.getfield i (some entry) "data" = .ok v) (h : optinteger v = none)
  | udata {v : Value} (hv : env.getfield i (some entry) "udata" = .ok v) (h : coroutine v = none)

section Denotes
variable {env : Env} {i : Nat} {entry : Value} {c : Kevent} {name : String} {n : Int}

theorem number_of_numberToInteger {host : Host} {v : Value}
    (h : LuaNumbers.numberToInteger v = some n) : number host v = some n := by
  cases v with
  | integer m => exact h
  | number bits =>
    show some ((LuaNumbers.floatToInteger bits).getD 0) = some n
    rw [show LuaNumbers.floatToInteger bits = some n from h]
    rfl
  | _ => cases h

theorem Names.ident_of {ident : UInt64} (h : Names env i entry ident) :
    Ident env i entry ident := by
  cases h with
  | cookie hcookie =>
    have hident : UInt64.ofNat ident.toNat = ident := UInt64.ofNat_toNat
    rw [← hident]
    exact .cookie hcookie rfl
  | ident hcookie hpointer hident hnumber =>
    have hlt := ident.toNat_lt
    have hwrap : UInt64.ofInt ident.toNat = ident := by
      rw [UInt64.ofInt, Int.emod_eq_of_lt (by omega) (by omega), Int.toNat_natCast,
        UInt64.ofNat_toNat]
    rw [← hwrap]
    exact .ident hcookie hpointer hident (number_of_numberToInteger hnumber)

theorem HasInteger.converts (h : HasInteger env i entry name n) :
    ∃ v m, env.getfield i (some entry) name = .ok v ∧ number env.host v = some m ∧ m = n := by
  obtain ⟨v, hv, hn⟩ := h
  exact ⟨v, n, hv, number_of_numberToInteger hn, rfl⟩

theorem HasOptional.converts (h : HasOptional env i entry name n) :
    ∃ v m, env.getfield i (some entry) name = .ok v ∧ optinteger v = some m ∧ m = n := by
  rcases h with ⟨hv, rfl⟩ | hv
  · exact ⟨.nil, 0, hv, rfl, rfl⟩
  · exact ⟨.integer n, n, hv, rfl, rfl⟩

/-- **Fields in the range of their types** are converted to what they are. -/
theorem Denotes.converts (h : Denotes env i entry c) : Converts env i entry c := by
  have hflags := c.flags.toNat_lt
  have hfflags := c.fflags.toNat_lt
  refine ⟨h.table, h.ident.ident_of, ?_, ?_, ?_, ?_, h.udata⟩
  · obtain ⟨v, n, hv, hn, rfl⟩ := h.filter.converts
    exact ⟨v, _, hv, hn, (Int16.ofInt_toInt _).symm⟩
  · obtain ⟨v, n, hv, hn, rfl⟩ := h.flags.converts
    refine ⟨v, _, hv, hn, ?_⟩
    rw [UInt16.ofInt, Int.emod_eq_of_lt (by omega) (by omega), Int.toNat_natCast,
      UInt16.ofNat_toNat]
  · obtain ⟨v, n, hv, hn, rfl⟩ := h.fflags.converts
    refine ⟨v, _, hv, hn, ?_⟩
    rw [UInt32.ofInt, Int.emod_eq_of_lt (by omega) (by omega), Int.toNat_natCast,
      UInt32.ofNat_toNat]
  · obtain ⟨v, n, hv, hn, rfl⟩ := h.data.converts
    exact ⟨v, _, hv, hn, (Int64.ofInt_toInt _).symm⟩

/-- A field of a wrong type. -/
theorem not_converted {α : Type} {x : Except Raised Value} {convert : Value → Option α}
    {P : α → Prop} {v : Value} (hv : x = .ok v) (h : convert v = none) :
    ¬ ∃ v a, x = .ok v ∧ convert v = some a ∧ P a := by
  rintro ⟨v', a, hv', ha, -⟩
  cases hv.symm.trans hv'
  cases h.symm.trans ha

/-- A malformed entry is not converted. -/
theorem Malformed.not_converts (h : Malformed env i entry) : ¬ Converts env i entry c := by
  intro hc
  cases h with
  | entry h =>
    rw [hc.table] at h
    cases h
  | ident hcookie hpointer hident hnumber =>
    have hname := hc.ident
    generalize c.ident = ident at hname
    cases hname with
    | cookie hcookie' hpointer' =>
      cases hcookie.symm.trans hcookie'
      cases hpointer.symm.trans hpointer'
    | ident hcookie' hpointer' hident' hnumber' =>
      cases hident.symm.trans hident'
      cases hnumber.symm.trans hnumber'
  | filter hv h => exact not_converted hv h hc.filter
  | flags hv h => exact not_converted hv h hc.flags
  | fflags hv h => exact not_converted hv h hc.fflags
  | data hv h => exact not_converted hv h hc.data
  | udata hv h =>
    obtain ⟨v, hv', hn⟩ := hc.udata
    cases hv.symm.trans hv'
    cases h.symm.trans hn

end Denotes

/-- A call with a table of changes. -/
structure Lists (env : Env) (L : LuaState R) (cs : List Kevent) : Prop where
  kqueue : ∃ kq, checkkqueue env (L.index 1) = .ok kq
  table : ∃ r, L.index 2 = some (.table r)
  len : env.len (L.index 2) = .ok cs.length
  entries : ∀ j c, cs[j]? = some c →
    ∃ entry, env.geti (L.index 2) (j + 1 : Nat) = .ok entry ∧ Denotes env (j + 1) entry c

/-- A call with a table that has a malformed entry. -/
structure ListsMalformed (env : Env) (L : LuaState R) (len j : Nat) : Prop where
  table : ∃ r, L.index 2 = some (.table r)
  len_eq : env.len (L.index 2) = .ok len
  lt : j < len
  entry : ∃ entry, env.geti (L.index 2) (j + 1 : Nat) = .ok entry ∧ Malformed env (j + 1) entry

/-- The call allocates an array. -/
structure Allocates (env : Env) (L : LuaState R) : Prop where
  kqueue : ∃ kq, checkkqueue env (L.index 1) = .ok kq
  table : ∃ r, L.index 2 = some (.table r)
  memory : ∃ len, env.len (L.index 2) = .ok len ∧
    env.malloc (changelistSize (IntType.int.wrap len)) = true

/-- What is to hold of a call. -/
structure Meets (env : Env) (L : LuaState R) : Prop where
  passes : ∀ cs, Lists env L cs →
    env.malloc (changelistSize (IntType.int.wrap cs.length)) = true →
      (l_kevent env L).kernel = some ((cs.length : Int), cs)
  balanced : ∀ i (L' L'' : LuaState R) c, readChange env i L' = .ok (c, L'') → L'' = L'
  raises : ∀ len j, ListsMalformed env L len j →
    (l_kevent env L).kernel = none ∧ ∃ e, (l_kevent env L).outcome = .raised e
  released : (l_kevent env L).trace.Clean

section Calls
variable {env : Env} {L : LuaState R} {cs : List Kevent}

theorem call_trace (env : Env) (trace : ResourceTrace Unit) (kq nchanges : Int)
    (changelist : List Kevent) : (env.call trace kq nchanges changelist).trace = trace := by
  unfold Env.call
  split <;> rfl

theorem call_kernel (env : Env) (trace : ResourceTrace Unit) (kq nchanges : Int)
    (changelist : List Kevent) :
    (env.call trace kq nchanges changelist).kernel = some (nchanges, changelist) := by
  unfold Env.call
  split <;> rfl

/-- A call that allocates an array. -/
theorem l_kevent_of_allocates {kq len : Int} {r : Nat}
    (hkq : checkkqueue env (L.index 1) = .ok kq) (htable : L.index 2 = some (.table r))
    (hlen : env.len (L.index 2) = .ok len)
    (hmalloc : env.malloc (changelistSize (IntType.int.wrap len)) = true) :
    l_kevent env L =
      match readChanges env (IntType.uint64.wrap (IntType.int.wrap len)).toNat 1 L with
      | .error e => ⟨[((), .acquire)], none, .raised e⟩
      | .ok (changelist, _) =>
        env.call [((), .acquire)] kq (IntType.int.wrap len) changelist := by
  rw [htable] at hlen
  simp only [l_kevent, hkq, htable, hlen, if_pos hmalloc]

/-- **The array is never released.** -/
theorem trace_of_allocates (h : Allocates env L) :
    (l_kevent env L).trace = [((), .acquire)] := by
  obtain ⟨⟨kq, hkq⟩, ⟨r, htable⟩, len, hlen, hmalloc⟩ := h
  rw [l_kevent_of_allocates hkq htable hlen hmalloc]
  split
  · rfl
  · exact call_trace ..

/-- A call with a table that allocates no array raises an error before the system call. -/
theorem raised_of_not_allocates {r : Nat} (htable : L.index 2 = some (.table r))
    (h : ¬ Allocates env L) : ∃ e, l_kevent env L = ⟨[], none, .raised e⟩ := by
  cases hkq : checkkqueue env (L.index 1) with
  | error e =>
    refine ⟨e, ?_⟩
    simp only [l_kevent, hkq]
  | ok kq =>
    cases hlen : env.len (L.index 2) with
    | error e =>
      refine ⟨e, ?_⟩
      rw [htable] at hlen
      simp only [l_kevent, hkq, htable, hlen]
    | ok len =>
      have hmalloc : ¬ env.malloc (changelistSize (IntType.int.wrap len)) = true :=
        fun hmalloc => h ⟨⟨kq, hkq⟩, ⟨r, htable⟩, len, hlen, hmalloc⟩
      refine ⟨.fatal "malloc" ENOMEM, ?_⟩
      rw [htable] at hlen
      simp only [l_kevent, hkq, htable, hlen, if_neg hmalloc]

/-- A call that allocates no array leaves none. -/
theorem trace_of_not_allocates (h : ¬ Allocates env L) : (l_kevent env L).trace = [] := by
  by_cases htable : ∃ r, L.index 2 = some (.table r)
  · obtain ⟨r, htable⟩ := htable
    obtain ⟨e, he⟩ := raised_of_not_allocates htable h
    rw [he]
  · unfold l_kevent
    split
    · rfl
    · split
      · exact call_trace ..
      · exact call_trace ..
      · next r heq => exact absurd ⟨r, heq⟩ htable
      · rfl

section Lengths
variable {len : Nat}

/-- A length that an `int` holds is the number of rounds of the loop. -/
theorem wrap_length (hlen : len < 2 ^ 31) :
    IntType.int.wrap len = len ∧ IntType.uint64.wrap len = len := by
  constructor
  · apply IntType.wrap_of_holds
    show -2 ^ 31 ≤ (len : Int) ∧ (len : Int) < 2 ^ 31
    omega
  · apply IntType.wrap_of_holds
    show 0 ≤ (len : Int) ∧ (len : Int) < 2 ^ 64
    omega

theorem wrap_position {j : Nat} (hlen : len < 2 ^ 31) (hj : j < len) :
    IntType.int64.wrap (1 + j : Nat) = (j + 1 : Nat) := by
  rw [Nat.add_comm 1 j]
  apply IntType.wrap_of_holds
  rw [IntType.int64_holds_iff]
  omega

theorem l_kevent_of_length {kq : Int} {r : Nat} (hlen : len < 2 ^ 31)
    (hkq : checkkqueue env (L.index 1) = .ok kq) (htable : L.index 2 = some (.table r))
    (hlength : env.len (L.index 2) = .ok len)
    (hmalloc : env.malloc (changelistSize (IntType.int.wrap len)) = true) :
    l_kevent env L =
      match readChanges env len 1 L with
      | .error e => ⟨[((), .acquire)], none, .raised e⟩
      | .ok (changelist, _) => env.call [((), .acquire)] kq len changelist := by
  obtain ⟨hint, hsize⟩ := wrap_length hlen
  rw [l_kevent_of_allocates hkq htable hlength hmalloc, hint, hsize, Int.toNat_natCast]

/-- **The changes that are passed** are those of the table, if an `int` holds their number. -/
theorem passes_of_lt (h : Lists env L cs) (hlen : cs.length < 2 ^ 31)
    (hmalloc : env.malloc (changelistSize (IntType.int.wrap cs.length)) = true) :
    (l_kevent env L).kernel = some ((cs.length : Int), cs) := by
  obtain ⟨⟨kq, hkq⟩, ⟨r, htable⟩, hlength, hentries⟩ := h
  have hread : readChanges env cs.length 1 L = .ok (cs, L) := by
    refine readChanges_eq_ok_iff.mpr ⟨⟨rfl, fun j c hc => ?_⟩, rfl⟩
    obtain ⟨hj, -⟩ := List.getElem?_eq_some_iff.mp hc
    obtain ⟨entry, hentry, hdenotes⟩ := hentries j c hc
    refine ⟨entry, ?_, ?_⟩
    · rw [wrap_position hlen hj]
      exact hentry
    · rw [Nat.add_comm 1 j]
      exact hdenotes.converts
  rw [l_kevent_of_length hlen hkq htable hlength hmalloc, hread]
  exact call_kernel ..

/-- **A malformed entry** raises an error before the system call. -/
theorem raises_of_lt {j : Nat} (h : ListsMalformed env L len j) (hlen : len < 2 ^ 31) :
    (l_kevent env L).kernel = none ∧ ∃ e, (l_kevent env L).outcome = .raised e := by
  obtain ⟨⟨r, htable⟩, hlength, hj, entry, hentry, hmalformed⟩ := h
  by_cases hallocates : Allocates env L
  · obtain ⟨⟨kq, hkq⟩, -, len', hlength', hmalloc⟩ := hallocates
    cases hlength.symm.trans hlength'
    rw [l_kevent_of_length hlen hkq htable hlength hmalloc]
    split
    · next e _ => exact ⟨rfl, e, rfl⟩
    · next cs L' hread =>
      obtain ⟨⟨hcs, hall⟩, -⟩ := readChanges_eq_ok_iff.mp hread
      have hlt : j < cs.length := hcs.symm ▸ hj
      obtain ⟨entry', hentry', hconverts⟩ := hall j cs[j] (List.getElem?_eq_getElem hlt)
      rw [wrap_position hlen hj] at hentry'
      cases hentry.symm.trans hentry'
      rw [Nat.add_comm 1 j] at hconverts
      exact absurd hconverts hmalformed.not_converts
  · obtain ⟨e, he⟩ := raised_of_not_allocates htable hallocates
    rw [he]
    exact ⟨rfl, e, rfl⟩

end Lengths

/-- **When a call does all it should**: it allocates no array. -/
theorem meets_iff : Meets env L ↔ ¬ Allocates env L := by
  constructor
  · intro hmeets hallocates
    have hclean := hmeets.released
    rw [trace_of_allocates hallocates] at hclean
    exact absurd (hclean ()) (by decide)
  · intro hnot
    constructor
    · intro cs hlists hmalloc
      exact absurd ⟨hlists.kqueue, hlists.table, _, hlists.len, hmalloc⟩ hnot
    · intro i L' L'' c hread
      exact (readChange_eq_ok_iff.mp hread).2
    · intro len j hlists
      obtain ⟨r, htable⟩ := hlists.table
      obtain ⟨e, he⟩ := raised_of_not_allocates htable hnot
      rw [he]
      exact ⟨rfl, e, rfl⟩
    · rw [trace_of_not_allocates hnot]
      intro u
      exact Or.inl rfl

end Calls

/-! ## Examples -/

/-- One entry: `{ident = 0, filter = EVFILT_READ, flags = EV_ADD}`. -/
def readEnv : Env where
  host := .plain
  kqueue _ := some 3
  len _ := .ok 1
  geti _ _ := .ok (.table 1)
  getfield _ _ name :=
    if name = "ident" then .ok (.integer 0)
    else if name = "filter" then .ok (.integer (-1))
    else if name = "flags" then .ok (.integer 1)
    else .ok .nil
  malloc _ := true
  kevent _ _ _ := .event ⟨0, -1, 1, 0, 5, none⟩

/-- `kq:kevent(changelist)` -/
def keventCall : LuaState noFunctions := ⟨[.userdata 0, .table 0], [], 0⟩

/-- The array of a call that returns an event is not released. -/
theorem not_meets : ¬ ∀ (env : Env) (L : LuaState noFunctions), Meets env L := by
  intro hall
  have hclean := (hall readEnv keventCall).released
  have htrace : (l_kevent readEnv keventCall).trace = [((), .acquire)] :=
    trace_of_allocates ⟨⟨3, rfl⟩, ⟨0, rfl⟩, 1, rfl, rfl⟩
  rw [htrace] at hclean
  exact absurd (hclean ()) (by decide)

end KQueue
end FluaLibs
