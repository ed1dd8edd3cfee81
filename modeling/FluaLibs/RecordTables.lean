import FluaLibs.LuaArguments
import Mathlib.Data.List.Nodup
import Mathlib.Logic.Function.Basic

/-! # Records and tables

A record of C is read from the fields of a table, member by member, and written to a table in the
same way.  A member is an integer of some type, a truth value or a character; a table may have
anything in a field, and what is missing is nil.

There are two ways to read: `readAll` converts what is there, and `Format.check` raises an error
at the first field that is neither nil nor an integer.  Records may be in tables of their own
within a table (`readGroups`), which are put there if they are missing.  A table is what it has in
its fields: metamethods, which may raise an error or answer for a field, are left out.
-/
namespace FluaLibs
namespace Records
open LuaArguments

abbrev Bytes : Type := List UInt8

/-- What a table has in its fields. -/
abbrev Table : Type := String → Value

/-- The members of a record by name; what the record does not have is zero. -/
abbrev Record : Type := String → Int

inductive Kind where
  | integer (t : IntType)
  | boolean
  | char (t : IntType)

structure Member where
  name : String
  kind : Kind

/-- `lua_toboolean` -/
def toboolean : Value → Bool
  | .nil | .boolean false => false
  | _ => true

/-- A character as a string that ends where a NUL is. -/
def charText (v : Int) : Bytes :=
  if v % 256 = 0 then [] else [UInt8.ofNat (v % 256).toNat]

namespace Kind

/-- What a member can be. -/
def Holds : Kind → Int → Prop
  | integer t, v | char t, v => t.Holds v
  | boolean, v => v = 0 ∨ v = 1

/-- The integer types are no wider than those of Lua. -/
def Fits : Kind → Prop
  | integer t => t.bits ≤ 64
  | char t => t.bits = 8
  | boolean => True

/-- What is written for a member. -/
def value : Kind → Int → Value
  | integer _, v => .integer (IntType.back v)
  | boolean, v => .boolean (decide (v ≠ 0))
  | char _, v => .string (charText v)

/-- What is read from a field. -/
def read (host : Host) : Kind → Value → Int
  | integer t, v => t.wrap (LuaNumbers.tointeger host.cvt v)
  | boolean, v => if toboolean v then 1 else 0
  | char t, v => t.wrap (((tolstring host v).getD []).headD 0).toNat

end Kind

/-! ## Fields that are set one after the other -/

section Assignments
variable {α β : Type}

/-- Each of the keys gets its value. -/
def assign (key : α → String) (f : α → β) (l : List α) (r : String → β) : String → β :=
  l.foldl (fun r x => Function.update r (key x) (f x)) r

variable {key : α → String} {f : α → β} {l : List α} {r : String → β}

theorem assign_of_not_mem {n : String} (hn : n ∉ l.map key) : assign key f l r n = r n := by
  induction l generalizing r with
  | nil => rfl
  | cons x l ih =>
    rw [List.map_cons, List.mem_cons, not_or] at hn
    rw [assign, List.foldl_cons]
    exact (ih hn.2).trans (Function.update_of_ne hn.1 ..)

theorem assign_of_mem (hl : (l.map key).Nodup) {x : α} (hx : x ∈ l) :
    assign key f l r (key x) = f x := by
  induction l generalizing r with
  | nil => cases hx
  | cons y l ih =>
    obtain ⟨hy, hl⟩ := List.nodup_cons.mp hl
    rw [assign, List.foldl_cons]
    rcases List.mem_cons.mp hx with rfl | hx
    · -- the others have other keys
      exact (assign_of_not_mem hy).trans (Function.update_self ..)
    · exact ih hl hx

/-- A table is what it has under its keys and under the others. -/
theorem assign_eq (hl : (l.map key).Nodup) {r' : String → β} (hmem : ∀ x ∈ l, r' (key x) = f x)
    (hother : ∀ n, n ∉ l.map key → r' n = r n) : assign key f l r = r' := by
  funext n
  by_cases hn : n ∈ l.map key
  · obtain ⟨x, hx, rfl⟩ := List.mem_map.mp hn
    rw [assign_of_mem hl hx, hmem x hx]
  · rw [assign_of_not_mem hn, hother n hn]

end Assignments

/-! ## Writing and reading a record -/

def push (members : List Member) (r : Record) : Table :=
  assign Member.name (fun m => m.kind.value (r m.name)) members (fun _ => .nil)

def readAll (host : Host) (members : List Member) (t : Table) : Record :=
  assign Member.name (fun m => m.kind.read host (t m.name)) members (fun _ => 0)

/-- The record has these members, with what they can be. -/
structure Represents (members : List Member) (r : Record) : Prop where
  holds : ∀ m ∈ members, m.kind.Holds (r m.name)
  others : ∀ n, n ∉ members.map Member.name → r n = 0

/-- A record that has been cleared is one of any members. -/
theorem Kind.holds_zero (k : Kind) : k.Holds 0 := by
  have hinteger : ∀ t : IntType, t.Holds 0 := by
    intro t
    obtain ⟨hhalf, hpos⟩ := IntType.two_pow_pred t
    rw [IntType.Holds]
    split <;> omega
  cases k with
  | integer t | char t => exact hinteger t
  | boolean => exact Or.inl rfl

theorem wrap_back {t : IntType} (ht : t.bits ≤ 64) {v : Int} (hv : t.Holds v) :
    t.wrap (IntType.back v) = v := by
  have hdvd : (2 : Int) ^ t.bits ∣ 2 ^ 64 := pow_dvd_pow 2 ht
  have hback : IntType.back v % 2 ^ 64 = v % 2 ^ 64 := IntType.wrap_modEq IntType.int64 v
  have hmod : IntType.back v % 2 ^ t.bits = v % 2 ^ t.bits := by
    rw [← Int.emod_emod_of_dvd (IntType.back v) hdvd, hback, Int.emod_emod_of_dvd v hdvd]
  rw [IntType.wrap_congr hmod, IntType.wrap_of_holds hv]

theorem headD_charText (v : Int) : (((charText v).headD 0).toNat : Int) = v % 256 := by
  have hlt := Int.emod_lt_of_pos v (b := 256) (by decide)
  have hnonneg := Int.emod_nonneg v (b := 256) (by decide)
  by_cases hzero : v % 256 = 0
  · simp [charText, hzero]
  · rw [charText, if_neg hzero, List.headD_cons, UInt8.toNat_ofNat']
    omega

/-- **What is written for a member is read again.** -/
theorem Kind.read_value {k : Kind} (hk : k.Fits) (host : Host) {v : Int} (hv : k.Holds v) :
    k.read host (k.value v) = v := by
  cases k with
  | integer t => exact wrap_back hk hv
  | boolean => rcases hv with rfl | rfl <;> rfl
  | char t =>
    have hbits : t.bits = 8 := hk
    have hmod : (((charText v).headD 0).toNat : Int) % 2 ^ t.bits = v % 2 ^ t.bits := by
      rw [headD_charText, hbits]
      exact Int.emod_emod_of_dvd v (dvd_refl _)
    show t.wrap (((charText v).headD 0).toNat : Int) = v
    rw [IntType.wrap_congr hmod, IntType.wrap_of_holds hv]

/-- **Round trip of a record.** -/
theorem readAll_push {members : List Member} (hnames : (members.map Member.name).Nodup)
    (hfits : ∀ m ∈ members, m.kind.Fits) (host : Host) {r : Record} (hr : Represents members r) :
    readAll host members (push members r) = r := by
  refine assign_eq hnames (fun m hm => ?_) hr.others
  rw [push, assign_of_mem hnames hm, Kind.read_value (hfits m hm) host (hr.holds m hm)]

/-- A field that has been changed changes its member. -/
theorem readAll_update {members : List Member} (hnames : (members.map Member.name).Nodup)
    (host : Host) (t : Table) {m : Member} (hm : m ∈ members) (v : Value) :
    readAll host members (Function.update t m.name v) =
      Function.update (readAll host members t) m.name (m.kind.read host v) := by
  refine assign_eq hnames (fun m' hm' => ?_) (fun n hn => ?_)
  · by_cases hname : m'.name = m.name
    · obtain rfl := List.inj_on_of_nodup_map hnames hm' hm hname
      rw [Function.update_self, Function.update_self]
    · rw [Function.update_of_ne hname, Function.update_of_ne hname]
      exact assign_of_mem hnames hm'
  · have hne : n ≠ m.name := by
      rintro rfl
      exact hn (List.mem_map_of_mem hm)
    rw [Function.update_of_ne hne]
    exact assign_of_not_mem hn

/-! ## Formats whose fields are checked -/

/-- The members of a record whose fields must be integers, and what is said of a field that is
not one. -/
structure Format where
  complaint : String
  types : List (String × IntType)
  distinct : (types.map Prod.fst).Nodup
  narrow : ∀ p ∈ types, p.2.bits ≤ 64

/-- The field is refused. -/
def refuses (t : Table) (p : String × IntType) : Bool :=
  match t p.1 with
  | .nil | .integer _ => false
  | _ => true

namespace Format
variable (fmt : Format)

def members : List Member := fmt.types.map (fun p => ⟨p.1, .integer p.2⟩)

/-- What is done with one field. -/
def checkField (arg : Int) (t : Table) (r : Record) (p : String × IntType) :
    Except Raised Record :=
  match t p.1 with
  | .nil => .ok r
  | .integer i => .ok (Function.update r p.1 (p.2.wrap i))
  | _ => .error (.argerror arg (fmt.complaint ++ p.1))

def check (arg : Int) (t : Table) : Except Raised Record :=
  fmt.types.foldlM (fmt.checkField arg t) (fun _ => 0)

def push (r : Record) : Table := Records.push fmt.members r

variable {fmt}

theorem names_eq : fmt.members.map Member.name = fmt.types.map Prod.fst := by
  rw [members, List.map_map]
  rfl

theorem members_distinct : (fmt.members.map Member.name).Nodup := by
  rw [names_eq]
  exact fmt.distinct

theorem members_fit : ∀ m ∈ fmt.members, m.kind.Fits := by
  intro m hm
  obtain ⟨p, hp, rfl⟩ := List.mem_map.mp hm
  exact fmt.narrow p hp

theorem checkField_eq (arg : Int) (host : Host) (t : Table) {r : Record} {p : String × IntType}
    (hr : r p.1 = 0) : fmt.checkField arg t r p =
      if refuses t p = true then .error (.argerror arg (fmt.complaint ++ p.1))
      else .ok (Function.update r p.1 ((Kind.integer p.2).read host (t p.1))) := by
  unfold checkField refuses
  cases t p.1 with
  | nil =>
    -- a field that is missing reads as zero, which the member already is
    have hzero : (Kind.integer p.2).read host .nil = 0 :=
      IntType.wrap_of_holds (Kind.holds_zero (.integer p.2))
    rw [hzero, ← hr, Function.update_eq_self]
    rfl
  | _ => rfl

/-- **The check**: the first field that is refused is named in the error; when there is none, the
record is what is in the fields. -/
theorem check_eq (arg : Int) (host : Host) (t : Table) :
    fmt.check arg t = (fmt.types.find? (refuses t)).elim
      (.ok (readAll host fmt.members t))
      (fun p => .error (.argerror arg (fmt.complaint ++ p.1))) := by
  have general : ∀ (types : List (String × IntType)) (r : Record),
      (types.map Prod.fst).Nodup → (∀ p ∈ types, r p.1 = 0) →
      types.foldlM (fmt.checkField arg t) r = (types.find? (refuses t)).elim
        (.ok (assign Prod.fst (fun p => (Kind.integer p.2).read host (t p.1)) types r))
        (fun p => .error (.argerror arg (fmt.complaint ++ p.1))) := by
    intro types
    induction types with
    | nil => exact fun _ _ _ => rfl
    | cons p types ih =>
      intro r hnodup hr
      obtain ⟨hp, hnodup⟩ := List.nodup_cons.mp hnodup
      obtain ⟨hrp, hr⟩ := List.forall_mem_cons.mp hr
      rw [List.foldlM_cons, checkField_eq arg host t hrp, List.find?_cons]
      by_cases hrefused : refuses t p = true
      · rw [if_pos hrefused, hrefused]
        rfl
      · rw [if_neg hrefused, Bool.eq_false_iff.mpr hrefused]
        refine ih _ hnodup (fun q hq => ?_)
        have hne : q.1 ≠ p.1 := by
          intro heq
          exact hp (heq ▸ List.mem_map_of_mem hq)
        rw [Function.update_of_ne hne, hr q hq]
  rw [check, general fmt.types _ fmt.distinct (fun _ _ => rfl), readAll, members]
  congr 2
  rw [assign, assign, List.foldl_map]

/-- **Round trip**, from a record. -/
theorem check_push {r : Record} (hr : Represents fmt.members r) (arg : Int) :
    fmt.check arg (fmt.push r) = .ok r := by
  have hfind : fmt.types.find? (refuses (fmt.push r)) = none := by
    rw [List.find?_eq_none]
    intro p hp
    have hm : ⟨p.1, .integer p.2⟩ ∈ fmt.members := List.mem_map_of_mem hp
    have hfield : fmt.push r p.1 = .integer (IntType.back (r p.1)) :=
      assign_of_mem members_distinct hm
    simp [refuses, hfield]
  rw [check_eq arg .plain, hfind]
  exact congrArg Except.ok (readAll_push members_distinct members_fit .plain hr)

/-- **Round trip**, from a table: it comes back with the fields that it had if all of them are
integers that the members can be, or have 64 bits. -/
theorem push_check_iff {arg : Int} {t : Table} {r : Record} (hcheck : fmt.check arg t = .ok r)
    (ht : ∀ n i, t n = .integer i → IntType.int64.Holds i) :
    (∀ p ∈ fmt.types, fmt.push r p.1 = t p.1) ↔
      ∀ p ∈ fmt.types, ∃ i, t p.1 = .integer i ∧ (p.2.Holds i ∨ p.2.bits = 64) := by
  have hread : r = readAll .plain fmt.members t := by
    rw [check_eq arg .plain] at hcheck
    rcases hfind : fmt.types.find? (refuses t) with _ | p
    · rw [hfind] at hcheck
      exact (Except.ok.inj hcheck).symm
    · rw [hfind] at hcheck
      cases hcheck
  have hfield : ∀ p ∈ fmt.types, fmt.push r p.1 =
      .integer (IntType.back ((Kind.integer p.2).read .plain (t p.1))) := by
    intro p hp
    have hm : ⟨p.1, .integer p.2⟩ ∈ fmt.members := List.mem_map_of_mem hp
    have hpush : fmt.push r p.1 = .integer (IntType.back (r p.1)) :=
      assign_of_mem members_distinct hm
    have hrp : r p.1 = (Kind.integer p.2).read .plain (t p.1) := by
      rw [hread]
      exact assign_of_mem members_distinct hm
    rw [hpush, hrp]
  constructor
  · intro h p hp
    have hsame := (hfield p hp).symm.trans (h p hp)
    refine ⟨_, hsame.symm, ?_⟩
    rw [← IntType.back_wrap_eq_iff (fmt.narrow p hp) (ht p.1 _ hsame.symm)]
    have hwrap : (Kind.integer p.2).read .plain (t p.1) =
        p.2.wrap (IntType.back ((Kind.integer p.2).read .plain (t p.1))) := by
      nth_rewrite 1 [← hsame]
      rfl
    rw [← hwrap]
  · intro h p hp
    obtain ⟨i, hi, hholds⟩ := h p hp
    have hback := (IntType.back_wrap_eq_iff (fmt.narrow p hp) (ht p.1 i hi)).mpr hholds
    rw [hfield p hp, hi]
    exact congrArg Value.integer hback

end Format

/-! ## Tables in a table -/

/-- A field: a value, or a table. -/
inductive Entry where
  | value (v : Value)
  | table (t : Table)

abbrev Tables : Type := String → Entry

/-- A record in a field of its own. -/
structure Group where
  name : String
  members : List Member

/-- The table in a field; there is nothing in one that has to be made. -/
def Entry.fields : Entry → Table
  | value _ => fun _ => .nil
  | table t => t

/-- `luaL_getsubtable` -/
def getsubtable (t : Tables) (name : String) : Table × Tables :=
  match t name with
  | .table u => (u, t)
  | .value _ => (fun _ => .nil, Function.update t name (.table (fun _ => .nil)))

def pushGroups (groups : List Group) (r : String → Record) : Tables :=
  assign Group.name (fun g => .table (push g.members (r g.name))) groups (fun _ => .value .nil)

/-- The records are read one after the other; what is made of the table is the second result. -/
def readGroups (host : Host) (groups : List Group) (t : Tables) : (String → Record) × Tables :=
  groups.foldl
    (fun s g =>
      (Function.update s.1 g.name (readAll host g.members (getsubtable s.2 g.name).1),
        (getsubtable s.2 g.name).2))
    (fun _ _ => 0, t)

/-- The table has a table in the field of each group. -/
def completed (groups : List Group) (t : Tables) : Tables :=
  assign Group.name (fun g => .table (t g.name).fields) groups t

theorem getsubtable_eq (t : Tables) (name : String) :
    getsubtable t name = ((t name).fields, Function.update t name (.table (t name).fields)) := by
  unfold getsubtable
  cases h : t name with
  | value v => rfl
  | table u =>
    dsimp only [Entry.fields]
    rw [← h, Function.update_eq_self]

/-- **What is read**, and what is left of the table. -/
theorem readGroups_eq {groups : List Group} (hnames : (groups.map Group.name).Nodup) (host : Host)
    (t : Tables) : readGroups host groups t =
      (assign Group.name (fun g => readAll host g.members (t g.name).fields) groups
        (fun _ _ => 0), completed groups t) := by
  have general : ∀ (groups : List Group), (groups.map Group.name).Nodup →
      ∀ (r : String → Record) (t' : Tables), (∀ g ∈ groups, t' g.name = t g.name) →
      groups.foldl (fun s g =>
        (Function.update s.1 g.name (readAll host g.members (getsubtable s.2 g.name).1),
          (getsubtable s.2 g.name).2)) (r, t') =
      (assign Group.name (fun g => readAll host g.members (t g.name).fields) groups r,
        assign Group.name (fun g => .table (t g.name).fields) groups t') := by
    intro groups
    induction groups with
    | nil => exact fun _ _ _ _ => rfl
    | cons g groups ih =>
      intro hnodup r t' ht'
      obtain ⟨hg, hnodup⟩ := List.nodup_cons.mp hnodup
      obtain ⟨hsame, ht'⟩ := List.forall_mem_cons.mp ht'
      have hsubtable := getsubtable_eq t' g.name
      rw [hsame] at hsubtable
      rw [List.foldl_cons]
      dsimp only
      rw [hsubtable]
      refine ih hnodup _ _ (fun g' hg' => ?_)
      have hne : g'.name ≠ g.name := by
        intro heq
        exact hg (heq ▸ List.mem_map_of_mem hg')
      exact (Function.update_of_ne hne ..).trans (ht' g' hg')
  exact general groups hnames _ t (fun _ _ => rfl)

/-- **Round trip of records in tables of their own**; the table stays as it is. -/
theorem readGroups_pushGroups {groups : List Group} (hnames : (groups.map Group.name).Nodup)
    (hmembers : ∀ g ∈ groups, (g.members.map Member.name).Nodup ∧ ∀ m ∈ g.members, m.kind.Fits)
    (host : Host) {r : String → Record}
    (hr : ∀ g ∈ groups, Represents g.members (r g.name))
    (hothers : ∀ n, n ∉ groups.map Group.name → r n = fun _ => 0) :
    readGroups host groups (pushGroups groups r) = (r, pushGroups groups r) := by
  have hfield : ∀ g ∈ groups, pushGroups groups r g.name = .table (push g.members (r g.name)) :=
    fun g hg => assign_of_mem hnames hg
  rw [readGroups_eq hnames]
  refine congrArg₂ Prod.mk ?_ ?_
  · refine assign_eq hnames (fun g hg => ?_) hothers
    obtain ⟨hdistinct, hfits⟩ := hmembers g hg
    rw [hfield g hg]
    exact (readAll_push hdistinct hfits host (hr g hg)).symm
  · refine assign_eq hnames (fun g hg => ?_) (fun _ _ => rfl)
    rw [hfield g hg]
    rfl

/-- The table in which one field of a group has another value. -/
def changed (t : Tables) (group name : String) (v : Value) : Tables :=
  Function.update t group (.table (Function.update (t group).fields name v))

/-- One changed field changes one member of one record. -/
theorem readGroups_changed {groups : List Group} (hnames : (groups.map Group.name).Nodup)
    (hmembers : ∀ g ∈ groups, (g.members.map Member.name).Nodup ∧ ∀ m ∈ g.members, m.kind.Fits)
    (host : Host) {r : String → Record}
    (hr : ∀ g ∈ groups, Represents g.members (r g.name))
    (hothers : ∀ n, n ∉ groups.map Group.name → r n = fun _ => 0) {g : Group} (hg : g ∈ groups)
    {m : Member} (hm : m ∈ g.members) (v : Value) :
    (readGroups host groups (changed (pushGroups groups r) g.name m.name v)).1 =
      Function.update r g.name (Function.update (r g.name) m.name (m.kind.read host v)) := by
  have hfield : ∀ g ∈ groups, pushGroups groups r g.name = .table (push g.members (r g.name)) :=
    fun g hg => assign_of_mem hnames hg
  have hread : ∀ g ∈ groups, readAll host g.members (push g.members (r g.name)) = r g.name := by
    intro g hg
    obtain ⟨hdistinct, hfits⟩ := hmembers g hg
    exact readAll_push hdistinct hfits host (hr g hg)
  rw [readGroups_eq hnames]
  refine assign_eq hnames (fun g' hg' => ?_) (fun n hn => ?_)
  · by_cases hname : g'.name = g.name
    · obtain rfl := List.inj_on_of_nodup_map hnames hg' hg hname
      rw [Function.update_self, changed, Function.update_self, hfield g' hg']
      show _ = readAll host g'.members (Function.update (push g'.members (r g'.name)) m.name v)
      rw [readAll_update (hmembers g' hg').1 host _ hm, hread g' hg']
    · rw [Function.update_of_ne hname, changed, Function.update_of_ne hname, hfield g' hg']
      exact (hread g' hg').symm
  · have hne : n ≠ g.name := by
      rintro rfl
      exact hn (List.mem_map_of_mem hg)
    rw [Function.update_of_ne hne, hothers n hn]

/-- What is in the table afterwards. -/
theorem completed_apply {groups : List Group} (hnames : (groups.map Group.name).Nodup)
    (t : Tables) (n : String) :
    completed groups t n = if n ∈ groups.map Group.name then .table (t n).fields else t n := by
  by_cases hn : n ∈ groups.map Group.name
  · obtain ⟨g, hg, rfl⟩ := List.mem_map.mp hn
    rw [if_pos hn]
    exact assign_of_mem hnames hg
  · rw [if_neg hn]
    exact assign_of_not_mem hn

end Records
end FluaLibs
