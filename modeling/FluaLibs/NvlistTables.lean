import FluaLibs.FixedWidth
import FluaLibs.LuaState
import FluaLibs.Metering
import Mathlib.Data.List.GetD
import Mathlib.Logic.Function.Basic

/-! # Tables from the lists of libnvpair

`push_nvlist` turns a list of named values into a table, and the lists in it into tables in the
table.  A byte array becomes a string; the other arrays become sequences.

The stack is observed (`Metered`): a list takes as many slots as `slots` says, two for each
level of nesting, and the code does not ask for them.
-/
namespace FluaLibs
namespace Libbe

abbrev Bytes : Type := List UInt8

/-! ## Lists -/

/-- The types of integers that are in arrays too. -/
inductive IntegerType where
  | int8 | uint8 | int16 | uint16 | int32 | uint32 | int64 | uint64
  deriving DecidableEq

def IntegerType.type : IntegerType → IntType
  | int8 => .int8
  | uint8 => .uint8
  | int16 => .int16
  | uint16 => .uint16
  | int32 => .int32
  | uint32 => .uint32
  | int64 => .int64
  | uint64 => .uint64

/-- An integer of a type, as its bits. -/
abbrev IntegerType.Bits (t : IntegerType) : Type := BitVec t.type.bits

/-- The `lua_Integer` of an integer. -/
def IntegerType.pushed (t : IntegerType) (v : t.Bits) : Int :=
  IntType.back (if t.type.isSigned then v.toInt else v.toNat)

mutual

/-- An `nvlist_t`, as its pairs in their order. -/
inductive Nvlist where
  | nil
  | pair (name : Bytes) (value : NvValue) (rest : Nvlist)

/-- The value of a pair; `unknown` is one of a type that is not converted. -/
inductive NvValue where
  | boolean
  | boolean_value (b : Bool)
  | byte (v : UInt8)
  | integer (t : IntegerType) (v : t.Bits)
  | hrtime (v : BitVec 64)
  | double (bits : UInt64)
  | string (s : Bytes)
  | boolean_array (bs : List Bool)
  | byte_array (bs : Bytes)
  | integer_array (t : IntegerType) (vs : List t.Bits)
  | string_array (ss : List Bytes)
  | nvlist (l : Nvlist)
  | nvlist_array (ls : Nvlists)
  | unknown

inductive Nvlists where
  | nil
  | cons (l : Nvlist) (ls : Nvlists)

end

/-! ## Tables -/

/-- The stack, and the tables. -/
structure State where
  stack : List Value
  tables : List (Value → Value)

def State.size (s : State) : Nat := s.stack.length

/-- A state, and the most slots that the stack has had. -/
abbrev Run : Type := Metered State

namespace Run
variable (m : Run)

/-- The value at an index from the top. -/
def index (n : Nat) : Option Value := m.state.stack[m.state.stack.length - n]?

def push (v : Value) : Run := m.reach State.size { m.state with stack := m.state.stack ++ [v] }

/-- `lua_newtable` -/
def newtable : Run :=
  m.reach State.size
    { stack := m.state.stack ++ [.table m.state.tables.length]
      tables := m.state.tables ++ [fun _ => .nil] }

/-- A number of values is taken from the stack, and one stored in a table. -/
def store (n : Nat) (t : Option Value) (k v : Option Value) : Run :=
  match t, k, v with
  | some (.table r), some k, some v =>
    m.reach State.size
      { stack := m.state.stack.take (m.state.stack.length - n)
        tables := m.state.tables.modify r (fun t => Function.update t k v) }
  | _, _, _ => m

/-- `lua_rawset(L, -3)` -/
def rawset : Run := m.store 2 (m.index 3) (m.index 2) (m.index 1)

/-- `lua_rawseti(L, -2, i)` -/
def rawseti (i : Int) : Run := m.store 1 (m.index 2) (some (.integer i)) (m.index 1)

end Run

/-! ## The code -/

/-- The loop over the elements of an array, from the one with the index `i` on. -/
def pushElements (m : Run) (i : Nat) : List Value → Run
  | [] => m
  | v :: vs => pushElements ((m.push v).rawseti (i + 1)) (i + 1) vs

mutual

/-- The loop over the pairs. -/
def pushPairs (m : Run) : Nvlist → Run
  | .nil => m
  | .pair name value rest => pushPairs (pushValue (m.push (.string name)) value).rawset rest

def pushValue (m : Run) : NvValue → Run
  | .boolean => m.push (.boolean true)
  | .boolean_value b => m.push (.boolean b)
  | .byte v => m.push (.integer v.toNat)
  | .integer t v => m.push (.integer (t.pushed v))
  | .hrtime v => m.push (.integer v.toInt)
  | .double bits => m.push (.number bits)
  | .string s => m.push (.string s)
  | .boolean_array bs => pushElements m.newtable 0 (bs.map .boolean)
  | .byte_array bs => m.push (.string bs)
  | .integer_array t vs => pushElements m.newtable 0 (vs.map (fun v => .integer (t.pushed v)))
  | .string_array ss => pushElements m.newtable 0 (ss.map .string)
  | .nvlist l => pushPairs m.newtable l
  | .nvlist_array ls => pushLists m.newtable 0 ls
  | .unknown => m.push .nil

/-- The loop over an array of lists. -/
def pushLists (m : Run) (i : Nat) : Nvlists → Run
  | .nil => m
  | .cons l ls => pushLists ((pushPairs m.newtable l).rawseti (i + 1)) (i + 1) ls

end

def push_nvlist (m : Run) (nvl : Nvlist) : Run := pushPairs m.newtable nvl

/-! ## What a list stands for -/

/-- A value, or a table and what is in it. -/
inductive Denotation where
  | value (v : Value)
  | table (entries : Value → Denotation)

def Denotation.nil : Denotation := .value .nil

/-- The entries of a sequence, which begins at 1. -/
def sequence (ds : List Denotation) : Value → Denotation
  | .integer i => if 0 < i then ds.getD (i - 1).toNat .nil else .nil
  | _ => .nil

/-- The list has a pair with this name. -/
def Nvlist.has : Nvlist → Value → Bool
  | .nil, _ => false
  | .pair name _ rest, k => rest.has k || k = .string name

section Meaning
variable (bytes : Bytes → Denotation)

mutual

/-- **The entries of a list**: under each name is its last value.  What a byte array stands for is a
parameter. -/
def Nvlist.entries : Nvlist → Value → Denotation
  | .nil, _ => .nil
  | .pair name value rest, k =>
    if rest.has k then rest.entries k else if k = .string name then value.meaning else .nil

def NvValue.meaning : NvValue → Denotation
  | .boolean => .value (.boolean true)
  | .boolean_value b => .value (.boolean b)
  | .byte v => .value (.integer v.toNat)
  | .integer t v => .value (.integer (t.pushed v))
  | .hrtime v => .value (.integer v.toInt)
  | .double bits => .value (.number bits)
  | .string s => .value (.string s)
  | .boolean_array bs => .table (sequence (bs.map (fun b => .value (.boolean b))))
  | .byte_array bs => bytes bs
  | .integer_array t vs => .table (sequence (vs.map (fun v => .value (.integer (t.pushed v)))))
  | .string_array ss => .table (sequence (ss.map (fun s => .value (.string s))))
  | .nvlist l => .table l.entries
  | .nvlist_array ls => .table (sequence ls.meanings)
  | .unknown => .nil

def Nvlists.meanings : Nvlists → List Denotation
  | .nil => []
  | .cons l ls => .table l.entries :: ls.meanings

end

def Nvlist.meaning (l : Nvlist) : Denotation := .table (l.entries bytes)

end Meaning

/-- A byte array as a string. -/
def asString (bs : Bytes) : Denotation := .value (.string bs)

/-- A byte array as a sequence. -/
def asSequence (bs : Bytes) : Denotation :=
  .table (sequence (bs.map (fun b => .value (.integer b.toNat))))

/-- **The value stands for this**, with tables from `lo` on and below `hi`. -/
inductive Represents (tables : List (Value → Value)) (lo hi : Nat) : Value → Denotation → Prop
  | value {v : Value} : v.isScalar → Represents tables lo hi v (.value v)
  | table {r : Nat} {t : Value → Value} {entries : Value → Denotation} :
      lo ≤ r → r < hi → tables[r]? = some t → (∀ k, Represents tables lo hi (t k) (entries k)) →
      Represents tables lo hi (.table r) (.table entries)

/-! ## Slots of the stack -/

/-- The slots of an array: the table, and an element at a time. -/
def arraySlots (n : Nat) : Nat := if n = 0 then 1 else 2

mutual

/-- The slots for the pairs of a list: a name at a time, with its value. -/
def Nvlist.slots : Nvlist → Nat
  | .nil => 0
  | .pair _ value rest => max (1 + value.slots) rest.slots

def NvValue.slots : NvValue → Nat
  | .boolean_array bs => arraySlots bs.length
  | .integer_array _ vs => arraySlots vs.length
  | .string_array ss => arraySlots ss.length
  | .nvlist l => 1 + l.slots
  | .nvlist_array ls => 1 + ls.slots
  | _ => 1

def Nvlists.slots : Nvlists → Nat
  | .nil => 0
  | .cons l ls => max (1 + l.slots) ls.slots

end

/-! ## Tables that are kept -/

section Represents
variable {tables tables' : List (Value → Value)} {lo lo' hi hi' : Nat} {v : Value} {d : Denotation}

/-- A value stands for the same as long as its tables are the same. -/
theorem Represents.frame (h : Represents tables lo hi v d)
    (hsame : ∀ i, lo ≤ i → i < hi → tables'[i]? = tables[i]?) (hlo : lo' ≤ lo) (hhi : hi ≤ hi') :
    Represents tables' lo' hi' v d := by
  induction h with
  | value hv => exact .value hv
  | table hr hlt hget _ ih =>
    exact .table (hlo.trans hr) (hlt.trans_le hhi) ((hsame _ hr hlt).trans hget) ih

theorem represents_nil : Represents tables lo hi .nil .nil := .value rfl

end Represents

/-- The table `r` has these entries, with tables behind it. -/
def Holds (tables : List (Value → Value)) (r : Nat) (entries : Value → Denotation) : Prop :=
  ∃ t, tables[r]? = some t ∧ ∀ k, Represents tables (r + 1) tables.length (t k) (entries k)

/-- A value has been pushed, with new tables. -/
structure Pushes (m m' : Run) (slots : Nat) (d : Denotation) : Prop where
  stack : ∃ w, m'.state.stack = m.state.stack ++ [w] ∧
    Represents m'.state.tables m.state.tables.length m'.state.tables.length w d
  tables : m.state.tables <+: m'.state.tables
  peak : m'.peak = max m.peak (m.state.size + slots)

/-- The table on top of the stack is being filled. -/
structure Run.Open (m : Run) (r : Nat) (entries : Value → Denotation) : Prop where
  top : ∃ below, m.state.stack = below ++ [.table r]
  fits : m.state.size ≤ m.peak
  holds : Holds m.state.tables r entries

/-- The table on top of the stack has been filled; the stack is the same, and so are the tables
before it. -/
structure Filled (m m' : Run) (r slots : Nat) (entries : Value → Denotation) : Prop where
  stack : m'.state.stack = m.state.stack
  below : ∀ i < r, m'.state.tables[i]? = m.state.tables[i]?
  holds : Holds m'.state.tables r entries
  peak : m'.peak = max m.peak (m.state.size + slots)

section Steps
variable {m m' m'' : Run} {r n n' : Nat} {v : Value} {d : Denotation}
  {entries entries' : Value → Denotation}

theorem push_peak (m : Run) (v : Value) :
    (m.push v).peak = max m.peak (m.state.size + 1) ∧
      (m.push v).state.size = m.state.size + 1 := by
  have hsize : (m.push v).state.size = m.state.size + 1 := by
    show (m.state.stack ++ [v]).length = _
    rw [List.length_append]
    rfl
  exact ⟨congrArg (max m.peak) hsize, hsize⟩

theorem push_pushes (m : Run) (hv : v.isScalar) : Pushes m (m.push v) 1 (.value v) where
  stack := ⟨v, rfl, .value hv⟩
  tables := List.prefix_refl _
  peak := (push_peak m v).1

theorem newtable_open (m : Run) :
    m.newtable.Open m.state.tables.length (fun _ => .nil) where
  top := ⟨m.state.stack, rfl⟩
  fits := le_max_right _ _
  holds := ⟨fun _ => .nil, List.getElem?_concat_length, fun _ => represents_nil⟩

namespace Filled

theorem isOpen (h : Filled m m' r n entries') (hm : m.Open r entries) : m'.Open r entries' where
  top := by
    rw [h.stack]
    exact hm.top
  fits := by
    have hfits := hm.fits
    have hsize : m'.state.size = m.state.size := congrArg List.length h.stack
    rw [h.peak, hsize]
    omega
  holds := h.holds

/-- Nothing has been done. -/
theorem refl (hm : m.Open r entries) : Filled m m r 0 entries where
  stack := rfl
  below _ _ := rfl
  holds := hm.holds
  peak := (max_eq_left hm.fits).symm

theorem trans (h : Filled m m' r n entries) (h' : Filled m' m'' r n' entries') :
    Filled m m'' r (max n n') entries' where
  stack := h'.stack.trans h.stack
  below i hi := (h'.below i hi).trans (h.below i hi)
  holds := h'.holds
  peak := by
    have hsize : m'.state.size = m.state.size := congrArg List.length h.stack
    rw [h'.peak, h.peak, hsize]
    omega

/-- **A new table that has been filled** has been pushed. -/
theorem pushes (h : Filled m.newtable m' m.state.tables.length n entries) :
    Pushes m m' (1 + n) (.table entries) where
  stack := by
    obtain ⟨t, hget, hentries⟩ := h.holds
    refine ⟨_, h.stack, .table (Nat.le_refl _) ?_ hget (fun k => ?_)⟩
    · exact (List.getElem?_eq_some_iff.mp hget).1
    · exact (hentries k).frame (fun _ _ _ => rfl) (Nat.le_succ _) (Nat.le_refl _)
  tables := by
    rw [List.prefix_iff_getElem?]
    intro i hi
    rw [h.below i hi]
    show (m.state.tables ++ [fun _ => .nil])[i]? = _
    rw [List.getElem?_append_left hi, List.getElem?_eq_getElem hi]
  peak := by
    have hpeak : m.newtable.peak = max m.peak (m.state.size + 1) := by
      show max m.peak (m.state.stack ++ [Value.table m.state.tables.length]).length = _
      rw [List.length_append]
      rfl
    have hsize : m.newtable.state.size = m.state.size + 1 := by
      show (m.state.stack ++ [Value.table m.state.tables.length]).length = _
      rw [List.length_append]
      rfl
    rw [h.peak, hpeak, hsize]
    omega

end Filled

/-- **A value is stored** in the table: the entry is the new value, and the others stay. -/
theorem holds_store {tables tables' : List (Value → Value)} {w k : Value}
    (h : Holds tables r entries) (htables : tables <+: tables')
    (hw : Represents tables' tables.length tables'.length w d) :
    Holds (tables'.modify r (fun t => Function.update t k w)) r
      (Function.update entries k d) := by
  obtain ⟨t, hget, hentries⟩ := h
  obtain ⟨hr, rfl⟩ := List.getElem?_eq_some_iff.mp hget
  have hget' : tables'[r]? = some tables[r] := by
    rw [List.prefix_iff_getElem?.mp htables r hr]
  have hle := htables.length_le
  refine ⟨Function.update tables[r] k w, ?_, fun j => ?_⟩
  · rw [List.getElem?_modify_eq, hget']
    rfl
  · have hsame (i : Nat) (hi : r < i) :
        (tables'.modify r (fun t => Function.update t k w))[i]? = tables'[i]? :=
      List.getElem?_modify_ne _ _ (Nat.ne_of_lt hi)
    rw [List.length_modify]
    by_cases hj : j = k
    · subst hj
      rw [Function.update_self, Function.update_self]
      exact hw.frame (fun i hi _ => hsame i (hr.trans_le hi)) hr (Nat.le_refl _)
    · rw [Function.update_of_ne hj, Function.update_of_ne hj]
      refine (hentries j).frame (fun i hi hlt => ?_) (Nat.le_refl _) hle
      rw [hsame i hi, List.prefix_iff_getElem?.mp htables i hlt, List.getElem?_eq_getElem hlt]

/-- The value that has others on it. -/
theorem index_eq {below above : List Value} (hstack : m.state.stack = below ++ v :: above)
    (hn : n = above.length + 1) : m.index n = some v := by
  have hpos : (below ++ v :: above).length - n = below.length := by
    rw [List.length_append, List.length_cons]
    omega
  rw [Run.index, hstack, hpos, List.getElem?_append_right (Nat.le_refl _), Nat.sub_self]
  rfl

/-- What is stored is taken from the stack. -/
theorem store_filled (above : List Value) {k w : Value} (hm : m.Open r entries)
    (htables : m.state.tables <+: m'.state.tables)
    (hw : Represents m'.state.tables m.state.tables.length m'.state.tables.length w d)
    (hstack : m'.state.stack = m.state.stack ++ above) (hn : above.length = n)
    (hpeak : m'.peak = max m.peak (m.state.size + n')) :
    Filled m (m'.store n (some (.table r)) (some k) (some w)) r n'
      (Function.update entries k d) where
  stack := by
    show m'.state.stack.take (m'.state.stack.length - n) = _
    rw [hstack, List.length_append, hn, Nat.add_sub_cancel, List.take_left]
  below i hi := by
    obtain ⟨t, hget, -⟩ := hm.holds
    have hlt : i < m.state.tables.length := hi.trans (List.getElem?_eq_some_iff.mp hget).1
    show (m'.state.tables.modify r _)[i]? = _
    rw [List.getElem?_modify_ne _ _ (Nat.ne_of_gt hi), List.prefix_iff_getElem?.mp htables i hlt,
      List.getElem?_eq_getElem hlt]
  holds := holds_store hm.holds htables hw
  peak := by
    have hfits := hm.fits
    show max m'.peak (m'.state.stack.take (m'.state.stack.length - n)).length = _
    rw [hstack, List.length_append, hn, Nat.add_sub_cancel, List.take_left, hpeak]
    rw [State.size] at hfits ⊢
    omega

/-- **A name and a value** are stored. -/
theorem rawset_filled {k : Value} (hm : m.Open r entries) (hp : Pushes (m.push k) m' n d) :
    Filled m m'.rawset r (1 + n) (Function.update entries k d) := by
  obtain ⟨w, hstack, hw⟩ := hp.stack
  obtain ⟨below, htop⟩ := hm.top
  have hstack' : m'.state.stack = m.state.stack ++ [k] ++ [w] := hstack
  have hvalues : m'.state.stack = below ++ .table r :: [k, w] := by
    rw [hstack', htop]
    simp
  have hkey : m'.state.stack = (below ++ [.table r]) ++ k :: [w] := by
    rw [hvalues]
    simp
  have hvalue : m'.state.stack = (below ++ [.table r, k]) ++ w :: [] := by
    rw [hvalues]
    simp
  have htable : m'.index 3 = some (.table r) := index_eq hvalues rfl
  have hname : m'.index 2 = some k := index_eq hkey rfl
  have hnew : m'.index 1 = some w := index_eq hvalue rfl
  rw [Run.rawset, htable, hname, hnew]
  refine store_filled [k, w] hm hp.tables hw ?_ rfl ?_
  · rw [hstack', List.append_assoc]
    rfl
  · have hpush := (push_peak m k).1
    rw [hp.peak, hpush, (push_peak m k).2]
    omega

/-- **A value** is stored at an index. -/
theorem rawseti_filled (i : Int) (hm : m.Open r entries) (hp : Pushes m m' n d) :
    Filled m (m'.rawseti i) r n (Function.update entries (.integer i) d) := by
  obtain ⟨w, hstack, hw⟩ := hp.stack
  obtain ⟨below, htop⟩ := hm.top
  have hvalues : m'.state.stack = below ++ .table r :: [w] := by
    rw [hstack, htop]
    simp
  have hvalue : m'.state.stack = (below ++ [.table r]) ++ w :: [] := by
    rw [hvalues]
    simp
  have htable : m'.index 2 = some (.table r) := index_eq hvalues rfl
  have hnew : m'.index 1 = some w := index_eq hvalue rfl
  rw [Run.rawseti, htable, hnew]
  exact store_filled [w] hm hp.tables hw hstack rfl hp.peak

end Steps

/-! ## Arrays -/

/-- Entries that begin with the index after `i`, over others. -/
def sequenceFrom (i : Nat) (ds : List Denotation) (entries : Value → Denotation) :
    Value → Denotation
  | .integer j => if i < j ∧ j ≤ i + ds.length then ds.getD (j - i - 1).toNat .nil
      else entries (.integer j)
  | k => entries k

section Arrays
variable {m m' : Run} {r n : Nat} {entries : Value → Denotation} {d : Denotation}
  {ds : List Denotation} {i : Nat}

theorem sequenceFrom_nil : sequenceFrom i [] entries = entries := by
  funext k
  cases k with
  | integer j =>
    refine if_neg ?_
    rintro ⟨hlt, hle⟩
    simp only [List.length_nil] at hle
    omega
  | _ => rfl

/-- The first is at the index after `i`. -/
theorem sequenceFrom_cons :
    sequenceFrom (i + 1) ds (Function.update entries (.integer (i + 1)) d) =
      sequenceFrom i (d :: ds) entries := by
  funext k
  cases k with
  | integer j =>
    rw [sequenceFrom, sequenceFrom, List.length_cons]
    rcases Int.lt_trichotomy j (i + 1) with hlt | heq | hgt
    · have hne : Value.integer j ≠ .integer (i + 1) := fun h => by
        have hj := Value.integer.inj h
        omega
      rw [if_neg (by omega), if_neg (by omega), Function.update_of_ne hne]
    · have hzero : (j - i - 1).toNat = 0 := by omega
      rw [if_neg (by omega), if_pos (by omega), heq, Function.update_self]
      have hsame : ((i : Int) + 1 - i - 1).toNat = 0 := by omega
      rw [hsame]
      rfl
    · have hsucc : (j - i - 1).toNat = (j - (i + 1 : Nat) - 1).toNat + 1 := by omega
      have hne : Value.integer j ≠ .integer (i + 1) := fun h => by
        have hj := Value.integer.inj h
        omega
      rw [hsucc, List.getD_cons_succ, Function.update_of_ne hne]
      by_cases hle : j ≤ i + 1 + ds.length
      · rw [if_pos (by omega), if_pos (by omega)]
      · rw [if_neg (by omega), if_neg (by omega)]
  | _ => simp [sequenceFrom]

theorem sequenceFrom_zero : sequenceFrom 0 ds (fun _ => .nil) = sequence ds := by
  funext k
  cases k with
  | integer j =>
    rw [sequenceFrom, sequence]
    by_cases hj : 0 < j
    · rw [if_pos hj]
      by_cases hle : j ≤ ds.length
      · rw [if_pos (by omega)]
        simp
      · rw [if_neg (by omega), List.getD_eq_default _ _ (by omega)]
    · rw [if_neg (by omega), if_neg hj]
  | _ => rfl

/-- **The elements of an array** are stored one after the other. -/
theorem pushElements_filled {vs : List Value} (hvs : ∀ v ∈ vs, v.isScalar)
    (hm : m.Open r entries) :
    Filled m (pushElements m i vs) r (if vs.length = 0 then 0 else 1)
      (sequenceFrom i (vs.map .value) entries) := by
  induction vs generalizing m i entries with
  | nil =>
    rw [pushElements, List.map_nil, sequenceFrom_nil]
    exact .refl hm
  | cons v vs ih =>
    obtain ⟨hv, hvs⟩ := List.forall_mem_cons.mp hvs
    have hfirst := rawseti_filled (i + 1 : Nat) hm (push_pushes m hv)
    have hrest := ih (i := i + 1) hvs (hfirst.isOpen hm)
    have hall := hfirst.trans hrest
    rw [Nat.cast_add, Nat.cast_one, sequenceFrom_cons] at hall
    have hslots : max 1 (if vs.length = 0 then 0 else 1) = 1 := by
      split <;> rfl
    rw [hslots] at hall
    exact hall

theorem pushArray_pushes (m : Run) (vs : List Value) (hvs : ∀ v ∈ vs, v.isScalar) :
    Pushes m (pushElements m.newtable 0 vs) (arraySlots vs.length)
      (.table (sequence (vs.map .value))) := by
  have hfilled := pushElements_filled (i := 0) hvs (newtable_open m)
  rw [sequenceFrom_zero] at hfilled
  have hslots : arraySlots vs.length = 1 + (if vs.length = 0 then 0 else 1) := by
    rw [arraySlots]
    split <;> rfl
  rw [hslots]
  exact hfilled.pushes

end Arrays

/-! ## Lists -/

/-- The entries of a list over others. -/
def Nvlist.over (l : Nvlist) (entries : Value → Denotation) (k : Value) : Denotation :=
  if l.has k then l.entries asString k else entries k

section Lists
variable {entries : Value → Denotation}

theorem over_nil : Nvlist.nil.over entries = entries := by
  funext k
  exact if_neg (fun h => by cases h)

/-- A later pair of the name comes first. -/
theorem over_pair {name : Bytes} {value : NvValue} {rest : Nvlist} :
    rest.over (Function.update entries (.string name) (value.meaning asString)) =
      (Nvlist.pair name value rest).over entries := by
  funext k
  rw [Nvlist.over, Nvlist.over, Nvlist.has, Nvlist.entries]
  cases hrest : rest.has k with
  | true => rfl
  | false =>
    by_cases hk : k = .string name
    · subst hk
      simp
    · simp [hk]

theorem over_empty {l : Nvlist} : l.over (fun _ => .nil) = l.entries asString := by
  funext k
  cases l with
  | nil => exact if_neg (fun h => by cases h)
  | pair name value rest =>
    rw [← over_pair, Nvlist.over, Nvlist.entries]
    by_cases hk : k = .string name
    · subst hk
      simp
    · simp [hk]

mutual

/-- **The pairs of a list** are stored one after the other. -/
theorem pushPairs_filled (l : Nvlist) {m : Run} {r : Nat} {entries : Value → Denotation}
    (hm : m.Open r entries) : Filled m (pushPairs m l) r l.slots (l.over entries) := by
  cases l with
  | nil =>
    rw [pushPairs, over_nil]
    exact .refl hm
  | pair name value rest =>
    have hvalue := pushValue_pushes value (m.push (.string name))
    have hfirst := rawset_filled hm hvalue
    have hrest := pushPairs_filled rest (hfirst.isOpen hm)
    rw [over_pair] at hrest
    exact hfirst.trans hrest

/-- **A value is pushed**, in each of its types. -/
theorem pushValue_pushes (v : NvValue) (m : Run) :
    Pushes m (pushValue m v) v.slots (v.meaning asString) := by
  cases v with
  | boolean_array bs =>
    have harray := pushArray_pushes m (bs.map .boolean)
      (List.forall_mem_map.mpr (fun _ _ => rfl))
    rw [List.map_map, List.length_map] at harray
    exact harray
  | integer_array t vs =>
    have harray := pushArray_pushes m (vs.map (fun v => .integer (t.pushed v)))
      (List.forall_mem_map.mpr (fun _ _ => rfl))
    rw [List.map_map, List.length_map] at harray
    exact harray
  | string_array ss =>
    have harray := pushArray_pushes m (ss.map .string)
      (List.forall_mem_map.mpr (fun _ _ => rfl))
    rw [List.map_map, List.length_map] at harray
    exact harray
  | nvlist l =>
    have hpairs := pushPairs_filled l (newtable_open m)
    rw [over_empty] at hpairs
    exact hpairs.pushes
  | nvlist_array ls =>
    have hlists := pushLists_filled ls (i := 0) (newtable_open m)
    rw [sequenceFrom_zero] at hlists
    exact hlists.pushes
  | _ => exact push_pushes m rfl

/-- **The lists of an array** are stored one after the other. -/
theorem pushLists_filled (ls : Nvlists) {m : Run} {r i : Nat} {entries : Value → Denotation}
    (hm : m.Open r entries) :
    Filled m (pushLists m i ls) r ls.slots
      (sequenceFrom i (ls.meanings asString) entries) := by
  cases ls with
  | nil =>
    rw [pushLists, Nvlists.meanings, sequenceFrom_nil]
    exact .refl hm
  | cons l ls =>
    have hpairs := pushPairs_filled l (newtable_open m)
    rw [over_empty] at hpairs
    have hfirst := rawseti_filled (i + 1 : Nat) hm hpairs.pushes
    have hrest := pushLists_filled ls (i := i + 1) (hfirst.isOpen hm)
    have hall := hfirst.trans hrest
    rw [Nat.cast_add, Nat.cast_one, sequenceFrom_cons] at hall
    exact hall

end

end Lists

/-! ## The last pair of a name -/

/-- The pairs of a list. -/
def Nvlist.pairs : Nvlist → List (Bytes × NvValue)
  | .nil => []
  | .pair name value rest => (name, value) :: rest.pairs

theorem has_iff (l : Nvlist) (name : Bytes) :
    l.has (.string name) = true ↔ ∃ p ∈ l.pairs, p.1 = name := by
  cases l with
  | nil =>
    refine iff_of_false (fun h => by cases h) ?_
    rintro ⟨p, hp, -⟩
    cases hp
  | pair name' value rest =>
    have ih := has_iff rest name
    rw [Nvlist.has, Bool.or_eq_true, ih, decide_eq_true_eq, Value.string.injEq, Nvlist.pairs]
    constructor
    · rintro (⟨p, hp, hname⟩ | rfl)
      · exact ⟨p, List.mem_cons_of_mem _ hp, hname⟩
      · exact ⟨_, List.mem_cons_self .., rfl⟩
    · rintro ⟨p, hp, hname⟩
      rcases List.mem_cons.mp hp with rfl | hp
      · exact Or.inr hname.symm
      · exact Or.inl ⟨p, hp, hname⟩

/-- **Under a name is the value of its last pair.** -/
theorem entries_last (bytes : Bytes → Denotation) (l : Nvlist) {name : Bytes} {value : NvValue}
    {before behind : List (Bytes × NvValue)} (hpairs : l.pairs = before ++ (name, value) :: behind)
    (hlast : ∀ p ∈ behind, p.1 ≠ name) :
    l.entries bytes (.string name) = value.meaning bytes := by
  cases l with
  | nil =>
    rw [Nvlist.pairs] at hpairs
    exact absurd hpairs.symm (List.append_ne_nil_of_right_ne_nil _ (List.cons_ne_nil _ _))
  | pair name' value' rest =>
    rw [Nvlist.pairs] at hpairs
    rw [Nvlist.entries]
    cases before with
    | nil =>
      cases hpairs
      have hrest : ¬ rest.has (.string name) = true := by
        rw [has_iff]
        rintro ⟨p, hp, hname⟩
        exact hlast p hp hname
      rw [if_neg hrest, if_pos rfl]
    | cons first before =>
      obtain ⟨-, hpairs⟩ := List.cons.inj hpairs
      have hrest : rest.has (.string name) = true := by
        rw [has_iff, hpairs]
        exact ⟨_, List.mem_append_right _ (List.mem_cons_self ..), rfl⟩
      rw [if_pos hrest]
      exact entries_last bytes rest hpairs hlast

/-! ## What is pushed -/

/-- **A list is pushed as one table**, with what the list stands for in it; byte arrays are strings.
The rest of the stack and the other tables stay as they are. -/
theorem push_nvlist_pushes (m : Run) (nvl : Nvlist) :
    Pushes m (push_nvlist m nvl) (1 + nvl.slots) (nvl.meaning asString) := by
  have hpairs := pushPairs_filled nvl (newtable_open m)
  rw [over_empty] at hpairs
  exact hpairs.pushes

/-- A list with a byte array. -/
def byteList : Nvlist := .pair [97] (.byte_array [1]) .nil

/-- A byte array is not a sequence. -/
theorem byteList_not_pushes :
    ¬ ∃ slots, Pushes (.start State.size ⟨[], []⟩)
      (push_nvlist (.start State.size ⟨[], []⟩) byteList) slots (byteList.meaning asSequence) := by
  rintro ⟨slots, h⟩
  obtain ⟨w, hstack, hw⟩ := h.stack
  have hw' : w = .table 0 := (List.cons.inj hstack).1.symm
  subst hw'
  cases hw with
  | table _ _ hget hentries =>
    cases hget
    have hentry := hentries (.string [97])
    cases hentry

end Libbe
end FluaLibs
