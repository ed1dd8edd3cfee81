import FluaLibs.ByteStores
import FluaLibs.LuaArguments

/-! # IPv6 options

The options of a hop-by-hop or a destination header follow its first two bytes: each is a type,
the length of its value and the value, and padding stands in between so that values are
aligned and the header is a multiple of eight bytes.  `inet6_opts_ext` makes a header from a
list of options in two passes, one for the size and one that writes, and `inet6_ext_opts` makes
the list from a header.

`Opt` is the C library that does the layout, and `Opt.Documented` what it is documented to do,
but for how much it pads: that is a parameter.  A header and the list that it came from are
related by `body`, the bytes of the options with their padding.
-/
namespace FluaLibs
namespace HeaderOptions
open LuaArguments
variable {R : Runtime}

abbrev Bytes : Type := List UInt8

/-! ## The C library -/

/-- What `inet6_opt_next` stores through its pointers, and the offset that it returns. -/
structure Next where
  offset : Nat
  type : UInt8
  len : Nat
  databuf : Nat

/-- The functions of the library.  A buffer is given by its size, and `none` is `NULL`; a result
is an offset with what has been stored in the buffer, and `none` is −1. -/
structure Opt where
  inet6_opt_init : Option Nat → Option (Nat × List ByteStore)
  inet6_opt_append : Option Nat → Nat → UInt8 → Nat → UInt8 →
    Option (Nat × List ByteStore × Nat)
  inet6_opt_finish : Option Nat → Nat → Option (Nat × List ByteStore)
  inet6_opt_set_val : Nat → Bytes → Nat → Option (Nat × List ByteStore)
  inet6_opt_next : ByteMemory → Nat → Nat → Option Next

/-- The padding of some length: `Pad1`, or `PadN` with zeros. -/
def padding : Nat → Bytes
  | 0 => []
  | 1 => [0]
  | n + 2 => 1 :: UInt8.ofNat n :: List.replicate n 0

/-- The options that there can be: 0 and 1 are the types of padding. -/
def ValidOption (type : UInt8) (len : Nat) (align : UInt8) : Prop :=
  2 ≤ type ∧ len ≤ 255 ∧ align ∈ [1, 2, 4, 8] ∧ align.toNat ≤ len

instance (type : UInt8) (len : Nat) (align : UInt8) : Decidable (ValidOption type len align) :=
  inferInstanceAs (Decidable (_ ∧ _))

/-- The next multiple of eight. -/
def roundUp (n : Nat) : Nat := (n + 7) / 8 * 8

/-- `INT_MAX`, the largest offset. -/
def INT_MAX : Nat := 2 ^ 31 - 1

/-- What the functions are documented to do.  `pad` says how much stands before an option, by
the offset, the length of its value and the alignment. -/
structure Opt.Documented (lib : Opt) (pad : Nat → Nat → UInt8 → Nat) : Prop where
  pad_lt (offset len : Nat) (align : UInt8) : pad offset len align < 8
  init_size : lib.inet6_opt_init none = some (2, [])
  init (extlen : Nat) : 0 < extlen → extlen % 8 = 0 →
    lib.inet6_opt_init (some extlen) = some (2, [⟨1, [UInt8.ofNat (extlen / 8 - 1)]⟩])
  append_invalid (buf : Option Nat) (offset len : Nat) (type align : UInt8) :
    ¬ ValidOption type len align → lib.inet6_opt_append buf offset type len align = none
  append_size (offset len : Nat) (type align : UInt8) : ValidOption type len align →
    offset + pad offset len align + 2 + len ≤ INT_MAX →
    lib.inet6_opt_append none offset type len align =
      some (offset + pad offset len align + 2 + len, [], 0)
  append (extlen offset len : Nat) (type align : UInt8) : ValidOption type len align →
    offset + pad offset len align + 2 + len ≤ extlen →
    lib.inet6_opt_append (some extlen) offset type len align =
      some (offset + pad offset len align + 2 + len,
        [⟨offset, padding (pad offset len align) ++ [type, UInt8.ofNat len]⟩],
        offset + pad offset len align + 2)
  finish_size (offset : Nat) : roundUp offset ≤ INT_MAX →
    lib.inet6_opt_finish none offset = some (roundUp offset, [])
  finish (extlen offset : Nat) : roundUp offset ≤ extlen →
    lib.inet6_opt_finish (some extlen) offset =
      some (roundUp offset, [⟨offset, padding (roundUp offset - offset)⟩])
  set_val (databuf : Nat) (val : Bytes) (vallen : Nat) :
    lib.inet6_opt_set_val databuf val vallen = some (vallen, [⟨databuf, val.take vallen⟩])
  next (m : ByteMemory) (extlen offset start n : Nat) (type len : UInt8) (value behind : Bytes) :
    extlen % 8 = 0 → start = (if offset = 0 then 2 else offset) → start ≤ extlen → n < 8 →
    2 ≤ type → value.length = len.toNat →
    m.load start (extlen - start) = padding n ++ type :: len :: value ++ behind →
    lib.inet6_opt_next m extlen offset =
      some ⟨start + n + 2 + len.toNat, type, len.toNat, start + n + 2⟩
  next_end (m : ByteMemory) (extlen offset start n : Nat) :
    extlen % 8 = 0 → start = (if offset = 0 then 2 else offset) → start ≤ extlen → n < 8 →
    m.load start (extlen - start) = padding n → lib.inet6_opt_next m extlen offset = none

/-! ## The code -/

/-- What is outside the module: the library, what tables answer, in the first pass and when they
are read again, whether there is memory and what is in it, and what is behind the strings. -/
structure Env where
  host : Host
  lib : Opt
  len : Nat → Except Raised Int
  geti : Bool → Nat → Nat → Except Raised Value
  getfield : Bool → Nat → String → Except Raised Value
  malloc : Nat → Bool
  fresh : ByteMemory
  behind : ByteMemory

/-- How a call ends; an assertion that fails aborts. -/
inductive Outcome where
  | raised (e : Raised)
  | aborted
  | string (s : Bytes)
  | options (os : List (UInt8 × Bytes))
  deriving DecidableEq

def badOpts : Raised := .argerror 1 "invalid opts"

/-- What the conversion to `uint8_t` leaves. -/
def uint8 (i : Int) : UInt8 := UInt8.ofNat (i % 256).toNat

/-- What the conversion of a `size_t` to `socklen_t` leaves. -/
def socklen (n : Nat) : Nat := n % 2 ^ 32

/-- A field that has to be an integer, as a `uint8_t`. -/
def checkfield (env : Env) (r : Nat) (name : String) : Except Raised UInt8 := do
  match ← env.getfield false r name with
  | .integer i => .ok (uint8 i)
  | _ => .error badOpts

/-- One option in the first pass: the offset behind it. -/
def sizeOption (env : Env) (table i offset : Nat) : Except Raised Nat := do
  match ← env.geti false table i with
  | .table r => do
    let type ← checkfield env r "type"
    let align ← checkfield env r "align"
    match ← env.getfield false r "value" with
    | .string value =>
      match env.lib.inet6_opt_append none offset type (socklen value.length) align with
      | some (offset, _, _) => .ok offset
      | none => .error badOpts
    | _ => .error badOpts
  | _ => .error badOpts

/-- The first loop, for a number of elements from the index `i` on. -/
def sizeOptions (env : Env) (table : Nat) : Nat → Nat → Nat → Except Raised Nat
  | 0, _, offset => .ok offset
  | n + 1, i, offset => do
    let offset ← sizeOption env table i offset
    sizeOptions env table n (i + 1) offset

/-- `lua_tointeger`, of what is there when the table is read again. -/
def fieldAgain (env : Env) (r : Nat) (name : String) : Except Raised UInt8 := do
  let v ← env.getfield true r name
  .ok (uint8 ((LuaNumbers.tointegerx env.host.cvt v).getD 0))

/-- One option in the second pass; `none` is an assertion that fails. -/
def writeOption (env : Env) (table extlen i offset : Nat) (m : ByteMemory) :
    Except Raised (Option (Nat × ByteMemory)) := do
  match ← env.geti true table i with
  | .table r => do
    let type ← fieldAgain env r "type"
    let align ← fieldAgain env r "align"
    let value := (tolstring env.host (← env.getfield true r "value")).getD []
    let len := socklen value.length
    match env.lib.inet6_opt_append (some extlen) offset type len align with
    | none => .ok none
    | some (offset, stores, databuf) =>
      match env.lib.inet6_opt_set_val databuf value len with
      | none => .ok none
      | some (_, stores') => .ok (some (offset, ByteStore.run m (stores ++ stores')))
  | v => .error (.metamethod v)

/-- The second loop. -/
def writeOptions (env : Env) (table extlen : Nat) :
    Nat → Nat → Nat → ByteMemory → Except Raised (Option (Nat × ByteMemory))
  | 0, _, offset, m => .ok (some (offset, m))
  | n + 1, i, offset, m => do
    match ← writeOption env table extlen i offset m with
    | none => .ok none
    | some (offset, m) => writeOptions env table extlen n (i + 1) offset m

/-- The second pass, for a header of a known size. -/
def writeHeader (env : Env) (table n extlen : Nat) : Outcome :=
  match env.lib.inet6_opt_init (some extlen) with
  | none => .aborted
  | some (offset, stores) =>
    match writeOptions env table extlen n 1 offset (ByteStore.run env.fresh stores) with
    | .error e => .raised e
    | .ok none => .aborted
    | .ok (some (offset, m)) =>
      match env.lib.inet6_opt_finish (some extlen) offset with
      | none => .aborted
      | some (offset, stores) =>
        if offset = extlen then .string ((ByteStore.run m stores).load 0 extlen) else .aborted

def l_inet6_opts_ext (env : Env) (L : LuaState R) : Outcome :=
  match L.index 1 with
  | some (.table table) =>
    match env.len table with
    | .error e => .raised e
    | .ok n =>
      match env.lib.inet6_opt_init none with
      | none => .aborted
      | some (offset, _) =>
        match sizeOptions env table n.toNat 1 offset with
        | .error e => .raised e
        | .ok offset =>
          match env.lib.inet6_opt_finish none offset with
          | none => .aborted
          | some (extlen, _) =>
            if env.malloc extlen then writeHeader env table n.toNat extlen
            else .raised (.fatal "malloc" ENOMEM)
  | _ => .raised (.typeerror 1 "table")

/-- The memory from the start of a string on: the string, a NUL, and what is behind. -/
def stringMemory (env : Env) (s : Bytes) : ByteMemory := fun i =>
  if i < s.length then s.getD i 0 else if i = s.length then 0 else env.behind i

/-- The loop of `l_inet6_ext_opts`, for some number of rounds at most; `none` when it goes on
after them. -/
def nextOptions (lib : Opt) (m : ByteMemory) (extlen : Nat) :
    Nat → Nat → Option (List (UInt8 × Bytes))
  | 0, _ => none
  | fuel + 1, offset =>
    match lib.inet6_opt_next m extlen offset with
    | none => some []
    | some n =>
      (nextOptions lib m extlen fuel n.offset).map ((n.type, m.load n.databuf n.len) :: ·)

def l_inet6_ext_opts (env : Env) (fuel : Nat) (L : LuaState R) : Option Outcome :=
  match checklstring env.host 1 (L.index 1) with
  | .error e => some (.raised e)
  | .ok ext =>
    (nextOptions env.lib (stringMemory env ext) (socklen ext.length) fuel 0).map .options

/-! ## Options and their bytes -/

/-- An element of the list, as the table has it. -/
structure Item where
  type : Int
  align : Int
  value : Bytes

namespace Item
variable (o : Item)

def len : Nat := socklen o.value.length

/-- What is copied of the value. -/
def data : Bytes := o.value.take o.len

def Valid : Prop := ValidOption (uint8 o.type) o.len (uint8 o.align)

instance : Decidable o.Valid := inferInstanceAs (Decidable (ValidOption _ _ _))

/-- What the decoder gives for it. -/
def option : UInt8 × Bytes := (uint8 o.type, o.data)

theorem data_length : o.data.length = o.len := by
  rw [data, List.length_take]
  exact Nat.min_eq_left (Nat.mod_le _ _)

/-- An option behind some padding. -/
def bytes (n : Nat) : Bytes := padding n ++ uint8 o.type :: UInt8.ofNat o.len :: o.data

end Item

theorem padding_length (n : Nat) : (padding n).length = n := by
  rcases n with _ | _ | n
  · rfl
  · rfl
  · simp [padding]

theorem Item.bytes_length (o : Item) (n : Nat) : (o.bytes n).length = n + 2 + o.len := by
  simp only [bytes, List.length_append, padding_length, List.length_cons, data_length]
  omega

section Layout
variable (pad : Nat → Nat → UInt8 → Nat)

/-- How much stands before an option. -/
def Item.padding (o : Item) (offset : Nat) : Nat := pad offset o.len (uint8 o.align)

/-- The offset behind an option. -/
def Item.behind (o : Item) (offset : Nat) : Nat := offset + o.padding pad offset + 2 + o.len

/-- The options, from an offset on. -/
def encode (offset : Nat) : List Item → Bytes
  | [] => []
  | o :: os => o.bytes (o.padding pad offset) ++ encode (o.behind pad offset) os

/-- The offset behind them. -/
def endsAt (offset : Nat) : List Item → Nat
  | [] => offset
  | o :: os => endsAt (o.behind pad offset) os

/-- The bytes of a header, from an offset on: options, and padding to a multiple of eight. -/
def body (offset : Nat) (os : List Item) : Bytes :=
  encode pad offset os ++ padding (roundUp (endsAt pad offset os) - endsAt pad offset os)

/-- The size of a header. -/
def headerLength (os : List Item) : Nat := roundUp (endsAt pad 2 os)

end Layout

theorem le_roundUp (n : Nat) : n ≤ roundUp n := by
  rw [roundUp]
  omega

theorem roundUp_mod (n : Nat) : roundUp n % 8 = 0 := Nat.mul_mod_left ..

section Layout
variable (pad : Nat → Nat → UInt8 → Nat)

theorem encode_length (offset : Nat) (os : List Item) :
    offset + (encode pad offset os).length = endsAt pad offset os := by
  induction os generalizing offset with
  | nil => rfl
  | cons o os ih =>
    have hrest := ih (o.behind pad offset)
    rw [encode, endsAt, List.length_append, o.bytes_length, ← hrest, Item.behind]
    omega

theorem le_endsAt (offset : Nat) (os : List Item) : offset ≤ endsAt pad offset os := by
  rw [← encode_length]
  exact Nat.le_add_right ..

theorem body_length (offset : Nat) (os : List Item) :
    offset + (body pad offset os).length = roundUp (endsAt pad offset os) := by
  have hle := le_roundUp (endsAt pad offset os)
  rw [body, List.length_append, padding_length, ← Nat.add_assoc, encode_length]
  omega

end Layout

/-! ## The first pass -/

/-- What a table answers for an element, whenever it is asked. -/
structure Reads (env : Env) (table i : Nat) (o : Item) (again : Bool) : Prop where
  fields : ∃ r, env.geti again table i = .ok (.table r) ∧
    env.getfield again r "type" = .ok (.integer o.type) ∧
    env.getfield again r "align" = .ok (.integer o.align) ∧
    env.getfield again r "value" = .ok (.string o.value)

/-- A call of `l_inet6_opts_ext` with a list of options. -/
structure Gives (env : Env) (L : LuaState R) (os : List Item) : Prop where
  list : ∃ table, L.index 1 = some (.table table) ∧ env.len table = .ok os.length ∧
    ∀ i (hi : i < os.length) again, Reads env table (i + 1) os[i] again

/-- What the table answers for the elements behind the first one. -/
theorem reads_tail {env : Env} {table i : Nat} {o : Item} {os : List Item} {again : Bool}
    (h : ∀ j (hj : j < (o :: os).length), Reads env table (i + j) (o :: os)[j] again) :
    ∀ j (hj : j < os.length), Reads env table (i + 1 + j) os[j] again := by
  intro j hj
  have hindex : i + 1 + j = i + (j + 1) := by omega
  rw [hindex]
  exact h (j + 1) (Nat.succ_lt_succ hj)

section Passes
variable {env : Env} {pad : Nat → Nat → UInt8 → Nat} (hlib : env.lib.Documented pad)
  {table i offset : Nat} {o : Item}
include hlib

theorem sizeOption_valid (hreads : Reads env table i o false) (hvalid : o.Valid)
    (hmax : o.behind pad offset ≤ INT_MAX) :
    sizeOption env table i offset = .ok (o.behind pad offset) := by
  obtain ⟨r, hgeti, htype, halign, hvalue⟩ := hreads.fields
  have happend := hlib.append_size offset o.len (uint8 o.type) (uint8 o.align) hvalid hmax
  rw [Item.len] at happend
  simp only [sizeOption, checkfield, hgeti, htype, halign, hvalue, bind, Except.bind, happend]
  rfl

theorem sizeOption_invalid (hreads : Reads env table i o false) (hvalid : ¬ o.Valid) :
    sizeOption env table i offset = .error badOpts := by
  obtain ⟨r, hgeti, htype, halign, hvalue⟩ := hreads.fields
  have happend := hlib.append_invalid none offset o.len (uint8 o.type) (uint8 o.align) hvalid
  rw [Item.len] at happend
  simp only [sizeOption, checkfield, hgeti, htype, halign, hvalue, bind, Except.bind, happend]

/-- **The first pass** finds where the options end, or that one is not valid. -/
theorem sizeOptions_eq {os : List Item}
    (hreads : ∀ j (hj : j < os.length), Reads env table (i + j) os[j] false)
    (hmax : endsAt pad offset os ≤ INT_MAX) :
    sizeOptions env table os.length i offset =
      if ∀ o ∈ os, o.Valid then .ok (endsAt pad offset os) else .error badOpts := by
  induction os generalizing i offset with
  | nil => simp [sizeOptions, endsAt]
  | cons o os ih =>
    have hfirst : Reads env table i o false := hreads 0 (Nat.succ_pos _)
    rw [endsAt] at hmax
    by_cases hvalid : o.Valid
    · have hle := (le_endsAt pad (o.behind pad offset) os).trans hmax
      have hsize := sizeOption_valid hlib hfirst hvalid hle
      rw [List.length_cons, sizeOptions, hsize]
      simp only [bind, Except.bind, ih (reads_tail hreads) hmax, List.forall_mem_cons, hvalid,
        true_and, endsAt]
    · rw [List.length_cons, sizeOptions, sizeOption_invalid hlib hfirst hvalid,
        if_neg (fun hall => hvalid (hall o (List.mem_cons_self ..)))]
      rfl

/-! ## The second pass -/

/-- One option has been written, and nothing before it. -/
theorem writeOption_valid {extlen : Nat} {m : ByteMemory} (hreads : Reads env table i o true)
    (hvalid : o.Valid) (hfits : o.behind pad offset ≤ extlen) :
    ∃ m', writeOption env table extlen i offset m = .ok (some (o.behind pad offset, m')) ∧
      m'.load offset (o.bytes (o.padding pad offset)).length = o.bytes (o.padding pad offset) ∧
      ∀ a < offset, m' a = m a := by
  obtain ⟨r, hgeti, htype, halign, hvalue⟩ := hreads.fields
  have happend := hlib.append extlen offset o.len (uint8 o.type) (uint8 o.align) hvalid hfits
  have hset := hlib.set_val (offset + pad offset o.len (uint8 o.align) + 2) o.value o.len
  have htype' : uint8 ((LuaNumbers.tointegerx env.host.cvt (.integer o.type)).getD 0) =
    uint8 o.type := rfl
  have halign' : uint8 ((LuaNumbers.tointegerx env.host.cvt (.integer o.align)).getD 0) =
    uint8 o.align := rfl
  have hvalue' : (tolstring env.host (.string o.value)).getD [] = o.value := rfl
  set before : ByteStore := ⟨offset, padding (o.padding pad offset) ++
    [uint8 o.type, UInt8.ofNat o.len]⟩ with hbefore
  set data : ByteStore := ⟨offset + o.padding pad offset + 2, o.data⟩ with hdata
  have hlength : before.bytes.length = o.padding pad offset + 2 := by
    rw [hbefore, List.length_append, padding_length]
    rfl
  have hrun : writeOption env table extlen i offset m =
      .ok (some (o.behind pad offset, ByteStore.run m [before, data])) := by
    simp only [writeOption, fieldAgain, hgeti, htype, halign, hvalue, bind, Except.bind, htype',
      halign', hvalue']
    rw [← Item.len, happend]
    dsimp only
    rw [hset]
    rfl
  refine ⟨_, hrun, ?_, ?_⟩
  · have hfirst : (ByteStore.run m [before, data]).load offset before.bytes.length =
        before.bytes := by
      have hcovers : ∀ t ∈ [data], ∀ a, before.Covers a → ¬ t.Covers a := by
        intro t ht a hcover hcover'
        obtain rfl := List.mem_singleton.mp ht
        have hlt : a < offset + before.bytes.length := hcover.2
        have hle : offset + o.padding pad offset + 2 ≤ a := hcover'.1
        omega
      exact ByteStore.load_stored_first hcovers
    have hsecond : (ByteStore.run m [before, data]).load (offset + o.padding pad offset + 2)
        o.data.length = o.data := ByteStore.load_apply (ByteStore.apply m before) data
    have hsplit : o.bytes (o.padding pad offset) = before.bytes ++ o.data := by
      rw [hbefore, Item.bytes, List.append_assoc]
      rfl
    rw [hsplit, List.length_append, ByteMemory.load_add, hfirst, hlength]
    exact congrArg (before.bytes ++ ·) hsecond
  · intro a ha
    apply ByteStore.run_frame_of_lt
    intro t ht
    rcases List.mem_cons.mp ht with rfl | ht
    · exact ha
    · obtain rfl := List.mem_singleton.mp ht
      simp only [hdata]
      omega

/-- **The second pass** writes the options, one behind the other. -/
theorem writeOptions_eq {extlen : Nat} {os : List Item} {m : ByteMemory}
    (hreads : ∀ j (hj : j < os.length), Reads env table (i + j) os[j] true)
    (hvalid : ∀ o ∈ os, o.Valid) (hfits : endsAt pad offset os ≤ extlen) :
    ∃ m', writeOptions env table extlen os.length i offset m =
        .ok (some (endsAt pad offset os, m')) ∧
      m'.load offset (encode pad offset os).length = encode pad offset os ∧
      ∀ a < offset, m' a = m a := by
  induction os generalizing i offset m with
  | nil => exact ⟨m, rfl, rfl, fun _ _ => rfl⟩
  | cons o os ih =>
    obtain ⟨hvalid', hvalids⟩ := List.forall_mem_cons.mp hvalid
    have hfirst : Reads env table i o true := hreads 0 (Nat.succ_pos _)
    rw [endsAt] at hfits
    have hle := (le_endsAt pad (o.behind pad offset) os).trans hfits
    obtain ⟨m₁, hwrite, hload, hframe⟩ := writeOption_valid hlib (m := m) hfirst hvalid' hle
    obtain ⟨m₂, hwrites, hloads, hframes⟩ := ih (m := m₁) (reads_tail hreads) hvalids hfits
    have hbehind : offset + (o.bytes (o.padding pad offset)).length = o.behind pad offset := by
      rw [o.bytes_length, Item.behind]
      omega
    refine ⟨m₂, ?_, ?_, ?_⟩
    · simp only [List.length_cons, writeOptions, hwrite, bind, Except.bind, hwrites, endsAt]
    · have hkept : m₂.load offset (o.bytes (o.padding pad offset)).length =
          o.bytes (o.padding pad offset) :=
        (ByteMemory.load_congr (fun a _ ha => hframes a (by omega))).trans hload
      rw [encode, List.length_append, ByteMemory.load_add, hkept, hbehind, hloads]
    · intro a ha
      rw [hframes a (by omega), hframe a ha]

/-- The header that is written: the first byte is what was in memory, and the second is the
length in units of eight bytes. -/
def header (pad : Nat → Nat → UInt8 → Nat) (next : UInt8) (os : List Item) : Bytes :=
  next :: UInt8.ofNat (headerLength pad os / 8 - 1) :: body pad 2 os

omit hlib in
theorem header_length (pad : Nat → Nat → UInt8 → Nat) (next : UInt8) (os : List Item) :
    (header pad next os).length = headerLength pad os := by
  have hbody := body_length pad 2 os
  rw [header, List.length_cons, List.length_cons, headerLength]
  omega

omit hlib in
theorem headerLength_pos (pad : Nat → Nat → UInt8 → Nat) (os : List Item) :
    8 ≤ headerLength pad os := by
  have hle := le_endsAt pad 2 os
  rw [headerLength, roundUp]
  omega

omit hlib in
/-- The two bytes of the header, and what is behind them. -/
theorem load_header {m : ByteMemory} {next length : UInt8} {rest : List UInt8}
    (hnext : m 0 = next) (hlength : m 1 = length) (hrest : m.load 2 rest.length = rest) :
    m.load 0 (1 + (1 + rest.length)) = next :: length :: rest := by
  have hsingle (a : Nat) : m.load a 1 = [m a] := rfl
  rw [ByteMemory.load_add, ByteMemory.load_add, hsingle, hsingle, hnext, hlength, hrest]
  rfl

/-- **The assertions hold**, and the header is what the options are laid out to. -/
theorem writeHeader_eq {os : List Item}
    (hreads : ∀ j (hj : j < os.length), Reads env table (1 + j) os[j] true)
    (hvalid : ∀ o ∈ os, o.Valid) :
    writeHeader env table os.length (headerLength pad os) =
      .string (header pad (env.fresh 0) os) := by
  have hpos := headerLength_pos pad os
  have hfinal := le_roundUp (endsAt pad 2 os)
  have hinit := hlib.init (headerLength pad os) (by omega) (roundUp_mod _)
  have hfinish := hlib.finish (headerLength pad os) (endsAt pad 2 os) (le_refl _)
  set length : ByteStore := ⟨1, [UInt8.ofNat (headerLength pad os / 8 - 1)]⟩ with hlength
  obtain ⟨m, hwrites, hload, hframe⟩ := writeOptions_eq hlib (m := ByteStore.run env.fresh [length])
    hreads hvalid hfinal
  set last : ByteStore := ⟨endsAt pad 2 os,
    padding (roundUp (endsAt pad 2 os) - endsAt pad 2 os)⟩ with hlast
  have hrun : writeHeader env table os.length (headerLength pad os) =
      .string ((ByteStore.run m [last]).load 0 (headerLength pad os)) := by
    rw [writeHeader, hinit]
    dsimp only
    rw [headerLength, hwrites]
    dsimp only
    rw [headerLength] at hfinish
    rw [hfinish]
    exact if_pos rfl
  -- the padding is written last, behind everything else
  have hbefore (a : Nat) (ha : a < endsAt pad 2 os) : ByteStore.run m [last] a = m a :=
    ByteStore.run_frame_of_lt (List.forall_mem_singleton.mpr ha)
  have hlow (a : Nat) (ha : a < 2) :
      ByteStore.run m [last] a = ByteStore.run env.fresh [length] a := by
    rw [hbefore a (Nat.lt_of_lt_of_le ha (le_endsAt pad 2 os)), hframe a ha]
  have hzero : ByteStore.run m [last] 0 = env.fresh 0 := by
    rw [hlow 0 (by omega)]
    exact ByteStore.run_frame_of_lt (List.forall_mem_singleton.mpr Nat.one_pos)
  have hone : ByteStore.run m [last] 1 = UInt8.ofNat (headerLength pad os / 8 - 1) := by
    rw [hlow 1 (by omega)]
    exact ByteStore.byte_stored_first (List.forall_mem_nil _)
  have hencoded : (ByteStore.run m [last]).load 2 (encode pad 2 os).length = encode pad 2 os := by
    have hends := encode_length pad 2 os
    exact (ByteMemory.load_congr (fun a _ ha => hbefore a (by omega))).trans hload
  have hpadded : (ByteStore.run m [last]).load (endsAt pad 2 os) last.bytes.length =
      last.bytes := ByteStore.load_apply m last
  have hbody : (ByteStore.run m [last]).load 2 (body pad 2 os).length = body pad 2 os := by
    rw [body, List.length_append, ByteMemory.load_add, hencoded, encode_length]
    exact congrArg (encode pad 2 os ++ ·) hpadded
  have hsize : headerLength pad os = 1 + (1 + (body pad 2 os).length) := by
    have hlen := body_length pad 2 os
    rw [headerLength]
    omega
  rw [hrun, hsize, load_header hzero hone hbody]
  rfl

/-- **The encoder** gives the header when all options are valid and there is memory for it, and
raises otherwise. -/
theorem l_inet6_opts_ext_eq {L : LuaState R} {os : List Item} (hgives : Gives env L os)
    (hmax : headerLength pad os ≤ INT_MAX) :
    l_inet6_opts_ext env L =
      if ∀ o ∈ os, o.Valid then
        if env.malloc (headerLength pad os) = true then .string (header pad (env.fresh 0) os)
        else .raised (.fatal "malloc" ENOMEM)
      else .raised badOpts := by
  obtain ⟨table, hindex, hlen, hreads⟩ := hgives.list
  have hindexed (again : Bool) : ∀ j (hj : j < os.length), Reads env table (1 + j) os[j] again := by
    intro j hj
    rw [Nat.add_comm]
    exact hreads j hj again
  have hsize := sizeOptions_eq hlib (hindexed false) ((le_roundUp _).trans hmax)
  rw [l_inet6_opts_ext, hindex]
  dsimp only
  rw [hlen]
  dsimp only
  rw [hlib.init_size]
  dsimp only
  rw [Int.toNat_natCast, hsize]
  by_cases hvalid : ∀ o ∈ os, o.Valid
  · rw [if_pos hvalid, if_pos hvalid]
    dsimp only
    rw [hlib.finish_size _ hmax]
    dsimp only
    by_cases hmalloc : env.malloc (headerLength pad os) = true
    · rw [if_pos hmalloc]
      exact (if_pos hmalloc).trans (writeHeader_eq hlib (hindexed true) hvalid)
    · rw [if_neg hmalloc]
      exact if_neg hmalloc
  · rw [if_neg hvalid, if_neg hvalid]

end Passes

/-! ## The decoder -/

/-- A load that gives two lists gives each of them. -/
theorem load_split {m : ByteMemory} {a n : Nat} {xs ys : Bytes} (h : m.load a n = xs ++ ys) :
    m.load a xs.length = xs ∧ m.load (a + xs.length) ys.length = ys := by
  have hn : n = xs.length + ys.length := by
    rw [← List.length_append, ← h, ByteMemory.load_length]
  rw [hn, ByteMemory.load_add] at h
  exact List.append_inj h (ByteMemory.load_length ..)

theorem load_stringMemory (env : Env) (s : Bytes) :
    (stringMemory env s).load 0 s.length = s := by
  apply List.ext_getElem
  · exact ByteMemory.load_length ..
  · intro i hi hi'
    simp [ByteMemory.load, stringMemory, hi']

section Decoder
variable {env : Env} {pad : Nat → Nat → UInt8 → Nat} (hlib : env.lib.Documented pad)
include hlib

/-- **The loop** gives the options that the memory has. -/
theorem nextOptions_eq {m : ByteMemory} {extlen offset start fuel : Nat} {os : List Item}
    (hmod : extlen % 8 = 0) (hstart : start = if offset = 0 then 2 else offset)
    (hle : start ≤ extlen) (hvalid : ∀ o ∈ os, o.Valid) (hfuel : os.length < fuel)
    (hload : m.load start (extlen - start) = body pad start os) :
    nextOptions env.lib m extlen fuel offset = some (os.map Item.option) := by
  induction os generalizing offset start fuel with
  | nil =>
    obtain ⟨fuel, rfl⟩ := Nat.exists_eq_succ_of_ne_zero (Nat.ne_of_gt hfuel)
    have hless : roundUp (endsAt pad start []) - endsAt pad start [] < 8 := by
      rw [roundUp]
      omega
    have hend := hlib.next_end m extlen offset start _ hmod hstart hle hless hload
    rw [nextOptions, hend]
    rfl
  | cons o os ih =>
    obtain ⟨fuel, rfl⟩ := Nat.exists_eq_succ_of_ne_zero (Nat.ne_of_gt (Nat.zero_lt_of_lt hfuel))
    obtain ⟨hvalid', hvalids⟩ := List.forall_mem_cons.mp hvalid
    have hlen : (UInt8.ofNat o.len).toNat = o.len := by
      have h255 : o.len ≤ 255 := hvalid'.2.1
      rw [UInt8.toNat_ofNat']
      exact Nat.mod_eq_of_lt (by omega)
    have hsplit : body pad start (o :: os) =
        padding (o.padding pad start) ++ uint8 o.type :: UInt8.ofNat o.len :: o.data ++
          body pad (o.behind pad start) os := by
      simp only [body, encode, endsAt, Item.bytes, List.append_assoc]
    have hbehind : o.behind pad start = start + o.padding pad start + 2 + o.len := rfl
    rw [hsplit] at hload
    have hnext := hlib.next m extlen offset start (o.padding pad start) (uint8 o.type)
      (UInt8.ofNat o.len) o.data (body pad (o.behind pad start) os) hmod hstart hle
      (hlib.pad_lt _ _ _) hvalid'.1 (by rw [o.data_length, hlen]) hload
    rw [hlen] at hnext
    obtain ⟨hfirst, hrest⟩ := load_split hload
    have hlength : (padding (o.padding pad start) ++
        uint8 o.type :: UInt8.ofNat o.len :: o.data).length = o.padding pad start + 2 + o.len := by
      have hbytes := o.bytes_length (o.padding pad start)
      rwa [Item.bytes] at hbytes
    have hdata : m.load (start + o.padding pad start + 2) o.len = o.data := by
      have hsplit' : padding (o.padding pad start) ++ uint8 o.type :: UInt8.ofNat o.len :: o.data =
          (padding (o.padding pad start) ++ [uint8 o.type, UInt8.ofNat o.len]) ++ o.data := by
        rw [List.append_assoc]
        rfl
      rw [hsplit'] at hfirst
      obtain ⟨-, hdata⟩ := load_split hfirst
      rw [List.length_append, padding_length, o.data_length] at hdata
      exact hdata
    have hsize := body_length pad (o.behind pad start) os
    have htotal := congrArg List.length hload
    rw [ByteMemory.load_length, List.length_append, hlength] at htotal
    have hmore : m.load (o.behind pad start) (extlen - o.behind pad start) =
        body pad (o.behind pad start) os := by
      have hsame : extlen - o.behind pad start = (body pad (o.behind pad start) os).length := by
        omega
      rw [hsame]
      rw [hlength] at hrest
      have haddr : start + (o.padding pad start + 2 + o.len) = o.behind pad start := by omega
      rwa [haddr] at hrest
    have hstart' : o.behind pad start =
        if o.behind pad start = 0 then 2 else o.behind pad start := by
      rw [if_neg (by omega)]
    have hloop := ih hstart' (by omega) hvalids (Nat.lt_of_succ_lt_succ hfuel) hmore
    rw [nextOptions, hnext]
    simp only [← hbehind, hloop, Option.map_some, hdata, List.map_cons]
    rfl

theorem l_inet6_ext_opts_header {L : LuaState R} {os : List Item} {next : UInt8} {fuel : Nat}
    (hvalid : ∀ o ∈ os, o.Valid) (hmax : headerLength pad os ≤ INT_MAX)
    (hfuel : os.length < fuel) (h : L.index 1 = some (.string (header pad next os))) :
    l_inet6_ext_opts env fuel L = some (.options (os.map Item.option)) := by
  have hlength := header_length pad next os
  have hpos := headerLength_pos pad os
  have hsocklen : socklen (header pad next os).length = headerLength pad os := by
    rw [hlength, socklen]
    refine Nat.mod_eq_of_lt (Nat.lt_of_le_of_lt hmax ?_)
    decide
  have hcheck : checklstring env.host 1 (L.index 1) = .ok (header pad next os) := by
    rw [h]
    rfl
  have hwhole := load_stringMemory env (header pad next os)
  have hsplit : header pad next os =
      [next, UInt8.ofNat (headerLength pad os / 8 - 1)] ++ body pad 2 os := rfl
  have hbody : (stringMemory env (header pad next os)).load 2 (headerLength pad os - 2) =
      body pad 2 os := by
    rw [hlength] at hwhole
    obtain ⟨-, hrest⟩ := load_split (hwhole.trans hsplit)
    have hsize := body_length pad 2 os
    have hsame : headerLength pad os - 2 = (body pad 2 os).length := by
      rw [headerLength]
      omega
    rw [hsame]
    exact hrest
  rw [l_inet6_ext_opts, hcheck]
  dsimp only
  have hmod : headerLength pad os % 8 = 0 := roundUp_mod _
  have hloop := nextOptions_eq hlib hmod (show 2 = if 0 = 0 then 2 else 0 from rfl) (by omega)
    hvalid hfuel hbody
  rw [hsocklen, hloop]
  rfl

end Decoder

/-! ## The round trip -/

/-- An environment with some memory. -/
def Env.withFresh (env : Env) (fresh : ByteMemory) : Env := { env with fresh := fresh }

/-- **Options make the round trip**: a list of options is accepted exactly when all of them are
valid and there is memory for the header, the header does not depend on what was in memory but for
the first byte, which says what comes next and is not set, and its options are the ones that were
given, as their members hold them: the type is cut to eight bits, and the value at its length in 32
bits. -/
theorem inet6_opts_round_trip {env : Env} {L : LuaState R} {os : List Item}
    {pad : Nat → Nat → UInt8 → Nat} (hlib : env.lib.Documented pad) (hgives : Gives env L os)
    (hmax : headerLength pad os ≤ INT_MAX) :
    ((∃ o ∈ os, ¬ o.Valid) → l_inet6_opts_ext env L = .raised badOpts) ∧
    ((∀ o ∈ os, o.Valid) → env.malloc (headerLength pad os) = false →
      l_inet6_opts_ext env L = .raised (.fatal "malloc" ENOMEM)) ∧
    ((∀ o ∈ os, o.Valid) → env.malloc (headerLength pad os) = true →
      ∃ rest, (rest.length + 1) % 8 = 0 ∧
        (∀ fresh, l_inet6_opts_ext (env.withFresh fresh) L = .string (fresh 0 :: rest)) ∧
        ∀ (next : UInt8) (L' : LuaState R) fuel, L'.index 1 = some (.string (next :: rest)) →
          os.length < fuel →
          l_inet6_ext_opts env fuel L' = some (.options (os.map Item.option))) := by
  refine ⟨?_, ?_, ?_⟩
  · rintro ⟨o, ho, hinvalid⟩
    rw [l_inet6_opts_ext_eq hlib hgives hmax, if_neg (fun hall => hinvalid (hall o ho))]
  · intro hvalid hmalloc
    rw [l_inet6_opts_ext_eq hlib hgives hmax, if_pos hvalid,
      if_neg (Bool.eq_false_iff.mp hmalloc)]
  · intro hvalid hmalloc
    refine ⟨UInt8.ofNat (headerLength pad os / 8 - 1) :: body pad 2 os, ?_, ?_, ?_⟩
    · have hlength := header_length pad 0 os
      rw [header, List.length_cons] at hlength
      rw [hlength]
      exact roundUp_mod _
    · intro fresh
      have hlib' : (env.withFresh fresh).lib.Documented pad := hlib
      have hreads (table i : Nat) (o : Item) (again : Bool) (h : Reads env table i o again) :
          Reads (env.withFresh fresh) table i o again := ⟨h.fields⟩
      have hgives' : Gives (env.withFresh fresh) L os := by
        obtain ⟨table, hindex, hlen, helements⟩ := hgives.list
        exact ⟨table, hindex, hlen, fun i hi again => hreads _ _ _ _ (helements i hi again)⟩
      have hmalloc' : (env.withFresh fresh).malloc (headerLength pad os) = true := hmalloc
      rw [l_inet6_opts_ext_eq hlib' hgives' hmax, if_pos hvalid, if_pos hmalloc']
      rfl
    · intro next L' fuel h hfuel
      exact l_inet6_ext_opts_header hlib hvalid hmax hfuel h

/-! ### A library -/

/-- Padding that ends an option on a multiple of its alignment. -/
def samplePad (offset len : Nat) (align : UInt8) : Nat :=
  (align.toNat - (offset + 2 + len) % align.toNat) % align.toNat % 8

/-- The next option in the bytes of a header from a position on, without the padding before it. -/
def sampleNext : Nat → Bytes → Nat → Option Next
  | 0, _, _ => none
  | fuel + 1, bytes, pos =>
    match bytes with
    | [] => none
    | 0 :: rest => sampleNext fuel rest (pos + 1)
    | 1 :: n :: rest => sampleNext fuel (rest.drop n.toNat) (pos + 2 + n.toNat)
    | type :: len :: _ => some ⟨pos + 2 + len.toNat, type, len.toNat, pos + 2⟩
    | [_] => none

def sampleOpt : Opt where
  inet6_opt_init
    | none => some (2, [])
    | some extlen =>
      if 0 < extlen ∧ extlen % 8 = 0 then some (2, [⟨1, [UInt8.ofNat (extlen / 8 - 1)]⟩]) else none
  inet6_opt_append buf offset type len align :=
    let behind := offset + samplePad offset len align + 2 + len
    if ValidOption type len align then
      match buf with
      | none => some (behind, [], 0)
      | some extlen =>
        if behind ≤ extlen then
          some (behind, [⟨offset, padding (samplePad offset len align) ++ [type, UInt8.ofNat len]⟩],
            offset + samplePad offset len align + 2)
        else none
    else none
  inet6_opt_finish
    | none, offset => some (roundUp offset, [])
    | some extlen, offset =>
      if roundUp offset ≤ extlen then
        some (roundUp offset, [⟨offset, padding (roundUp offset - offset)⟩])
      else none
  inet6_opt_set_val databuf val vallen := some (vallen, [⟨databuf, val.take vallen⟩])
  inet6_opt_next m extlen offset :=
    let start := if offset = 0 then 2 else offset
    sampleNext (extlen - start + 1) (m.load start (extlen - start)) start

theorem two_le_cases {type : UInt8} (h : 2 ≤ type) : type ≠ 0 ∧ type ≠ 1 := by
  constructor <;> rintro rfl <;> exact absurd h (by decide)

theorem sampleNext_option {fuel pos : Nat} {type len : UInt8} {rest : Bytes} (h : 2 ≤ type) :
    sampleNext (fuel + 1) (type :: len :: rest) pos =
      some ⟨pos + 2 + len.toNat, type, len.toNat, pos + 2⟩ := by
  obtain ⟨hzero, hone⟩ := two_le_cases h
  rw [sampleNext]
  · exact hzero
  · exact hone

/-- Padding is passed over. -/
theorem sampleNext_padding {fuel n pos : Nat} {rest : Bytes} (hn : n < 258) :
    0 < n → sampleNext (fuel + 1) (padding n ++ rest) pos = sampleNext fuel rest (pos + n) := by
  intro hpos
  rcases n with _ | _ | n
  · exact absurd hpos (Nat.lt_irrefl 0)
  · rfl
  · have hbyte : (UInt8.ofNat n).toNat = n := by
      rw [UInt8.toNat_ofNat']
      exact Nat.mod_eq_of_lt (by omega)
    have hdrop : (List.replicate n (0 : UInt8) ++ rest).drop n = rest :=
      List.drop_left' List.length_replicate
    simp only [padding, List.cons_append, sampleNext, hbyte, hdrop]
    congr 1
    omega

theorem sampleOpt_documented : sampleOpt.Documented samplePad where
  pad_lt offset len align := Nat.mod_lt _ (by decide)
  init_size := rfl
  init extlen hpos hmod := if_pos ⟨hpos, hmod⟩
  append_invalid buf offset len type align h := if_neg h
  append_size offset len type align h _ := if_pos h
  append extlen offset len type align h hfits := by
    simp only [sampleOpt, if_pos h, if_pos hfits]
  finish_size offset _ := rfl
  finish extlen offset h := if_pos h
  set_val databuf val vallen := rfl
  next m extlen offset start n type len value behind hmod hstart hle hn htype hvalue hload := by
    have hlength := congrArg List.length hload
    simp only [ByteMemory.load_length, List.length_append, padding_length, List.length_cons,
      hvalue] at hlength
    obtain ⟨k, hk⟩ : ∃ k, extlen - start = k + 1 := ⟨extlen - start - 1, by omega⟩
    have happend : padding n ++ type :: len :: value ++ behind =
        padding n ++ (type :: len :: (value ++ behind)) := by
      rw [List.append_assoc]
      rfl
    simp only [sampleOpt, ← hstart]
    rw [hload, happend]
    by_cases hzero : n = 0
    · subst hzero
      exact sampleNext_option htype
    · rw [sampleNext_padding (by omega) (Nat.pos_of_ne_zero hzero), hk, sampleNext_option htype]
  next_end m extlen offset start n hmod hstart hle hn hload := by
    have hlength := congrArg List.length hload
    rw [ByteMemory.load_length, padding_length] at hlength
    simp only [sampleOpt, ← hstart]
    rw [hload, hlength]
    by_cases hzero : n = 0
    · subst hzero
      rfl
    · obtain ⟨k, rfl⟩ := Nat.exists_eq_succ_of_ne_zero hzero
      have hskip : sampleNext (k + 1 + 1) (padding (k + 1) ++ []) start =
          sampleNext (k + 1) [] (start + (k + 1)) :=
        sampleNext_padding (by omega) (Nat.pos_of_ne_zero hzero)
      rw [List.append_nil] at hskip
      rw [hskip]
      rfl

/-- A router alert and a jumbo payload. -/
def sampleItems : List Item := [⟨5, 2, [0, 0]⟩, ⟨194, 4, [0, 1, 0, 0]⟩]

/-- Table 0 has the options, which are the tables 1 and 2. -/
def sampleEnv : Env where
  host := Host.plain
  lib := sampleOpt
  len _ := .ok 2
  geti _ _ i := .ok (.table i)
  getfield _ r name :=
    match sampleItems[r - 1]? with
    | none => .ok .nil
    | some o =>
      if name = "type" then .ok (.integer o.type)
      else if name = "align" then .ok (.integer o.align)
      else .ok (.string o.value)
  malloc _ := true
  fresh _ := 255
  behind _ := 255

def sampleCall : LuaState noFunctions := ⟨[.table 0], [], 0⟩

theorem sampleItems_gives : Gives sampleEnv sampleCall sampleItems where
  list := by
    refine ⟨0, rfl, rfl, ?_⟩
    intro i hi again
    have hlt : i < 2 := hi
    rcases Nat.lt_succ_iff_lt_or_eq.mp hlt with hzero | rfl
    · obtain rfl : i = 0 := by omega
      exact ⟨⟨1, rfl, rfl, rfl, rfl⟩⟩
    · exact ⟨⟨2, rfl, rfl, rfl, rfl⟩⟩

theorem inet6_opts_round_trip_two :
    ∃ rest, l_inet6_opts_ext sampleEnv sampleCall = .string (255 :: rest) ∧
      l_inet6_ext_opts sampleEnv 3 (⟨[.string (0 :: rest)], [], 0⟩ : LuaState noFunctions) =
        some (.options [(5, [0, 0]), (194, [0, 1, 0, 0])]) := by
  obtain ⟨-, -, hvalid⟩ :=
    inet6_opts_round_trip sampleOpt_documented sampleItems_gives (by decide)
  obtain ⟨rest, -, hencoded, hdecoded⟩ := hvalid (by decide) rfl
  exact ⟨rest, hencoded (fun _ => 255), hdecoded 0 _ 3 rfl (by decide)⟩

end HeaderOptions
end FluaLibs
