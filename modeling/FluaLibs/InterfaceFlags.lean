import Mathlib.Data.List.Nodup
import Mathlib.Data.List.Infix
import Mathlib.Data.List.Find
import Mathlib.Data.List.TakeWhile
import Mathlib.Data.BitVec

/-! # Flag sets of an interface

The kernel's `%b` format gives names to the bits of an integer: after one byte for the
base, a table is a sequence of a bit number (from 1) and a name.  `push_flags_array`
makes a Lua table with the names of the bits that are set, each under its bit number;
`pop_flags_array` reads such a table back, in whatever order `lua_next` visits it.

The first looks at bits, the second looks names up: it takes the first entry whose name
the given string *begins with*.  So the two are inverse only as long as no name begins
with the name of an earlier entry.
-/
namespace FluaLibs
namespace Ifconfig

abbrev Bytes : Type := List UInt8

/-- The bytes of a C literal. -/
def ascii (s : String) : Bytes := s.toByteArray.data.toList

/-! ## The tables of the module -/

@[irreducible] def IFFBITS : Bytes :=
  ["\x10", "\x01UP", "\x02BROADCAST", "\x03DEBUG", "\x04LOOPBACK", "\x05POINTOPOINT",
    "\x07RUNNING", "\x08NOARP", "\x09PROMISC", "\x0aALLMULTI", "\x0bOACTIVE", "\x0cSIMPLEX",
    "\x0dLINK0", "\x0eLINK1", "\x0fLINK2", "\x10MULTICAST", "\x12PPROMISC", "\x13MONITOR",
    "\x14STATICARP"].flatMap ascii

@[irreducible] def IFCAPBITS : Bytes :=
  ["\x10", "\x01RXCSUM", "\x02TXCSUM", "\x03NETCONS", "\x04VLAN_MTU", "\x05VLAN_HWTAGGING",
    "\x06JUMBO_MTU", "\x07POLLING", "\x08VLAN_HWCSUM", "\x09TSO4", "\x0aTSO6", "\x0bLRO",
    "\x0cWOL_UCAST", "\x0dWOL_MCAST", "\x0eWOL_MAGIC", "\x0fTOE4", "\x10TOE6",
    "\x11VLAN_HWFILTER", "\x13VLAN_HWTSO", "\x14LINKSTATE", "\x15NETMAP", "\x16RXCSUM_IPV6",
    "\x17TXCSUM_IPV6", "\x19TXRTLMT", "\x1aHWRXTSTMP", "\x1bNOMAP", "\x1cTXTLS4",
    "\x1dTXTLS6"].flatMap ascii

@[irreducible] def IN6BITS : Bytes :=
  ["\x10", "\x01anycast", "\x02tenative", "\x03duplicated", "\x04detached", "\x05deprecated",
    "\x07nodad", "\x08autoconf", "\x09temporary", "\x0aprefer_source"].flatMap ascii

@[irreducible] def ND6BITS : Bytes :=
  ["\x10", "\x01nud", "\x02accept_rtadv", "\x03prefer_source", "\x04ifdisabled",
    "\x05dont_set_ifroute", "\x06auto_linklocal", "\x07no_radr", "\x08no_prefer_iface",
    "\x09no_dad", "\x0aipv6_only", "\x0bipv6_only"].flatMap ascii

@[irreducible] def LAGGHASHBITS : Bytes :=
  ["\x10", "\x01l2", "\x02l3", "\x03l4"].flatMap ascii

/-- The tables the module defines; the others come with the system's headers. -/
def moduleTables : List Bytes := [IFFBITS, IFCAPBITS, IN6BITS, ND6BITS, LAGGHASHBITS]

/-! ## Walking a table -/

structure Entry where
  bit : Nat
  name : Bytes
  deriving DecidableEq

/-- `bits[len] > 32`, where `char` is signed. -/
def inName (b : UInt8) : Bool := 32 < b.toNat && b.toNat < 128

/-- A table as both loops walk it: a byte that is not NUL is a bit number, and the
bytes above 32 after it are the name. -/
def walk : Nat → Bytes → List Entry
  | _, [] => []
  | 0, _ => []
  | fuel + 1, i :: rest =>
    if i = 0 then []
    else ⟨i.toNat, rest.takeWhile inName⟩ :: walk fuel (rest.dropWhile inName)

/-- The entries of a table, after the numeric format. -/
def entries (bits : Bytes) : List Entry := walk bits.length (bits.drop 1)

/-- `1 << (i - 1)`. -/
def Entry.mask (e : Entry) : BitVec 32 := 1#32 <<< (e.bit - 1)

/-- The bit is set. -/
def Entry.setIn (v : BitVec 32) (e : Entry) : Bool := v.getLsbD (e.bit - 1)

/-- The bits the table names. -/
def named (bits : Bytes) : BitVec 32 := (entries bits).foldl (fun m e => m ||| e.mask) 0

/-- A Lua table with integer keys. -/
abbrev LuaTable : Type := List (Nat × Bytes)

/-- `lua_rawseti`. -/
def rawseti (t : LuaTable) (i : Nat) (s : Bytes) : LuaTable :=
  t.filter (fun x => x.1 ≠ i) ++ [(i, s)]

/-- `push_flags_array`. -/
def push_flags_array (v : BitVec 32) (bits : Bytes) : LuaTable :=
  (entries bits).foldl
    (fun t e => if v &&& e.mask ≠ 0 then rawseti t e.bit e.name else t) []

/-- `strncmp`, on strings that end with a NUL. -/
def strncmp : Bytes → Bytes → Nat → Int
  | _, _, 0 => 0
  | a, b, n + 1 =>
    if a.headD 0 ≠ b.headD 0 then ((a.headD 0).toNat : Int) - (b.headD 0).toNat
    else if a.headD 0 = 0 then 0
    else strncmp a.tail b.tail n

/-- The inner loop of `pop_flags_array`: the entry at which it breaks. -/
def lookup (es : List Entry) (flag : Bytes) : Option Entry :=
  es.find? (fun e => strncmp flag e.name e.name.length = 0)

/-- One round of `pop_flags_array`. -/
def popFlag (es : List Entry) (v : BitVec 32) (flag : Bytes) : BitVec 32 :=
  match lookup es flag with
  | some e => v ||| e.mask
  | none => v

/-- `pop_flags_array` on the values of a table in the order in which `lua_next` visits
them; a value that is no string raises an error. -/
def pop_flags_array (values : List (Option Bytes)) (bits : Bytes) : Option (BitVec 32) :=
  values.foldlM (fun v value => value.map (popFlag (entries bits) v)) 0

/-- What `l_ifconfig_set_capabilities` passes to `ifconfig_set_capability`, unless the
table holds a value that is no string. -/
def l_ifconfig_set_capabilities (name : Bytes) (caps : List (Option Bytes)) :
    Option (Bytes × BitVec 32) :=
  (pop_flags_array caps IFCAPBITS).map (fun capability => (name, capability))

/-- The tables of `l_ifconfig_get_capabilities`. -/
structure Capabilities where
  enabled : LuaTable
  supported : LuaTable

/-- `l_ifconfig_get_capabilities`, given the answer of `ifconfig_get_capability`. -/
def l_ifconfig_get_capabilities (curcap reqcap : BitVec 32) : Capabilities where
  enabled := push_flags_array curcap IFCAPBITS
  supported := push_flags_array reqcap IFCAPBITS

/-- Going through the table up to the entry `e` itself, one meets an entry with whose
name the name of `e` begins. -/
def Shadowed : List Entry → Entry → Prop
  | [], _ => False
  | f :: es, e => f ≠ e ∧ (f.name <+: e.name ∨ Shadowed es e)

instance : (es : List Entry) → (e : Entry) → Decidable (Shadowed es e)
  | [], _ => isFalse id
  | f :: es, e =>
    have := instDecidableShadowed es e
    inferInstanceAs (Decidable (f ≠ e ∧ (f.name <+: e.name ∨ Shadowed es e)))

/-- Each entry names a bit of its own. -/
structure WellFormed (es : List Entry) : Prop where
  nodup : (es.map Entry.bit).Nodup
  bit : ∀ e ∈ es, 1 ≤ e.bit ∧ e.bit ≤ 32

instance (es : List Entry) : Decidable (WellFormed es) :=
  decidable_of_iff ((es.map Entry.bit).Nodup ∧ ∀ e ∈ es, 1 ≤ e.bit ∧ e.bit ≤ 32)
    ⟨fun h => ⟨h.1, h.2⟩, fun h => ⟨h.1, h.2⟩⟩

theorem moduleTables_wellFormed : ∀ bits ∈ moduleTables, WellFormed (entries bits) := by
  decide +kernel

/-! ## Single bits -/

theorem Entry.getLsbD_mask {e : Entry} (h : e.bit ≤ 32) (hpos : 1 ≤ e.bit) (j : Nat) :
    e.mask.getLsbD j = true ↔ e.bit = j + 1 := by
  rw [Entry.mask, ← BitVec.twoPow_eq, BitVec.getLsbD_twoPow]
  simp only [Bool.and_eq_true, decide_eq_true_eq]
  omega

/-- The test of `push_flags_array`. -/
theorem and_mask_ne_zero {v : BitVec 32} {e : Entry} (h : e.bit ≤ 32) (hpos : 1 ≤ e.bit) :
    v &&& e.mask ≠ 0 ↔ e.setIn v = true := by
  rw [Entry.setIn]
  have hlt : e.bit - 1 < 32 := by omega
  have hne : BitVec.twoPow 32 (e.bit - 1) ≠ 0#32 := by
    intro hzero
    have hbit := congrArg (fun w => w.getLsbD (e.bit - 1)) hzero
    simp [hlt] at hbit
  rw [Entry.mask, ← BitVec.twoPow_eq, BitVec.and_twoPow]
  by_cases hv : v.getLsbD (e.bit - 1) = true
  · simp [hv, hne]
  · simp [hv]

/-! ## Looking names up -/

/-- Comparing as many characters as the name has looks for it at the start. -/
theorem strncmp_name_eq_zero (flag : Bytes) {name : Bytes} (hname : ∀ b ∈ name, b ≠ 0) :
    strncmp flag name name.length = 0 ↔ name <+: flag := by
  induction name generalizing flag with
  | nil => simp [strncmp]
  | cons b name ih =>
    have hb : b ≠ 0 := hname b (List.mem_cons_self ..)
    have ih := fun flag => ih flag (fun c hc => hname c (List.mem_cons_of_mem b hc))
    cases flag with
    | nil =>
      have hdiff : ¬ b.toNat = 0 := fun hzero => hb (UInt8.toNat_inj.mp hzero)
      simp [strncmp, Ne.symm hb, hdiff]
    | cons a flag =>
      by_cases hab : a = b
      · subst a
        simp [strncmp, hb, ih, List.cons_prefix_cons]
      · have hdiff : (a.toNat : Int) - b.toNat ≠ 0 := by
          intro hzero
          exact hab (UInt8.toNat_inj.mp (by omega))
        simp [strncmp, hab, hdiff, List.cons_prefix_cons, Ne.symm hab]

theorem name_ne_zero_of_mem_walk {fuel : Nat} {bits : Bytes} {e : Entry}
    (he : e ∈ walk fuel bits) : ∀ b ∈ e.name, b ≠ 0 := by
  induction fuel generalizing bits with
  | zero => cases bits <;> cases he
  | succ fuel ih =>
    cases bits with
    | nil => cases he
    | cons i rest =>
      rw [walk] at he
      by_cases hi : i = 0
      · rw [if_pos hi] at he
        cases he
      · rw [if_neg hi] at he
        rcases List.mem_cons.mp he with rfl | he
        · rintro b hb rfl
          have hname := List.mem_takeWhile_imp hb
          cases hname
        · exact ih he

/-- An entry is found by the first name that the flag begins with. -/
theorem lookup_eq (bits flag : Bytes) :
    lookup (entries bits) flag = (entries bits).find? (fun e => decide (e.name <+: flag)) := by
  refine List.find?_congr (fun e he => decide_eq_decide.mpr ?_)
  exact strncmp_name_eq_zero flag (name_ne_zero_of_mem_walk he)

section Shadowed
variable {es : List Entry} {e : Entry}

/-- An entry is found by its own name unless it is shadowed. -/
theorem find?_name_eq_some (he : e ∈ es) :
    es.find? (fun f => decide (f.name <+: e.name)) = some e ↔ ¬ Shadowed es e := by
  induction es with
  | nil => cases he
  | cons f es ih =>
    by_cases hfe : f = e
    · subst f
      simp [Shadowed]
    · have hmem : e ∈ es := (List.mem_cons.mp he).resolve_left (Ne.symm hfe)
      -- an earlier name that the flag begins with is found first
      by_cases hf : f.name <+: e.name
      · simp [Shadowed, hf, hfe]
      · simp only [Shadowed, List.find?_cons, hf, decide_false, false_or, hfe, ne_eq,
          not_false_eq_true, true_and]
        exact ih hmem

/-- A shadowed entry is never found: the entry in its way is found first. -/
theorem find?_ne_of_shadowed (h : Shadowed es e) (flag : Bytes) :
    es.find? (fun f => decide (f.name <+: flag)) ≠ some e := by
  intro hfound
  have hname : e.name <+: flag := by
    have hname := List.find?_some hfound
    exact of_decide_eq_true hname
  induction es with
  | nil => exact h
  | cons f es ih =>
    rw [List.find?_cons] at hfound
    by_cases hf : f.name <+: flag
    · simp only [hf, decide_true] at hfound
      exact h.1 (Option.some.inj hfound)
    · simp only [hf, decide_false] at hfound
      -- what shadows the entry also leads the flag
      rcases h.2 with hleads | hshadowed
      · exact hf (hleads.trans hname)
      · exact ih hshadowed hfound

end Shadowed

/-! ## What the two functions do to the bits -/

section Bits
variable {es : List Entry} (h : WellFormed es)
include h

theorem WellFormed.mask {e : Entry} (he : e ∈ es) (j : Nat) :
    e.mask.getLsbD j = true ↔ e.bit = j + 1 :=
  Entry.getLsbD_mask (h.bit e he).2 (h.bit e he).1 j

/-- The bit determines the entry. -/
theorem WellFormed.eq_of_bit {e f : Entry} (he : e ∈ es) (hf : f ∈ es) (hbit : e.bit = f.bit) :
    e = f := List.inj_on_of_nodup_map h.nodup he hf hbit

/-- The table of a value: its entries that are set, in the order of the bit table. -/
theorem WellFormed.foldl_push (v : BitVec 32) (t : LuaTable)
    (ht : ∀ x ∈ t, ∀ e ∈ es, x.1 ≠ e.bit) :
    es.foldl (fun t e => if v &&& e.mask ≠ 0 then rawseti t e.bit e.name else t) t =
      t ++ (es.filter (Entry.setIn v)).map (fun e => (e.bit, e.name)) := by
  induction es generalizing t with
  | nil => simp
  | cons e es ih =>
    have htail : WellFormed es :=
      ⟨(List.nodup_cons.mp h.nodup).2, fun f hf => h.bit f (List.mem_cons_of_mem e hf)⟩
    have hnew : e.bit ∉ es.map Entry.bit := (List.nodup_cons.mp h.nodup).1
    obtain ⟨hpos, hle⟩ := h.bit e (List.mem_cons_self ..)
    rw [List.foldl_cons]
    by_cases hv : e.setIn v = true
    · have hset : rawseti t e.bit e.name = t ++ [(e.bit, e.name)] := by
        rw [rawseti, List.filter_eq_self.mpr]
        exact fun x hx => decide_eq_true (ht x hx e (List.mem_cons_self ..))
      rw [if_pos ((and_mask_ne_zero hle hpos).mpr hv), hset, ih htail,
        List.filter_cons_of_pos hv]
      · simp
      · intro x hx f hf
        rcases List.mem_append.mp hx with hx | hx
        · exact ht x hx f (List.mem_cons_of_mem e hf)
        · rw [List.mem_singleton.mp hx]
          exact fun heq => hnew (List.mem_map.mpr ⟨f, hf, heq.symm⟩)
    · rw [if_neg (fun hne => hv ((and_mask_ne_zero hle hpos).mp hne)), ih htail,
        List.filter_cons_of_neg hv]
      exact fun x hx f hf => ht x hx f (List.mem_cons_of_mem e hf)

theorem WellFormed.getLsbD_named (m : BitVec 32) (j : Nat) :
    (es.foldl (fun m e => m ||| e.mask) m).getLsbD j = true ↔
      m.getLsbD j = true ∨ ∃ e ∈ es, e.bit = j + 1 := by
  induction es generalizing m with
  | nil => simp
  | cons e es ih =>
    have htail : WellFormed es :=
      ⟨(List.nodup_cons.mp h.nodup).2, fun f hf => h.bit f (List.mem_cons_of_mem e hf)⟩
    rw [List.foldl_cons, ih htail, BitVec.getLsbD_or, Bool.or_eq_true,
      h.mask (List.mem_cons_self ..), List.exists_mem_cons_iff, or_assoc]

/-- The bits of the entries at which the inner loops break. -/
theorem WellFormed.getLsbD_foldl_popFlag (flags : List Bytes) (v : BitVec 32) (j : Nat) :
    (flags.foldl (popFlag es) v).getLsbD j = true ↔
      v.getLsbD j = true ∨ ∃ flag ∈ flags, ∃ e, lookup es flag = some e ∧ e.bit = j + 1 := by
  induction flags generalizing v with
  | nil => simp
  | cons flag flags ih =>
    have hpop : (popFlag es v flag).getLsbD j = true ↔
        v.getLsbD j = true ∨ ∃ e, lookup es flag = some e ∧ e.bit = j + 1 := by
      rw [popFlag]
      cases hlookup : lookup es flag with
      | none => simp
      | some e =>
        rw [BitVec.getLsbD_or, Bool.or_eq_true, h.mask (List.mem_of_find?_eq_some hlookup)]
        simp
    rw [List.foldl_cons, ih, hpop, List.exists_mem_cons_iff, or_assoc]

end Bits

theorem pop_flags_array_strings (flags : List Bytes) (bits : Bytes) :
    pop_flags_array (flags.map some) bits = some (flags.foldl (popFlag (entries bits)) 0) := by
  suffices h : ∀ v, (flags.map some).foldlM
      (fun v value => value.map (popFlag (entries bits) v)) v =
      some (flags.foldl (popFlag (entries bits)) v) from h 0
  induction flags with
  | nil => exact fun v => rfl
  | cons flag flags ih => exact fun v => ih _

/-- The names that `lua_next` visits are those of the entries that are set. -/
theorem mem_push_flags_array {bits : Bytes} (h : WellFormed (entries bits)) (v : BitVec 32)
    (flag : Bytes) :
    flag ∈ (push_flags_array v bits).map Prod.snd ↔
      ∃ e ∈ entries bits, e.setIn v = true ∧ e.name = flag := by
  rw [push_flags_array, h.foldl_push v [] (fun x hx => nomatch hx), List.nil_append, List.map_map]
  simp only [List.mem_map, List.mem_filter, Function.comp_apply, and_assoc]

/-! ## The round trip -/

section RoundTrip
variable {bits : Bytes} {v : BitVec 32} {order : List Bytes}

theorem getLsbD_popped (h : WellFormed (entries bits))
    (horder : order.Perm ((push_flags_array v bits).map Prod.snd)) (j : Nat) :
    (order.foldl (popFlag (entries bits)) 0).getLsbD j = true ↔
      ∃ e ∈ entries bits, e.setIn v = true ∧
        ∃ f, lookup (entries bits) e.name = some f ∧ f.bit = j + 1 := by
  rw [h.getLsbD_foldl_popFlag]
  constructor
  · rintro (hzero | ⟨flag, hflag, f, hf, hbit⟩)
    · simp at hzero
    · obtain ⟨e, he, hv, rfl⟩ := (mem_push_flags_array h v flag).mp (horder.mem_iff.mp hflag)
      exact ⟨e, he, hv, f, hf, hbit⟩
  · rintro ⟨e, he, hv, f, hf, hbit⟩
    exact Or.inr ⟨e.name, horder.mem_iff.mpr ((mem_push_flags_array h v e.name).mpr
      ⟨e, he, hv, rfl⟩), f, hf, hbit⟩

theorem getLsbD_and_named (h : WellFormed (entries bits)) (j : Nat) :
    (v &&& named bits).getLsbD j = true ↔
      ∃ e ∈ entries bits, e.setIn v = true ∧ e.bit = j + 1 := by
  rw [BitVec.getLsbD_and, Bool.and_eq_true, named, h.getLsbD_named]
  constructor
  · rintro ⟨hv, hzero | ⟨e, he, hbit⟩⟩
    · simp at hzero
    · exact ⟨e, he, by rwa [Entry.setIn, hbit, Nat.add_sub_cancel], hbit⟩
  · rintro ⟨e, he, hv, hbit⟩
    rw [Entry.setIn, hbit, Nat.add_sub_cancel] at hv
    exact ⟨hv, Or.inr ⟨e, he, hbit⟩⟩

theorem popped_eq_iff (h : WellFormed (entries bits))
    (horder : order.Perm ((push_flags_array v bits).map Prod.snd)) :
    order.foldl (popFlag (entries bits)) 0 = v &&& named bits ↔
      ∀ e ∈ entries bits, e.setIn v = true → ¬ Shadowed (entries bits) e := by
  constructor
  · -- the bit of a shadowed entry does not come back
    intro heq e he hv hshadowed
    have hset : (v &&& named bits).getLsbD (e.bit - 1) = true :=
      (getLsbD_and_named h _).mpr ⟨e, he, hv, (Nat.sub_add_cancel (h.bit e he).1).symm⟩
    rw [← heq] at hset
    obtain ⟨g, hg, _, f, hf, hbit⟩ := (getLsbD_popped h horder _).mp hset
    have hfe : f = e := by
      refine h.eq_of_bit (List.mem_of_find?_eq_some hf) he ?_
      rw [hbit, Nat.sub_add_cancel (h.bit e he).1]
    rw [lookup_eq, hfe] at hf
    exact find?_ne_of_shadowed hshadowed g.name hf
  · -- every name finds its own entry, so the same bits are set
    intro hclear
    have hfound : ∀ e ∈ entries bits, e.setIn v = true →
        lookup (entries bits) e.name = some e := by
      intro e he hv
      rw [lookup_eq]
      exact (find?_name_eq_some he).mpr (hclear e he hv)
    refine BitVec.eq_of_getLsbD_eq (fun j _ => Bool.eq_iff_iff.mpr ?_)
    rw [getLsbD_popped h horder, getLsbD_and_named h]
    refine exists_congr (fun e => and_congr_right (fun he => and_congr_right (fun hv => ?_)))
    rw [hfound e he hv]
    simp

end RoundTrip

/-- `RXCSUM_IPV6` and `TXCSUM_IPV6` begin with `RXCSUM` and `TXCSUM`. -/
theorem shadowed_IFCAPBITS :
    ((entries IFCAPBITS).filter (fun e => Shadowed (entries IFCAPBITS) e)).map Entry.bit =
      [22, 23] := by
  decide +kernel

theorem clear_IFCAPBITS (v : BitVec 32) :
    (∀ e ∈ entries IFCAPBITS, e.setIn v = true → ¬ Shadowed (entries IFCAPBITS) e) ↔
      v.getLsbD 21 = false ∧ v.getLsbD 22 = false := by
  have hbits : (∀ e ∈ entries IFCAPBITS, e.setIn v = true →
      ¬ Shadowed (entries IFCAPBITS) e) ↔
      ∀ b ∈ ((entries IFCAPBITS).filter (fun e => Shadowed (entries IFCAPBITS) e)).map Entry.bit,
        v.getLsbD (b - 1) = false := by
    simp only [List.mem_map, List.mem_filter, decide_eq_true_eq]
    constructor
    · rintro hclear b ⟨e, ⟨he, hshadowed⟩, rfl⟩
      exact Bool.eq_false_iff.mpr (fun hv => hclear e he hv hshadowed)
    · intro hclear e he hv hshadowed
      rw [Entry.setIn, hclear e.bit ⟨e, ⟨he, hshadowed⟩, rfl⟩] at hv
      cases hv
  rw [hbits, shadowed_IFCAPBITS]
  simp

/-- **The round trip**: the flags come back exactly when no flag that is set has a name
that begins with the name of an earlier one; for the capabilities these are the two
`_IPV6` checksums. -/
theorem flags_round_trip (v : BitVec 32) (order : List Bytes) :
    (∀ bits : Bytes, WellFormed (entries bits) →
      order.Perm ((push_flags_array v bits).map Prod.snd) →
      (pop_flags_array (order.map some) bits = some (v &&& named bits) ↔
        ∀ e ∈ entries bits, e.setIn v = true → ¬ Shadowed (entries bits) e)) ∧
    ∀ (name : Bytes) (reqcap : BitVec 32),
      order.Perm ((l_ifconfig_get_capabilities v reqcap).enabled.map Prod.snd) →
      (l_ifconfig_set_capabilities name (order.map some) =
          some (name, v &&& named IFCAPBITS) ↔
        v.getLsbD 21 = false ∧ v.getLsbD 22 = false) := by
  constructor
  · intro bits h horder
    rw [pop_flags_array_strings, Option.some_inj]
    exact popped_eq_iff h horder
  · intro name reqcap horder
    have h : WellFormed (entries IFCAPBITS) :=
      moduleTables_wellFormed IFCAPBITS (List.mem_cons_of_mem _ (List.mem_cons_self ..))
    rw [l_ifconfig_set_capabilities, pop_flags_array_strings, Option.map_some, Option.some_inj,
      Prod.mk.injEq, and_iff_right rfl, popped_eq_iff h horder]
    exact clear_IFCAPBITS v

/-- `TXCSUM` and `RXCSUM`, visited in this order. -/
theorem flags_round_trip_checksums :
    pop_flags_array ([ascii "TXCSUM", ascii "RXCSUM"].map some) IFCAPBITS =
      some (3#32 &&& named IFCAPBITS) :=
  ((flags_round_trip 3#32 [ascii "TXCSUM", ascii "RXCSUM"]).1 IFCAPBITS (by decide +kernel)
    (by decide +kernel)).mpr (by decide +kernel)

/-- `RXCSUM_IPV6` alone comes back as `RXCSUM`. -/
theorem not_flags_round_trip :
    ¬ ∀ bits ∈ moduleTables, ∀ (v : BitVec 32) (order : List Bytes),
      order.Perm ((push_flags_array v bits).map Prod.snd) →
        pop_flags_array (order.map some) bits = some (v &&& named bits) := by
  intro h
  have hpopped := h IFCAPBITS (List.mem_cons_of_mem _ (List.mem_cons_self ..)) 0x200000#32
    [ascii "RXCSUM_IPV6"] (by decide +kernel)
  revert hpopped
  decide +kernel

end Ifconfig
end FluaLibs
