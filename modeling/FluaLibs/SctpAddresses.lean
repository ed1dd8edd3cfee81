import FluaLibs.ResourceTrace
import FluaLibs.SocketAddresses

/-! # Lists of socket addresses

`checkaddrs` goes through a list of addresses twice: it adds up the sizes, and then packs
the addresses into a buffer of that size, one behind the other.  It goes on from an address
by the length that it has stored there, which is one byte, and so does `pushaddrs`, which
makes a list of a buffer.  An address whose length does not fit the byte is written over
by the next.

A metamethod may give another value each time, so what is read of a list is also
identified by the pass (`Pass`).
-/
namespace FluaLibs
namespace SctpAddrs
open LuaArguments
open Sockets (Address storeFamily storeData dataOffset familyOffset pushaddr)

/-- The two loops. -/
inductive Pass where
  | sizes
  | stores
  deriving DecidableEq

/-- What is outside the module.  A field is read of an element with some index. -/
structure Env where
  host : Host
  len : Nat → Except Raised Int
  geti : Pass → Nat → Nat → Except Raised Value
  getfield : Pass → Nat → Value → String → Except Raised Value
  malloc : Nat → Bool

/-! ## The code -/

def badAddress (idx : Int) : Raised := .argerror idx "invalid sockaddr"

/-- The first loop, for a number of elements from the index `i` on. -/
def addSizes (env : Env) (idx : Int) (table : Nat) : Nat → Nat → Nat → Except Raised Nat
  | 0, _, size => .ok size
  | n + 1, i, size => do
    let v ← env.geti .sizes table i
    match ← env.getfield .sizes i v "data" with
    | .string data => addSizes env idx table n (i + 1) ((size + data.length) % 2 ^ 64)
    | _ => .error (badAddress idx)

/-- `sa_len` after it has been stored. -/
def lengthByte (data : List UInt8) : Nat := (UInt8.ofNat (data.length + dataOffset)).toNat

/-- What has been stored in the buffer, what becomes of the buffer before the result or the
error. -/
structure Packing (α : Type) where
  stores : List ByteStore
  uses : List ResourceUse
  result : Except Raised α

/-- The second loop, from the address `sa` on.  The buffer is freed where an element is refused,
but not where a metamethod raises an error.  `lua_tolstring` gives a null pointer and no length
where there is no string. -/
def packAddrs (env : Env) (idx : Int) (table : Nat) : Nat → Nat → Nat → Packing Unit
  | 0, _, _ => ⟨[], [], .ok ()⟩
  | n + 1, i, sa =>
    match env.geti .stores table i with
    | .error e => ⟨[], [], .error e⟩
    | .ok v =>
      match env.getfield .stores i v "family" with
      | .error e => ⟨[], [], .error e⟩
      | .ok (.integer family) =>
        match env.getfield .stores i v "data" with
        | .error e => ⟨[storeFamily sa family], [], .error e⟩
        | .ok d =>
          let data := (tolstring env.host d).getD []
          let rest := packAddrs env idx table n (i + 1) (sa + lengthByte data)
          ⟨(storeFamily sa family :: storeData sa data) ++ rest.stores, rest.uses, rest.result⟩
      | .ok _ => ⟨[], [.release], .error (badAddress idx)⟩

/-- The number of addresses, and the size of the buffer. -/
structure Packed where
  num : Nat
  size : Nat
  deriving DecidableEq

/-- `checkaddrs`, where the buffer is at `addrs` if there is one. -/
def checkaddrs (env : Env) (idx : Int) (v : Option Value) (addrs : Nat) : Packing Packed :=
  match v with
  | some (.table r) =>
    match env.len r with
    | .error e => ⟨[], [], .error e⟩
    | .ok len =>
      let n := (IntType.uint64.wrap len).toNat
      if n = 0 then ⟨[], [], .error (.argerror 2 "must give at least one address")⟩
      else
        match addSizes env idx r n 1 (n * dataOffset % 2 ^ 64) with
        | .error e => ⟨[], [], .error e⟩
        | .ok size =>
          if env.malloc size then
            let packing := packAddrs env idx r n 1 addrs
            ⟨packing.stores, .acquire :: packing.uses, packing.result.map (fun _ => ⟨n, size⟩)⟩
          else ⟨[], [], .error (.fatal "malloc" ENOMEM)⟩
  | _ => ⟨[], [], .error (.typeerror idx "table")⟩

/-- What `pushaddrs` reads, the addresses that it makes tables of if Lua takes their lengths,
and where it ends. -/
structure Reading where
  reads : List Extent
  list : Option (List Address)
  finish : Nat

/-- `pushaddrs`, for a number of addresses from `sa` on. -/
def pushaddrs (m : ByteMemory) : Nat → Nat → Reading
  | 0, sa => ⟨[], some [], sa⟩
  | n + 1, sa =>
    match pushaddr m sa with
    | none => ⟨[⟨sa, dataOffset⟩], none, sa⟩
    | some a =>
      let rest := pushaddrs m n (sa + (m sa).toNat)
      ⟨⟨sa, dataOffset + a.data.length⟩ :: rest.reads, rest.list.map (a :: ·), rest.finish⟩

/-! ## Lists that are accepted -/

/-- The elements of a list from the index `i` on. -/
def Elements (env : Env) (pass : Pass) (r i : Nat) (as : List Address) : Prop :=
  ∀ k (hk : k < as.length), ∃ v, env.geti pass r (i + k) = .ok v ∧
    env.getfield pass (i + k) v "family" = .ok (.integer as[k].family) ∧
    env.getfield pass (i + k) v "data" = .ok (.string as[k].data)

/-- A list: in both passes, the elements have the families and the data. -/
structure Gives (env : Env) (r : Nat) (as : List Address) : Prop where
  len : env.len r = .ok as.length
  small : as.length < 2 ^ 63
  elements (pass : Pass) : Elements env pass r 1 as

/-- The size of some addresses. -/
def total (as : List Address) : Nat := (as.map (fun a => dataOffset + a.data.length)).sum

/-- What is stored for some addresses. -/
def packStores : Nat → List Address → List ByteStore
  | _, [] => []
  | sa, a :: as =>
    (storeFamily sa a.family :: storeData sa a.data) ++ packStores (sa + lengthByte a.data) as

section Accepting
variable {env : Env} {r : Nat} {as : List Address} {idx : Int}

theorem Elements.tail {pass : Pass} {i : Nat} {a : Address}
    (h : Elements env pass r i (a :: as)) : Elements env pass r (i + 1) as := by
  intro k hk
  obtain ⟨v, hv⟩ := h (k + 1) (Nat.succ_lt_succ hk)
  rw [Nat.add_assoc, Nat.add_comm 1 k]
  exact ⟨v, hv⟩

theorem addSizes_elements {i : Nat} (h : Elements env .sizes r i as) (size : Nat) :
    addSizes env idx r as.length i (size % 2 ^ 64) =
      .ok ((size + (as.map (·.data.length)).sum) % 2 ^ 64) := by
  induction as generalizing i size with
  | nil => rfl
  | cons a as ih =>
    obtain ⟨v, hv, -, hdata⟩ := h 0 (Nat.succ_pos _)
    have hmod : (size % 2 ^ 64 + a.data.length) % 2 ^ 64 = (size + a.data.length) % 2 ^ 64 :=
      Nat.mod_add_mod ..
    have hrest := ih h.tail (size + a.data.length)
    rw [Nat.add_zero] at hv hdata
    simp only [List.length_cons, addSizes, hv, bind, Except.bind, hdata, List.getElem_cons_zero,
      hmod, hrest, List.map_cons, List.sum_cons, Nat.add_assoc]

theorem packAddrs_elements {i : Nat} (h : Elements env .stores r i as) (sa : Nat) :
    packAddrs env idx r as.length i sa = ⟨packStores sa as, [], .ok ()⟩ := by
  induction as generalizing i sa with
  | nil => rfl
  | cons a as ih =>
    obtain ⟨v, hv, hfamily, hdata⟩ := h 0 (Nat.succ_pos _)
    rw [Nat.add_zero] at hv hfamily hdata
    rw [List.getElem_cons_zero] at hfamily hdata
    have hrest := ih h.tail (sa + lengthByte a.data)
    simp only [List.length_cons, packAddrs, hv, hfamily, hdata, tolstring, Option.getD_some,
      hrest, packStores]

theorem total_eq (as : List Address) :
    as.length * dataOffset + (as.map (·.data.length)).sum = total as := by
  induction as with
  | nil => rfl
  | cons a as ih =>
    rw [total] at ih ⊢
    simp only [List.length_cons, List.map_cons, List.sum_cons, ← ih]
    ring

/-- **What `checkaddrs` does with a list.** -/
theorem checkaddrs_list (h : Gives env r as) (hne : as ≠ [])
    (hmalloc : env.malloc (total as % 2 ^ 64) = true) (idx : Int) (addrs : Nat) :
    checkaddrs env idx (some (.table r)) addrs =
      ⟨packStores addrs as, [.acquire], .ok ⟨as.length, total as % 2 ^ 64⟩⟩ := by
  have hholds : IntType.uint64.Holds (as.length : Int) := by
    have hsmall := h.small
    show 0 ≤ (as.length : Int) ∧ (as.length : Int) < 2 ^ 64
    omega
  have hn : (IntType.uint64.wrap as.length).toNat = as.length := by
    rw [IntType.wrap_of_holds hholds, Int.toNat_natCast]
  have hpos : as.length ≠ 0 := fun h => hne (List.length_eq_zero_iff.mp h)
  have hsizes : addSizes env idx r as.length 1 (as.length * dataOffset % 2 ^ 64) =
      .ok (total as % 2 ^ 64) := by
    rw [addSizes_elements (h.elements .sizes), total_eq]
  simp only [checkaddrs, h.len, hn, hpos, if_false, hsizes, hmalloc, if_true,
    packAddrs_elements (h.elements .stores)]
  rfl

end Accepting

/-! ## What is packed and read back -/

/-- An address whose family and length are bytes. -/
def Fits (a : Address) : Prop := IntType.uint8.Holds a.family ∧ dataOffset + a.data.length ≤ 255

instance (a : Address) : Decidable (Fits a) := inferInstanceAs (Decidable (_ ∧ _))

/-- A memory with an address at `sa`. -/
structure HoldsAt (m : ByteMemory) (sa : Nat) (a : Address) : Prop where
  len : (m sa).toNat = dataOffset + a.data.length
  family : (m (sa + familyOffset)).toNat = a.family
  data : m.load (sa + dataOffset) a.data.length = a.data

/-- A memory with some addresses one behind the other. -/
def Holds (m : ByteMemory) : Nat → List Address → Prop
  | _, [] => True
  | sa, a :: as => HoldsAt m sa a ∧ Holds m (sa + (dataOffset + a.data.length)) as

section Packing
variable {m : ByteMemory} {sa : Nat} {a : Address} {as : List Address}

theorem lengthByte_of_fits (h : Fits a) : lengthByte a.data = dataOffset + a.data.length := by
  have hlength := h.2
  have hlt : a.data.length + dataOffset < 2 ^ 8 := by omega
  rw [lengthByte, UInt8.toNat_ofNat_of_lt' hlt, Nat.add_comm]

theorem total_cons (a : Address) (as : List Address) :
    total (a :: as) = dataOffset + a.data.length + total as := by
  rw [total, List.map_cons, List.sum_cons, total]

theorem packStores_cons (h : Fits a) (sa : Nat) (as : List Address) :
    packStores sa (a :: as) = (storeFamily sa a.family :: storeData sa a.data) ++
      packStores (sa + (dataOffset + a.data.length)) as := by
  rw [packStores, lengthByte_of_fits h]

/-- What is stored for an address is in its part of the buffer. -/
theorem packStores_within (h : ∀ a ∈ as, Fits a) :
    ∀ s ∈ packStores sa as, s.Within sa (total as) := by
  induction as generalizing sa with
  | nil => exact List.forall_mem_nil _
  | cons a as ih =>
    obtain ⟨ha, has⟩ := List.forall_mem_cons.mp h
    rw [packStores_cons ha, total_cons]
    have hrest : ∀ s ∈ packStores (sa + (dataOffset + a.data.length)) as,
        s.Within (sa + (dataOffset + a.data.length)) (total as) := ih has
    simp only [storeFamily, storeData, List.cons_append, List.nil_append, List.forall_mem_cons,
      ByteStore.Within, List.length_singleton, dataOffset, familyOffset] at hrest ⊢
    refine ⟨by omega, by omega, by omega, fun s hs => ?_⟩
    obtain ⟨hlow, hhigh⟩ := hrest s hs
    omega

/-- The stores for an address, followed by others behind it. -/
theorem holdsAt_stored (h : Fits a) (m : ByteMemory) {rest : List ByteStore}
    (hrest : ∀ s ∈ rest, ∀ b, b < sa + (dataOffset + a.data.length) → ¬ s.Covers b) :
    HoldsAt (ByteStore.run m (storeFamily sa a.family :: storeData sa a.data ++ rest)) sa a := by
  let family := storeFamily sa a.family
  let data : ByteStore := ⟨sa + dataOffset, a.data⟩
  let len : ByteStore := ⟨sa, [UInt8.ofNat (a.data.length + dataOffset)]⟩
  have hdata : ∀ b, b < sa + dataOffset → ¬ data.Covers b := by
    rintro b hb ⟨hle, -⟩
    exact absurd hb (Nat.not_lt.mpr hle)
  have hlen : ∀ b, sa < b → ¬ len.Covers b := by
    rintro b hb ⟨-, hlt⟩
    exact absurd hlt (by show ¬ b < sa + 1; omega)
  refine ⟨?_, ?_, ?_⟩
  · have hbyte : ByteStore.run m ([family, data] ++ len :: rest) sa =
        UInt8.ofNat (a.data.length + dataOffset) :=
      ByteStore.byte_stored fun s hs => hrest s hs sa (by rw [dataOffset]; omega)
    exact (congrArg UInt8.toNat hbyte).trans (lengthByte_of_fits h)
  · have hafter : ∀ s ∈ data :: len :: rest, ¬ s.Covers (sa + familyOffset) := by
      simp only [List.forall_mem_cons]
      refine ⟨hdata _ ?_, hlen _ ?_, fun s hs => hrest s hs _ ?_⟩
      all_goals simp only [familyOffset, dataOffset]; omega
    have hbyte : ByteStore.run m (family :: data :: len :: rest) (sa + familyOffset) =
        UInt8.ofNat (IntType.uint8.wrap a.family).toNat := ByteStore.byte_stored_first hafter
    have hwrap : IntType.uint8.wrap a.family = a.family := IntType.wrap_of_holds h.1
    have hfamily : 0 ≤ a.family ∧ a.family < 2 ^ 8 := h.1
    refine (congrArg (fun b : UInt8 => (b.toNat : Int)) hbyte).trans ?_
    rw [hwrap, UInt8.toNat_ofNat_of_lt' (by show _ < 256; omega)]
    omega
  · have hafter : ∀ s ∈ len :: rest, ∀ b, data.Covers b → ¬ s.Covers b := by
      simp only [List.forall_mem_cons]
      refine ⟨fun b hb => hlen b ?_, fun s hs b hb => hrest s hs b ?_⟩
      · have hle : sa + 2 ≤ b := hb.1
        omega
      · have hlt : b < sa + 2 + a.data.length := hb.2
        show b < sa + (2 + a.data.length)
        omega
    have hload : (ByteStore.run m ([family] ++ data :: len :: rest)).load data.addr
        data.bytes.length = data.bytes := ByteStore.load_stored hafter
    exact hload

/-- **What is packed is there.** -/
theorem holds_packStores (h : ∀ a ∈ as, Fits a) (m : ByteMemory) (sa : Nat) :
    Holds (ByteStore.run m (packStores sa as)) sa as := by
  induction as generalizing m sa with
  | nil => exact True.intro
  | cons a as ih =>
    obtain ⟨ha, has⟩ := List.forall_mem_cons.mp h
    rw [packStores_cons ha]
    refine ⟨holdsAt_stored ha m fun s hs b hb => ?_, ?_⟩
    · exact ByteStore.not_covers_of_within (packStores_within has s hs) (Or.inl hb)
    · rw [ByteStore.run_append]
      exact ih has _ _

/-- `pushaddr` of an address that is there. -/
theorem pushaddr_of_holdsAt (h : HoldsAt m sa a) : pushaddr m sa = some a := by
  rw [Sockets.pushaddr_of_bytes h.len h.data, h.family]

/-- **What is there is read back**, up to the end of it. -/
theorem pushaddrs_of_holds (h : Holds m sa as) :
    (pushaddrs m as.length sa).list = some as ∧
      (pushaddrs m as.length sa).finish = sa + total as ∧
      ∀ e ∈ (pushaddrs m as.length sa).reads, e.Within sa (total as) := by
  induction as generalizing sa with
  | nil => exact ⟨rfl, rfl, List.forall_mem_nil _⟩
  | cons a as ih =>
    obtain ⟨hat, hbehind⟩ := h
    obtain ⟨hlist, hfinish, hreads⟩ := ih hbehind
    rw [List.length_cons, pushaddrs, pushaddr_of_holdsAt hat]
    simp only [hat.len]
    refine ⟨?_, ?_, ?_⟩
    · rw [hlist]
      rfl
    · rw [hfinish, total_cons]
      omega
    · rw [total_cons, List.forall_mem_cons]
      refine ⟨⟨Nat.le_refl sa, ?_⟩, fun e he => ?_⟩
      · show sa + (dataOffset + a.data.length) ≤ sa + (dataOffset + a.data.length + total as)
        omega
      · obtain ⟨hlow, hhigh⟩ := hreads e he
        exact ⟨by omega, by omega⟩

/-- An address that `pushaddr` makes a table of fits. -/
theorem fits_of_pushaddr (h : pushaddr m sa = some a) : Fits a := by
  have hfamily := (m (sa + familyOffset)).toNat_lt
  have hbyte := (m sa).toNat_lt
  unfold pushaddr at h
  dsimp only at h
  split at h
  · next hsmall =>
    cases h
    refine ⟨⟨Int.natCast_nonneg _, ?_⟩, ?_⟩
    · show ((m (sa + familyOffset)).toNat : Int) < 2 ^ 8
      omega
    · have hwrap : IntType.uint64.wrap ((m sa).toNat - dataOffset) =
          ((m sa).toNat - 2 : Int) % 2 ^ 64 := rfl
      rw [hwrap, MAX_SIZE] at hsmall
      rw [ByteMemory.load_length, hwrap, dataOffset]
      omega
  · cases h

theorem fits_of_pushaddrs {n : Nat} (h : (pushaddrs m n sa).list = some as) :
    ∀ a ∈ as, Fits a := by
  induction n generalizing sa as with
  | zero =>
    cases h
    exact List.forall_mem_nil _
  | succ n ih =>
    rw [pushaddrs] at h
    split at h
    · cases h
    · next a ha =>
      obtain ⟨rest, hrest, rfl⟩ := Option.map_eq_some_iff.mp h
      exact List.forall_mem_cons.mpr ⟨fits_of_pushaddr ha, ih hrest⟩

end Packing

/-! ## Round trips -/

section RoundTrips
variable {env : Env} {r : Nat} {as : List Address}

/-- The buffer that was packed at `addrs` holds the addresses and nothing else, and they are
read back within it. -/
structure RoundTrips (w : Packing Packed) (m : ByteMemory) (addrs : Nat) (as : List Address)
    (p : Packed) : Prop where
  packed : w.result = .ok p
  num : p.num = as.length
  stores : ∀ s ∈ w.stores, s.Within addrs p.size
  tiles : (pushaddrs (ByteStore.run m w.stores) p.num addrs).finish = addrs + p.size
  list : (pushaddrs (ByteStore.run m w.stores) p.num addrs).list = some as
  reads : ∀ e ∈ (pushaddrs (ByteStore.run m w.stores) p.num addrs).reads, e.Within addrs p.size

/-- What a list has to be for that. -/
theorem fits_of_roundTrips {w : Packing Packed} {m : ByteMemory} {addrs : Nat} {p : Packed}
    (h : RoundTrips w m addrs as p) : ∀ a ∈ as, Fits a := fits_of_pushaddrs h.list

/-- **A list round-trips exactly if every family is a byte and every length fits the length
byte**, and the size of all of them can be computed. -/
theorem packed_roundTrips_iff (h : Gives env r as) (hne : as ≠ [])
    (hmalloc : env.malloc (total as % 2 ^ 64) = true) (idx : Int) (m : ByteMemory) (addrs : Nat) :
    (∃ p, RoundTrips (checkaddrs env idx (some (.table r)) addrs) m addrs as p) ↔
      (∀ a ∈ as, Fits a) ∧ total as < 2 ^ 64 := by
  rw [checkaddrs_list h hne hmalloc]
  constructor
  · rintro ⟨p, hp⟩
    have hfits := fits_of_roundTrips hp
    obtain ⟨-, hfinish, -⟩ := pushaddrs_of_holds (holds_packStores hfits m addrs)
    have htiles := hp.tiles
    cases hp.packed
    have hsize : total as = total as % 2 ^ 64 := Nat.add_left_cancel (hfinish.symm.trans htiles)
    exact ⟨hfits, by omega⟩
  · rintro ⟨hfits, hsmall⟩
    obtain ⟨hlist, hfinish, hreads⟩ := pushaddrs_of_holds (holds_packStores hfits m addrs)
    rw [Nat.mod_eq_of_lt hsmall]
    exact ⟨_, rfl, rfl, packStores_within hfits, hfinish, hlist, hreads⟩

end RoundTrips

/-! ## Lists of any addresses -/

/-- An environment where every table is a list of some addresses, whose elements are
numbered. -/
def listEnv (as : List Address) : Env where
  host := .plain
  len _ := .ok as.length
  geti _ _ i := .ok (.table i)
  getfield _ i _ key :=
    match as[i - 1]? with
    | some a => .ok (if key = "family" then .integer a.family else .string a.data)
    | none => .ok .nil
  malloc _ := true

theorem listEnv_gives {as : List Address} (h : as.length < 2 ^ 63) (r : Nat) :
    Gives (listEnv as) r as := by
  refine ⟨rfl, h, fun pass k hk => ⟨.table (1 + k), rfl, ?_, ?_⟩⟩
  all_goals
    show (match as[1 + k - 1]? with | some a => _ | none => _) = _
    rw [Nat.add_sub_cancel_left, List.getElem?_eq_getElem hk]
    rfl

/-- `AF_INET` and `AF_INET6` -/
def mixedAddresses : List Address := [⟨2, List.replicate 14 0⟩, ⟨28, List.replicate 26 0⟩]

theorem mixedAddresses_roundTrip :
    ∃ p, RoundTrips (checkaddrs (listEnv mixedAddresses) 2 (some (.table 0)) 64) (fun _ => 0) 64
      mixedAddresses p :=
  (packed_roundTrips_iff (listEnv_gives (by decide) 0) (by decide) rfl 2 (fun _ => 0) 64).mpr
    (by decide)

/-- Its length is 256. -/
def longAddress : Address := ⟨2, List.replicate 254 0⟩

theorem longAddress_not_roundTrip :
    (checkaddrs (listEnv [longAddress]) 2 (some (.table 0)) 64).result = .ok ⟨1, 256⟩ ∧
      ¬ ∃ p, RoundTrips (checkaddrs (listEnv [longAddress]) 2 (some (.table 0)) 64) (fun _ => 0) 64
        [longAddress] p := by
  have hlength : longAddress.data.length = 254 := List.length_replicate
  refine ⟨?_, ?_⟩
  · rw [checkaddrs_list (listEnv_gives (by decide) 0) (List.cons_ne_nil _ _) rfl, total_cons,
      hlength]
    rfl
  · rintro ⟨p, hp⟩
    have hfits := (fits_of_roundTrips hp longAddress (List.mem_singleton_self _)).2
    rw [hlength, dataOffset] at hfits
    omega

end SctpAddrs
end FluaLibs
