import FluaLibs.ByteStores
import FluaLibs.LuaArguments
import FluaLibs.StackCapacity

/-! # Socket addresses

A socket address is a table with a family and data in Lua, and a `struct sockaddr` in C:
one byte with its length, one with the family, and the data.  `checkaddr` writes one
into a `struct sockaddr_storage`, `setsourcefilter` writes one for each source into an
array of these, and `pushaddr` makes a table of one.

Neither of the two that write looks at the length of the data, so what a conversion does
to the memory is a list of stores, wherever they go.  What tables answer is a parameter
(`Env`); a metamethod may give another value each time a field is read, so a field is also
identified by what it is read for: the group address (0), or a source (from 1 on).
-/
namespace FluaLibs
namespace Sockets
open LuaArguments
variable {R : Runtime}

abbrev Bytes : Type := List UInt8

/-- `sizeof(struct sockaddr_storage)` -/
def storageSize : Nat := 128

/-- `offsetof(struct sockaddr, sa_family)` and `offsetof(struct sockaddr, sa_data)`; `sa_len`
is at 0. -/
def familyOffset : Nat := 1
def dataOffset : Nat := 2

/-- A table with an address. -/
structure Address where
  family : Int
  data : Bytes
  deriving DecidableEq

/-- What is outside the module. -/
structure Env where
  host : Host
  len : Nat → Except Raised Int
  geti : Nat → Nat → Except Raised Value
  getfield : Nat → Nat → String → Except Raised Value
  malloc : Nat → Bool
  /-- `setsourcefilter(3)`, with the address of the group and that of the array, and an error
  number, 0 for success. -/
  setsourcefilter : ByteMemory → Int → Int → Nat → Nat → Int → Nat → Nat → Nat

/-! ## The code -/

/-- A conversion: what it writes, and the address or the error it ends with. -/
structure Conversion where
  stores : List ByteStore
  result : Except Raised Address

/-- `sa_family = lua_tointeger(L, -1)` -/
def storeFamily (sa : Nat) (family : Int) : ByteStore :=
  ⟨sa + familyOffset, [UInt8.ofNat (IntType.uint8.wrap family).toNat]⟩

/-- `memcpy(sa_data, data, datalen)` and `sa_len = datalen + offsetof(struct sockaddr, sa_data)` -/
def storeData (sa : Nat) (data : Bytes) : List ByteStore :=
  [⟨sa + dataOffset, data⟩, ⟨sa, [UInt8.ofNat (data.length + dataOffset)]⟩]

/-- `checkaddr`, into the storage at `ss`. -/
def checkaddr (env : Env) (idx : Int) (v : Option Value) (ss : Nat) : Conversion :=
  let clear : ByteStore := ⟨ss, List.replicate storageSize 0⟩
  match v with
  | some (.table r) =>
    match env.getfield 0 r "family" with
    | .error e => ⟨[clear], .error e⟩
    | .ok (.integer family) =>
      match env.getfield 0 r "data" with
      | .error e => ⟨[clear, storeFamily ss family], .error e⟩
      | .ok v =>
        match tolstring env.host v with
        | some data => ⟨[clear, storeFamily ss family] ++ storeData ss data, .ok ⟨family, data⟩⟩
        | none => ⟨[clear, storeFamily ss family], .error (.argerror idx "invalid address data")⟩
    | .ok _ => ⟨[clear], .error (.argerror idx "invalid address family")⟩
  | _ => ⟨[clear], .error (.typeerror idx "table")⟩

def badSource : Raised := .argerror 5 "invalid sockaddr"

/-- A round of the loop in `l_setsourcefilter`, for the value of the source with the index `i`
and the element of the array at `sa`.  The arguments of `memcpy` are evaluated from left to
right. -/
def convertSource (env : Env) (i : Nat) (v : Value) (sa : Nat) : Conversion :=
  match v with
  | .table r =>
    match env.getfield (i + 1) r "family" with
    | .error e => ⟨[], .error e⟩
    | .ok (.integer family) =>
      match env.getfield (i + 1) r "data" with
      | .error e => ⟨[storeFamily sa family], .error e⟩
      | .ok (.string data) => ⟨[storeFamily sa family] ++ storeData sa data, .ok ⟨family, data⟩⟩
      | .ok _ => ⟨[storeFamily sa family], .error badSource⟩
    | .ok _ => ⟨[], .error badSource⟩
  | _ => ⟨[], .error badSource⟩

/-- The element of the array with the index `i`. -/
def slot (slist i : Nat) : Nat := slist + storageSize * i

/-- What a part of the function has written, and its result or the error it ends with. -/
structure Writing (α : Type) where
  stores : List ByteStore
  result : Except Raised α

/-- The loop, for a number of sources from the one with the index `i` on. -/
def convertSources (env : Env) (table slist : Nat) : Nat → Nat → Writing (List Address)
  | 0, _ => ⟨[], .ok []⟩
  | n + 1, i =>
    match env.geti table (i + 1) with
    | .error e => ⟨[], .error e⟩
    | .ok v =>
      let source := convertSource env i v (slot slist i)
      match source.result with
      | .error e => ⟨source.stores, .error e⟩
      | .ok address =>
        let rest := convertSources env table slist n (i + 1)
        ⟨source.stores ++ rest.stores, rest.result.map (address :: ·)⟩

/-- The arguments of `l_setsourcefilter` after the group address. -/
structure FilterArguments where
  fmode : Int
  table : Nat
  numsrc : Nat

def filterArguments (env : Env) (L : LuaState R) : Except Raised FilterArguments := do
  let fmode ← checkinteger env.host 4 (L.index 4)
  match L.index 5 with
  | none | some .nil => pure ⟨IntType.uint32.wrap fmode, 0, 0⟩
  | some (.table r) =>
    let len ← env.len r
    pure ⟨IntType.uint32.wrap fmode, r, (IntType.uint32.wrap len).toNat⟩
  | _ => .error (.typeerror 5 "table")

/-- `l_setsourcefilter`, with `gs` at one address and the array, if there is one, at another:
the error number of the system call. -/
def l_setsourcefilter (env : Env) (m : ByteMemory) (gs slist : Nat) (L : LuaState R) :
    Writing Nat :=
  match checkfd env.host 1 (L.index 1), checkinteger env.host 2 (L.index 2) with
  | .error e, _ | .ok _, .error e => ⟨[], .error e⟩
  | .ok s, .ok interface =>
    let group := checkaddr env 3 (L.index 3) gs
    match group.result, filterArguments env L with
    | .error e, _ | .ok _, .error e => ⟨group.stores, .error e⟩
    | .ok _, .ok a =>
      if a.numsrc = 0 ∨ env.malloc (a.numsrc * storageSize) then
        let sources := convertSources env a.table slist a.numsrc 0
        let stores := group.stores ++ sources.stores
        let after := ByteStore.run m stores
        ⟨stores, sources.result.map (fun _ =>
          env.setsourcefilter after s (IntType.uint32.wrap interface) gs (after gs).toNat a.fmode
            a.numsrc (if a.numsrc = 0 then 0 else slist))⟩
      else ⟨group.stores, .error (.fatal "malloc" ENOMEM)⟩

/-- `pushaddr`: the table, or nothing if Lua refuses the length of the data. -/
def pushaddr (m : ByteMemory) (addr : Nat) : Option Address :=
  let len := (IntType.uint64.wrap ((m addr).toNat - dataOffset)).toNat
  if len < MAX_SIZE then
    some ⟨(m (addr + familyOffset)).toNat, m.load (addr + dataOffset) len⟩
  else none

/-! ## The addresses that are given -/

/-- The places where an address is converted: an argument, and an element of the list of
sources. -/
inductive Place where
  | argument (idx : Int) (v : Option Value)
  | source (i : Nat) (v : Value)

namespace Place
variable (env : Env)

def convert (sa : Nat) : Place → Conversion
  | argument idx v => checkaddr env idx v sa
  | source i v => convertSource env i v sa

/-- The group is number 0, the sources have the numbers from 1 on. -/
def number : Place → Nat
  | argument _ _ => 0
  | source i _ => i + 1

def value : Place → Option Value
  | argument _ v => v
  | source _ v => some v

/-- Data may be a number in an argument. -/
def dataOf : Place → Value → Option Bytes
  | argument _ _, v => tolstring env.host v
  | source _ _, .string s => some s
  | source _ _, _ => none

/-- A table gives an address: an integer and data. -/
def Gives (place : Place) (a : Address) : Prop :=
  ∃ r v, place.value = some (.table r) ∧
    env.getfield place.number r "family" = .ok (.integer a.family) ∧
    env.getfield place.number r "data" = .ok v ∧ place.dataOf env v = some a.data

end Place

section Conversions
variable {env : Env} {place : Place} {a : Address} {sa : Nat} {m : ByteMemory}

/-- What a conversion writes before the family. -/
def Place.first (sa : Nat) : Place → List ByteStore
  | argument _ _ => [⟨sa, List.replicate storageSize 0⟩]
  | source _ _ => []

/-- What the conversion of an address writes. -/
def addressStores (place : Place) (a : Address) (sa : Nat) : List ByteStore :=
  place.first sa ++ storeFamily sa a.family :: storeData sa a.data

theorem convert_of_gives (h : place.Gives env a) (sa : Nat) :
    place.convert env sa = ⟨addressStores place a sa, .ok a⟩ := by
  obtain ⟨r, v, hvalue, hfamily, hdata, hv⟩ := h
  cases place with
  | argument idx w =>
    change w = some (.table r) at hvalue
    change env.getfield 0 r "family" = _ at hfamily
    change env.getfield 0 r "data" = _ at hdata
    change tolstring env.host v = _ at hv
    simp only [Place.convert, checkaddr, hvalue, hfamily, hdata, hv]
    rfl
  | source i w =>
    change some w = some (.table r) at hvalue
    change env.getfield (i + 1) r "family" = _ at hfamily
    change env.getfield (i + 1) r "data" = _ at hdata
    cases hvalue
    cases v with
    | string s =>
      cases hv
      simp only [Place.convert, convertSource, hfamily, hdata]
      rfl
    | _ => cases hv

theorem storeFamily_within (sa : Nat) (family : Int) :
    (storeFamily sa family).Within sa storageSize := by
  constructor
  · exact Nat.le_add_right _ _
  · show sa + 1 + 1 ≤ sa + 128
    omega

theorem clear_within (sa : Nat) :
    (⟨sa, List.replicate storageSize 0⟩ : ByteStore).Within sa storageSize := by
  refine ⟨Nat.le_refl _, ?_⟩
  rw [List.length_replicate]

/-- **A conversion** is that of an address, or raises an error and has written no more than
the family. -/
theorem convert_cases (env : Env) (place : Place) (sa : Nat) :
    (∃ a, place.Gives env a) ∨
    ((∃ e, (place.convert env sa).result = .error e) ∧
      ∀ s ∈ (place.convert env sa).stores, s.Within sa storageSize) := by
  have hclear := clear_within sa
  have hboth (family : Int) : ∀ s ∈ ([⟨sa, List.replicate storageSize 0⟩,
      storeFamily sa family] : List ByteStore), s.Within sa storageSize := by
    intro s hs
    rcases List.mem_cons.mp hs with rfl | hs
    · exact hclear
    · exact List.mem_singleton.mp hs ▸ storeFamily_within sa family
  cases place with
  | argument idx v =>
    unfold Place.convert checkaddr
    dsimp only
    split
    · next r =>
      split
      · exact Or.inr ⟨⟨_, rfl⟩, by simpa using hclear⟩
      · next family hfamily =>
        split
        · exact Or.inr ⟨⟨_, rfl⟩, hboth family⟩
        · next v hdata =>
          split
          · next data hv => exact Or.inl ⟨⟨family, data⟩, r, v, rfl, hfamily, hdata, hv⟩
          · exact Or.inr ⟨⟨_, rfl⟩, hboth family⟩
      · exact Or.inr ⟨⟨_, rfl⟩, by simpa using hclear⟩
    · exact Or.inr ⟨⟨_, rfl⟩, by simpa using hclear⟩
  | source i v =>
    unfold Place.convert convertSource
    dsimp only
    split
    · next r =>
      split
      · exact Or.inr ⟨⟨_, rfl⟩, List.forall_mem_nil _⟩
      · next family hfamily =>
        split
        · exact Or.inr ⟨⟨_, rfl⟩, by simpa using storeFamily_within sa family⟩
        · next data hdata =>
          exact Or.inl ⟨⟨family, data⟩, r, .string data, rfl, hfamily, hdata, rfl⟩
        · exact Or.inr ⟨⟨_, rfl⟩, by simpa using storeFamily_within sa family⟩
      · exact Or.inr ⟨⟨_, rfl⟩, List.forall_mem_nil _⟩
    · exact Or.inr ⟨⟨_, rfl⟩, List.forall_mem_nil _⟩

/-! ## What is read back -/

/-- The data has room in the storage. -/
def Address.Fits (a : Address) : Prop := dataOffset + a.data.length ≤ storageSize

theorem addressStores_within (h : a.Fits) :
    ∀ s ∈ addressStores place a sa, s.Within sa storageSize := by
  intro s hs
  have hfits : 2 + a.data.length ≤ 128 := h
  rcases List.mem_append.mp hs with hfirst | hrest
  · cases place with
    | argument idx v => exact List.mem_singleton.mp hfirst ▸ clear_within sa
    | source i v => cases hfirst
  · simp only [storeData, List.mem_cons, List.not_mem_nil, or_false] at hrest
    rcases hrest with rfl | rfl | rfl
    · exact storeFamily_within sa a.family
    · refine ⟨Nat.le_add_right _ _, ?_⟩
      show sa + 2 + a.data.length ≤ sa + 128
      omega
    · refine ⟨Nat.le_refl _, ?_⟩
      show sa + 1 ≤ sa + 128
      omega

theorem fits_of_within (h : ∀ s ∈ addressStores place a sa, s.Within sa storageSize) :
    a.Fits := by
  have hmem : (⟨sa + dataOffset, a.data⟩ : ByteStore) ∈ addressStores place a sa := by
    simp [addressStores, storeData]
  have hend := (h _ hmem).2
  dsimp only at hend
  rw [Address.Fits]
  omega

/-- The length byte. -/
theorem length_byte (place : Place) (m : ByteMemory) (sa : Nat) (h : a.Fits) :
    (ByteStore.run m (addressStores place a sa) sa).toNat = dataOffset + a.data.length := by
  have hfits : 2 + a.data.length ≤ 128 := h
  have hsplit : addressStores place a sa =
      (place.first sa ++ [storeFamily sa a.family, ⟨sa + dataOffset, a.data⟩]) ++
        ⟨sa, [UInt8.ofNat (a.data.length + dataOffset)]⟩ :: [] := by
    simp [addressStores, storeData]
  rw [hsplit, ByteStore.byte_stored (List.forall_mem_nil _)]
  have hlt : a.data.length + dataOffset < 2 ^ 8 := by
    show a.data.length + 2 < 256
    omega
  rw [UInt8.toNat_ofNat_of_lt' hlt, Nat.add_comm]

/-- The family byte. -/
theorem family_byte (place : Place) (m : ByteMemory) (sa : Nat) (a : Address) :
    ((ByteStore.run m (addressStores place a sa) (sa + familyOffset)).toNat : Int) =
      IntType.uint8.wrap a.family := by
  have hafter : ∀ s ∈ storeData sa a.data, ¬ s.Covers (sa + familyOffset) := by
    intro s hs
    simp only [storeData, List.mem_cons, List.not_mem_nil, or_false] at hs
    rcases hs with rfl | rfl
    · rintro ⟨hle, -⟩
      exact absurd hle (by show ¬ sa + 2 ≤ sa + 1; omega)
    · rintro ⟨-, hlt⟩
      exact absurd hlt (by show ¬ sa + 1 < sa + 1; omega)
  have hwrap : IntType.uint8.Holds (IntType.uint8.wrap a.family) := IntType.wrap_holds _ _
  have hnonneg : 0 ≤ IntType.uint8.wrap a.family := hwrap.1
  have hlt : IntType.uint8.wrap a.family < 256 := hwrap.2
  rw [addressStores, storeFamily, ByteStore.byte_stored hafter]
  rw [UInt8.toNat_ofNat_of_lt' (by show _ < 256; omega)]
  omega

/-- The data. -/
theorem data_bytes (place : Place) (m : ByteMemory) (sa : Nat) (a : Address) :
    (ByteStore.run m (addressStores place a sa)).load (sa + dataOffset) a.data.length = a.data := by
  have hsplit : addressStores place a sa =
      (place.first sa ++ [storeFamily sa a.family]) ++ (⟨sa + dataOffset, a.data⟩ : ByteStore) ::
        [⟨sa, [UInt8.ofNat (a.data.length + dataOffset)]⟩] := by
    simp [addressStores, storeData]
  rw [hsplit]
  apply ByteStore.load_stored (s := ⟨sa + dataOffset, a.data⟩)
  rintro s hs b ⟨hle, -⟩ ⟨-, hlt⟩
  cases List.mem_singleton.mp hs
  have hle' : sa + 2 ≤ b := hle
  have hlt' : b < sa + 1 := hlt
  omega

/-- `pushaddr` of a memory with an address in it. -/
theorem pushaddr_of_bytes {m : ByteMemory} {data : Bytes}
    (hlen : (m sa).toNat = dataOffset + data.length)
    (hdata : m.load (sa + dataOffset) data.length = data) :
    pushaddr m sa = some ⟨(m (sa + familyOffset)).toNat, data⟩ := by
  have hbyte := (m sa).toNat_lt
  have hsize : IntType.uint64.wrap ((m sa).toNat - dataOffset) = data.length := by
    rw [hlen]
    have hcast : ((dataOffset + data.length : Nat) : Int) - dataOffset = data.length := by omega
    rw [hcast]
    apply IntType.wrap_of_holds
    refine ⟨by omega, ?_⟩
    show (data.length : Int) < 2 ^ 64
    omega
  have hsmall : data.length < MAX_SIZE := by
    rw [MAX_SIZE]
    omega
  rw [pushaddr, hsize]
  simp only [Int.toNat_natCast, if_pos hsmall, hdata]

/-- **What was converted is read back**, with the part of the family that a byte holds. -/
theorem pushaddr_stored (place : Place) (m : ByteMemory) (sa : Nat) (h : a.Fits) :
    pushaddr (ByteStore.run m (addressStores place a sa)) sa =
      some ⟨IntType.uint8.wrap a.family, a.data⟩ := by
  rw [pushaddr_of_bytes (length_byte place m sa h) (data_bytes place m sa a),
    family_byte place m sa a]

end Conversions

/-! ## Safe conversions -/

/-- The conversion writes in its own storage only.  It raises an error, or the length is the
true one, and what is read back has the same data, and the same family if a byte holds it. -/
def Conversion.Safe (c : Conversion) (m : ByteMemory) (sa : Nat) : Prop :=
  (∀ s ∈ c.stores, s.Within sa storageSize) ∧
  ∀ a, c.result = .ok a →
    (ByteStore.run m c.stores sa).toNat = dataOffset + a.data.length ∧
    ∃ back, pushaddr (ByteStore.run m c.stores) sa = some back ∧ back.data = a.data ∧
      (IntType.uint8.Holds a.family → back.family = a.family)

section Safe
variable {env : Env} {place : Place} {a : Address} {sa : Nat} {m : ByteMemory}

theorem safe_iff_of_gives (h : place.Gives env a) :
    (place.convert env sa).Safe m sa ↔ a.Fits := by
  rw [convert_of_gives h]
  constructor
  · exact fun hsafe => fits_of_within hsafe.1
  · intro hfits
    refine ⟨addressStores_within hfits, ?_⟩
    rintro b hb
    cases hb
    exact ⟨length_byte place m sa hfits, _, pushaddr_stored place m sa hfits, rfl,
      fun hholds => IntType.wrap_of_holds hholds⟩

theorem gives_unique {b : Address} (ha : place.Gives env a) (hb : place.Gives env b) : a = b := by
  have heq := (convert_of_gives ha 0).symm.trans (convert_of_gives hb 0)
  exact Except.ok.inj (congrArg Conversion.result heq)

/-- **A conversion is safe exactly if the data it is given, if any, has at most 126 bytes.** -/
theorem safe_iff (env : Env) (place : Place) (m : ByteMemory) (sa : Nat) :
    (place.convert env sa).Safe m sa ↔
      ∀ a, place.Gives env a → a.data.length ≤ 126 := by
  rcases convert_cases env place sa with ⟨a, ha⟩ | ⟨⟨e, herror⟩, hwithin⟩
  · have hfits : a.Fits ↔ a.data.length ≤ 126 := by
      show 2 + a.data.length ≤ 128 ↔ _
      omega
    rw [safe_iff_of_gives ha, hfits]
    constructor
    · intro hle b hb
      rwa [← gives_unique ha hb]
    · exact fun hall => hall a ha
  · refine iff_of_true ⟨hwithin, fun a ha => ?_⟩ fun a ha => ?_
    · cases herror.symm.trans ha
    · rw [convert_of_gives ha] at herror
      cases herror

/-- Data of 127 bytes. -/
def longEnv : Env where
  host := .plain
  len _ := .ok 1
  geti _ _ := .ok (.table 0)
  getfield _ _ name :=
    .ok (if name = "family" then .integer 2 else .string (List.replicate 127 0))
  malloc _ := true
  setsourcefilter _ _ _ _ _ _ _ _ := 0

/-- The last byte of the data is written behind the storage. -/
theorem not_safe : ¬ ∀ (env : Env) (place : Place) (m : ByteMemory) (sa : Nat),
    (place.convert env sa).Safe m sa := by
  intro hall
  have hgives : (Place.argument 3 (some (.table 0))).Gives longEnv ⟨2, List.replicate 127 0⟩ :=
    ⟨0, .string (List.replicate 127 0), rfl, by simp [longEnv], by simp [longEnv], rfl⟩
  have hsafe := hall longEnv (.argument 3 (some (.table 0))) (fun _ => 0) 0
  have hfits := (safe_iff_of_gives hgives).mp hsafe
  simp [Address.Fits, dataOffset, storageSize] at hfits

end Safe

/-! ## The array of sources -/

section Sources
variable {env : Env} {m : ByteMemory} {table slist : Nat}

def sourceStores (a : Address) (sa : Nat) : List ByteStore :=
  storeFamily sa a.family :: storeData sa a.data

/-- What is written for the sources from the one with the index `i` on. -/
def sourcesStores (slist : Nat) : Nat → List Address → List ByteStore
  | _, [] => []
  | i, a :: as => sourceStores a (slot slist i) ++ sourcesStores slist (i + 1) as

/-- A loop that comes to its end has converted a source for each element of the array. -/
theorem convertSources_ok {n i : Nat} {as : List Address}
    (h : (convertSources env table slist n i).result = .ok as) :
    as.length = n ∧ (convertSources env table slist n i).stores = sourcesStores slist i as := by
  induction n generalizing i as with
  | zero =>
    cases h
    exact ⟨rfl, rfl⟩
  | succ n ih =>
    rw [convertSources] at h ⊢
    cases hv : env.geti table (i + 1) with
    | error e =>
      simp only [hv] at h
      cases h
    | ok v =>
      simp only [hv] at h ⊢
      rcases convert_cases env (.source i v) (slot slist i) with ⟨a, ha⟩ | ⟨⟨e, he⟩, -⟩
      · have hconvert : convertSource env i v (slot slist i) =
            ⟨sourceStores a (slot slist i), .ok a⟩ := convert_of_gives ha _
        simp only [hconvert] at h ⊢
        cases hrest : (convertSources env table slist n (i + 1)).result with
        | error e =>
          rw [hrest] at h
          cases h
        | ok bs =>
          rw [hrest] at h
          cases h
          obtain ⟨hlength, hstores⟩ := ih hrest
          exact ⟨congrArg (· + 1) hlength, by rw [hstores]; rfl⟩
      · have herror : (convertSource env i v (slot slist i)).result = .error e := he
        simp only [herror] at h
        cases h

theorem slot_succ (slist i : Nat) : slot slist (i + 1) = slot slist i + storageSize := by
  rw [slot, slot, Nat.mul_add]
  omega

/-! ### What a call writes -/

/-- No table gives an address that does not fit. -/
def AllFit (env : Env) : Prop := ∀ (place : Place) a, place.Gives env a → a.Fits

theorem convert_within (hfits : AllFit env) (place : Place) (sa : Nat) :
    ∀ s ∈ (place.convert env sa).stores, s.Within sa storageSize := by
  rcases convert_cases env place sa with ⟨a, ha⟩ | ⟨-, hwithin⟩
  · rw [convert_of_gives ha]
    exact addressStores_within (hfits place a ha)
  · exact hwithin

/-- An element of an array is in the array. -/
theorem within_of_slot {s : ByteStore} {i n : Nat} (h : s.Within (slot slist i) storageSize)
    (hi : i < n) : s.Within slist (storageSize * n) := by
  have hsize : storageSize * (i + 1) ≤ storageSize * n := Nat.mul_le_mul_left _ hi
  have hnext := slot_succ slist i
  obtain ⟨hle, hend⟩ := h
  rw [slot] at hle hend
  rw [Nat.mul_add] at hsize
  exact ⟨by omega, by omega⟩

/-- The loop writes in the array only. -/
theorem convertSources_within (hfits : AllFit env) (n i : Nat) :
    ∀ s ∈ (convertSources env table slist n i).stores, s.Within slist (storageSize * (i + n)) := by
  induction n generalizing i with
  | zero => exact List.forall_mem_nil _
  | succ n ih =>
    intro s hs
    unfold convertSources at hs
    split at hs
    · cases hs
    · next v _ =>
      have hsource : s ∈ (convertSource env i v (slot slist i)).stores →
          s.Within slist (storageSize * (i + (n + 1))) := fun hmem =>
        within_of_slot (convert_within hfits (.source i v) _ s hmem) (by omega)
      dsimp only at hs
      split at hs
      · exact hsource hs
      · rcases List.mem_append.mp hs with hmem | hmem
        · exact hsource hmem
        · rw [Nat.add_comm n 1, ← Nat.add_assoc]
          exact ih (i + 1) s hmem

/-- **A call writes in the storage of the group and in the array of sources only**, if no
address is too long. -/
theorem l_setsourcefilter_within (hfits : AllFit env) (m : ByteMemory) (gs slist : Nat)
    (L : LuaState R) :
    ∀ s ∈ (l_setsourcefilter env m gs slist L).stores, s.Within gs storageSize ∨
      ∃ a, filterArguments env L = .ok a ∧ s.Within slist (storageSize * a.numsrc) := by
  have hgroup := convert_within hfits (.argument 3 (L.index 3)) gs
  intro s hs
  unfold l_setsourcefilter at hs
  split at hs
  · cases hs
  · cases hs
  · dsimp only at hs
    split at hs
    · exact Or.inl (hgroup s hs)
    · exact Or.inl (hgroup s hs)
    · next a _ ha =>
      split at hs
      · rcases List.mem_append.mp hs with hmem | hmem
        · exact Or.inl (hgroup s hmem)
        · have hwithin := convertSources_within hfits a.numsrc 0 s hmem
          rw [Nat.zero_add] at hwithin
          exact Or.inr ⟨a, ha, hwithin⟩
      · exact Or.inl (hgroup s hs)

/-- Memory outside the two is as it was. -/
theorem l_setsourcefilter_frame (hfits : AllFit env) {gs slist b : Nat} {L : LuaState R}
    (hgs : b < gs ∨ gs + storageSize ≤ b)
    (hslist : ∀ a, filterArguments env L = .ok a →
      b < slist ∨ slist + storageSize * a.numsrc ≤ b) (m : ByteMemory) :
    ByteStore.run m (l_setsourcefilter env m gs slist L).stores b = m b := by
  apply ByteStore.run_frame
  intro s hs
  rcases l_setsourcefilter_within hfits m gs slist L s hs with hwithin | ⟨a, ha, hwithin⟩
  · exact ByteStore.not_covers_of_within hwithin hgs
  · exact ByteStore.not_covers_of_within hwithin (hslist a ha)

/-! ### What is read back -/

/-- Sources that fit are written behind those before them. -/
theorem not_covers_before {as : List Address} {i b : Nat} (hfits : ∀ a ∈ as, a.Fits)
    (hb : b < slot slist i) : ∀ s ∈ sourcesStores slist i as, ¬ s.Covers b := by
  induction as generalizing i with
  | nil => exact List.forall_mem_nil _
  | cons a as ih =>
    obtain ⟨ha, has⟩ := List.forall_mem_cons.mp hfits
    intro s hs
    rcases List.mem_append.mp hs with hfirst | hrest
    · have hstores : s ∈ addressStores (.source 0 .nil) a (slot slist i) := hfirst
      have hwithin := addressStores_within ha s hstores
      exact ByteStore.not_covers_of_within hwithin (Or.inl hb)
    · refine ih has ?_ s hrest
      rw [slot_succ]
      omega

/-- **Every source that was converted is read back**, if all fit. -/
theorem pushaddr_sources (m : ByteMemory) (slist i : Nat) {as : List Address} {j : Nat}
    {a : Address} (hfits : ∀ a ∈ as, a.Fits) (hj : as[j]? = some a) :
    pushaddr (ByteStore.run m (sourcesStores slist i as)) (slot slist (i + j)) =
      some ⟨IntType.uint8.wrap a.family, a.data⟩ := by
  induction as generalizing i j m with
  | nil => cases hj
  | cons b as ih =>
    obtain ⟨hb, has⟩ := List.forall_mem_cons.mp hfits
    rw [sourcesStores, ByteStore.run_append]
    cases j with
    | zero =>
      cases hj
      have hlt : 2 + a.data.length ≤ 128 := hb
      have hsame : ∀ c, c < slot slist (i + 1) →
          ByteStore.run (ByteStore.run m (sourceStores a (slot slist i)))
            (sourcesStores slist (i + 1) as) c =
          ByteStore.run m (sourceStores a (slot slist i)) c :=
        fun c hc => ByteStore.run_frame (not_covers_before has hc)
      have hnext : slot slist (i + 1) = slot slist i + 128 := slot_succ slist i
      have hlen := length_byte (.source 0 .nil) m (slot slist i) hb
      have hdata := data_bytes (.source 0 .nil) m (slot slist i) a
      have hfamily := family_byte (.source 0 .nil) m (slot slist i) a
      have hlen' := (congrArg UInt8.toNat (hsame (slot slist i) (by omega))).trans hlen
      have hdata' := Eq.trans (ByteMemory.load_congr fun c _ hc => hsame c (by
        have hc' : c < slot slist i + 2 + a.data.length := hc
        omega)) hdata
      have hfamily' := hsame (slot slist i + familyOffset) (by
        show slot slist i + 1 < _
        omega)
      have hread := pushaddr_of_bytes hlen' hdata'
      rw [hfamily'] at hread
      exact hread.trans (congrArg (fun f => some (Address.mk f a.data)) hfamily)
    | succ j =>
      rw [show i + (j + 1) = i + 1 + j by omega]
      exact ih _ _ has hj

end Sources

/-! ## The same conversions on a stack -/

section Capacity
variable {env : Env} {stacked : Capacity.Env}

/-- The two models are given the same tables and strings. -/
structure Agrees (env : Env) (stacked : Capacity.Env) : Prop where
  getfield : ∀ k r name v,
    stacked.getfield k r name = .ok v ↔ env.getfield k r name = .ok v
  host : stacked.host = env.host

/-- What `Capacity.checkaddr` leaves of the family is the byte that is written. -/
theorem checkaddr_capacity (h : Agrees env stacked) {idx : Int} {L : Gauge R} {a : Address}
    (ha : (Place.argument idx (L.state.index idx)).Gives env a) :
    (Capacity.checkaddr stacked idx L).1 = .ok (IntType.uint8.wrap a.family, a.data) := by
  obtain ⟨r, v, hvalue, hfamily, hdata, hv⟩ := ha
  change L.state.index idx = some (.table r) at hvalue
  have hfamily' := (h.getfield 0 r "family" _).mpr hfamily
  have hdata' := (h.getfield 0 r "data" _).mpr hdata
  have hv' : tolstring stacked.host v = some a.data := by
    rw [h.host]
    exact hv
  simp only [Capacity.checkaddr, hvalue, hfamily', hdata', hv']

theorem sourceAddr_capacity (h : Agrees env stacked) {i : Nat} {v : Value} {L : Gauge R}
    {a : Address} (ha : (Place.source i v).Gives env a) :
    (Capacity.sourceAddr stacked i v L).1 = .ok (IntType.uint8.wrap a.family, a.data) := by
  obtain ⟨r, w, hvalue, hfamily, hdata, hw⟩ := ha
  cases hvalue
  have hfamily' := (h.getfield (i + 1) r "family" _).mpr hfamily
  have hdata' := (h.getfield (i + 1) r "data" _).mpr hdata
  cases w with
  | string data =>
    cases hw
    simp only [Capacity.sourceAddr, hfamily', hdata']
  | _ => cases hw

end Capacity
end Sockets
end FluaLibs
