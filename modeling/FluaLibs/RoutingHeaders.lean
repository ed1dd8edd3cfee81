import FluaLibs.ByteStores
import FluaLibs.LuaArguments

/-! # IPv6 routing headers

A routing header has eight bytes, with its type, the number of its 8-byte units after the
first and the number of segments left, followed by the addresses.  `inet6_rth_ext` makes
one from a list of addresses, `inet6_ext_rth` makes the list from a header, and
`inet6_rth_reverse` makes a header for the way back.

The C functions that these call do not know where the memory ends that they are given; what
they read and write is part of what they are documented to do (`Rth.Documented`).
-/
namespace FluaLibs
namespace RoutingHeaders
open LuaArguments
variable {R : Runtime}

abbrev Bytes : Type := List UInt8

/-! ## The C library -/

/-- What a function has read and written, and its result. -/
structure Access (α : Type) where
  reads : List Extent
  writes : List Extent
  value : α

/-- `inet6_rth_space(3)` and the other functions.  A header is given by its address in memory;
`inet6_rth_add` gives its stores, and `inet6_rth_reverse` the bytes that it writes to the other
header. -/
structure Rth where
  inet6_rth_space : Int → Int → Nat
  inet6_rth_add : ByteMemory → Nat → Bytes → Option (List ByteStore)
  inet6_rth_segments : ByteMemory → Nat → Access Int
  inet6_rth_getaddr : ByteMemory → Nat → Int → Access (Option Nat)
  inet6_rth_reverse : ByteMemory → Nat → Access (Option Bytes)

/-- `IPV6_RTHDR_TYPE_0`, the only type that is supported. -/
def IPV6_RTHDR_TYPE_0 : Nat := 0

/-- `sizeof(struct in6_addr)` -/
def addrSize : Nat := 16

/-- `sizeof(struct ip6_rthdr0)`: where the addresses are. -/
def headerSize : Nat := 8

/-! The members of a header. -/

def lenOffset : Nat := 1
def typeOffset : Nat := 2
def segleftOffset : Nat := 3

section Headers
variable (m : ByteMemory) (bp : Nat)

def typeAt : Nat := (m (bp + typeOffset)).toNat

def lenAt : Nat := (m (bp + lenOffset)).toNat

def segleftAt : Nat := (m (bp + segleftOffset)).toNat

/-- The size of a header, as its length says. -/
def sizeAt : Nat := 8 * (lenAt m bp + 1)

/-- The header can be told to be of a type and a length that are supported. -/
def Supported : Prop := typeAt m bp = IPV6_RTHDR_TYPE_0 ∧ lenAt m bp % 2 = 0

instance : Decidable (Supported m bp) := inferInstanceAs (Decidable (_ ∧ _))

/-- The header is of a supported type and does not have more segments left than segments. -/
def Valid : Prop := Supported m bp ∧ segleftAt m bp ≤ lenAt m bp / 2

instance : Decidable (Valid m bp) := inferInstanceAs (Decidable (_ ∧ _))

/-- The type is looked at first, and then the length. -/
def supportReads : List Extent :=
  ⟨bp + typeOffset, 1⟩ :: if typeAt m bp = IPV6_RTHDR_TYPE_0 then [⟨bp + lenOffset, 1⟩] else []

/-- The number of segments left is looked at last. -/
def validReads : List Extent :=
  supportReads m bp ++ if Supported m bp then [⟨bp + segleftOffset, 1⟩] else []

/-- The addresses of a header, from the one with the index `i` on. -/
def addresses : Nat → Nat → List Bytes
  | 0, _ => []
  | n + 1, i => m.load (bp + (headerSize + addrSize * i)) addrSize :: addresses n (i + 1)

/-- The header for the way back, with all segments left. -/
def reversed : Bytes :=
  m.load bp 3 ++ [UInt8.ofNat (lenAt m bp / 2)] ++ m.load (bp + 4) 4 ++
    (addresses m bp (lenAt m bp / 2) 0).reverse.flatten

end Headers

/-- What the functions are documented to do, and what they read and write for it: they trust
the length that a header has in it. -/
structure Rth.Documented (lib : Rth) : Prop where
  space (type segments : Int) :
    lib.inet6_rth_space type segments =
      if type = IPV6_RTHDR_TYPE_0 ∧ 0 ≤ segments ∧ segments ≤ 127 then
        headerSize + addrSize * segments.toNat
      else 0
  add (m : ByteMemory) (bp : Nat) (addr : Bytes) :
    lib.inet6_rth_add m bp addr =
      if typeAt m bp = IPV6_RTHDR_TYPE_0 ∧ segleftAt m bp ≠ lenAt m bp / 2 then
        some [⟨bp + (headerSize + addrSize * segleftAt m bp), addr⟩,
          ⟨bp + segleftOffset, [UInt8.ofNat (segleftAt m bp + 1)]⟩]
      else none
  segments (m : ByteMemory) (bp : Nat) :
    lib.inet6_rth_segments m bp =
      ⟨validReads m bp, [], if Valid m bp then (lenAt m bp / 2 : Nat) else -1⟩
  getaddr (m : ByteMemory) (bp : Nat) (index : Int) :
    lib.inet6_rth_getaddr m bp index =
      ⟨validReads m bp, [],
        if Valid m bp ∧ 0 ≤ index ∧ index < (lenAt m bp / 2 : Nat) then
          some (bp + (headerSize + addrSize * index.toNat))
        else none⟩
  reverse (m : ByteMemory) (bp : Nat) :
    lib.inet6_rth_reverse m bp =
      if Supported m bp then
        ⟨supportReads m bp ++ [⟨bp, sizeAt m bp⟩], [⟨0, sizeAt m bp⟩], some (reversed m bp)⟩
      else ⟨supportReads m bp, [], none⟩

/-! ## The code -/

/-- What is outside the module: the library, what tables answer, whether there is memory and
what is in it before it is written to, and what is behind the strings. -/
structure Env where
  host : Host
  lib : Rth
  len : Nat → Except Raised Int
  geti : Nat → Nat → Except Raised Value
  malloc : Nat → Bool
  fresh : ByteMemory
  behind : ByteMemory

/-- How a call ends. -/
inductive Outcome where
  | raised (e : Raised)
  | failed (errno : Nat)
  | string (s : Bytes)
  | list (as : List Bytes)
  deriving DecidableEq

/-- `EINVAL` -/
def EINVAL : Nat := 22

def badSegments : Raised := .argerror 2 "invalid segments"

/-- The loop of `l_inet6_rth_ext`, for a number of elements from the index `i` on, with the
header at the start of the memory. -/
def addSegments (env : Env) (table : Nat) : Nat → Nat → ByteMemory → Except Raised ByteMemory
  | 0, _, m => .ok m
  | n + 1, i, m => do
    match ← env.geti table i with
    | .string addr =>
      if addr.length = addrSize then
        match env.lib.inet6_rth_add m 0 addr with
        | some stores => addSegments env table n (i + 1) (ByteStore.run m stores)
        | none => .error badSegments
      else .error badSegments
    | _ => .error badSegments

/-- `l_inet6_rth_ext`.  The memory for the header is passed to `inet6_rth_add` as it is. -/
def l_inet6_rth_ext (env : Env) (L : LuaState R) : Outcome :=
  match checkinteger env.host 1 (L.index 1), L.index 2 with
  | .error e, _ => .raised e
  | .ok i, some (.table r) =>
    match env.len r with
    | .error e => .raised e
    | .ok len =>
      let type := IntType.int.wrap i
      let segments := IntType.int.wrap len
      let space := env.lib.inet6_rth_space type segments
      if space = 0 then .failed EINVAL
      else if env.malloc space then
        match addSegments env r segments.toNat 1 env.fresh with
        | .error e => .raised e
        | .ok m => .string (m.load 0 space)
      else .raised (.fatal "malloc" ENOMEM)
  | .ok _, _ => .raised (.typeerror 2 "table")

/-- The memory from the start of a string on: the string, a NUL, and what is behind. -/
def stringMemory (env : Env) (s : Bytes) : ByteMemory := fun i =>
  if i < s.length then s.getD i 0 else if i = s.length then 0 else env.behind i

/-- `l_inet6_rth_reverse`; what is written is relative to the start of the memory that it has
allocated. -/
def l_inet6_rth_reverse (env : Env) (L : LuaState R) : Access Outcome :=
  match checklstring env.host 1 (L.index 1) with
  | .error e => ⟨[], [], .raised e⟩
  | .ok src =>
    if env.malloc src.length then
      let call := env.lib.inet6_rth_reverse (stringMemory env src) 0
      match call.value with
      | some dst =>
        let rest := (env.fresh.load 0 src.length).drop dst.length
        ⟨call.reads, call.writes, .string ((dst ++ rest).take src.length)⟩
      | none => ⟨call.reads, call.writes, .failed EINVAL⟩
    else ⟨[], [], .raised (.fatal "malloc" ENOMEM)⟩

/-- The loop of `l_inet6_ext_rth`, for a number of segments from the index `i` on. -/
def pushSegments (lib : Rth) (m : ByteMemory) : Nat → Nat → Access (Option (List Bytes))
  | 0, _ => ⟨[], [], some []⟩
  | n + 1, i =>
    let call := lib.inet6_rth_getaddr m 0 i
    match call.value with
    | some addr =>
      let rest := pushSegments lib m n (i + 1)
      ⟨call.reads ++ ⟨addr, addrSize⟩ :: rest.reads, call.writes ++ rest.writes,
        rest.value.map (m.load addr addrSize :: ·)⟩
    | none => ⟨call.reads, call.writes, none⟩

def l_inet6_ext_rth (env : Env) (L : LuaState R) : Access Outcome :=
  match checklstring env.host 1 (L.index 1) with
  | .error e => ⟨[], [], .raised e⟩
  | .ok ext =>
    let m := stringMemory env ext
    let call := env.lib.inet6_rth_segments m 0
    if call.value = -1 then ⟨call.reads, call.writes, .failed EINVAL⟩
    else
      let pushed := pushSegments env.lib m call.value.toNat 0
      ⟨call.reads ++ pushed.reads, call.writes ++ pushed.writes,
        match pushed.value with
        | some as => .list as
        | none => .failed EINVAL⟩

/-! ## What is encoded -/

section Encoding
variable {env : Env} {L : LuaState R} {type : Int} {as : List Bytes}

/-- A call of `l_inet6_rth_ext` with a type and a list of addresses. -/
structure Gives (env : Env) (L : LuaState R) (type : Int) (as : List Bytes) : Prop where
  type : L.index 1 = some (.integer type)
  sized : ∀ a ∈ as, a.length = addrSize
  list : ∃ r, L.index 2 = some (.table r) ∧ env.len r = .ok as.length ∧
    ∀ i (hi : i < as.length), env.geti r (i + 1) = .ok (.string as[i])

/-- The type is supported, and there are not too many addresses. -/
def Admissible (env : Env) (type : Int) (as : List Bytes) : Prop :=
  env.lib.inet6_rth_space (IntType.int.wrap type) as.length ≠ 0

/-- An environment with some memory, which is never refused. -/
def Env.withFresh (env : Env) (fresh : ByteMemory) : Env :=
  { env with fresh := fresh, malloc := fun _ => true }

/-- A header from which the list is decoded, and which is the reverse of its reverse. -/
structure Inverts (env : Env) (as : List Bytes) (s r : Bytes) : Prop where
  decoded (fresh : ByteMemory) (L' : LuaState R) (h : L'.index 1 = some (.string s)) :
    (l_inet6_ext_rth (env.withFresh fresh) L').value = .list as
  reversed (fresh : ByteMemory) (L' : LuaState R) (h : L'.index 1 = some (.string s)) :
    (l_inet6_rth_reverse (env.withFresh fresh) L').value = .string r
  back (fresh : ByteMemory) (L' : LuaState R) (h : L'.index 1 = some (.string r)) :
    (l_inet6_rth_reverse (env.withFresh fresh) L').value = .string s

/-- The header that a call gives does not depend on what is in memory, and can be inverted. -/
structure RoundTrips (env : Env) (L : LuaState R) (as : List Bytes) (s r : Bytes) : Prop
    extends Inverts (R := R) env as s r where
  encoded (fresh : ByteMemory) : l_inet6_rth_ext (env.withFresh fresh) L = .string s

/-- The call, once its arguments have been checked. -/
theorem l_inet6_rth_ext_gives (hlib : env.lib.Documented) (hgives : Gives env L type as)
    (hadmissible : Admissible env type as) (fresh : ByteMemory) :
    ∃ r, (∀ i (hi : i < as.length), env.geti r (i + 1) = .ok (.string as[i])) ∧
      l_inet6_rth_ext (env.withFresh fresh) L =
        match addSegments (env.withFresh fresh) r as.length 1 fresh with
        | .error e => .raised e
        | .ok m => .string (m.load 0 (headerSize + addrSize * as.length)) := by
  obtain ⟨r, hsecond, hlen, helements⟩ := hgives.list
  refine ⟨r, helements, ?_⟩
  have hspace := hlib.space (IntType.int.wrap type) as.length
  rw [Admissible] at hadmissible
  split at hspace
  · next hrange =>
    have hholds : IntType.int.Holds (as.length : Int) := by
      have hle := hrange.2.2
      show -2 ^ 31 ≤ (as.length : Int) ∧ (as.length : Int) < 2 ^ 31
      omega
    have hsegments : IntType.int.wrap as.length = as.length := IntType.wrap_of_holds hholds
    have hcheck : checkinteger (env.withFresh fresh).host 1 (L.index 1) = .ok type := by
      rw [hgives.type]
      rfl
    have hlen' : (env.withFresh fresh).len r = .ok as.length := hlen
    have hspace' : (env.withFresh fresh).lib.inet6_rth_space (IntType.int.wrap type) as.length =
      headerSize + addrSize * as.length := hspace
    rw [Int.toNat_natCast] at hspace
    have hne : headerSize + addrSize * as.length ≠ 0 := by
      rw [headerSize]
      omega
    rw [l_inet6_rth_ext, hcheck, hsecond]
    dsimp only
    rw [hlen']
    dsimp only
    rw [hsegments, hspace', if_neg hne, Int.toNat_natCast]
    rfl
  · exact absurd hspace hadmissible

/-- Nothing is added to a header of another type. -/
theorem addSegments_unsupported (hlib : env.lib.Documented) {r n : Nat} {fresh : ByteMemory}
    (hgives : ∃ addr, env.geti r 1 = .ok (.string addr) ∧ addr.length = addrSize)
    (htype : typeAt fresh 0 ≠ IPV6_RTHDR_TYPE_0) :
    addSegments (env.withFresh fresh) r (n + 1) 1 fresh = .error badSegments := by
  obtain ⟨addr, hgeti, hlength⟩ := hgives
  have hadd := hlib.add fresh 0 addr
  rw [if_neg (fun h => htype h.1)] at hadd
  simp only [addSegments, Env.withFresh, hgeti, bind, Except.bind, hlength, if_true, hadd]

/-- **No list of addresses is encoded**: without segments the header is what was in memory, and
with segments it may be refused. -/
theorem not_encoded (hlib : env.lib.Documented) (hgives : Gives env L type as)
    (hadmissible : Admissible env type as) :
    ¬ ∃ s, ∀ fresh, l_inet6_rth_ext (env.withFresh fresh) L = .string s := by
  rintro ⟨s, hencoded⟩
  cases as with
  | nil =>
    -- the header is eight bytes of the memory
    have hheader (b : UInt8) : (ByteMemory.load (fun _ => b) 0 headerSize) = s := by
      obtain ⟨r, -, hext⟩ := l_inet6_rth_ext_gives hlib hgives hadmissible (fun _ => b)
      rw [hencoded] at hext
      exact (Outcome.string.inj hext).symm
    have hsame := (hheader 0).trans (hheader 1).symm
    revert hsame
    decide
  | cons a as =>
    obtain ⟨r, helements, hext⟩ := l_inet6_rth_ext_gives hlib hgives hadmissible (fun _ => 255)
    have hfirst := helements 0 (Nat.succ_pos _)
    have hsized := hgives.sized a (List.mem_cons_self ..)
    rw [hencoded, List.length_cons,
      addSegments_unsupported hlib ⟨a, hfirst, hsized⟩ (by decide)] at hext
    cases hext

/-- **No list round-trips.** -/
theorem not_routing_roundTrips (hlib : env.lib.Documented) (hgives : Gives env L type as)
    (hadmissible : Admissible env type as) : ¬ ∃ s r, RoundTrips env L as s r := by
  rintro ⟨s, r, h⟩
  exact not_encoded hlib hgives hadmissible ⟨s, h.encoded⟩

end Encoding

/-! ## The library as it is -/

/-- A library that does what is documented. -/
def rth : Rth where
  inet6_rth_space type segments :=
    if type = IPV6_RTHDR_TYPE_0 ∧ 0 ≤ segments ∧ segments ≤ 127 then
      headerSize + addrSize * segments.toNat
    else 0
  inet6_rth_add m bp addr :=
    if typeAt m bp = IPV6_RTHDR_TYPE_0 ∧ segleftAt m bp ≠ lenAt m bp / 2 then
      some [⟨bp + (headerSize + addrSize * segleftAt m bp), addr⟩,
        ⟨bp + segleftOffset, [UInt8.ofNat (segleftAt m bp + 1)]⟩]
    else none
  inet6_rth_segments m bp :=
    ⟨validReads m bp, [], if Valid m bp then (lenAt m bp / 2 : Nat) else -1⟩
  inet6_rth_getaddr m bp index :=
    ⟨validReads m bp, [],
      if Valid m bp ∧ 0 ≤ index ∧ index < (lenAt m bp / 2 : Nat) then
        some (bp + (headerSize + addrSize * index.toNat))
      else none⟩
  inet6_rth_reverse m bp :=
    if Supported m bp then
      ⟨supportReads m bp ++ [⟨bp, sizeAt m bp⟩], [⟨0, sizeAt m bp⟩], some (reversed m bp)⟩
    else ⟨supportReads m bp, [], none⟩

theorem rth_documented : rth.Documented :=
  ⟨fun _ _ => rfl, fun _ _ _ => rfl, fun _ _ => rfl, fun _ _ _ => rfl, fun _ _ => rfl⟩

/-- An environment where every table is a list of some addresses. -/
def listEnv (as : List Bytes) : Env where
  host := .plain
  lib := rth
  len _ := .ok as.length
  geti _ i := .ok ((as[i - 1]?.map .string).getD .nil)
  malloc _ := true
  fresh _ := 0
  behind _ := 0

/-- The addresses `::1` and `::`. -/
def hops : List Bytes := [List.replicate 15 0 ++ [1], List.replicate 16 0]

def extCall : LuaState noFunctions := ⟨[.integer 0, .table 0], [], 0⟩

theorem hops_gives : Gives (listEnv hops) extCall 0 hops := by
  refine ⟨rfl, by decide, 0, rfl, rfl, fun i hi => ?_⟩
  show Except.ok ((hops[i + 1 - 1]?.map Value.string).getD .nil) = _
  rw [Nat.add_sub_cancel, List.getElem?_eq_getElem hi]
  rfl

theorem hops_admissible : Admissible (listEnv hops) 0 hops := by
  rw [Admissible]
  decide

theorem hops_not_routing_roundTrips : ¬ ∃ s r, RoundTrips (listEnv hops) extCall hops s r :=
  not_routing_roundTrips rth_documented hops_gives hops_admissible

/-- One and the same call gives different results. -/
theorem hops_not_determined :
    ¬ ∃ s, ∀ fresh, l_inet6_rth_ext ((listEnv hops).withFresh fresh) extCall = .string s :=
  not_encoded rth_documented hops_gives hops_admissible

end RoutingHeaders
end FluaLibs
