import FluaLibs.Requests
import FluaLibs.SocketAddresses

/-! # The source filter of a socket

`getsourcefilter` asks for the number of sources first, with no room for any, and then for
the sources with room for twice as many, until they fit.  Each answer comes with the mode
of the filter at that time.  The function pushes the mode after the first answer and the
sources after the last, so if another process changes the filter in between, the mode and
the sources that are returned may never have been the filter's together.
-/
namespace FluaLibs
namespace Sockets
open LuaArguments
variable {R : Runtime}

/-- A source as the kernel has it. -/
structure Source where
  family : UInt8
  data : Bytes
  fits : dataOffset + data.length ≤ storageSize
  deriving DecidableEq

def Source.address (s : Source) : Address := ⟨s.family.toNat, s.data⟩

/-- The filter of a socket for a group on an interface. -/
structure Filter where
  mode : Nat
  sources : List Source
  deriving DecidableEq

def Filter.addresses (f : Filter) : List Address := f.sources.map Source.address

/-- The filter at each system call of a function, and what fails. -/
structure FilterHistory where
  filter : Nat → Filter
  failure : Nat → Option Nat
  malloc : Nat → Nat → Bool

/-! ## The code -/

/-- The system calls of `l_getsourcefilter`, by the number of sources they have room for.
`slistlen` is a `uint32_t`. -/
def FilterHistory.requests (h : FilterHistory) : Requests Nat where
  report k _ :=
    match h.failure k with
    | some errno => .error errno
    | none => .ok (h.filter k).sources.length
  grow slistlen := slistlen * 2 % 2 ^ 32
  grants k slistlen := h.malloc k (slistlen * storageSize)

/-- How a call ends; `calls` is the number of its system calls, and `undefined` says that it
has written beyond the storage of the group address. -/
inductive FilterOutcome where
  | running
  | undefined
  | raised (e : Raised)
  | failed (errno : Nat)
  | returned (fmode : Nat) (slist : List Address) (calls : Nat)
  deriving DecidableEq

/-- What the kernel writes into the array. -/
def FilterHistory.slist (h : FilterHistory) (k : Nat) (m : ByteMemory) (slist : Nat) : ByteMemory :=
  ByteStore.run m (sourcesStores slist 0 (h.filter k).addresses)

/-- The loop that pushes the sources in the array, for a number of them from the one with
the index `i` on. -/
def pushSources (m : ByteMemory) (slist : Nat) : Nat → Nat → Option (List Address)
  | 0, _ => some []
  | n + 1, i =>
    match pushaddr m (slot slist i) with
    | none => none
    | some a => (pushSources m slist n (i + 1)).map (a :: ·)

/-- The checks of the arguments: the group address. -/
def groupArgument (env : Env) (gs : Nat) (L : LuaState R) : Except Raised Address := do
  let _s ← checkfd env.host 1 (L.index 1)
  let _interface ← checkinteger env.host 2 (L.index 2)
  (checkaddr env 3 (L.index 3) gs).result

/-- `l_getsourcefilter`, with the group address at `gs` and the array at `slist`. -/
def l_getsourcefilter (env : Env) (h : FilterHistory) (m : ByteMemory) (gs slist rounds : Nat)
    (L : LuaState R) : FilterOutcome :=
  match groupArgument env gs L with
  | .error e => .raised e
  | .ok group =>
    if storageSize < dataOffset + group.data.length then .undefined
    else
      match h.requests.loop rounds 0 0 with
      | .running => .running
      | .refused => .raised (.fatal "malloc" ENOMEM)
      | .failed errno => .failed errno
      | .fits k _ numsrc =>
        -- the mode was pushed after the first answer
        match pushSources (h.slist k m slist) slist numsrc 0 with
        | some addresses => .returned (h.filter 0).mode addresses (k + 1)
        | none => .raised (.error "memory allocation error: block too big")

/-! ## What is pushed -/

theorem Source.address_fits (s : Source) : s.address.Fits := s.fits

theorem Source.wrap_family (s : Source) :
    IntType.uint8.wrap s.address.family = s.address.family := by
  apply IntType.wrap_of_holds
  have hlt := s.family.toNat_lt
  refine ⟨Int.natCast_nonneg _, ?_⟩
  show (s.family.toNat : Int) < 2 ^ 8
  omega

theorem pushSources_of_read {m : ByteMemory} {slist i : Nat} {as : List Address}
    (h : ∀ (j : Nat) a, as[j]? = some a → pushaddr m (slot slist (i + j)) = some a) :
    pushSources m slist as.length i = some as := by
  induction as generalizing i with
  | nil => rfl
  | cons a as ih =>
    have hfirst : pushaddr m (slot slist i) = some a := h 0 a rfl
    have hrest : pushSources m slist as.length (i + 1) = some as := by
      apply ih
      intro j b hj
      rw [show i + 1 + j = i + (j + 1) by omega]
      exact h (j + 1) b hj
    rw [List.length_cons, pushSources]
    simp only [hfirst, hrest]
    rfl

/-- **The sources that the kernel has written are pushed.** -/
theorem pushSources_slist (h : FilterHistory) (k : Nat) (m : ByteMemory) (slist : Nat) :
    pushSources (h.slist k m slist) slist (h.filter k).sources.length 0 =
      some (h.filter k).addresses := by
  have hfits : ∀ a ∈ (h.filter k).addresses, a.Fits := by
    intro a ha
    obtain ⟨s, -, rfl⟩ := List.mem_map.mp ha
    exact s.address_fits
  have hlength : (h.filter k).addresses.length = (h.filter k).sources.length := List.length_map ..
  rw [← hlength]
  apply pushSources_of_read
  intro j a hj
  obtain ⟨s, -, rfl⟩ := List.mem_map.mp (List.mem_of_getElem? hj)
  have hread := pushaddr_sources m slist 0 hfits hj
  rwa [Source.wrap_family] at hread

/-! ## One snapshot -/

/-- The `k`-th system call is the last of a call that gets that far: those before it find
more sources than there is room for, and it finds no more than that. -/
def FilterHistory.Last (h : FilterHistory) (k : Nat) : Prop :=
  (∀ i < k, h.requests.Continues 0 i) ∧ ∃ n, h.requests.Fits 0 k n

/-- What is returned is the filter that one of the system calls has found. -/
def Snapshot (env : Env) (h : FilterHistory) (m : ByteMemory) (gs slist : Nat)
    (L : LuaState R) : Prop :=
  ∀ rounds fmode addresses calls,
    l_getsourcefilter env h m gs slist rounds L = .returned fmode addresses calls →
    ∃ j < calls, (h.filter j).mode = fmode ∧ (h.filter j).addresses = addresses

section Snapshot
variable {env : Env} {h : FilterHistory} {L : LuaState R} {m : ByteMemory}
  {gs slist rounds : Nat}

theorem numsrc_of_fits {k n : Nat} (hfits : h.requests.Fits 0 k n) :
    n = (h.filter k).sources.length := by
  obtain ⟨hreport, -⟩ := hfits
  unfold FilterHistory.requests at hreport
  dsimp only at hreport
  split at hreport
  · cases hreport
  · cases hreport
    rfl

theorem Source.address_injective {s t : Source} (h : s.address = t.address) : s = t := by
  obtain ⟨family, data, fits⟩ := s
  obtain ⟨family', data', fits'⟩ := t
  obtain ⟨hfamily, hdata⟩ := Address.mk.injEq .. ▸ h
  have hnat : family.toNat = family'.toNat := Int.ofNat.inj hfamily
  cases UInt8.toNat_inj.mp hnat
  cases hdata
  rfl

theorem addresses_eq_iff {f g : Filter} : f.addresses = g.addresses ↔ f.sources = g.sources :=
  ⟨fun heq => List.map_injective_iff.mpr (fun _ _ => Source.address_injective) heq,
    fun heq => congrArg (List.map Source.address) heq⟩

/-- **What a call returns**: the mode of the first answer and the sources of the last. -/
theorem l_getsourcefilter_returned_iff {fmode calls : Nat} {addresses : List Address} :
    l_getsourcefilter env h m gs slist rounds L = .returned fmode addresses calls ↔
      (∃ group, groupArgument env gs L = .ok group ∧ group.Fits) ∧
      ∃ k, calls = k + 1 ∧ k < rounds ∧ h.Last k ∧ fmode = (h.filter 0).mode ∧
        addresses = (h.filter k).addresses := by
  rw [l_getsourcefilter]
  cases hgroup : groupArgument env gs L with
  | error e => simp
  | ok group =>
    dsimp only
    by_cases hfits : storageSize < dataOffset + group.data.length
    · rw [if_pos hfits]
      refine iff_of_false (fun heq => nomatch heq) ?_
      rintro ⟨⟨group', heq, hfits'⟩, -⟩
      cases heq
      exact absurd hfits' (Nat.not_le_of_lt hfits)
    rw [if_neg hfits]
    constructor
    · intro hreturned
      refine ⟨⟨group, rfl, Nat.le_of_not_lt hfits⟩, ?_⟩
      cases hloop : h.requests.loop rounds 0 0 with
      | fits k room n =>
        obtain ⟨hlt, hcont, hlast, -⟩ := Requests.loop_eq_fits_iff.mp hloop
        simp only [hloop, numsrc_of_fits hlast, pushSources_slist] at hreturned
        cases hreturned
        exact ⟨k, rfl, hlt, ⟨hcont, n, hlast⟩, rfl, rfl⟩
      | _ =>
        rw [hloop] at hreturned
        cases hreturned
    · rintro ⟨-, k, rfl, hlt, ⟨hcont, n, hlast⟩, rfl, rfl⟩
      have hloop := Requests.loop_eq_fits_iff.mpr ⟨hlt, hcont, hlast, rfl⟩
      simp only [hloop, numsrc_of_fits hlast, pushSources_slist]

/-- **The mode and the sources are those of one system call exactly if** some system call
finds the mode that the first one has found and the sources that the last one finds. -/
theorem snapshot_iff (env : Env) (h : FilterHistory) (m : ByteMemory) (gs slist : Nat)
    (L : LuaState R) :
    Snapshot env h m gs slist L ↔
      ∀ group, groupArgument env gs L = .ok group → group.Fits → ∀ k, h.Last k →
        ∃ j ≤ k, (h.filter j).mode = (h.filter 0).mode ∧
          (h.filter j).sources = (h.filter k).sources := by
  constructor
  · intro hsnapshot group hgroup hfits k hlast
    have hreturned : l_getsourcefilter env h m gs slist (k + 1) L =
        .returned (h.filter 0).mode (h.filter k).addresses (k + 1) :=
      l_getsourcefilter_returned_iff.mpr
        ⟨⟨group, hgroup, hfits⟩, k, rfl, Nat.lt_succ_self k, hlast, rfl, rfl⟩
    obtain ⟨j, hj, hmode, haddresses⟩ := hsnapshot _ _ _ _ hreturned
    exact ⟨j, Nat.le_of_lt_succ hj, hmode, addresses_eq_iff.mp haddresses⟩
  · intro hall rounds fmode addresses calls hreturned
    obtain ⟨⟨group, hgroup, hfits⟩, k, rfl, -, hlast, rfl, rfl⟩ :=
      l_getsourcefilter_returned_iff.mp hreturned
    obtain ⟨j, hj, hmode, hsources⟩ := hall group hgroup hfits k hlast
    exact ⟨j, Nat.lt_succ_of_le hj, hmode, addresses_eq_iff.mpr hsources⟩

/-- A filter that is switched from including a source to excluding another. -/
def switched : FilterHistory where
  filter k :=
    if k = 0 then ⟨1, [⟨2, [10], by decide⟩]⟩ else ⟨2, [⟨2, [20], by decide⟩]⟩
  failure _ := none
  malloc _ _ := true

def groupEnv : Env where
  host := .plain
  len _ := .ok 0
  geti _ _ := .ok .nil
  getfield _ _ name := .ok (if name = "family" then .integer 2 else .string [224])
  malloc _ := true
  setsourcefilter _ _ _ _ _ _ _ _ := 0

/-- `netin.getsourcefilter(3, 1, group)` -/
def groupCall : LuaState noFunctions := ⟨[.integer 3, .integer 1, .table 0], [], 0⟩

/-- The mode of the first filter is returned with the sources of the second. -/
theorem not_snapshot :
    ¬ ∀ (env : Env) (h : FilterHistory) (m : ByteMemory) (gs slist : Nat)
      (L : LuaState noFunctions), Snapshot env h m gs slist L := by
  intro hall
  have hreturned : l_getsourcefilter groupEnv switched (fun _ => 0) 0 1024 2 groupCall =
      .returned 1 [⟨2, [20]⟩] 2 := by decide
  obtain ⟨j, hj, hmode, haddresses⟩ :=
    hall groupEnv switched (fun _ => 0) 0 1024 groupCall _ _ _ _ hreturned
  match j with
  | 0 => cases haddresses
  | 1 => cases hmode
  | j + 2 => omega

end Snapshot
end Sockets
end FluaLibs
