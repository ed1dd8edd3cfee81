import FluaLibs.OrderedCones
import Mathlib.Algebra.Group.Int.Defs
import Mathlib.Order.Interval.Set.Defs

/-! # Iterating over a subtree of sysctl

A `struct mib` holds an OID in an array of `CTL_MAXNAME` ints, filled up with zeros.
`iter` and `iter_noskip` ask the kernel for the OID after the last one and stop when
it does not begin like the OID the iteration started from; `memcmp` compares that many
bytes of the two arrays, whether the new OID is that long or not.

The kernel is a parameter.  Of its answers the iteration needs only what `NEXT` and
`NEXTNOSKIP` are documented to give (`Kernel.Answers`).
-/
namespace FluaLibs
namespace Sysctl

/-- An `int`. -/
abbrev CInt : Type := {i : Int // -2 ^ 31 ≤ i ∧ i < 2 ^ 31}

instance (n : Nat) : OfNat CInt n where
  ofNat := ⟨(n % 2 ^ 31 : Nat), by omega⟩

/-- An OID. -/
abbrev Oid : Type := List CInt

/-- `CTL_MAXNAME`. -/
def maxname : Nat := 24

/-- `CTL_SYSCTL`, with the requests below it. -/
def ctlSysctl : CInt := 0
def ctlSysctlNext : CInt := 2
def ctlSysctlNextnoskip : CInt := 7
def ctlKern : CInt := 1

def ENOENT : Nat := 2
def ENOMEM : Nat := 12
def EINVAL : Nat := 22

/-! ## Memory -/

/-- The bytes of an int. -/
def intBytes (i : CInt) : List UInt8 :=
  let n := (i.val % 2 ^ 32).toNat
  [n, n / 2 ^ 8, n / 2 ^ 16, n / 2 ^ 24].map (fun b => UInt8.ofNat b)

/-- `sizeof(int)`. -/
def intSize : Nat := 4

/-- The bytes of an array of ints. -/
def bytes (oid : Oid) : List UInt8 := oid.flatMap intBytes

/-- `memcmp`, within both arrays. -/
def memcmp : List UInt8 → List UInt8 → Nat → Int
  | a :: as, b :: bs, n + 1 => if a = b then memcmp as bs n else (a.toNat : Int) - b.toNat
  | _, _, _ => 0

/-- An OID stored in an array of zeros. -/
def fill (oid : Oid) : Oid := (oid ++ List.replicate maxname 0).take maxname

/-- `struct mib`. -/
structure Mib where
  oid : Oid
  oidlen : Nat
  prefixSize : Nat
  kind : Nat
  format : Option String
  name : Option String
  description : Option String
  deriving DecidableEq

/-! ## The kernel -/

/-- `sysctlnametomib(3)`, and `sysctl(2)` for queries that are answered by an OID. -/
structure Kernel where
  nametomib : String → Except Nat Oid
  sysctl : Oid → Except Nat Oid

namespace Kernel
variable (k : Kernel)

/-- `sysctl(2)` with a buffer for `room` ints; a name has at most `CTL_MAXNAME` parts. -/
def query (qoid : Oid) (room : Nat) : Except Nat Oid :=
  if maxname < qoid.length then .error EINVAL
  else
    match k.sysctl qoid with
    | .ok oid => if room < oid.length then .error ENOMEM else .ok oid
    | .error errno => .error errno

/-- The request gives the least of the existing OIDs that are greater than the given
one, or `ENOENT`. -/
structure Answers (request : CInt) (oids : Finset Oid) : Prop where
  least : ∀ oid next, IsLeast {x | x ∈ oids ∧ oid < x} next →
    k.sysctl (ctlSysctl :: request :: oid) = .ok next
  none : ∀ oid, (∀ x ∈ oids, ¬ oid < x) →
    k.sysctl (ctlSysctl :: request :: oid) = .error ENOENT

end Kernel

/-! ## The module -/

/-- `memset(mib, 0, sizeof(*mib))`. -/
def Mib.zero : Mib := ⟨fill [], 0, 0, 0, none, none, none⟩

/-- `l_sysctl`. -/
def l_sysctl (k : Kernel) (name : Option String) : Except Nat Mib :=
  match name with
  | none => .ok { Mib.zero with oid := fill [ctlKern], oidlen := 1, prefixSize := 0 }
  | some name =>
    match k.nametomib name with
    | .error errno => .error errno
    | .ok oid =>
      if maxname < oid.length then .error ENOMEM
      else
        .ok { Mib.zero with
          oid := fill oid
          oidlen := oid.length
          prefixSize := oid.length * intSize
          name := some name }

/-- `l_mib_oid`. -/
def l_mib_oid (mib : Mib) : Oid := mib.oid.take mib.oidlen

/-- `l_mib_iter_next`, a closure over the request, called with the state and the control
variable of a loop.  `none` is nil; a failure is nil with an error message. -/
def l_mib_iter_next (k : Kernel) (request : CInt) (state control : Option Mib) :
    Except Nat (Option Mib) :=
  match control with
  | none => .ok state  -- the initial mib
  | some prev =>
    let qoid := ctlSysctl :: request :: prev.oid.take prev.oidlen
    match k.query qoid maxname with
    | .error errno => if errno = ENOENT then .ok none else .error errno
    | .ok oid =>
      let next := { Mib.zero with prefixSize := prev.prefixSize, oid := fill oid }
      if memcmp (bytes prev.oid) (bytes next.oid) prev.prefixSize ≠ 0 then .ok none
      else .ok (some { next with oidlen := oid.length * intSize / intSize })

/-- The values a loop gets: the closure's request, the state and the control variable. -/
structure Iterator where
  request : CInt
  state : Option Mib
  control : Option Mib

/-- The common body of `l_mib_iter` and `l_mib_iter_noskip`. -/
def iterator (request : CInt) (mib : Mib) : Iterator :=
  if mib.prefixSize = 0 then ⟨request, some mib, none⟩ else ⟨request, none, some mib⟩

/-- `l_mib_iter`. -/
def l_mib_iter (mib : Mib) : Iterator := iterator ctlSysctlNext mib

/-- `l_mib_iter_noskip`. -/
def l_mib_iter_noskip (mib : Mib) : Iterator := iterator ctlSysctlNextnoskip mib

/-- A generic `for` loop in Lua: the values of the loop variable, and the error number
with which the last call failed, if it did.  The fuel bounds the rounds; `none` when they
do not suffice. -/
def forLoop (k : Kernel) : Nat → Iterator → Option (List Mib × Option Nat)
  | 0, _ => none
  | fuel + 1, it =>
    match l_mib_iter_next k it.request it.state it.control with
    | .ok (some mib) =>
      (forLoop k fuel { it with control := some mib }).map (fun r => (mib :: r.1, r.2))
    | .ok none => some ([], none)
    | .error errno => some ([], some errno)

/-! ## Comparing OIDs -/

theorem memcmp_eq_zero {a b : List UInt8} {n : Nat} (ha : n ≤ a.length) (hb : n ≤ b.length) :
    memcmp a b n = 0 ↔ a.take n = b.take n := by
  induction n generalizing a b with
  | zero => cases a <;> cases b <;> simp [memcmp]
  | succ n ih =>
    cases a with
    | nil => cases ha
    | cons x a =>
      cases b with
      | nil => cases hb
      | cons y b =>
        rw [memcmp, List.take_succ_cons, List.take_succ_cons, List.cons.injEq]
        by_cases hxy : x = y
        · rw [if_pos hxy, ih (Nat.le_of_succ_le_succ ha) (Nat.le_of_succ_le_succ hb)]
          exact (and_iff_right hxy).symm
        · rw [if_neg hxy]
          have hne : x.toNat ≠ y.toNat := fun h => hxy (UInt8.toNat_inj.mp h)
          constructor
          · intro h
            omega
          · exact fun h => absurd h.1 hxy

theorem intBytes_length (i : CInt) : (intBytes i).length = intSize := rfl

theorem intBytes_injective : Function.Injective intBytes := by
  rintro ⟨i, hi⟩ ⟨j, hj⟩ h
  simp only [intBytes, List.map_cons, List.map_nil, List.cons.injEq, and_true,
    ← UInt8.toNat_inj, UInt8.toNat_ofNat'] at h
  apply Subtype.ext
  show i = j
  omega

theorem bytes_length (oid : Oid) : (bytes oid).length = oid.length * intSize := by
  induction oid with
  | nil => rfl
  | cons i oid ih =>
    rw [bytes, List.flatMap_cons, List.length_append, intBytes_length, List.length_cons,
      Nat.succ_mul, Nat.add_comm]
    exact congrArg (· + intSize) ih

theorem bytes_take (oid : Oid) (n : Nat) :
    (bytes oid).take (n * intSize) = bytes (oid.take n) := by
  induction n generalizing oid with
  | zero => simp [bytes]
  | succ n ih =>
    cases oid with
    | nil => simp [bytes]
    | cons i oid =>
      have hlen : (n + 1) * intSize = (intBytes i).length + n * intSize := by
        rw [intBytes_length, Nat.succ_mul, Nat.add_comm]
      rw [bytes, List.flatMap_cons, hlen, List.take_length_add_append, List.take_succ_cons]
      exact congrArg (intBytes i ++ ·) (ih oid)

theorem bytes_injective : Function.Injective bytes := by
  intro x y h
  induction x generalizing y with
  | nil =>
    cases y with
    | nil => rfl
    | cons j y => cases h
  | cons i x ih =>
    cases y with
    | nil => cases h
    | cons j y =>
      obtain ⟨hij, hxy⟩ := List.append_inj h rfl
      rw [intBytes_injective hij, ih hxy]

/-- **What the stop condition compares**: the first ints of the two arrays. -/
theorem memcmp_bytes {x y : Oid} {n : Nat} (hx : n ≤ x.length) (hy : n ≤ y.length) :
    memcmp (bytes x) (bytes y) (n * intSize) = 0 ↔ x.take n = y.take n := by
  rw [memcmp_eq_zero, bytes_take, bytes_take]
  · exact bytes_injective.eq_iff
  · rw [bytes_length]
    exact Nat.mul_le_mul_right _ hx
  · rw [bytes_length]
    exact Nat.mul_le_mul_right _ hy

theorem fill_length (oid : Oid) : (fill oid).length = maxname := by
  simp [fill]

/-- The first ints of the array. -/
theorem fill_take (oid : Oid) {n : Nat} (h : n ≤ maxname) :
    (fill oid).take n = (oid ++ List.replicate maxname 0).take n := by
  rw [fill, List.take_take, Nat.min_eq_left h]

theorem fill_take_extends {start oid : Oid} (h : start <+: oid) (hlen : oid.length ≤ maxname) :
    (fill oid).take start.length = start := by
  rw [fill_take oid (h.length_le.trans hlen), List.take_append_of_le_length h.length_le]
  exact (List.prefix_iff_eq_take.mp h).symm

/-! ## The iteration -/

/-- The mib is for the OID `oid`, in an iteration that started from `start`. -/
structure IsFor (start : Oid) (mib : Mib) (oid : Oid) : Prop where
  array : mib.oid = fill oid
  oidlen : mib.oidlen = oid.length
  prefixSize : mib.prefixSize = start.length * intSize

section Iteration
variable {k : Kernel} {request : CInt} {oids : Finset Oid} {start oid : Oid} {mib : Mib}

theorem IsFor.report (h : IsFor start mib oid) (hlen : oid.length ≤ maxname) :
    l_mib_oid mib = oid := by
  rw [l_mib_oid, h.array, h.oidlen, fill_take_extends (List.prefix_refl oid) hlen]

/-- The kernel gets the whole OID. -/
theorem IsFor.query (h : IsFor start mib oid) (hlen : oid.length ≤ maxname - 2) (room : Nat) :
    k.query (ctlSysctl :: request :: mib.oid.take mib.oidlen) room =
      match k.sysctl (ctlSysctl :: request :: oid) with
      | .ok oid => if room < oid.length then .error ENOMEM else .ok oid
      | .error errno => .error errno := by
  have hmax : maxname = 24 := rfl
  have hreport : mib.oid.take mib.oidlen = oid := h.report (by omega)
  rw [hreport, Kernel.query, if_neg]
  simp only [List.length_cons]
  omega

/-- There is no greater OID: the iteration ends. -/
theorem next_of_none (hk : k.Answers request oids) (h : IsFor start mib oid)
    (hlen : oid.length ≤ maxname - 2) (hnone : ∀ x ∈ oids, ¬ oid < x) (state : Option Mib) :
    l_mib_iter_next k request state (some mib) = .ok none := by
  simp only [l_mib_iter_next, h.query hlen, hk.none oid hnone, if_true]

/-- The next OID is accepted exactly when it extends the one the iteration started
from. -/
theorem next_of_least (hk : k.Answers request oids) (h : IsFor start mib oid)
    (hext : start <+: oid) (hlen : oid.length ≤ maxname - 2) {next : Oid}
    (hnext : IsLeast {x | x ∈ oids ∧ oid < x} next) (hnextlen : next.length ≤ maxname - 2)
    (state : Option Mib) :
    (start <+: next ∧ ∃ mib', IsFor start mib' next ∧
      l_mib_iter_next k request state (some mib) = .ok (some mib')) ∨
    (¬ start <+: next ∧ l_mib_iter_next k request state (some mib) = .ok none) := by
  have hmax : maxname = 24 := rfl
  have hstart : start.length ≤ maxname := hext.length_le.trans (by omega)
  have hroom : ¬ maxname < next.length := by omega
  -- the comparison is of bytes and may take in padding, but it decides the extension
  have hcmp : memcmp (bytes mib.oid) (bytes (fill next)) mib.prefixSize = 0 ↔
      start <+: next := by
    rw [h.prefixSize, h.array, memcmp_bytes (by rw [fill_length]; exact hstart)
      (by rw [fill_length]; exact hstart)]
    rw [fill_take_extends hext (by omega)]
    constructor
    · intro htake
      rw [fill_take next hstart] at htake
      exact extends_of_take_padded hext hnext.1.2 htake.symm
    · intro hn
      exact (fill_take_extends hn (by omega)).symm
  simp only [l_mib_iter_next, h.query hlen, hk.least oid next hnext, hroom, if_false]
  by_cases hp : start <+: next
  · refine Or.inl ⟨hp, _, ?_, by rw [if_neg (not_not.mpr (hcmp.mpr hp))]⟩
    exact ⟨rfl, Nat.mul_div_cancel next.length (by decide : 0 < intSize), h.prefixSize⟩
  · exact Or.inr ⟨hp, if_pos (fun h0 => hp (hcmp.mp h0))⟩

/-- **The loop** from an OID on visits what comes after it below the start. -/
theorem forLoop_visits (hk : k.Answers request oids) (hlen : ∀ x ∈ oids, x.length ≤ maxname - 2)
    (state : Option Mib) (fuel : Nat) :
    ∀ {oid : Oid} {mib : Mib}, IsFor start mib oid → start <+: oid →
      oid.length ≤ maxname - 2 → countAfter oids oid < fuel →
      ∃ visited, forLoop k fuel ⟨request, state, some mib⟩ = some (visited, none) ∧
        List.Forall₂ (IsFor start) visited (after oids (start <+: ·) oid) := by
  induction fuel with
  | zero =>
    intro oid mib _ _ _ hfuel
    exact absurd hfuel (Nat.not_lt_zero _)
  | succ fuel ih =>
    intro oid mib h hext hoid hfuel
    rcases exists_least_or_none oids oid with ⟨next, hnext⟩ | hnone
    · have hnextlen := hlen next hnext.1.1
      rcases next_of_least hk h hext hoid hnext hnextlen state with
        ⟨hp, mib', hmib', hcall⟩ | ⟨hp, hcall⟩
      · -- one more OID below the start
        have hcard := countAfter_lt hnext
        obtain ⟨visited, hloop, hfor⟩ := ih hmib' hp hnextlen (by omega)
        refine ⟨mib' :: visited, ?_, ?_⟩
        · simp only [forLoop, hcall, hloop, Option.map_some]
        · rw [after_of_least hnext hp]
          exact List.Forall₂.cons hmib' hfor
      · -- the first OID that is not below the start: no later one is
        refine ⟨[], by simp only [forLoop, hcall], ?_⟩
        rw [after_of_least_not hnext _ hp]
        · exact List.Forall₂.nil
        · exact fun z hz hle => extends_of_between hext hz hnext.1.2.le hle
    · refine ⟨[], by simp only [forLoop, next_of_none hk h hoid hnone state], ?_⟩
      rw [after_of_none hnone]
      exact List.Forall₂.nil

end Iteration

/-- The existing OIDs that strictly extend an OID, in increasing order. -/
def below (oids : Finset Oid) (oid : Oid) : List Oid :=
  (oids.filter (fun x => oid <+: x ∧ oid ≠ x)).sort

theorem below_eq_after (oids : Finset Oid) (oid : Oid) :
    below oids oid = after oids (oid <+: ·) oid := by
  unfold below after
  congr 1
  ext x
  simp only [Finset.mem_filter]
  constructor
  · exact fun h => ⟨h.1, h.2.1, lt_of_le_of_ne (le_of_extends h.2.1) h.2.2⟩
  · exact fun h => ⟨h.1, h.2.1, h.2.2.ne⟩

theorem visited_report {start : Oid} {visited : List Mib} {oids : List Oid}
    (h : List.Forall₂ (IsFor start) visited oids) (hlen : ∀ oid ∈ oids, oid.length ≤ maxname) :
    visited.map l_mib_oid = oids ∧ ∀ v ∈ visited, v.prefixSize = start.length * intSize := by
  induction h with
  | nil => exact ⟨rfl, fun v hv => by cases hv⟩
  | cons hv _ ih =>
    obtain ⟨hreport, hleads⟩ := ih (fun oid hoid => hlen oid (List.mem_cons_of_mem _ hoid))
    constructor
    · rw [List.map_cons, hv.report (hlen _ (List.mem_cons_self ..)), hreport]
    · intro v hmem
      rcases List.mem_cons.mp hmem with rfl | hmem
      · exact hv.prefixSize
      · exact hleads v hmem

/-- A mib made from a name is for the OID of that name. -/
theorem isFor_of_name {k : Kernel} {name : String} {mib : Mib}
    (h : l_sysctl k (some name) = .ok mib) :
    ∃ start : Oid, start.length ≤ maxname ∧ IsFor start mib start := by
  simp only [l_sysctl] at h
  split at h
  · cases h
  · split at h
    · cases h
    · rename_i start _ hroom
      rw [← Except.ok.inj h]
      exact ⟨start, Nat.le_of_not_lt hroom, rfl, rfl, rfl⟩

/-- An OID that leaves no room for the request in front of it: the kernel refuses the
query. -/
theorem forLoop_of_long {k : Kernel} {request : CInt} {start : Oid} {mib : Mib}
    (h : IsFor start mib start) (hroom : start.length ≤ maxname)
    (hlong : maxname - 2 < start.length) (state : Option Mib) (fuel : Nat) :
    forLoop k (fuel + 1) ⟨request, state, some mib⟩ = some ([], some EINVAL) := by
  have hmax : maxname = 24 := rfl
  have hreport : mib.oid.take mib.oidlen = start := h.report hroom
  have hquery : ∀ room, k.query (ctlSysctl :: request :: start) room = .error EINVAL := by
    intro room
    rw [Kernel.query, if_pos]
    simp only [List.length_cons]
    omega
  have hcall : l_mib_iter_next k request state (some mib) = .error EINVAL := by
    simp only [l_mib_iter_next, hreport, hquery]
    rfl
  simp only [forLoop, hcall]

/-- Nothing extends an OID that is longer than all of them. -/
theorem below_of_long {oids : Finset Oid} {oid : Oid} (h : ∀ x ∈ oids, x.length < oid.length) :
    below oids oid = [] := by
  rw [below, Finset.filter_eq_empty_iff.mpr, Finset.sort_empty]
  rintro x hx ⟨hext, _⟩
  exact absurd hext.length_le (Nat.not_le_of_lt (h x hx))

/-- **Subtree iteration.**  A loop over `iter` or `iter_noskip` of a mib made from a name
visits the existing OIDs that strictly extend the mib's, in increasing order, and stops;
the mibs it gives report these OIDs and carry the mib's prefix length.  It stops with nil,
unless the mib's own OID is so long that the kernel takes no request with it. -/
theorem iter_visits_below (k : Kernel) (oids : Finset Oid) (name : String) (mib : Mib)
    (it : Iterator) (fuel : Nat) (hk : k.Answers it.request oids)
    (hlen : ∀ oid ∈ oids, oid.length ≤ maxname - 2) (hmib : l_sysctl k (some name) = .ok mib)
    (hne : l_mib_oid mib ≠ []) (hit : it = l_mib_iter mib ∨ it = l_mib_iter_noskip mib)
    (hfuel : oids.card < fuel) :
    ∃ visited failure, forLoop k fuel it = some (visited, failure) ∧
      visited.map l_mib_oid = below oids (l_mib_oid mib) ∧
      (∀ v ∈ visited, v.prefixSize = mib.prefixSize) ∧
      ((l_mib_oid mib).length ≤ maxname - 2 → failure = none) := by
  have hmax : maxname = 24 := rfl
  obtain ⟨start, hroom, hfor⟩ := isFor_of_name hmib
  rw [hfor.report hroom] at hne ⊢
  have hleads : mib.prefixSize ≠ 0 := by
    have hpos := List.length_pos_iff.mpr hne
    rw [hfor.prefixSize]
    exact Nat.mul_ne_zero (by omega) (by decide)
  have hit' : it = ⟨it.request, none, some mib⟩ := by
    rcases hit with rfl | rfl
    · simp only [l_mib_iter, iterator, hleads, if_false]
    · simp only [l_mib_iter_noskip, iterator, hleads, if_false]
  by_cases hstart : start.length ≤ maxname - 2
  · obtain ⟨visited, hloop, hvisited⟩ :=
      forLoop_visits hk hlen none fuel hfor (List.prefix_refl start) hstart
        ((countAfter_le oids start).trans_lt hfuel)
    have hbound : ∀ oid ∈ after oids (start <+: ·) start, oid.length ≤ maxname := by
      intro oid hoid
      have := hlen oid ((mem_after _ _).mp hoid).1
      omega
    obtain ⟨hreport, hsize⟩ := visited_report hvisited hbound
    refine ⟨visited, none, by rw [hit']; exact hloop, ?_, ?_, fun _ => rfl⟩
    · rw [below_eq_after, hreport]
    · rw [hfor.prefixSize]
      exact hsize
  · -- no existing OID is that long, so there is nothing to visit
    obtain ⟨rounds, rfl⟩ := Nat.exists_eq_add_of_lt hfuel
    have hlong : maxname - 2 < start.length := by omega
    refine ⟨[], some EINVAL, ?_, ?_, ?_, fun h => absurd h hstart⟩
    · rw [hit']
      exact forLoop_of_long hfor hroom hlong none _
    · rw [List.map_nil, below_of_long (fun x hx => (hlen x hx).trans_lt hlong)]
    · intro v hv
      cases hv

/-! ## A kernel -/

/-- A kernel with a finite set of OIDs, which answers every request below `CTL_SYSCTL`
like `NEXT`. -/
def Kernel.ofOids (oids : Finset Oid) (nametomib : String → Except Nat Oid) : Kernel where
  nametomib := nametomib
  sysctl
    | _ :: _ :: oid =>
      match after oids (fun _ => True) oid with
      | next :: _ => .ok next
      | [] => .error ENOENT
    | _ => .error EINVAL

theorem Kernel.ofOids_answers (oids : Finset Oid) (nametomib : String → Except Nat Oid)
    (request : CInt) : (Kernel.ofOids oids nametomib).Answers request oids where
  least oid next hnext := by
    simp only [Kernel.ofOids, after_of_least (p := fun _ => True) hnext trivial]
  none oid hnone := by
    simp only [Kernel.ofOids, after_of_none (p := fun _ => True) hnone]

/-- A loop over the subtree of `kern`. -/
theorem iter_visits_below_kern :
    let k := Kernel.ofOids {[1], [1, 2], [1, 2, 3], [1, 5], [2], [2, 1]} (fun _ => .ok [1])
    ∃ mib visited, l_sysctl k (some "kern") = .ok mib ∧
      forLoop k 7 (l_mib_iter mib) = some (visited, none) ∧
      visited.map l_mib_oid =
        below {[1], [1, 2], [1, 2, 3], [1, 5], [2], [2, 1]} (l_mib_oid mib) := by
  intro k
  obtain ⟨visited, failure, hloop, hvisited, _, hended⟩ :=
    iter_visits_below k _ "kern" _ _ 7
      (Kernel.ofOids_answers {[1], [1, 2], [1, 2, 3], [1, 5], [2], [2, 1]} _ _)
      (by decide) rfl (by decide) (Or.inl rfl) (by decide)
  rw [hended (by decide)] at hloop
  exact ⟨_, visited, rfl, hloop, hvisited⟩

end Sysctl
end FluaLibs
