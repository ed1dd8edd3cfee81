import FluaLibs.ExtattrLists
import FluaLibs.Requests

/-! # Reading extended attributes

The functions that get an attribute, and those that list the attributes of a file, ask the
kernel without a buffer first, which gives the size, and then with a buffer of twice that
size.  Whoever may write the attribute may do so in between.  The kernel copies what the
buffer has room for, and reports how much that is, so the second answer always fits.

The eight functions differ in what their arguments designate.  What the kernel finds there
at each instant is a `Timeline`.
-/
namespace FluaLibs
namespace Extattr
open LuaArguments
variable {R : Runtime}

/-! ## What the kernel finds -/

/-- What there is at each instant, and the instants of a call: its start and its end, and
those at which its system calls look. -/
structure Timeline (α : Type) where
  value : Nat → α
  start : Nat
  finish : Nat
  request : Nat → Nat
  /-- The error number of a system call that fails. -/
  failure : Nat → Option Nat
  within : ∀ k, start ≤ request k ∧ request k ≤ finish
  mono : ∀ k, request k ≤ request (k + 1)

namespace Timeline
variable {α β : Type}

def map (f : α → β) (t : Timeline α) : Timeline β := { t with value := fun i => f (t.value i) }

/-- An instant of the call. -/
def During (t : Timeline α) (i : Nat) : Prop := t.start ≤ i ∧ i ≤ t.finish

/-- What the `k`-th system call finds. -/
def found (t : Timeline α) (k : Nat) : α := t.value (t.request k)

theorem during_request (t : Timeline α) (k : Nat) : t.During (t.request k) := t.within k

/-- `extattr_get_fd(2)` and the others: what they report for a buffer with some room, which is
null if there is none. -/
def report (t : Timeline Bytes) (k room : Nat) : Except Nat Nat :=
  match t.failure k with
  | some errno => .error errno
  | none => .ok (if room = 0 then (t.found k).length else min (t.found k).length room)

end Timeline

/-- What a call designates. -/
inductive Target where
  | fd (fd : Int)
  | file (path : Bytes)
  | link (path : Bytes)
  deriving DecidableEq

/-- What a call asks for: the value of an attribute, or the names. -/
inductive Request where
  | value (target : Target) (attrnamespace : Int) (attrname : Bytes)
  | names (target : Target) (attrnamespace : Int)
  deriving DecidableEq

/-- What is outside the module. -/
structure Env where
  host : Host
  value : Target → Int → Bytes → Timeline Bytes
  names : Target → Int → Timeline (List AttrName)
  /-- Whether `malloc` gives memory, after which system call. -/
  malloc : Nat → Nat → Bool
  charSigned : Bool
  length : Length
  table : Nat

/-! ## The code -/

/-- How a call ends. -/
inductive Outcome where
  | running
  | raised (e : Raised)
  | failed (errno : Nat)
  | value (v : Bytes)
  | names (t : Table)
  | fault (f : Fault)

/-- The system calls of a function, each with a buffer twice as large as what the one
before has reported. -/
def requests (t : Timeline Bytes) (malloc : Nat → Nat → Bool) : Requests Nat :=
  ⟨t.report, fun getlen => getlen * 2, malloc⟩

/-- The loop of the functions, and what they make of the bytes it ends with. -/
def fetch (t : Timeline Bytes) (malloc : Nat → Nat → Bool) (rounds : Nat)
    (push : Bytes → Outcome) : Outcome :=
  match (requests t malloc).loop rounds 0 0 with
  | .running => .running
  | .refused => .raised (.fatal "malloc" ENOMEM)
  | .failed errno => .failed errno
  | .fits k _ getlen => push ((t.found k).take getlen)

/-- The table of names, or the fault. -/
def pushNames (env : Env) (data : Bytes) : Outcome :=
  match pushlist env.charSigned env.length env.table data with
  | .ok c => .names c.table
  | .error f => .fault f

def Env.perform (env : Env) (rounds : Nat) : Request → Outcome
  | .value target ns name => fetch (env.value target ns name) env.malloc rounds .value
  | .names target ns =>
    fetch ((env.names target ns).map encode) env.malloc rounds (pushNames env)

/-- A function: the checks of its arguments, and then the request. -/
def Env.call (env : Env) (rounds : Nat) : Except Raised Request → Outcome
  | .error e => .raised e
  | .ok request => env.perform rounds request

/-- `fileno(s->f)` -/
def filenoOf (s : Stream) : Except Raised Int :=
  match s.fileno with
  | .ok fd => .ok fd
  | .error errno => .error (.fatal "fileno" errno)

section Arguments
variable (host : Host) (L : LuaState R)

/-- `attrnamespace`, an `int`. -/
def namespaceArgument : Except Raised Int := do
  let i ← checkinteger host 2 (L.index 2)
  pure (IntType.int.wrap i)

/-- `path` and `attrname` are C strings. -/
def stringArgument (arg : Int) : Except Raised Bytes := do
  let s ← checklstring host arg (L.index arg)
  pure (cstr s)

def fdArgument : Except Raised Int := do
  let i ← checkinteger host 1 (L.index 1)
  pure (IntType.int.wrap i)

/-- The arguments of `l_extattr_get`. -/
def getArguments : Except Raised Request := do
  let s ← checkstream host 1 (L.index 1)
  let attrnamespace ← namespaceArgument host L
  let attrname ← stringArgument host L 3
  let fd ← filenoOf s
  pure (.value (.fd fd) attrnamespace attrname)

def getFdArguments : Except Raised Request := do
  let fd ← fdArgument host L
  let attrnamespace ← namespaceArgument host L
  let attrname ← stringArgument host L 3
  pure (.value (.fd fd) attrnamespace attrname)

def getFileArguments : Except Raised Request := do
  let path ← stringArgument host L 1
  let attrnamespace ← namespaceArgument host L
  let attrname ← stringArgument host L 3
  pure (.value (.file path) attrnamespace attrname)

def getLinkArguments : Except Raised Request := do
  let path ← stringArgument host L 1
  let attrnamespace ← namespaceArgument host L
  let attrname ← stringArgument host L 3
  pure (.value (.link path) attrnamespace attrname)

/-- The arguments of `l_extattr_list`. -/
def listArguments : Except Raised Request := do
  let s ← checkstream host 1 (L.index 1)
  let attrnamespace ← namespaceArgument host L
  let fd ← filenoOf s
  pure (.names (.fd fd) attrnamespace)

def listFdArguments : Except Raised Request := do
  let fd ← fdArgument host L
  let attrnamespace ← namespaceArgument host L
  pure (.names (.fd fd) attrnamespace)

def listFileArguments : Except Raised Request := do
  let path ← stringArgument host L 1
  let attrnamespace ← namespaceArgument host L
  pure (.names (.file path) attrnamespace)

def listLinkArguments : Except Raised Request := do
  let path ← stringArgument host L 1
  let attrnamespace ← namespaceArgument host L
  pure (.names (.link path) attrnamespace)

end Arguments

section Functions
variable (env : Env) (rounds : Nat) (L : LuaState R)

def l_extattr_get : Outcome := env.call rounds (getArguments env.host L)
def l_extattr_get_fd : Outcome := env.call rounds (getFdArguments env.host L)
def l_extattr_get_file : Outcome := env.call rounds (getFileArguments env.host L)
def l_extattr_get_link : Outcome := env.call rounds (getLinkArguments env.host L)
def l_extattr_list : Outcome := env.call rounds (listArguments env.host L)
def l_extattr_list_fd : Outcome := env.call rounds (listFdArguments env.host L)
def l_extattr_list_file : Outcome := env.call rounds (listFileArguments env.host L)
def l_extattr_list_link : Outcome := env.call rounds (listLinkArguments env.host L)

end Functions

/-- The functions that get or list. -/
inductive Function where
  | get | get_fd | get_file | get_link
  | list | list_fd | list_file | list_link
  deriving DecidableEq

/-- What a function asks for, if its arguments pass. -/
def Function.arguments (f : Function) (host : Host) (L : LuaState R) : Except Raised Request :=
  match f with
  | .get => getArguments host L
  | .get_fd => getFdArguments host L
  | .get_file => getFileArguments host L
  | .get_link => getLinkArguments host L
  | .list => listArguments host L
  | .list_fd => listFdArguments host L
  | .list_file => listFileArguments host L
  | .list_link => listLinkArguments host L

def Function.run (f : Function) (env : Env) (rounds : Nat) (L : LuaState R) : Outcome :=
  match f with
  | .get => l_extattr_get env rounds L
  | .get_fd => l_extattr_get_fd env rounds L
  | .get_file => l_extattr_get_file env rounds L
  | .get_link => l_extattr_get_link env rounds L
  | .list => l_extattr_list env rounds L
  | .list_fd => l_extattr_list_fd env rounds L
  | .list_file => l_extattr_list_file env rounds L
  | .list_link => l_extattr_list_link env rounds L

theorem Function.run_eq (f : Function) (env : Env) (rounds : Nat) (L : LuaState R) :
    f.run env rounds L = env.call rounds (f.arguments env.host L) := by
  cases f <;> rfl

/-! ## The two system calls -/

section Loop
variable {t : Timeline Bytes} {malloc : Nat → Nat → Bool} {rounds : Nat}

/-- A second system call is made, and it succeeds. -/
def Reads (t : Timeline Bytes) (malloc : Nat → Nat → Bool) : Prop :=
  t.failure 0 = none ∧ t.found 0 ≠ [] ∧ malloc 0 ((t.found 0).length * 2) = true ∧
    t.failure 1 = none

/-- The room for the second system call. -/
def room (t : Timeline Bytes) : Nat := (t.found 0).length * 2

theorem report_first (h : t.failure 0 = none) : t.report 0 0 = .ok (t.found 0).length := by
  simp [Timeline.report, h]

theorem failure_of_report {k n size : Nat} (h : t.report k n = .ok size) :
    t.failure k = none := by
  unfold Timeline.report at h
  split at h
  · cases h
  · assumption

theorem room_one (h : t.failure 0 = none) : (requests t malloc).room 0 1 = room t :=
  Requests.room_succ (report_first h)

theorem report_second {k n : Nat} (h : t.failure k = none) (hn : n ≠ 0) :
    t.report k n = .ok (min (t.found k).length n) := by
  simp [Timeline.report, h, hn]

theorem continues_zero_iff : (requests t malloc).Continues 0 0 ↔
    t.failure 0 = none ∧ t.found 0 ≠ [] ∧ malloc 0 ((t.found 0).length * 2) = true := by
  constructor
  · rintro ⟨size, hreport, hlt, hgrants⟩
    have hfailure : t.failure 0 = none := failure_of_report hreport
    cases (report_first hfailure).symm.trans hreport
    exact ⟨hfailure, List.length_pos_iff.mp hlt, hgrants⟩
  · rintro ⟨hfailure, hne, hgrants⟩
    exact ⟨_, report_first hfailure, List.length_pos_iff.mpr hne, hgrants⟩

/-- What the second system call reports always fits. -/
theorem fits_one (h : Reads t malloc) :
    (requests t malloc).Fits 0 1 (min (t.found 1).length (room t)) := by
  obtain ⟨hfirst, hne, -, hsecond⟩ := h
  have hpos : 0 < (t.found 0).length := List.length_pos_iff.mpr hne
  have hroom : room t ≠ 0 := by
    rw [room]
    omega
  rw [Requests.Fits, room_one hfirst]
  exact ⟨report_second hsecond hroom, Nat.min_le_right _ _⟩

/-- There is no third system call. -/
theorem not_continues_one (h : (requests t malloc).Continues 0 0) :
    ¬ (requests t malloc).Continues 0 1 := by
  obtain ⟨hfirst, hne, hgrants⟩ := continues_zero_iff.mp h
  intro hcont
  obtain ⟨size, hreport, -⟩ := id hcont
  have hsecond : t.failure 1 = none := failure_of_report hreport
  exact (fits_one ⟨hfirst, hne, hgrants, hsecond⟩).not_continues hcont

/-- **What the loop ends with**: nothing, after one system call that finds nothing, or as
much as there is room for of what the second finds. -/
theorem loop_eq_fits_iff {k n size : Nat} :
    (requests t malloc).loop rounds 0 0 = .fits k n size ↔
      (k = 0 ∧ n = 0 ∧ size = 0 ∧ 0 < rounds ∧ t.failure 0 = none ∧ t.found 0 = []) ∨
      (k = 1 ∧ n = room t ∧ size = min (t.found 1).length (room t) ∧ 1 < rounds ∧
        Reads t malloc) := by
  rw [Requests.loop_eq_fits_iff]
  constructor
  · rintro ⟨hrounds, hcont, hfits, hn⟩
    match k with
    | 0 =>
      left
      obtain ⟨hreport, hle⟩ := hfits
      have hfailure : t.failure 0 = none := failure_of_report hreport
      cases (report_first hfailure).symm.trans hreport
      have hzero : (t.found 0).length = 0 := Nat.le_zero.mp hle
      exact ⟨rfl, hn, hzero, hrounds, hfailure, List.length_eq_zero_iff.mp hzero⟩
    | 1 =>
      right
      obtain ⟨hfirst, hne, hgrants⟩ := continues_zero_iff.mp (hcont 0 (by omega))
      have hsecond : t.failure 1 = none := failure_of_report hfits.1
      have hreads : Reads t malloc := ⟨hfirst, hne, hgrants, hsecond⟩
      have hroom : n = room t := hn.trans (room_one hfirst)
      cases (fits_one hreads).1.symm.trans hfits.1
      exact ⟨rfl, hroom, rfl, hrounds, hreads⟩
    | k + 2 => exact absurd (hcont 1 (by omega)) (not_continues_one (hcont 0 (by omega)))
  · rintro (⟨rfl, rfl, rfl, hrounds, hfailure, hnil⟩ | ⟨rfl, rfl, rfl, hrounds, hreads⟩)
    · refine ⟨hrounds, fun i hi => absurd hi (Nat.not_lt_zero i), ⟨?_, Nat.le_refl _⟩, rfl⟩
      show t.report 0 0 = .ok 0
      rw [report_first hfailure, hnil]
      rfl
    · refine ⟨hrounds, fun i hi => ?_, fits_one hreads, (room_one hreads.1).symm⟩
      obtain rfl : i = 0 := by omega
      exact continues_zero_iff.mpr ⟨hreads.1, hreads.2.1, hreads.2.2.1⟩

/-- What the bytes are that a loop ends with. -/
theorem fetch_cases (t : Timeline Bytes) (malloc : Nat → Nat → Bool) (rounds : Nat)
    (push : Bytes → Outcome) :
    (∃ k, fetch t malloc rounds push = push (t.found k)) ∨
    (Reads t malloc ∧ room t < (t.found 1).length ∧
      fetch t malloc rounds push = push ((t.found 1).take (room t))) ∨
    fetch t malloc rounds push = .running ∨
    fetch t malloc rounds push = .raised (.fatal "malloc" ENOMEM) ∨
    ∃ errno, fetch t malloc rounds push = .failed errno := by
  rw [fetch]
  cases hloop : (requests t malloc).loop rounds 0 0 with
  | running => exact Or.inr (Or.inr (Or.inl rfl))
  | refused => exact Or.inr (Or.inr (Or.inr (Or.inl rfl)))
  | failed errno => exact Or.inr (Or.inr (Or.inr (Or.inr ⟨errno, rfl⟩)))
  | fits k n size =>
    rcases loop_eq_fits_iff.mp hloop with ⟨rfl, -, rfl, -, -, hnil⟩ | ⟨rfl, -, rfl, -, hreads⟩
    · left
      refine ⟨0, ?_⟩
      dsimp only
      rw [List.take_zero, hnil]
    by_cases hroom : (t.found 1).length ≤ room t
    · left
      refine ⟨1, ?_⟩
      dsimp only
      rw [Nat.min_eq_left hroom, List.take_length]
    · right
      left
      have hlt : room t < (t.found 1).length := Nat.lt_of_not_le hroom
      refine ⟨hreads, hlt, ?_⟩
      dsimp only
      rw [Nat.min_eq_right (Nat.le_of_lt hlt)]

/-- A call that is cut short. -/
theorem fetch_of_cut {push : Bytes → Outcome} (hreads : Reads t malloc)
    (hcut : room t < (t.found 1).length) :
    fetch t malloc 2 push = push ((t.found 1).take (room t)) := by
  have hloop : (requests t malloc).loop 2 0 0 =
      .fits 1 (room t) (min (t.found 1).length (room t)) :=
    loop_eq_fits_iff.mpr (Or.inr ⟨rfl, rfl, rfl, by decide, hreads⟩)
  rw [fetch, hloop]
  dsimp only
  rw [Nat.min_eq_right (Nat.le_of_lt hcut)]

end Loop

/-! ## Lists that are cut -/

section Cut
variable {charSigned : Bool} {length : Length} {r : Nat}

/-- The names whose length byte is in the first bytes of the list. -/
def begun : Nat → List AttrName → List AttrName
  | 0, _ => []
  | _ + 1, [] => []
  | size + 1, n :: names => n :: begun (size - n.bytes.length) names

/-- Some name that has begun has a length that a `char` does not hold. -/
def LongBegun (charSigned : Bool) (size : Nat) (names : List AttrName) : Prop :=
  ∃ n ∈ begun size names, ¬ Fits charSigned n.bytes.length

theorem encode_cons (n : AttrName) (names : List AttrName) :
    encode (n :: names) = encodeName n.bytes ++ encode names := by
  simp [encode, encodeBytes]

theorem toNat_ofNat_name (n : AttrName) :
    (UInt8.ofNat n.bytes.length).toNat = n.bytes.length :=
  UInt8.toNat_ofNat_of_lt' (Nat.lt_succ_of_le n.le)

/-- The names at the start of a list that is cut, and what is left of it. -/
theorem cut_split (charSigned : Bool) (size : Nat) (names : List AttrName) :
    ∃ ns rest fault, (encode names).take size = encodeBytes ns ++ rest ∧
      (∀ n ∈ ns, Fits charSigned n.length) ∧ Rest charSigned rest fault ∧
      (fault = some .tooBig ↔ LongBegun charSigned size names) := by
  induction names generalizing size with
  | nil =>
    refine ⟨[], [], none, by simp [encode, encodeBytes], List.forall_mem_nil _, .done, ?_⟩
    cases size <;> simp [LongBegun, begun]
  | cons n names ih =>
    rcases size with _ | size
    · exact ⟨[], [], none, rfl, List.forall_mem_nil _, .done, by simp [LongBegun, begun]⟩
    have hlen := toNat_ofNat_name n
    have htake : (encode (n :: names)).take (size + 1) =
        UInt8.ofNat n.bytes.length :: (n.bytes ++ encode names).take size := by
      rw [encode_cons, encodeName, List.cons_append, List.take_succ_cons]
    by_cases hfits : Fits charSigned n.bytes.length
    · by_cases hle : n.bytes.length ≤ size
      · obtain ⟨ns, rest, fault, hsplit, hns, hrest, hlong⟩ := ih (size - n.bytes.length)
        refine ⟨n.bytes :: ns, rest, fault, ?_, List.forall_mem_cons.mpr ⟨hfits, hns⟩, hrest, ?_⟩
        · rw [htake, List.take_append, List.take_of_length_le hle, hsplit]
          simp [encodeBytes, encodeName]
        · rw [hlong]
          simp [LongBegun, begun, hfits]
      · have hlt : size < n.bytes.length := Nat.lt_of_not_le hle
        have hrest : ((n.bytes ++ encode names).take size).length < n.bytes.length := by
          rw [List.length_take]
          omega
        refine ⟨[], _, some .outOfBounds, htake, List.forall_mem_nil _,
          .short (by rwa [hlen]) (by rwa [hlen]), ?_⟩
        have hzero : size - n.bytes.length = 0 := by omega
        simp [LongBegun, begun, hfits, hzero]
    · refine ⟨[], _, some .tooBig, htake, List.forall_mem_nil _, .long (by rwa [hlen]), ?_⟩
      exact iff_of_true rfl ⟨n, List.mem_cons_self, hfits⟩

/-- Different lists of names have different tables. -/
theorem nameTable_injective {ns ms : List Bytes} (h : nameTable ns = nameTable ms) : ns = ms := by
  have hvalues := Table.ofList_injective (by simp) (by simp) h
  exact List.map_injective_iff.mpr (fun _ _ heq => Value.string.inj heq) hvalues

/-- A whole list is decoded, or Lua refuses one of its names. -/
theorem pushlist_encode (names : List AttrName) :
    Decodes charSigned length r names ∨
      pushlist charSigned length r (encode names) = .error .tooBig := by
  by_cases hfits : ∀ n ∈ names, Fits charSigned n.bytes.length
  · exact Or.inl (pushlist_of_fits hfits)
  · push Not at hfits
    obtain ⟨n, hmem, hlong⟩ := hfits
    exact Or.inr (pushlist_of_long hmem hlong)

end Cut

/-! ## Complete reads -/

/-- The second system call finds more than there is room for. -/
def Cut (t : Timeline Bytes) (malloc : Nat → Nat → Bool) : Prop :=
  Reads t malloc ∧ room t < (t.found 1).length

/-- What a successful call returns is all there was at some instant of the call. -/
def Complete (env : Env) (request : Request) (outcome : Outcome) : Prop :=
  match request with
  | .value target ns name =>
    ∀ v, outcome = .value v → ∃ i, (env.value target ns name).During i ∧
      (env.value target ns name).value i = v
  | .names target ns =>
    (∀ table, outcome = .names table → ∃ i, (env.names target ns).During i ∧
      table = .ofList (((env.names target ns).value i).map (fun n => .string n.bytes))) ∧
    outcome ≠ .fault .outOfBounds

/-- The read is not cut, or what is cut off makes no difference: Lua refuses one of the
names before the end, or the rest is what there was at another instant. -/
def Whole (env : Env) (request : Request) : Prop :=
  match request with
  | .value target ns name =>
    let t := env.value target ns name
    ¬ Cut t env.malloc ∨ ∃ i, t.During i ∧ t.value i = (t.found 1).take (room t)
  | .names target ns =>
    let t := env.names target ns
    ¬ Cut (t.map encode) env.malloc ∨
      LongBegun env.charSigned (room (t.map encode)) (t.found 1) ∨
      ∃ i, t.During i ∧ encode (t.value i) = (encode (t.found 1)).take (room (t.map encode))

section Complete
variable {env : Env} {target : Target} {ns : Int}

theorem complete_value_iff {name : Bytes} :
    (∀ rounds, Complete env (.value target ns name)
      (env.perform rounds (.value target ns name))) ↔ Whole env (.value target ns name) := by
  constructor
  · intro hall
    by_cases hcut : Cut (env.value target ns name) env.malloc
    · exact Or.inr (hall 2 _ (fetch_of_cut hcut.1 hcut.2))
    · exact Or.inl hcut
  · intro hwhole rounds v hv
    rw [Env.perform] at hv
    rcases fetch_cases (env.value target ns name) env.malloc rounds .value with
      ⟨k, heq⟩ | ⟨hreads, hlt, heq⟩ | heq | heq | ⟨errno, heq⟩
    all_goals cases heq.symm.trans hv
    · exact ⟨_, Timeline.during_request _ k, rfl⟩
    · rcases hwhole with hnot | hinstant
      · exact absurd ⟨hreads, hlt⟩ hnot
      · exact hinstant

/-- A list of all names is complete, or Lua refuses one of them. -/
theorem complete_of_encode {names : List AttrName} {i : Nat}
    (hi : (env.names target ns).During i) (hnames : (env.names target ns).value i = names) :
    Complete env (.names target ns) (pushNames env (encode names)) := by
  rw [pushNames]
  rcases pushlist_encode names with hpush | hpush
  · rw [hpush]
    refine ⟨fun table htable => ⟨i, hi, ?_⟩, fun hfault => nomatch hfault⟩
    cases htable
    rw [hnames]
  · rw [hpush]
    exact ⟨fun table htable => (nomatch htable), fun hfault => nomatch hfault⟩

/-- A list that is cut. -/
theorem complete_of_cut_iff {names : List AttrName} {size : Nat} :
    Complete env (.names target ns) (pushNames env ((encode names).take size)) ↔
      LongBegun env.charSigned size names ∨ ∃ i, (env.names target ns).During i ∧
        encode ((env.names target ns).value i) = (encode names).take size := by
  obtain ⟨ms, rest, fault, hsplit, hms, hrest, hlong⟩ := cut_split env.charSigned size names
  have hpush : pushlist env.charSigned env.length env.table ((encode names).take size) =
      ending ms fault := by
    rw [hsplit]
    exact pushlist_split hms hrest
  constructor
  · intro hcomplete
    rw [pushNames, hpush] at hcomplete
    cases hrest with
    | done =>
      obtain ⟨i, hi, htable⟩ := hcomplete.1 _ rfl
      right
      refine ⟨i, hi, ?_⟩
      have hnames : nameTable ms = nameTable (((env.names target ns).value i).map AttrName.bytes) :=
        htable.trans (congrArg Cursor.table (after_names _)).symm
      rw [hsplit, List.append_nil, nameTable_injective hnames]
      rfl
    | long h => exact Or.inl (hlong.mp rfl)
    | short hfits h => exact absurd rfl hcomplete.2
  · rintro (hbegun | ⟨i, hi, hencode⟩)
    · rw [pushNames, hpush, hlong.mpr hbegun]
      exact ⟨fun table htable => (nomatch htable), fun hfault => nomatch hfault⟩
    · rw [← hencode]
      exact complete_of_encode hi rfl

theorem complete_names_iff :
    (∀ rounds, Complete env (.names target ns) (env.perform rounds (.names target ns))) ↔
      Whole env (.names target ns) := by
  constructor
  · intro hall
    by_cases hcut : Cut ((env.names target ns).map encode) env.malloc
    · have hcomplete := hall 2
      rw [Env.perform, fetch_of_cut hcut.1 hcut.2] at hcomplete
      exact Or.inr (complete_of_cut_iff.mp hcomplete)
    · exact Or.inl hcut
  · intro hwhole rounds
    rw [Env.perform]
    rcases fetch_cases ((env.names target ns).map encode) env.malloc rounds (pushNames env) with
      ⟨k, heq⟩ | ⟨hreads, hlt, heq⟩ | heq | heq | ⟨errno, heq⟩
    all_goals rw [heq]
    · exact complete_of_encode (Timeline.during_request _ k) rfl
    · rcases hwhole with hnot | hinstant
      · exact absurd ⟨hreads, hlt⟩ hnot
      · exact complete_of_cut_iff.mpr hinstant
    all_goals exact ⟨fun table htable => (nomatch htable), fun hfault => nomatch hfault⟩

/-- The calls that get as far as a request return what was there whole. -/
def Function.Complete (f : Function) (env : Env) (L : LuaState R) : Prop :=
  ∀ request, f.arguments env.host L = .ok request →
    ∀ rounds, Extattr.Complete env request (f.run env rounds L)

/-- **A call returns all there was exactly if its read is whole.** -/
theorem complete_iff (f : Function) (env : Env) (L : LuaState R) :
    f.Complete env L ↔ ∀ request, f.arguments env.host L = .ok request → Whole env request := by
  refine forall_congr' fun request => forall_congr' fun hrequest => ?_
  have hrun (rounds : Nat) : f.run env rounds L = env.perform rounds request := by
    rw [f.run_eq, hrequest]
    rfl
  simp only [hrun]
  cases request with
  | value target ns name => exact complete_value_iff
  | names target ns => exact complete_names_iff

/-- An attribute that grows between the two system calls. -/
def growing : Timeline Bytes where
  value i := if i = 0 then [97] else [97, 98, 99]
  start := 0
  finish := 1
  request k := min k 1
  failure _ := none
  within k := ⟨Nat.zero_le _, Nat.min_le_right k 1⟩
  mono k := by omega

def growingEnv : Env where
  host := .plain
  value _ _ _ := growing
  names _ _ := growing.map (fun _ => [])
  malloc _ _ := true
  charSigned := true
  length := .least
  table := 0

/-- `extattr.get_fd(3, extattr.NAMESPACE_USER, "a")` -/
def growingCall : LuaState noFunctions := ⟨[.integer 3, .integer 1, .string [97]], [], 0⟩

/-- Of the three bytes that are there when it is read, two are returned. -/
theorem not_complete :
    ¬ ∀ (f : Function) (env : Env) (L : LuaState noFunctions), f.Complete env L := by
  intro hall
  have hcomplete := hall .get_fd growingEnv growingCall (.value (.fd 3) 1 [97]) rfl 2
  obtain ⟨i, -, hi⟩ := hcomplete [97, 98] rfl
  have hvalue : growing.value i = [97, 98] := hi
  unfold growing at hvalue
  dsimp only at hvalue
  split at hvalue <;> cases hvalue

end Complete
end Extattr
end FluaLibs
