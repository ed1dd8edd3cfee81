import FluaLibs.CasperSysctl
import FluaLibs.FixedWidth

/-! # Reading and writing sysctl values

`mib:value()` asks for the size of a value, allocates twice as much in case it grows,
and asks for the value until the buffer is large enough.  Then it decodes the buffer by
the type of the variable.  `mib:value(v)` converts `v` to the type and passes the bytes
to the kernel.

The kernel's binding and the casper binding have the same code and differ in who is
asked.  What is asked may answer differently each time: the variable can have another
value at each query, and the allocator can refuse.  A buffer that is too small is filled,
and its size is what the query reports then (`sysctl(3)`).
-/
namespace FluaLibs
namespace SysctlValues
open CasperSysctl
open Sysctl (CInt Oid intSize fill ctlSysctl ENOMEM)

/-- Who is asked for a value: the kernel, or a casper channel. -/
inductive Access where
  | sysctl
  | cap_sysctl (chan : Nat)
  deriving DecidableEq

namespace Access

def oracle : Access → Oracle
  | .sysctl => .direct
  | .cap_sysctl chan => .channel chan

def ask (access : Access) (name : Oid) (old : Old) (new : Option Bytes) : Code Reply :=
  .ask access.oracle (.sysctl name old new) .ret

theorem oracle_ne_memory (access : Access) : access.oracle ≠ .memory := by
  cases access <;> simp [oracle]

end Access

/-! ## The code -/

/-- The loop of `l_mib_value` and `l_cap_mib_value` without an argument; `p` says whether
there is a buffer, of `size` bytes. -/
def fetchLoop (access : Access) (path : Oid) : Nat → Bool → Nat → Code (Except Result Reply)
  | 0, _, _ => pure (.error .running)
  | rounds + 1, p, size => do
    let reply ← access.ask path (if p then .buffer size else .length) none
    let again : Code (Except Result Reply) := do
      let size := reply.size * 2 % 2 ^ 64  -- in case it grows
      let allocated ← malloc size
      match allocated.errno with
      | some _ => pure (.error (fatal "malloc" ENOMEM))
      | none => fetchLoop access path rounds true size
    match reply.errno with
    | some errno => if errno ≠ ENOMEM then pure (.error (fail errno)) else again
    | none => if p then pure (.ok reply) else again

/-- `MAX_SIZE`: Lua refuses a string of that size. -/
def maxString : Nat := 2 ^ 63 - 1

/-- What a decoded value is. -/
inductive Decoded where
  | item (item : Item)
  | unknownCtltype (ctltype : Nat)
  | tooBig
  deriving DecidableEq

/-- A decoding: how many bytes it reads from the start of the buffer, the length it has
given to `lua_pushlstring`, and the value. -/
structure Decoding where
  reads : Nat
  length : Option Nat
  value : Decoded

/-- The first bytes of the buffer. -/
def load (buffer : Nat → UInt8) (count : Nat) : Bytes := (List.range count).map buffer

def lua_pushlstring (buffer : Nat → UInt8) (length : Nat) : Decoding :=
  if length < maxString then ⟨length, some length, .item (.string (load buffer length))⟩
  else ⟨0, some length, .tooBig⟩

/-- The value in the buffer after a query that has reported `size`, by its type. -/
def decode (ctltype : Nat) (buffer : Nat → UInt8) (size : UInt64) : Decoding :=
  match numeric ctltype with
  | some (width, isSigned) =>
    ⟨width, none, .item (.integer (pushNumber width isSigned (load buffer width)))⟩
  | none =>
    if ctltype = CTLTYPE_STRING then lua_pushlstring buffer (size - 1).toNat
    else if ctltype = CTLTYPE_OPAQUE then lua_pushlstring buffer size.toNat
    else ⟨0, none, .unknownCtltype ctltype⟩

/-- The buffer after a query: what the query has written, and what was there before. -/
def buffer (data : Bytes) (heap : Nat → UInt8) (i : Nat) : UInt8 := data.getD i (heap i)

/-- How a call ends. -/
inductive Outcome where
  | returned (result : Result)
  | stringTooBig
  deriving DecidableEq

def Decoded.outcome : Decoded → Outcome
  | .item i => .returned (.values [i])
  | .unknownCtltype ctltype => .returned (.raised (.unknownCtltype ctltype))
  | .tooBig => .stringTooBig

/-- `l_mib_value` and `l_cap_mib_value` once the type is known. -/
def valueOf (access : Access) (path : Oid) (ctltype : Nat) (heap : Nat → UInt8) (rounds : Nat)
    (argument : Option Argument) : Code Outcome :=
  match argument with
  | none =>
    if ctltype = CTLTYPE_NODE then pure (.returned (.values [.nil]))
    else do
      match ← fetchLoop access path rounds false 0 with
      | .error result => pure (.returned result)
      | .ok reply =>
        pure (decode ctltype (buffer reply.data heap) (.ofNat reply.size)).value.outcome
  | some argument =>
    if ctltype = CTLTYPE_NODE then pure (.returned (.values []))
    else
      match newValue ctltype argument with
      | .error error => pure (.returned (.raised error))
      | .ok new => do
        let reply ← access.ask path .unwanted (some new)
        match reply.errno with
        | some errno => pure (.returned (fail errno))
        | none => pure (.returned (.values []))

/-- The fields of `struct mib` that a value needs, the OID as the C array and its length. -/
structure Mib where
  oid : Oid
  oidlen : Nat
  kind : Nat
  format : Option Bytes

def Mib.path (mib : Mib) : Oid := mib.oid.take mib.oidlen

/-- `l_mib_format`. -/
def l_mib_format (mib : Mib) : Code (Result × Mib) :=
  match mib.format with
  | some format => pure (.values [.integer mib.kind, .string format], mib)
  | none => do
    let reply ← CasperSysctl.sysctl (ctlSysctl :: ctlSysctlOidfmt :: mib.path) (.buffer bufsiz) none
    match reply.errno with
    | some errno => pure (fail errno, mib)
    | none =>
      let mib := { mib with kind := readNumber 4 reply.data }
      match ← strdup (reply.data.drop 4) with
      | .error errno => pure (fatal "strdup" errno, mib)
      | .ok format =>
        pure (.values [.integer mib.kind, .string format], { mib with format := some format })

/-- `l_mib_value`.  What `l_mib_format` returns is ignored, an error is not. -/
def l_mib_value (heap : Nat → UInt8) (rounds : Nat) (argument : Option Argument) (mib : Mib) :
    Code (Outcome × Mib) := do
  let format ← (if mib.format.isSome then pure (.values [], mib) else l_mib_format mib)
  match format.1 with
  | .raised error => pure (.returned (.raised error), format.2)
  | _ => do
    let outcome ← valueOf .sysctl format.2.path (format.2.kind &&& ctltypeMask) heap rounds argument
    pure (outcome, format.2)

/-- The loop of the casper binding is this one. -/
theorem readLoop_eq_fetchLoop (mib : CapMib) (rounds : Nat) (p : Bool) (size : Nat) :
    readLoop mib rounds p size = fetchLoop (.cap_sysctl mib.chan) mib.path rounds p size := by
  induction rounds generalizing p size with
  | zero => rfl
  | succ rounds ih =>
    rw [readLoop, fetchLoop]
    simp only [ih]
    rfl

/-- A write of the casper binding is this one. -/
theorem valueOfType_write (mib : CapMib) (heap : Nat → UInt8) (rounds : Nat)
    (argument : Argument) :
    valueOf (.cap_sysctl mib.chan) mib.path (mib.kind &&& ctltypeMask) heap rounds (some argument) =
      (do
        let result ← valueOfType rounds (some argument) mib
        pure (.returned result)) := by
  rw [valueOf, valueOfType]
  by_cases hnode : mib.kind &&& ctltypeMask = CTLTYPE_NODE
  · rw [if_pos hnode]
    simp only [if_pos hnode]
    rfl
  · rw [if_neg hnode]
    simp only [if_neg hnode]
    cases newValue (mib.kind &&& ctltypeMask) argument with
    | error error => rfl
    | ok new =>
      show Program.ask _ _ _ = Program.ask _ _ _
      congr 1
      funext ⟨errno, size, data⟩
      cases errno <;> rfl

/-! ## A variable and an allocator

The loop asks the variable and the allocator in turn, so what it does from its `k`-th
query on depends on `k` and on the buffer. -/

/-- A variable with its value at each query, and the queries that fail. -/
structure Variable where
  value : Nat → Bytes
  failure : Nat → Option Nat
  size_lt : ∀ k, (value k).length < 2 ^ 64
  failure_ne : ∀ k, failure k ≠ some ENOMEM

/-- What a query for the value reports: its size when there is no buffer, as much as fits
when it is too small. -/
def Variable.reply (v : Variable) (k : Nat) : Query → Reply
  | .sysctl _ old _ =>
    match v.failure k, old with
    | some errno, _ => ⟨some errno, 0, []⟩
    | none, .unwanted => ⟨none, 0, []⟩
    | none, .length => ⟨none, (v.value k).length, []⟩
    | none, .buffer room =>
      if (v.value k).length ≤ room then ⟨none, (v.value k).length, v.value k⟩
      else ⟨some ENOMEM, room, (v.value k).take room⟩
  | _ => ⟨none, 0, []⟩

theorem Variable.reply_failed {v : Variable} {k errno : Nat} {name : Oid} {old : Old}
    {new : Option Bytes} (h : v.failure k = some errno) :
    v.reply k (.sysctl name old new) = ⟨some errno, 0, []⟩ := by
  simp [Variable.reply, h]

theorem Variable.reply_length {v : Variable} {k : Nat} {name : Oid} {new : Option Bytes}
    (h : v.failure k = none) :
    v.reply k (.sysctl name .length new) = ⟨none, (v.value k).length, []⟩ := by
  simp [Variable.reply, h]

theorem Variable.reply_whole {v : Variable} {k room : Nat} {name : Oid} {new : Option Bytes}
    (h : v.failure k = none) (hroom : (v.value k).length ≤ room) :
    v.reply k (.sysctl name (.buffer room) new) = ⟨none, (v.value k).length, v.value k⟩ := by
  simp [Variable.reply, h, hroom]

theorem Variable.reply_short {v : Variable} {k room : Nat} {name : Oid} {new : Option Bytes}
    (h : v.failure k = none) (hroom : ¬ (v.value k).length ≤ room) :
    v.reply k (.sysctl name (.buffer room) new) = ⟨some ENOMEM, room, (v.value k).take room⟩ := by
  simp [Variable.reply, h, hroom]

/-- An allocator, which gives no object of more than `PTRDIFF_MAX` bytes. -/
structure Allocator where
  grants : Nat → Nat → Bool
  bounded : ∀ k size, grants k size → size < 2 ^ 63

def Allocator.reply (a : Allocator) (k : Nat) : Query → Reply
  | .malloc size => if a.grants k size then ⟨none, 0, []⟩ else ⟨some ENOMEM, 0, []⟩
  | _ => ⟨none, 0, []⟩

/-- The replies to a process whose only variable is `v`. -/
def world (v : Variable) (a : Allocator) : Surroundings
  | .memory => a.reply
  | .direct | .channel _ => v.reply

/-- The buffer of a query for a value. -/
def Query.room : Query → Option Nat
  | .sysctl _ (.buffer room) _ => some room
  | _ => none

/-- The sizes of the buffers that were given to queries. -/
def buffers (history : History Oracle Query) : List Nat :=
  history.filterMap (fun e => Query.room e.2)

section Fetch
variable (v : Variable) (a : Allocator)

/-- The loop from its `k`-th query on: its result, and the buffers it queries with. -/
def fetch : Nat → Nat → Option Nat → Except Result Reply × List Nat
  | 0, _, _ => (.error .running, [])
  | rounds + 1, k, room =>
    let again (size : Nat) : Except Result Reply × List Nat :=
      if a.grants k (size * 2 % 2 ^ 64) then fetch rounds (k + 1) (some (size * 2 % 2 ^ 64))
      else (.error (fatal "malloc" ENOMEM), [])
    match v.failure k, room with
    | some errno, room => (.error (fail errno), room.toList)
    | none, none => again (v.value k).length
    | none, some room =>
      if (v.value k).length ≤ room then (.ok ⟨none, (v.value k).length, v.value k⟩, [room])
      else ((again room).1, room :: (again room).2)

variable {v a}

section Cases
variable {rounds k room : Nat}

theorem fetch_failed {errno : Nat} {room : Option Nat} (h : v.failure k = some errno) :
    fetch v a (rounds + 1) k room = (.error (fail errno), room.toList) := by
  simp [fetch, h]

theorem fetch_length (h : v.failure k = none) :
    fetch v a (rounds + 1) k none =
      if a.grants k ((v.value k).length * 2 % 2 ^ 64)
      then fetch v a rounds (k + 1) (some ((v.value k).length * 2 % 2 ^ 64))
      else (.error (fatal "malloc" ENOMEM), []) := by
  simp [fetch, h]

theorem fetch_fits (h : v.failure k = none) (hroom : (v.value k).length ≤ room) :
    fetch v a (rounds + 1) k (some room) =
      (.ok ⟨none, (v.value k).length, v.value k⟩, [room]) := by
  simp [fetch, h, hroom]

theorem fetch_refused (h : v.failure k = none) (hroom : ¬ (v.value k).length ≤ room)
    (hgrants : ¬ a.grants k (room * 2 % 2 ^ 64)) :
    fetch v a (rounds + 1) k (some room) = (.error (fatal "malloc" ENOMEM), [room]) := by
  simp only [fetch, h, if_neg hroom, if_neg hgrants]

theorem fetch_again (h : v.failure k = none) (hroom : ¬ (v.value k).length ≤ room)
    (hgrants : a.grants k (room * 2 % 2 ^ 64)) :
    fetch v a (rounds + 1) k (some room) =
      ((fetch v a rounds (k + 1) (some (room * 2 % 2 ^ 64))).1,
        room :: (fetch v a rounds (k + 1) (some (room * 2 % 2 ^ 64))).2) := by
  simp only [fetch, h, if_neg hroom, if_pos hgrants]

/-- What a query with a buffer comes to. -/
theorem fetch_cases (v : Variable) (a : Allocator) (rounds k room : Nat) :
    (∃ errno, v.failure k = some errno ∧
      fetch v a (rounds + 1) k (some room) = (.error (fail errno), [room])) ∨
    (v.failure k = none ∧ fetch v a (rounds + 1) k (some room) =
      (.ok ⟨none, (v.value k).length, v.value k⟩, [room])) ∨
    fetch v a (rounds + 1) k (some room) = (.error (fatal "malloc" ENOMEM), [room]) ∨
    (a.grants k (room * 2 % 2 ^ 64) ∧ fetch v a (rounds + 1) k (some room) =
      ((fetch v a rounds (k + 1) (some (room * 2 % 2 ^ 64))).1,
        room :: (fetch v a rounds (k + 1) (some (room * 2 % 2 ^ 64))).2)) := by
  cases h : v.failure k with
  | some errno => exact Or.inl ⟨errno, rfl, fetch_failed h⟩
  | none =>
    by_cases hroom : (v.value k).length ≤ room
    · exact Or.inr (Or.inl ⟨rfl, fetch_fits h hroom⟩)
    by_cases hgrants : a.grants k (room * 2 % 2 ^ 64)
    · exact Or.inr (Or.inr (Or.inr ⟨hgrants, fetch_again h hroom hgrants⟩))
    · exact Or.inr (Or.inr (Or.inl (fetch_refused h hroom hgrants)))

end Cases

/-- How often the variable and the allocator have been asked. -/
def Asked (access : Access) (history : History Oracle Query) (k : Nat) : Prop :=
  history.countP (fun e => e.1 = access.oracle) = k ∧
    history.countP (fun e => e.1 = .memory) = k

theorem reply_access {access : Access} {history : History Oracle Query} {k : Nat} (q : Query)
    (h : history.countP (fun e => e.1 = access.oracle) = k) :
    Program.reply (world v a) history access.oracle q = v.reply k q := by
  rw [Program.reply, h]
  cases access <;> rfl

theorem reply_memory {history : History Oracle Query} {k : Nat} (q : Query)
    (h : history.countP (fun e => e.1 = .memory) = k) :
    Program.reply (world v a) history .memory q = a.reply k q := by
  rw [Program.reply, h]
  rfl

/-- One round asks the variable once and the allocator once. -/
theorem Asked.next {access : Access} {history : History Oracle Query} {k : Nat} (q q' : Query)
    (h : Asked access history k) :
    Asked access ((history ++ [(access.oracle, q)]) ++ [(.memory, q')]) (k + 1) := by
  have hne := access.oracle_ne_memory
  have hne' : ¬ Oracle.memory = access.oracle := fun heq => hne heq.symm
  constructor
  · simp [List.countP_append, h.1, hne']
  · simp [List.countP_append, h.2, hne]

variable (v a)

/-- A program with its result and the buffers it queries with. -/
def Runs (code : Code (Except Result Reply)) (history : History Oracle Query)
    (run : Except Result Reply × List Nat) : Prop :=
  code.eval (world v a) history = run.1 ∧ buffers (code.asked (world v a) history) = run.2

variable {v a} {access : Access} {history : History Oracle Query} {k : Nat}
  {f : Reply → Code (Except Result Reply)} {run : Except Result Reply × List Nat}

theorem runs_ask {name : Oid} {old : Old} {reply : Reply} {asked : Except Result Reply × List Nat}
    (h : Asked access history k) (hreply : v.reply k (.sysctl name old none) = reply)
    (hf : Runs v a (f reply) (history ++ [(access.oracle, .sysctl name old none)]) run)
    (hasked : asked = (run.1, (Query.room (.sysctl name old none)).toList ++ run.2)) :
    Runs v a (access.ask name old none >>= f) history asked := by
  rw [Runs, Access.ask, Program.eval_ask_bind, Program.asked_ask_bind, reply_access _ h.1, hreply,
    hasked]
  refine ⟨hf.1, ?_⟩
  rw [← hf.2]
  cases old <;> rfl

/-- The way round the loop: an allocation, and then what follows. -/
theorem runs_malloc {size : Nat} {code : Code (Except Result Reply)}
    (h : history.countP (fun e => e.1 = .memory) = k)
    (hcode : Runs v a code (history ++ [(.memory, .malloc size)]) run) :
    Runs v a (do
      let allocated ← malloc size
      match allocated.errno with
      | some _ => pure (.error (fatal "malloc" ENOMEM))
      | none => code) history
      (if a.grants k size then run else (.error (fatal "malloc" ENOMEM), [])) := by
  rw [Runs, malloc, Program.eval_ask_bind, Program.asked_ask_bind, reply_memory _ h,
    Allocator.reply]
  by_cases hgrants : a.grants k size
  · rw [if_pos hgrants, if_pos hgrants]
    exact hcode
  · rw [if_neg hgrants, if_neg hgrants]
    exact ⟨rfl, rfl⟩

theorem runs_pure (result : Except Result Reply) : Runs v a (pure result) history (result, []) :=
  ⟨rfl, rfl⟩

/-- **The loop at work on a variable.** -/
theorem fetchLoop_runs (path : Oid) (rounds : Nat) (room : Option Nat)
    (h : Asked access history k) :
    Runs v a (fetchLoop access path rounds room.isSome (room.getD 0)) history
      (fetch v a rounds k room) := by
  induction rounds generalizing k room history with
  | zero => exact runs_pure _
  | succ rounds ih =>
    have hagain (q : Query) (size : Nat) := runs_malloc (by
        show (history ++ [(access.oracle, q)]).countP _ = k
        simp [List.countP_append, h.2, access.oracle_ne_memory])
      (ih (some (size * 2 % 2 ^ 64)) (h.next q (.malloc (size * 2 % 2 ^ 64))))
    cases hfailure : v.failure k with
    | some errno =>
      have hne : errno ≠ ENOMEM := fun heq => v.failure_ne k (heq ▸ hfailure)
      refine runs_ask h (v.reply_failed hfailure)
        (show Runs v a _ _ (.error (fail errno), []) from ?_) ?_
      · dsimp only
        rw [if_pos hne]
        exact runs_pure _
      · cases room <;> simp [fetch, hfailure, Query.room]
    | none =>
      cases room with
      | none =>
        refine runs_ask h (v.reply_length hfailure) (hagain _ _) ?_
        simp [fetch, hfailure, Query.room]
      | some room =>
        by_cases hroom : (v.value k).length ≤ room
        · refine runs_ask h (v.reply_whole hfailure hroom) (runs_pure _) ?_
          simp [fetch, hfailure, Query.room, hroom]
        · refine runs_ask h (v.reply_short hfailure hroom) (hagain _ _) ?_
          simp [fetch, hfailure, Query.room, hroom]

/-! ### What the buffers do -/

/-- How the loop ends: with all that one query wrote, or an error. -/
inductive Fetched (v : Variable) : Except Result Reply → Prop
  | whole {k : Nat} (h : v.failure k = none) :
    Fetched v (.ok ⟨none, (v.value k).length, v.value k⟩)
  | failed {k errno : Nat} (h : v.failure k = some errno) : Fetched v (.error (fail errno))
  | refused : Fetched v (.error (fatal "malloc" ENOMEM))
  | running : Fetched v (.error .running)

theorem fetch_fetched (v : Variable) (a : Allocator) (rounds k room : Nat) :
    Fetched v (fetch v a rounds k (some room)).1 := by
  induction rounds generalizing k room with
  | zero => exact .running
  | succ rounds ih =>
    obtain ⟨errno, hk, hfetch⟩ | ⟨hk, hfetch⟩ | hfetch | ⟨-, hfetch⟩ :=
      fetch_cases v a rounds k room
    · rw [hfetch]
      exact .failed hk
    · rw [hfetch]
      exact .whole hk
    · rw [hfetch]
      exact .refused
    · rw [hfetch]
      exact ih (k + 1) _

/-- A buffer that was granted is doubled without overflow. -/
theorem doubled {room : Nat} (h : room < 2 ^ 63) : room * 2 % 2 ^ 64 = 2 * room := by
  omega

/-- From a buffer of some size on, each buffer is larger than the one before. -/
theorem fetch_grows {rounds room : Nat} (hpos : 0 < room) (hlt : room < 2 ^ 63) :
    (fetch v a rounds k (some room)).2.Pairwise (· < ·) ∧
      ∀ b ∈ (fetch v a rounds k (some room)).2, room ≤ b := by
  induction rounds generalizing k room with
  | zero => exact ⟨List.Pairwise.nil, fun b hb => nomatch hb⟩
  | succ rounds ih =>
    have hsingle : ([room].Pairwise (· < ·)) ∧ ∀ b ∈ [room], room ≤ b :=
      ⟨List.pairwise_singleton .., fun b hb => (List.mem_singleton.mp hb).ge⟩
    obtain ⟨errno, -, hfetch⟩ | ⟨-, hfetch⟩ | hfetch | ⟨hgrants, hfetch⟩ :=
      fetch_cases v a rounds k room
    · rwa [hfetch]
    · rwa [hfetch]
    · rwa [hfetch]
    · rw [doubled hlt] at hgrants hfetch
      obtain ⟨hpairwise, hle⟩ := ih (k := k + 1) (by omega) (a.bounded k _ hgrants)
      rw [hfetch]
      refine ⟨List.Pairwise.cons (fun b hb => ?_) hpairwise, fun b hb => ?_⟩
      · have := hle b hb
        omega
      · rcases List.mem_cons.mp hb with rfl | hb
        · exact le_rfl
        · have := hle b hb
          omega

/-- The buffer cannot be doubled for ever. -/
theorem fetch_ends {rounds room : Nat} (hlt : room < 2 ^ 63) (h : 2 ^ 63 ≤ room * 2 ^ rounds) :
    (fetch v a rounds k (some room)).1 ≠ .error .running := by
  induction rounds generalizing k room with
  | zero => omega
  | succ rounds ih =>
    obtain ⟨errno, -, hfetch⟩ | ⟨-, hfetch⟩ | hfetch | ⟨hgrants, hfetch⟩ :=
      fetch_cases v a rounds k room
    · rw [hfetch]
      exact fun heq => by cases heq
    · rw [hfetch]
      exact fun heq => by cases heq
    · rw [hfetch]
      exact fun heq => by cases heq
    · rw [hfetch, doubled hlt]
      rw [doubled hlt] at hgrants
      refine ih (a.bounded k _ hgrants) ?_
      rw [pow_succ] at h
      calc 2 ^ 63 ≤ room * (2 ^ rounds * 2) := h
        _ = 2 * room * 2 ^ rounds := by ring

end Fetch

/-! ## Termination of the fetch -/

section Termination
variable {access : Access} {path : Oid} {v : Variable} {a : Allocator}

/-- The fetch ends, what it returns is all that one query wrote, and each buffer it
queries with is larger than the one before. -/
structure FetchesWhole (access : Access) (path : Oid) (v : Variable) (a : Allocator) : Prop where
  ends : ∃ rounds, (fetchLoop access path rounds false 0).eval (world v a) [] ≠ .error .running
  whole : ∀ rounds reply, (fetchLoop access path rounds false 0).eval (world v a) [] = .ok reply →
    ∃ k, v.failure k = none ∧ reply = ⟨none, (v.value k).length, v.value k⟩
  grows : ∀ rounds,
    (buffers ((fetchLoop access path rounds false 0).asked (world v a) [])).Pairwise (· < ·)

/-- The size of the first buffer. -/
def firstBuffer (v : Variable) : Nat := (v.value 0).length * 2 % 2 ^ 64

/-- The loop gets a buffer of no bytes, finds a value that does not fit, and gets another
buffer of no bytes. -/
structure Starved (v : Variable) (a : Allocator) : Prop where
  sized : v.failure 0 = none
  empty : firstBuffer v = 0
  first : a.grants 0 0
  queried : v.failure 1 = none
  tooLarge : v.value 1 ≠ []
  second : a.grants 1 0

/-- The loop as it is entered. -/
theorem fetchLoop_start (access : Access) (path : Oid) (v : Variable) (a : Allocator)
    (rounds : Nat) :
    Runs v a (fetchLoop access path rounds false 0) [] (fetch v a rounds 0 none) :=
  fetchLoop_runs path rounds none ⟨rfl, rfl⟩

/-- What the query for the size comes to. -/
theorem fetch_start (v : Variable) (a : Allocator) :
    (∃ result, result ≠ .error .running ∧ Fetched v result ∧
      ∀ rounds, fetch v a (rounds + 1) 0 none = (result, [])) ∨
    (v.failure 0 = none ∧ a.grants 0 (firstBuffer v) ∧ ∀ rounds,
      fetch v a (rounds + 1) 0 none = fetch v a rounds 1 (some (firstBuffer v))) := by
  cases h : v.failure 0 with
  | some errno =>
    exact Or.inl ⟨_, (fun heq => by cases heq), .failed h, fun rounds => fetch_failed h⟩
  | none =>
    by_cases hgrants : a.grants 0 (firstBuffer v)
    · exact Or.inr ⟨rfl, hgrants, fun rounds => (fetch_length h).trans (if_pos hgrants)⟩
    · exact Or.inl ⟨_, (fun heq => by cases heq), .refused,
        fun rounds => (fetch_length h).trans (if_neg hgrants)⟩

theorem fetchLoop_fetched (access : Access) (path : Oid) (v : Variable) (a : Allocator)
    (rounds : Nat) :
    Fetched v ((fetchLoop access path rounds false 0).eval (world v a) []) := by
  rw [(fetchLoop_start access path v a rounds).1]
  match rounds with
  | 0 => exact .running
  | rounds + 1 =>
    obtain ⟨result, -, hresult, hfetch⟩ | ⟨-, -, hfetch⟩ := fetch_start v a
    · rwa [hfetch]
    · rw [hfetch]
      exact fetch_fetched v a rounds 1 _

/-- The loop returns nothing but whole values, so the rest is about its rounds. -/
theorem FetchesWhole.of_fetch (hends : ∃ rounds, (fetch v a rounds 0 none).1 ≠ .error .running)
    (hgrows : ∀ rounds, (fetch v a (rounds + 1) 0 none).2.Pairwise (· < ·)) :
    FetchesWhole access path v a where
  ends := by
    obtain ⟨rounds, hrounds⟩ := hends
    refine ⟨rounds, ?_⟩
    rwa [(fetchLoop_start access path v a rounds).1]
  whole := by
    intro rounds reply h
    have hfetched := fetchLoop_fetched access path v a rounds
    rw [h] at hfetched
    cases hfetched with
    | whole hk => exact ⟨_, hk, rfl⟩
  grows := by
    intro rounds
    rw [(fetchLoop_start access path v a rounds).2]
    match rounds with
    | 0 => exact List.Pairwise.nil
    | rounds + 1 => exact hgrows rounds

/-- A call that has come to its end in its second query. -/
theorem FetchesWhole.of_stop {result : Except Result Reply} (hresult : result ≠ .error .running)
    (hstart : ∀ rounds, fetch v a (rounds + 1) 0 none = fetch v a rounds 1 (some 0))
    (h : ∀ rounds, fetch v a (rounds + 1) 1 (some 0) = (result, [0])) :
    FetchesWhole access path v a := by
  refine .of_fetch ⟨2, ?_⟩ (fun rounds => ?_)
  · rwa [hstart, h]
  · rw [hstart]
    match rounds with
    | 0 => exact List.Pairwise.nil
    | rounds + 1 =>
      rw [h]
      exact List.pairwise_singleton ..

/-- A buffer of no bytes stays one: the request is repeated as it was. -/
theorem Starved.repeats (h : Starved v a) : ∃ rest, (fetch v a 3 0 none).2 = 0 :: 0 :: rest := by
  have hshort : ¬ (v.value 1).length ≤ 0 := by
    have := List.length_pos_iff.mpr h.tooLarge
    omega
  have hfirst : a.grants 0 (firstBuffer v) := by
    rw [h.empty]
    exact h.first
  have hstart : fetch v a 3 0 none = fetch v a 2 1 (some (firstBuffer v)) :=
    (fetch_length h.sized).trans (if_pos hfirst)
  rw [hstart, h.empty, fetch_again h.queried hshort h.second]
  obtain ⟨errno, -, hfetch⟩ | ⟨-, hfetch⟩ | hfetch | ⟨-, hfetch⟩ := fetch_cases v a 0 2 0
  all_goals exact ⟨_, congrArg (0 :: ·) (congrArg Prod.snd hfetch)⟩

/-- **Termination of the fetch**: it fails when the size is reported as 0, or as half of
the address space, and the value is there at the next query. -/
theorem fetchesWhole_iff (access : Access) (path : Oid) (v : Variable) (a : Allocator) :
    FetchesWhole access path v a ↔ ¬ Starved v a := by
  constructor
  · intro h hstarved
    obtain ⟨rest, hrest⟩ := hstarved.repeats
    have hgrows := h.grows 3
    rw [(fetchLoop_start access path v a 3).2, hrest] at hgrows
    exact absurd ((List.pairwise_cons.mp hgrows).1 0 (List.mem_cons_self ..)) (by decide)
  intro hstarved
  obtain ⟨result, hresult, -, hfetch⟩ | ⟨hsized, hfirst, hfetch⟩ := fetch_start v a
  · refine .of_fetch ⟨1, ?_⟩ (fun rounds => ?_)
    · rwa [hfetch]
    · rw [hfetch]
      exact List.Pairwise.nil
  have hlt : firstBuffer v < 2 ^ 63 := a.bounded 0 _ hfirst
  rcases Nat.eq_zero_or_pos (firstBuffer v) with hempty | hpos
  · rw [hempty] at hfetch hfirst
    cases hqueried : v.failure 1 with
    | some errno =>
      exact .of_stop (fun heq => by cases heq) hfetch (fun rounds => fetch_failed hqueried)
    | none =>
      by_cases htooLarge : v.value 1 = []
      · exact .of_stop (fun heq => by cases heq) hfetch
          (fun rounds => fetch_fits hqueried (by rw [htooLarge]; rfl))
      · have hshort : ¬ (v.value 1).length ≤ 0 := by
          have := List.length_pos_iff.mpr htooLarge
          omega
        have hsecond : ¬ a.grants 1 0 :=
          fun hsecond => hstarved ⟨hsized, hempty, hfirst, hqueried, htooLarge, hsecond⟩
        exact .of_stop (fun heq => by cases heq) hfetch
          (fun rounds => fetch_refused hqueried hshort hsecond)
  · refine .of_fetch ⟨64, ?_⟩ (fun rounds => ?_)
    · rw [hfetch]
      exact fetch_ends hlt (by omega)
    · rw [hfetch]
      exact (fetch_grows hpos hlt).1

/-- While the value does not go away, the loop does not end. -/
theorem fetch_endless (hsized : ∀ k, v.failure k = none) (hempty : firstBuffer v = 0)
    (hvalue : ∀ k, v.value (k + 1) ≠ []) (hgrants : ∀ k, a.grants k 0) (rounds : Nat) :
    (fetch v a rounds 0 none).1 = .error .running := by
  have hrounds (rounds k : Nat) : (fetch v a rounds (k + 1) (some 0)).1 = .error .running := by
    induction rounds generalizing k with
    | zero => rfl
    | succ rounds ih =>
      have hshort : ¬ (v.value (k + 1)).length ≤ 0 := by
        have := List.length_pos_iff.mpr (hvalue k)
        omega
      rw [fetch_again (hsized _) hshort (hgrants _)]
      exact ih (k + 1)
  match rounds with
  | 0 => rfl
  | rounds + 1 =>
    have hfirst : a.grants 0 (firstBuffer v) := by
      rw [hempty]
      exact hgrants 0
    rw [(fetch_length (hsized 0)).trans (if_pos hfirst)]
    show (fetch v a rounds 1 (some (firstBuffer v))).1 = _
    rw [hempty]
    exact hrounds rounds 0

/-- The values are the same from some query on. -/
def Settles (v : Variable) : Prop := ∃ n, ∀ k, n ≤ k → v.value k = v.value n

/-- A variable that is empty, and then is not. -/
def appearing : Variable where
  value k := if k = 0 then [] else [107, 0]
  failure _ := none
  size_lt k := by split <;> decide
  failure_ne _ := by decide

def roomy : Allocator where
  grants _ size := size < 2 ^ 63
  bounded _ _ h := of_decide_eq_true h

/-- The size of a variable is asked for, and then it gets a value: the loop asks for ever
with a buffer of no bytes. -/
theorem not_fetchesWhole :
    (∃ v a, Settles v ∧
      ∀ rounds, (fetchLoop .sysctl [1, 2] rounds false 0).eval (world v a) [] = .error .running) ∧
    ¬ ∀ access path v a, Settles v → FetchesWhole access path v a := by
  have hsettles : Settles appearing := by
    refine ⟨1, fun k hk => ?_⟩
    show (if k = 0 then _ else _) = _
    rw [if_neg (by omega)]
    rfl
  have hendless (rounds : Nat) : (fetchLoop .sysctl [1, 2] rounds false 0).eval
      (world appearing roomy) [] = .error .running :=
    (fetchLoop_start .sysctl [1, 2] appearing roomy rounds).1.trans
      (fetch_endless (fun k => rfl) rfl (fun k => by simp [appearing]) (fun k => rfl) rounds)
  refine ⟨⟨appearing, roomy, hsettles, hendless⟩, fun h => ?_⟩
  obtain ⟨rounds, hrounds⟩ := (h .sysctl [1, 2] appearing roomy hsettles).ends
  exact hrounds (hendless rounds)

end Termination

/-! ## What a decoding reads -/

section Decoding
variable {ctltype : Nat} {size : UInt64}

/-- A decoding depends on the bytes it reads, and on no other. -/
theorem decode_congr {b b' : Nat → UInt8} (h : ∀ i < (decode ctltype b size).reads, b i = b' i) :
    decode ctltype b' size = decode ctltype b size := by
  have hload (count : Nat) (hcount : ∀ i < count, b i = b' i) : load b' count = load b count :=
    List.map_congr_left (fun i hi => (hcount i (List.mem_range.mp hi)).symm)
  have hpush (length : Nat) (hlength : ∀ i < (lua_pushlstring b length).reads, b i = b' i) :
      lua_pushlstring b' length = lua_pushlstring b length := by
    rw [lua_pushlstring] at hlength
    rw [lua_pushlstring, lua_pushlstring]
    split
    · rw [if_pos (by assumption)] at hlength
      rw [hload length hlength]
    · rfl
  rw [decode] at h
  rw [decode, decode]
  cases hnumeric : numeric ctltype with
  | some type =>
    rw [hnumeric] at h
    dsimp only at h ⊢
    rw [hload type.1 h]
  | none =>
    rw [hnumeric] at h
    dsimp only at h ⊢
    split
    · rw [if_pos (by assumption)] at h
      exact hpush _ h
    · rw [if_neg (by assumption)] at h
      split
      · rw [if_pos (by assumption)] at h
        exact hpush _ h
      · rfl

/-- The first bytes of a buffer that the query has written. -/
theorem load_buffer {data : Bytes} {heap : Nat → UInt8} {count : Nat} (h : count ≤ data.length) :
    load (buffer data heap) count = data.take count := by
  apply List.ext_getElem
  · simp [load, h]
  · intro i hi hi'
    have hlt : i < data.length := by
      simp only [load, List.length_map, List.length_range] at hi
      omega
    simp [load, buffer, List.getD_eq_getElem?_getD, List.getElem?_eq_getElem hlt]

/-- The decoding of `size` bytes reads no others, and the length of a string is one less. -/
structure InBounds (ctltype : Nat) (b : Nat → UInt8) (size : UInt64) : Prop where
  reads : (decode ctltype b size).reads ≤ size.toNat
  length : ctltype = CTLTYPE_STRING → ∀ length ∈ (decode ctltype b size).length,
    (length : Int) = size.toNat - 1

/-- The size is that of the type at least, and of the terminator of a string. -/
def Fits (ctltype : Nat) (size : UInt64) : Prop :=
  (∀ type ∈ numeric ctltype, type.1 ≤ size.toNat) ∧ (ctltype = CTLTYPE_STRING → 1 ≤ size.toNat)

theorem decode_numeric {type : Nat × Bool} (h : numeric ctltype = some type) (b : Nat → UInt8) :
    decode ctltype b size =
      ⟨type.1, none, .item (.integer (pushNumber type.1 type.2 (load b type.1)))⟩ := by
  rw [decode, h]

theorem decode_string (b : Nat → UInt8) :
    decode CTLTYPE_STRING b size = lua_pushlstring b (size - 1).toNat := rfl

theorem lua_pushlstring_reads (b : Nat → UInt8) (length : Nat) :
    (lua_pushlstring b length).reads ≤ length ∧
      (lua_pushlstring b length).length = some length := by
  rw [lua_pushlstring]
  split
  · exact ⟨le_rfl, rfl⟩
  · exact ⟨Nat.zero_le _, rfl⟩

/-- The length of a string without its terminator, as `size_t` has it. -/
theorem size_sub_one (size : UInt64) :
    ((size - 1).toNat : Int) = size.toNat - 1 ↔ 1 ≤ size.toNat := by
  have hlt := size.toNat_lt
  have hsub : (size - 1).toNat = (2 ^ 64 - 1 + size.toNat) % 2 ^ 64 := UInt64.toNat_sub ..
  rw [hsub]
  omega

theorem inBounds_numeric_iff {type : Nat × Bool} (h : numeric ctltype = some type)
    (b : Nat → UInt8) (size : UInt64) : InBounds ctltype b size ↔ Fits ctltype size := by
  have hnot : ctltype ≠ CTLTYPE_STRING := by
    rintro rfl
    cases h
  have hdecode : (decode ctltype b size).reads = type.1 := by rw [decode_numeric h]
  constructor
  · intro hbounds
    refine ⟨fun type' htype' => ?_, fun heq => absurd heq hnot⟩
    obtain rfl : type = type' := Option.some.inj (h.symm.trans htype')
    exact hdecode ▸ hbounds.reads
  · intro hfits
    exact ⟨hdecode ▸ hfits.1 type h, fun heq => absurd heq hnot⟩

theorem inBounds_string_iff (b : Nat → UInt8) (size : UInt64) :
    InBounds CTLTYPE_STRING b size ↔ Fits CTLTYPE_STRING size := by
  obtain ⟨hreads, hlength⟩ := lua_pushlstring_reads b (size - 1).toNat
  rw [← decode_string] at hreads hlength
  constructor
  · intro h
    refine ⟨(fun type htype => by cases htype), fun _ => ?_⟩
    exact (size_sub_one size).mp (h.length rfl _ hlength)
  · intro h
    have hsize := (size_sub_one size).mpr (h.2 rfl)
    refine ⟨by omega, fun _ length hlen => ?_⟩
    obtain rfl : (size - 1).toNat = length := Option.some.inj (hlength.symm.trans hlen)
    exact hsize

/-- Values of the other types are taken with the size they have. -/
theorem inBounds_of_other (hnumeric : numeric ctltype = none) (hstring : ctltype ≠ CTLTYPE_STRING)
    (b : Nat → UInt8) (size : UInt64) : InBounds ctltype b size := by
  refine ⟨?_, fun heq => absurd heq hstring⟩
  rw [decode, hnumeric]
  dsimp only
  rw [if_neg hstring]
  split
  · exact (lua_pushlstring_reads b _).1
  · exact Nat.zero_le _

/-- **A value is decoded in bounds** if its size fits its type, and only then. -/
theorem inBounds_iff (ctltype : Nat) (b : Nat → UInt8) (size : UInt64) :
    InBounds ctltype b size ↔ Fits ctltype size := by
  cases hnumeric : numeric ctltype with
  | some type => exact inBounds_numeric_iff hnumeric b size
  | none =>
    by_cases hstring : ctltype = CTLTYPE_STRING
    · subst hstring
      exact inBounds_string_iff b size
    · refine iff_of_true (inBounds_of_other hnumeric hstring b size) ⟨fun type htype => ?_, ?_⟩
      · rw [hnumeric] at htype
        cases htype
      · exact fun heq => absurd heq hstring

/-- Nothing is written for an `int`, and four bytes are read; and the length of a string of
no bytes is that of the address space. -/
theorem not_inBounds :
    (∀ b, ¬ InBounds 2 b 0) ∧
    (∀ b, (decode CTLTYPE_STRING b 0).length = some (2 ^ 64 - 1) ∧ ¬ InBounds CTLTYPE_STRING b 0) ∧
    ¬ ∀ ctltype b size, InBounds ctltype b size := by
  have hint (b : Nat → UInt8) : ¬ InBounds 2 b 0 := by
    intro h
    exact absurd h.reads (show ¬ 4 ≤ 0 by decide)
  refine ⟨hint, fun b => ⟨rfl, fun h => ?_⟩, fun h => hint (fun _ => 0) (h 2 _ 0)⟩
  have hlength := h.length rfl (2 ^ 64 - 1) rfl
  revert hlength
  decide

/-- What is decoded in bounds is what the casper binding's `readValue` says of the bytes that
were written. -/
theorem decode_eq_readValue {reply : Reply} (heap : Nat → UInt8)
    (hdata : reply.data.length = reply.size) (hsize : reply.size < maxString)
    (h : Fits ctltype (.ofNat reply.size)) :
    (decode ctltype (buffer reply.data heap) (.ofNat reply.size)).value.outcome =
      .returned (readValue ctltype reply) := by
  have hnat : (UInt64.ofNat reply.size).toNat = reply.size :=
    Nat.mod_eq_of_lt (hsize.trans (by decide))
  have hpush (length : Nat) (hlength : length ≤ reply.size) :
      (lua_pushlstring (buffer reply.data heap) length).value.outcome =
        .returned (.values [.string (reply.data.take length)]) := by
    have hload : load (buffer reply.data heap) length = reply.data.take length :=
      load_buffer (by omega)
    rw [lua_pushlstring, if_pos (by omega), ← hload]
    rfl
  rw [readValue]
  cases hnumeric : numeric ctltype with
  | some type =>
    have htype := h.1 type hnumeric
    rw [decode_numeric hnumeric, load_buffer (by omega)]
    simp only [Decoded.outcome, pushNumber, readNumber, List.take_take, Nat.min_self]
  | none =>
    rw [decode, hnumeric]
    dsimp only
    by_cases hstring : ctltype = CTLTYPE_STRING
    · have hsub := (size_sub_one (.ofNat reply.size)).mpr (h.2 hstring)
      rw [hnat] at hsub
      have hlength : (UInt64.ofNat reply.size - 1).toNat = reply.size - 1 := by omega
      rw [if_pos hstring, if_pos hstring, hlength, hpush _ (by omega)]
    · rw [if_neg hstring, if_neg hstring]
      by_cases hopaque : ctltype = CTLTYPE_OPAQUE
      · rw [if_pos hopaque, if_pos hopaque, hnat, hpush _ le_rfl]
      · rw [if_neg hopaque, if_neg hopaque]
        rfl

end Decoding

/-! ## Numbers that are written -/

section Write
variable {access : Access} {path : Oid} {ctltype : Nat} {t : IntType}

/-- A Lua integer. -/
abbrev LuaInteger : Type := {v : Int // IntType.int64.Holds v}

/-- The C type of a number. -/
def ctlType (ctltype : Nat) : Option IntType :=
  match numeric ctltype with
  | some (width + 1, isSigned) => some ⟨8 * (width + 1), isSigned, by omega⟩
  | _ => none

theorem ctlType_numeric (h : ctlType ctltype = some t) :
    ∃ width, numeric ctltype = some (width, t.isSigned) ∧ t.bits = 8 * width ∧ width ≤ 8 := by
  rw [ctlType] at h
  split at h
  · rename_i width isSigned hnumeric
    refine ⟨width + 1, ?_, ?_, ?_⟩
    · cases h
      exact hnumeric
    · cases h
      rfl
    · unfold numeric at hnumeric
      split at hnumeric
      all_goals cases hnumeric
      all_goals decide
  · cases h

/-- The bytes of a number, from the lowest on. -/
theorem littleEndian_range (width n : Nat) :
    littleEndian ((List.range width).map (fun i => UInt8.ofNat (n / 2 ^ (8 * i) % 2 ^ 8))) =
      n % 2 ^ (8 * width) := by
  induction width generalizing n with
  | zero => simp [littleEndian, Nat.mod_one]
  | succ width ih =>
    have hshift (i : Nat) : n / 2 ^ (8 * (i + 1)) = n / 2 ^ 8 / 2 ^ (8 * i) := by
      rw [Nat.div_div_eq_div_mul, ← pow_add]
      congr 2
      omega
    rw [List.range_succ_eq_map, List.map_cons, List.map_map, littleEndian]
    simp only [Function.comp_def, Nat.succ_eq_add_one, hshift]
    rw [ih (n / 2 ^ 8)]
    have hbyte : (UInt8.ofNat (n / 2 ^ (8 * 0) % 2 ^ 8)).toNat = n % 2 ^ 8 := by
      simp
    have hpow : 2 ^ (8 * (width + 1)) = 2 ^ 8 * 2 ^ (8 * width) := by
      rw [← pow_add]
      congr 1
      omega
    rw [hbyte, hpow, Nat.mod_mul]

theorem numberBytes_length (width : Nat) (v : Int) : (numberBytes width v).length = width := by
  simp [numberBytes]

theorem readNumber_numberBytes (width : Nat) (v : Int) :
    readNumber width (numberBytes width v) = (v % 2 ^ (8 * width)).toNat := by
  have hpos : (0 : Int) < 2 ^ (8 * width) := by positivity
  have hlt := Int.emod_lt_of_pos v hpos
  have hnonneg := Int.emod_nonneg v hpos.ne'
  have htake : (numberBytes width v).take width = numberBytes width v :=
    List.take_of_length_le (numberBytes_length width v).le
  rw [readNumber, htake, numberBytes, littleEndian_range]
  apply Nat.mod_eq_of_lt
  rw [Int.toNat_lt hnonneg]
  push_cast
  exact hlt

/-- Two's complement is the conversion to the signed type. -/
theorem signed_wrap (ht : t.isSigned) (v : Int) :
    signed t.bits (v % 2 ^ t.bits).toNat = t.wrap v := by
  obtain ⟨hhalf, hpos⟩ := t.two_pow_pred
  have hnonneg := Int.emod_nonneg v (b := 2 ^ t.bits) (by omega)
  have hlt : (v % 2 ^ t.bits).toNat < 2 ^ (t.bits - 1) ↔ v % 2 ^ t.bits < 2 ^ (t.bits - 1) := by
    rw [Int.toNat_lt hnonneg]
    push_cast
    rfl
  rw [signed, IntType.wrap, if_pos ht, Int.bmod_def, IntType.two_pow_cast,
    Int.toNat_of_nonneg hnonneg]
  simp only [hhalf] at hlt ⊢
  split <;> split <;> omega

/-- What is read back of a number: the number as the type has it, as a Lua integer. -/
theorem pushNumber_numberBytes {width : Nat} (hbits : t.bits = 8 * width) (hwidth : width ≤ 8)
    (v : Int) :
    pushNumber width t.isSigned (numberBytes width v) = IntType.back (t.wrap v) := by
  rw [pushNumber, readNumber_numberBytes, ← hbits]
  by_cases hsigned : t.isSigned
  · have hback : t.bits < 64 ∨ t.bits = 64 ∧ t.isSigned := by
      rcases Nat.lt_or_ge t.bits 64 with hlt | hge
      · exact Or.inl hlt
      · exact Or.inr ⟨by omega, hsigned⟩
    rw [if_pos (Or.inl hsigned), signed_wrap hsigned, IntType.back_wrap hback]
  by_cases hwide : width = 8
  · have hbits : t.bits = 64 := by omega
    rw [if_pos (Or.inr hwide), IntType.back_wrap_wide hbits, hbits]
    exact signed_wrap (t := .int64) rfl v
  · have hnonneg : 0 ≤ v % 2 ^ t.bits := Int.emod_nonneg v (by positivity)
    rw [if_neg (by simp [hsigned, hwide]), IntType.back_wrap (Or.inl (by omega)), IntType.wrap,
      if_neg hsigned]
    exact Int.toNat_of_nonneg hnonneg

/-- A number of the type as it is passed to the kernel. -/
theorem newValue_number (h : ctlType ctltype = some t) (v : Int) (lstring : Option Bytes) :
    newValue ctltype ⟨some v, lstring⟩ = .ok (numberBytes (t.bits / 8) v) := by
  obtain ⟨width, hnumeric, hbits, -⟩ := ctlType_numeric h
  have hwidth : t.bits / 8 = width := by omega
  rw [newValue, hnumeric, hwidth]

/-- What the bytes of a number are decoded to. -/
theorem decode_numberBytes (h : ctlType ctltype = some t) (heap : Nat → UInt8) (v : Int) :
    (decode ctltype (buffer (numberBytes (t.bits / 8) v) heap) (.ofNat (t.bits / 8))).value =
      .item (.integer (IntType.back (t.wrap v))) := by
  obtain ⟨width, hnumeric, hbits, hle⟩ := ctlType_numeric h
  have hwidth : t.bits / 8 = width := by omega
  have hlength := numberBytes_length width v
  rw [hwidth, decode_numeric hnumeric, load_buffer hlength.ge, List.take_of_length_le hlength.le,
    pushNumber_numberBytes hbits hle]

/-- The values that are passed to the kernel. -/
def newValues (history : History Oracle Query) : List Bytes :=
  history.filterMap (fun e =>
    match e.2 with
    | .sysctl _ _ new => new
    | _ => none)

/-- `mib:value(v)`: the argument is an integer, and can be read as a string too. -/
def write (access : Access) (path : Oid) (ctltype : Nat) (heap : Nat → UInt8)
    (lstring : Option Bytes) (v : Int) : Code Outcome :=
  valueOf access path ctltype heap 0 (some ⟨some v, lstring⟩)

/-- `mib:value()` -/
def read (access : Access) (path : Oid) (ctltype : Nat) (heap : Nat → UInt8) (rounds : Nat) :
    Code Outcome :=
  valueOf access path ctltype heap rounds none

/-- The variable has one value at every query. -/
def Variable.Keeps (w : Variable) (value : Bytes) : Prop :=
  ∀ k, w.value k = value ∧ w.failure k = none

/-- Every value that a write passes is decoded to `v`, and a read after a write that has
succeeded returns `v`, if it returns a value. -/
structure WriteSurvives (access : Access) (path : Oid) (ctltype : Nat) (v : Int) : Prop where
  passes : ∀ o history heap lstring,
    ∀ new ∈ newValues ((write access path ctltype heap lstring v).asked o history), ∀ heap',
      (decode ctltype (buffer new heap') (.ofNat new.length)).value = .item (.integer v)
  back : ∀ o history heap lstring,
    (write access path ctltype heap lstring v).eval o history = .returned (.values []) →
    ∀ new ∈ newValues ((write access path ctltype heap lstring v).asked o history),
    ∀ w : Variable, w.Keeps new → ∀ a heap' rounds items,
      (read access path ctltype heap' rounds).eval (world w a) [] = .returned (.values items) →
        items = [.integer v]

theorem ctlType_ne_node (h : ctlType ctltype = some t) : ctltype ≠ CTLTYPE_NODE := by
  rintro rfl
  cases h

/-- A write asks for one thing: that the variable be given the bytes of the number. -/
theorem write_asked (h : ctlType ctltype = some t) (heap : Nat → UInt8) (lstring : Option Bytes)
    (v : Int) (o : Surroundings) (history : History Oracle Query) :
    (write access path ctltype heap lstring v).asked o history =
      [(access.oracle, .sysctl path .unwanted (some (numberBytes (t.bits / 8) v)))] := by
  rw [write, valueOf, if_neg (ctlType_ne_node h), newValue_number h]
  dsimp only
  rw [Access.ask, Program.asked_ask_bind]
  split <;> rfl

/-- What a read returns of a variable that keeps its value is that value, decoded. -/
theorem read_values (h : ctltype ≠ CTLTYPE_NODE) {w : Variable} {a : Allocator}
    {heap : Nat → UInt8} {rounds : Nat} {items : List Item} {value : Bytes} (hw : w.Keeps value)
    (hread : (read access path ctltype heap rounds).eval (world w a) [] =
      .returned (.values items)) :
    (decode ctltype (buffer value heap) (.ofNat value.length)).value.outcome =
      .returned (.values items) := by
  have hfetched := fetchLoop_fetched access path w a rounds
  rw [read, valueOf, if_neg h, Program.eval_bind] at hread
  generalize (fetchLoop access path rounds false 0).eval (world w a) [] = result
    at hread hfetched
  cases hfetched with
  | @whole k hk =>
    rw [← (hw k).1]
    exact hread
  | @failed k errno hk =>
    rw [(hw k).2] at hk
    cases hk
  | refused => cases hread
  | running => cases hread

/-- **Numbers survive a write** when the C type of the variable holds them, and all of them
when it has 64 bits. -/
theorem writeSurvives_iff (h : ctlType ctltype = some t) (v : LuaInteger) :
    WriteSurvives access path ctltype v ↔ t.Holds v ∨ t.bits = 64 := by
  obtain ⟨width, hnumeric, hbits, hle⟩ := ctlType_numeric h
  rw [← IntType.back_wrap_eq_iff (by omega) v.2]
  have hlength := numberBytes_length (t.bits / 8) v
  have hpassed (o : Surroundings) (history : History Oracle Query) (heap : Nat → UInt8)
      (lstring : Option Bytes) (new : Bytes) :
      new ∈ newValues ((write access path ctltype heap lstring v).asked o history) ↔
        new = numberBytes (t.bits / 8) v := by
    rw [write_asked h]
    exact List.mem_singleton
  constructor
  · intro hsurvives
    have hdecode := hsurvives.passes (fun _ _ _ => ⟨none, 0, []⟩) [] (fun _ => 0) none _
      ((hpassed ..).mpr rfl) (fun _ => 0)
    rw [hlength, decode_numberBytes h] at hdecode
    exact Item.integer.inj (Decoded.item.inj hdecode)
  · intro hback
    constructor
    · intro o history heap lstring new hnew heap'
      rw [(hpassed ..).mp hnew, hlength, decode_numberBytes h, hback]
    · intro o history heap lstring _ new hnew w hw a heap' rounds items hread
      have hvalues := read_values (ctlType_ne_node h) hw hread
      rw [(hpassed ..).mp hnew, hlength, decode_numberBytes h, hback] at hvalues
      cases hvalues
      rfl

theorem writeSurvives_iff_int :
    WriteSurvives .sysctl [1, 2] 2 7 ↔ IntType.Holds ⟨32, true, by decide⟩ 7 ∨ 32 = 64 :=
  writeSurvives_iff (t := ⟨32, true, by decide⟩) rfl ⟨7, by decide⟩

/-- 300 is written to a `uint8_t`: the kernel gets 44. -/
theorem not_writeSurvives :
    newValues ((write .sysctl [1, 2] 0xa (fun _ => 0) none 300).asked
        (fun _ _ _ => ⟨none, 0, []⟩) []) = [[44]] ∧
      ¬ ∀ access path ctltype t, ctlType ctltype = some t → ∀ v : LuaInteger,
        WriteSurvives access path ctltype v := by
  refine ⟨by decide, fun h => ?_⟩
  have hdecode := (h .sysctl [1, 2] 0xa ⟨8, false, by decide⟩ rfl ⟨300, by decide⟩).passes
    (fun _ _ _ => ⟨none, 0, []⟩) [] (fun _ => 0) none [44] (by decide) (fun _ => 0)
  revert hdecode
  decide

end Write

end SysctlValues
end FluaLibs
