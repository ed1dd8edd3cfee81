import FluaLibs.SctpAddresses
import FluaLibs.SctpReceiveInfo

/-! # The buffers of `sctp_sendv` and `sctp_recvv`

The two functions allocate arrays of `struct iovec`, buffers and addresses, and put what
has been allocated into a userdata that is closed when the function is over, however it
ends.  The pointer is stored in the user value 0 of the userdata.  User values are numbered
from 1, so it is not there when the userdata is closed: the function that is called gets a
null pointer, and the number of elements.

A run of a function is what it did to its buffers, the closers that are left, and how it
ends (`Exit`); closing them gives the rest (`Exit.close`).
-/
namespace FluaLibs
namespace SctpBuffers
open LuaArguments
variable {R : Runtime}

abbrev Bytes : Type := List UInt8

/-- What is allocated: an array of so many `struct iovec`, the buffer of one of them, and the
buffer with the addresses. -/
inductive Resource where
  | iovecs (count : Nat)
  | buffer (i : Nat)
  | addrs
  deriving DecidableEq

/-- What a pointer points to; of an array, the first elements have a buffer, and the others have
none. -/
structure Block where
  resource : Resource
  bases : Nat
  deriving DecidableEq

/-- What has been done to the buffers, and whether a null pointer has been read through. -/
structure Effect where
  trace : ResourceTrace Resource
  faulted : Bool

/-! ## The code -/

/-! ### Closers -/

/-- `free` -/
def free : Option Block → Effect
  | some b => ⟨[(b.resource, .release)], false⟩
  | none => ⟨[], false⟩

def releaseBuffers (count : Nat) : ResourceTrace Resource :=
  (List.range count).map (fun i => (.buffer i, .release))

/-- `freeriovecs` of an array with `n` elements. -/
def freeriovecs (iovs : Option Block) (n : Nat) : Effect :=
  match iovs with
  | some b => ⟨releaseBuffers (min n b.bases) ++ [(.iovecs n, .release)], false⟩
  | none => ⟨[], 0 < n⟩

/-- The functions that a closer may call. -/
inductive CloseFunction where
  | free_closer
  | freeriovecs_closer
  deriving DecidableEq

def CloseFunction.call : CloseFunction → Option Block → Nat → Effect
  | free_closer, p, _ => free p
  | freeriovecs_closer, p, len => freeriovecs p len

/-- A user value. -/
inductive UserValue where
  | nil
  | pointer (p : Block)
  | integer (n : Nat)
  | function (f : CloseFunction)
  deriving DecidableEq

/-- A userdata, as its user values. -/
abbrev Closer : Type := List UserValue

/-- `lua_setiuservalue`: user values are numbered from 1, and others are not set. -/
def setiuservalue (u : Closer) (n : Nat) (v : UserValue) : Closer :=
  if n = 0 then u else u.set (n - 1) v

/-- `lua_getiuservalue`, which gives nil for a user value that is not there. -/
def getiuservalue (u : Closer) (n : Nat) : UserValue :=
  if n = 0 then .nil else u.getD (n - 1) .nil

/-! The numbers of the user values. -/

def POINTER : Nat := 0
def LEN : Nat := 1
def FUNCTION : Nat := 2

/-- `closer` -/
def closer (p : Block) (len : Nat) (f : CloseFunction) : Closer :=
  let u : Closer := List.replicate 3 .nil
  let u := setiuservalue u POINTER (.pointer p)
  let u := setiuservalue u LEN (.integer len)
  setiuservalue u FUNCTION (.function f)

/-- `lua_touserdata` and `lua_tointeger` of a user value. -/
def UserValue.touserdata : UserValue → Option Block
  | pointer p => some p
  | _ => none

def UserValue.tointeger : UserValue → Nat
  | integer n => n
  | _ => 0

/-- `closer_close`; a userdata without a function is a call through a null pointer. -/
def closer_close (u : Closer) : Effect :=
  match getiuservalue u FUNCTION with
  | .function f => f.call (getiuservalue u POINTER).touserdata (getiuservalue u LEN).tointeger
  | _ => ⟨[], true⟩

/-- The closers of a call are closed one after the other, up to a fault. -/
def closeAll : List Closer → Effect
  | [] => ⟨[], false⟩
  | u :: us =>
    let first := closer_close u
    if first.faulted then first
    else ⟨first.trace ++ (closeAll us).trace, (closeAll us).faulted⟩

/-! ### Lists of buffers -/

/-- A field of a structure, and its type. -/
abbrev Member : Type := String × IntType

/-- The arguments of `sctp_sendv(3)`. -/
structure Sending where
  s : Int
  iov : List Bytes
  addrcnt : Nat
  sndinfo : Option (List Int)
  prinfo : Option (List Int)
  authinfo : Option (List Int)
  flags : Int

/-- What `sctp_recvv(3)` gives: the memory for the address, and the union for the info as it was
before, and what is reported there. -/
structure Received where
  len : Int
  buffers : List Bytes
  from_ : ByteMemory
  reported : SctpReceive.Info
  before : Bytes
  flags : Int

/-- What is outside the module.  `geti` reads the list of buffers, and `getfield` the
information for `sctp_sendv`. -/
structure Env where
  host : Host
  order : ByteOrder
  len : Nat → Except Raised Int
  geti : Nat → Nat → Except Raised Value
  getfield : Option Value → String → Except Raised Value
  addrs : SctpAddrs.Env
  sockets : Sockets.Env
  calloc : Nat → Bool
  malloc : Nat → Nat → Bool
  closerRef : Nat → Nat
  sctp_sendv : Sending → Except Nat Int
  sctp_recvv : Int → List Nat → Sockets.Address → Except Nat Received

/-- How the loop over a list ends. -/
inductive Ending where
  | complete
  | refused (v : Value)
  | interrupted (e : Raised)

/-- The elements that a loop has accepted, and how it ends. -/
structure Scan (α : Type) where
  read : List α
  ending : Ending

/-- The loop over a number of elements from the one with the index `i` on, which goes on while
they are accepted. -/
def scan {α : Type} (geti : Nat → Except Raised Value) (accept : Nat → Value → Option α) :
    Nat → Nat → Scan α
  | 0, _ => ⟨[], .complete⟩
  | n + 1, i =>
    match geti (i + 1) with
    | .error e => ⟨[], .interrupted e⟩
    | .ok v =>
      match accept i v with
      | some a =>
        let rest := scan geti accept n (i + 1)
        ⟨a :: rest.read, rest.ending⟩
      | none => ⟨[], .refused v⟩

/-- What has been done to the buffers, and the result or the error. -/
structure Conversion (α : Type) where
  trace : ResourceTrace Resource
  result : Except Raised (List α)

/-- `lua_tolstring` where there is a string. -/
def stringOf (_ : Nat) : Value → Option Bytes
  | .string s => some s
  | _ => none

/-- The number of elements of a list, a `size_t`, if there is memory for the array. -/
def arrayLength (env : Env) (idx : Int) (v : Option Value) : Except Raised (Nat × Nat) :=
  match v with
  | some (.table r) => do
    let n := (IntType.uint64.wrap (← env.len r)).toNat
    if env.calloc n then pure (r, n) else .error (.fatal "calloc" ENOMEM)
  | _ => .error (.typeerror idx "table")

/-- `checkwiovecs` -/
def checkwiovecs (env : Env) (idx : Int) (v : Option Value) : Conversion Bytes :=
  match arrayLength env idx v with
  | .error e => ⟨[], .error e⟩
  | .ok (r, n) =>
    let iovs := scan (env.geti r) stringOf n 0
    match iovs.ending with
    | .complete => ⟨[(.iovecs n, .acquire)], .ok iovs.read⟩
    | .refused _ =>
      ⟨[(.iovecs n, .acquire), (.iovecs n, .release)], .error (.argerror idx "expected strings")⟩
    | .interrupted e => ⟨[(.iovecs n, .acquire)], .error e⟩

/-- The length of a buffer that `malloc` gives. -/
def bufferOf (malloc : Nat → Nat → Bool) (i : Nat) : Value → Option Nat
  | .integer len =>
    let size := (IntType.uint64.wrap len).toNat
    if malloc i size then some size else none
  | _ => none

def acquireBuffers (count : Nat) : ResourceTrace Resource :=
  (List.range count).map (fun i => (.buffer i, .acquire))

/-- The error of `checkriovecs` for an element that is refused. -/
def refusal (idx : Int) : Value → Raised
  | .integer _ => .fatal "malloc" ENOMEM
  | _ => .argerror idx "expected iovec buffer lengths"

/-- `checkriovecs`; the elements have no buffer at first. -/
def checkriovecs (env : Env) (idx : Int) (v : Option Value) : Conversion Nat :=
  match arrayLength env idx v with
  | .error e => ⟨[], .error e⟩
  | .ok (r, n) =>
    let iovs := scan (env.geti r) (bufferOf env.malloc) n 0
    let acquired := (.iovecs n, .acquire) :: acquireBuffers iovs.read.length
    match iovs.ending with
    | .complete => ⟨acquired, .ok iovs.read⟩
    | .refused v =>
      ⟨acquired ++ (freeriovecs (some ⟨.iovecs n, iovs.read.length⟩) n).trace,
        .error (refusal idx v)⟩
    | .interrupted e => ⟨acquired, .error e⟩

/-! ### The information for a message -/

section Information
variable (env : Env) (idx : Int)

/-- The members of a structure, from the fields of a table. -/
def checkmembers (message : String) (v : Value) : List Member → Except Raised (List Int)
  | [] => .ok []
  | (name, type) :: members => do
    match ← env.getfield (some v) name with
    | .integer i =>
      let rest ← checkmembers message v members
      pure (type.wrap i :: rest)
    | _ => .error (.argerror idx message)

/-- A structure that is there if its field is a table. -/
def checkstructure (v : Option Value) (field message : String) (members : List Member) :
    Except Raised (Option (List Int)) := do
  match ← env.getfield v field with
  | .table r =>
    let values ← checkmembers env idx message (.table r) members
    pure (some values)
  | _ => pure none

def sndinfoMembers : List Member :=
  [("sid", .uint16), ("flags", .uint16), ("ppid", .uint32), ("context", .uint32),
    ("assoc_id", .uint32)]

def prinfoMembers : List Member := [("policy", .uint16), ("value", .uint32)]

def authinfoMembers : List Member := [("keynumber", .uint16)]

/-- `checksendvspa` and the arguments after it, for a socket, buffers and addresses. -/
def checksending (s : Int) (iov : List Bytes) (addrcnt : Nat) (L : LuaState R) :
    Except Raised Sending := do
  let spa := L.index 4
  let sndinfo ← checkstructure env 4 spa "sndinfo" "invalid sndinfo" sndinfoMembers
  let prinfo ← checkstructure env 4 spa "prinfo" "invalid prinfo" prinfoMembers
  let authinfo ← checkstructure env 4 spa "authinfo" "invalid authinfo" authinfoMembers
  let flags ←
    if isnoneornil (L.index 5) then pure 0 else checkinteger env.host 5 (L.index 5)
  pure ⟨s, iov, addrcnt, sndinfo, prinfo, authinfo, IntType.int.wrap flags⟩

end Information

/-! ### The functions -/

/-- What the functions return. -/
inductive Outcome where
  | raised (e : Raised)
  | failed (errno : Nat)
  | sent (len : Int)
  | received (buffers : List Bytes) (len : Int) (addr : Sockets.Address)
      (info : List (String × SctpReceive.Entry)) (flags : Int)

/-- What a function has done to its buffers, the closers that are left, the last first, and how
it ends. -/
structure Exit where
  trace : ResourceTrace Resource
  closers : List Closer
  outcome : Outcome

/-- What has been done when the closers are closed. -/
def Exit.close (e : Exit) : Effect :=
  ⟨e.trace ++ (closeAll e.closers).trace, (closeAll e.closers).faulted⟩

/-- The stack after a list has been converted: the loops leave the elements there, with the
closer on top. -/
def withCloser (L : LuaState R) (elements : List Value) (u : Nat) : LuaState R :=
  { L with stack := L.stack ++ elements ++ [.userdata u] }

/-- `l_sctp_sendv` -/
def l_sctp_sendv (env : Env) (L : LuaState R) : Exit :=
  match checkfd env.host 1 (L.index 1) with
  | .error e => ⟨[], [], .raised e⟩
  | .ok s =>
    let iov := checkwiovecs env 2 (L.index 2)
    match iov.result with
    | .error e => ⟨iov.trace, [], .raised e⟩
    | .ok strings =>
      let iovCloser := closer ⟨.iovecs strings.length, 0⟩ strings.length .free_closer
      let L := withCloser L (strings.map .string) (env.closerRef 0)
      let addrs := SctpAddrs.checkaddrs env.addrs 3 (L.index 3) 0
      let trace := iov.trace ++ addrs.uses.map (fun use => (.addrs, use))
      match addrs.result with
      | .error e => ⟨trace, [iovCloser], .raised e⟩
      | .ok packed =>
        let addrsCloser := closer ⟨.addrs, 0⟩ packed.num .free_closer
        let L := withCloser L [] (env.closerRef 1)
        let closers := [addrsCloser, iovCloser]
        match checksending env s strings packed.num L with
        | .error e => ⟨trace, closers, .raised e⟩
        | .ok sending =>
          match env.sctp_sendv sending with
          | .error errno => ⟨trace, closers, .failed errno⟩
          | .ok len => ⟨trace, closers, .sent len⟩

/-- The stack after the lengths of some buffers have been converted. -/
def withBuffers (env : Env) (L : LuaState R) (lens : List Nat) : LuaState R :=
  withCloser L (lens.map (fun len => .integer (IntType.back len))) (env.closerRef 0)

/-- `l_sctp_recvv` -/
def l_sctp_recvv (env : Env) (L : LuaState R) : Exit :=
  match checkfd env.host 1 (L.index 1) with
  | .error e => ⟨[], [], .raised e⟩
  | .ok s =>
    let iov := checkriovecs env 2 (L.index 2)
    match iov.result with
    | .error e => ⟨iov.trace, [], .raised e⟩
    | .ok lens =>
      let n := lens.length
      let closers := [closer ⟨.iovecs n, n⟩ n .freeriovecs_closer]
      let L := withBuffers env L lens
      match (Sockets.checkaddr env.sockets 3 (L.index 3) 0).result with
      | .error e => ⟨iov.trace, closers, .raised e⟩
      | .ok addr =>
        match env.sctp_recvv s lens addr with
        | .error errno => ⟨iov.trace, closers, .failed errno⟩
        | .ok received =>
          let trace := iov.trace ++ (freeriovecs (some ⟨.iovecs n, n⟩) n).trace
          match Sockets.pushaddr received.from_ 0 with
          | none =>
            ⟨trace, closers, .raised (.error "memory allocation error: block too big")⟩
          | some addr =>
            ⟨trace, closers, .received received.buffers received.len addr
              (SctpReceive.receivedInfo env.order received.reported received.before)
              received.flags⟩

/-! ## What is released -/

/-- Every buffer that was allocated is released once, and nothing else is. -/
structure Exit.Clean (e : Exit) : Prop where
  released : e.close.trace.Clean
  unfaulted : e.close.faulted = false

section Traces

theorem buffer_injective : Function.Injective Resource.buffer := fun _ _ h => Resource.buffer.inj h

theorem life_acquireBuffers (n i : Nat) :
    (acquireBuffers n).life (.buffer i) = if i < n then [.acquire] else [] :=
  ResourceTrace.life_range buffer_injective .acquire n i

theorem life_releaseBuffers (n i : Nat) :
    (releaseBuffers n).life (.buffer i) = if i < n then [.release] else [] :=
  ResourceTrace.life_range buffer_injective .release n i

/-- What is no buffer of an element is not among these. -/
theorem life_buffers_other (use : ResourceUse) (n : Nat) {r : Resource}
    (h : ∀ i, Resource.buffer i ≠ r) :
    ResourceTrace.life ((List.range n).map (fun i => (Resource.buffer i, use))) r = [] := by
  apply ResourceTrace.life_eq_nil
  intro e he
  obtain ⟨i, -, rfl⟩ := List.mem_map.mp he
  exact h i

/-- What becomes of an array that is freed, and of what is no buffer of its elements. -/
theorem life_freed (n k : Nat) {r : Resource} (h : ∀ i, Resource.buffer i ≠ r) :
    ResourceTrace.life ((.iovecs n, .acquire) :: acquireBuffers k ++
      (releaseBuffers k ++ [(.iovecs n, .release)])) r =
        if Resource.iovecs n = r then [.acquire, .release] else [] := by
  have hacquired : (acquireBuffers k).life r = [] := life_buffers_other .acquire k h
  have hreleased : (releaseBuffers k).life r = [] := life_buffers_other .release k h
  rw [ResourceTrace.life_append, ResourceTrace.life_append, hreleased]
  split
  · next heq =>
    subst heq
    rw [ResourceTrace.life_cons_self, hacquired, ResourceTrace.life_cons_self,
      ResourceTrace.life_nil]
    rfl
  · next hne =>
    rw [ResourceTrace.life_cons_of_ne _ _ hne, hacquired, ResourceTrace.life_cons_of_ne _ _ hne,
      ResourceTrace.life_nil]
    rfl

/-- An array with some buffers that is freed. -/
theorem freed_clean {n k : Nat} (h : k ≤ n) :
    ResourceTrace.Clean ((.iovecs n, .acquire) :: acquireBuffers k ++
      (freeriovecs (some ⟨.iovecs n, k⟩) n).trace) := by
  intro r
  have hmin : min n k = k := Nat.min_eq_right h
  rw [freeriovecs, hmin]
  cases r with
  | iovecs m =>
    rw [life_freed n k (fun i heq => by cases heq)]
    split <;> decide
  | buffer i =>
    have hne : Resource.iovecs n ≠ .buffer i := fun heq => by cases heq
    rw [ResourceTrace.life_append, ResourceTrace.life_append,
      ResourceTrace.life_cons_of_ne _ _ hne, life_acquireBuffers, life_releaseBuffers,
      ResourceTrace.life_cons_of_ne _ _ hne, ResourceTrace.life_nil]
    split <;> decide
  | addrs =>
    rw [life_freed n k (fun i heq => by cases heq)]
    split <;> decide

/-- An array that is left. -/
theorem left_not_clean {n : Nat} {rest : ResourceTrace Resource}
    (h : ∀ e ∈ rest, e.1 ≠ .iovecs n) :
    ¬ ResourceTrace.Clean ((.iovecs n, .acquire) :: rest) := by
  intro hclean
  have hsettled := hclean (.iovecs n)
  rw [ResourceTrace.life_cons_self, ResourceTrace.life_eq_nil h] at hsettled
  revert hsettled
  decide

theorem acquireBuffers_ne (k n : Nat) : ∀ e ∈ acquireBuffers k, e.1 ≠ .iovecs n := by
  intro e he heq
  obtain ⟨i, -, rfl⟩ := List.mem_map.mp he
  cases heq

end Traces

/-! ### Closers -/

/-- **A closer has no pointer.** -/
theorem closer_close_closer (p : Block) (len : Nat) (f : CloseFunction) :
    closer_close (closer p len f) = f.call none len := rfl

/-- Closers that call `free` do nothing. -/
theorem closeAll_free {us : List Closer} (h : ∀ u ∈ us, ∃ p len, u = closer p len .free_closer) :
    closeAll us = ⟨[], false⟩ := by
  induction us with
  | nil => rfl
  | cons u us ih =>
    obtain ⟨⟨p, len, rfl⟩, hus⟩ := List.forall_mem_cons.mp h
    have hclose : closer_close (closer p len .free_closer) = ⟨[], false⟩ :=
      closer_close_closer p len .free_closer
    rw [closeAll, hclose, ih hus]
    rfl

theorem closeAll_freeriovecs (p : Block) (len : Nat) :
    closeAll [closer p len .freeriovecs_closer] = ⟨[], 0 < len⟩ := by
  cases len with
  | zero => rfl
  | succ len => rfl

/-! ### Lists -/

section Scans
variable {α : Type} {geti : Nat → Except Raised Value} {accept : Nat → Value → Option α}

/-- Among so many elements from the index `i` on, there is one that is refused, and the elements
before it are accepted. -/
def StopsFrom (geti : Nat → Except Raised Value) (accept : Nat → Value → Option α) (n i : Nat) :
    Prop :=
  ∃ k < n, (∀ j < k, ∃ v, geti (i + j + 1) = .ok v ∧ accept (i + j) v ≠ none) ∧
    ∃ v, geti (i + k + 1) = .ok v ∧ accept (i + k) v = none

section Rounds
variable {n i : Nat} {v : Value}

/-! The rounds of the loop: an error, an element that is refused, one that is accepted. -/

theorem scan_error {e : Raised} (h : geti (i + 1) = .error e) :
    scan geti accept (n + 1) i = ⟨[], .interrupted e⟩ := by
  simp only [scan, h]

theorem scan_refused (h : geti (i + 1) = .ok v) (hnone : accept i v = none) :
    scan geti accept (n + 1) i = ⟨[], .refused v⟩ := by
  simp only [scan, h, hnone]

theorem scan_accepted {a : α} (h : geti (i + 1) = .ok v) (hsome : accept i v = some a) :
    scan geti accept (n + 1) i =
      ⟨a :: (scan geti accept n (i + 1)).read, (scan geti accept n (i + 1)).ending⟩ := by
  simp only [scan, h, hsome]

theorem stopsFrom_accepted (h : geti (i + 1) = .ok v) (hsome : accept i v ≠ none) :
    StopsFrom geti accept (n + 1) i ↔ StopsFrom geti accept n (i + 1) := by
  constructor
  · rintro ⟨k, hk, hbefore, w, hw, hrefused⟩
    cases k with
    | zero =>
      have hsame : v = w := Except.ok.inj (h.symm.trans hw)
      exact absurd (hsame ▸ hrefused) hsome
    | succ k =>
      have hshift : i + (k + 1) = i + 1 + k := by omega
      rw [hshift] at hw hrefused
      refine ⟨k, by omega, fun j hj => ?_, w, hw, hrefused⟩
      obtain ⟨u, hu, haccepted⟩ := hbefore (j + 1) (by omega)
      have hshift : i + (j + 1) = i + 1 + j := by omega
      rw [hshift] at hu haccepted
      exact ⟨u, hu, haccepted⟩
  · rintro ⟨k, hk, hbefore, w, hw, hrefused⟩
    have hshift : i + 1 + k = i + (k + 1) := by omega
    rw [hshift] at hw hrefused
    refine ⟨k + 1, by omega, fun j hj => ?_, w, hw, hrefused⟩
    cases j with
    | zero => exact ⟨v, h, hsome⟩
    | succ j =>
      obtain ⟨u, hu, haccepted⟩ := hbefore j (by omega)
      have hshift : i + 1 + j = i + (j + 1) := by omega
      rw [hshift] at hu haccepted
      exact ⟨u, hu, haccepted⟩

end Rounds

/-- **The loop ends with an element that is refused** exactly if there is one to which it
gets. -/
theorem scan_refused_iff (n i : Nat) :
    (∃ v, (scan geti accept n i).ending = .refused v) ↔ StopsFrom geti accept n i := by
  induction n generalizing i with
  | zero =>
    constructor
    · rintro ⟨v, hv⟩
      cases hv
    · rintro ⟨k, hk, -⟩
      cases hk
  | succ n ih =>
    cases h : geti (i + 1) with
    | error e =>
      rw [scan_error h]
      constructor
      · rintro ⟨v, hv⟩
        cases hv
      · rintro ⟨k, -, hbefore, w, hw, -⟩
        -- nothing can be read of the first element
        cases k with
        | zero =>
          rw [Nat.add_zero, h] at hw
          cases hw
        | succ k =>
          obtain ⟨u, hu, -⟩ := hbefore 0 (Nat.succ_pos k)
          rw [Nat.add_zero, h] at hu
          cases hu
    | ok v =>
      cases haccept : accept i v with
      | none =>
        rw [scan_refused h haccept]
        refine iff_of_true ⟨v, rfl⟩ ⟨0, Nat.succ_pos n, ?_, v, h, haccept⟩
        intro j hj
        cases hj
      | some a =>
        have hsome : accept i v ≠ none := by
          rw [haccept]
          exact Option.some_ne_none a
        rw [scan_accepted h haccept, stopsFrom_accepted h hsome]
        exact ih (i + 1)

/-- What has been read when the loop ends. -/
theorem scan_read_length (n i : Nat) :
    (scan geti accept n i).read.length ≤ n ∧
      ((scan geti accept n i).ending = .complete → (scan geti accept n i).read.length = n) := by
  induction n generalizing i with
  | zero => exact ⟨Nat.le_refl 0, fun _ => rfl⟩
  | succ n ih =>
    cases h : geti (i + 1) with
    | error e =>
      rw [scan_error h]
      refine ⟨Nat.zero_le _, fun hcomplete => ?_⟩
      cases hcomplete
    | ok v =>
      cases haccept : accept i v with
      | none =>
        rw [scan_refused h haccept]
        refine ⟨Nat.zero_le _, fun hcomplete => ?_⟩
        cases hcomplete
      | some a =>
        obtain ⟨hle, hlength⟩ := ih (i + 1)
        rw [scan_accepted h haccept]
        exact ⟨Nat.succ_le_succ hle, fun hcomplete => congrArg (· + 1) (hlength hcomplete)⟩

end Scans

/-! ### Calls -/

/-- The number of elements, as a `size_t`. -/
def sizeOf_ (len : Int) : Nat := (IntType.uint64.wrap len).toNat

/-- No array is allocated for an argument. -/
def NoArray (env : Env) (v : Option Value) : Prop :=
  ∀ r len, v = some (.table r) → env.len r = .ok len → env.calloc (sizeOf_ len) = false

/-- The conversion of a list ends with an element that is refused. -/
def Refuses {α : Type} (env : Env) (v : Option Value) (accept : Nat → Value → Option α) : Prop :=
  ∃ r len, v = some (.table r) ∧ env.len r = .ok len ∧
    StopsFrom (env.geti r) accept (sizeOf_ len) 0

/-- With some buffers, the address is accepted and `sctp_recvv` succeeds. -/
def Receives (env : Env) (L : LuaState R) (s : Int) (lens : List Nat) : Prop :=
  ∃ addr received,
    (Sockets.checkaddr env.sockets 3 ((withBuffers env L lens).index 3) 0).result = .ok addr ∧
      env.sctp_recvv s lens addr = .ok received

/-- That happens without any buffer. -/
def ReceivesNothing (env : Env) (L : LuaState R) : Prop :=
  ∃ s r len, checkfd env.host 1 (L.index 1) = .ok s ∧ L.index 2 = some (.table r) ∧
    env.len r = .ok len ∧ sizeOf_ len = 0 ∧ Receives env L s []

section Calls
variable {env : Env} {idx : Int} {v : Option Value} {L : LuaState R}

/-- How `luaL_checktype`, `luaL_len` and `calloc` end. -/
theorem arrayLength_cases (env : Env) (idx : Int) (v : Option Value) :
    (∃ e, arrayLength env idx v = .error e ∧ NoArray env v) ∨
      ∃ r len, v = some (.table r) ∧ env.len r = .ok len ∧ env.calloc (sizeOf_ len) = true ∧
        arrayLength env idx v = .ok (r, sizeOf_ len) := by
  unfold arrayLength
  split
  · next r =>
    cases hlen : env.len r with
    | error e =>
      refine Or.inl ⟨e, rfl, fun r' len hr hok => ?_⟩
      cases hr
      rw [hlen] at hok
      cases hok
    | ok len =>
      cases hcalloc : env.calloc (sizeOf_ len) with
      | false =>
        refine Or.inl ⟨.fatal "calloc" ENOMEM, ?_, fun r' len' hr hok => ?_⟩
        · show (if env.calloc (sizeOf_ len) = true then _ else _) = _
          rw [hcalloc]
          rfl
        · cases hr
          rw [hlen] at hok
          cases hok
          exact hcalloc
      | true =>
        refine Or.inr ⟨r, len, rfl, hlen, hcalloc, ?_⟩
        show (if env.calloc (sizeOf_ len) = true then _ else _) = _
        rw [hcalloc]
        rfl
  · next hnot => exact Or.inl ⟨_, rfl, fun r len hr _ => absurd hr (hnot r)⟩

theorem refuses_iff {α : Type} {accept : Nat → Value → Option α} {r : Nat} {len : Int}
    (hv : v = some (.table r)) (hlen : env.len r = .ok len) :
    Refuses env v accept ↔ ∃ w, (scan (env.geti r) accept (sizeOf_ len) 0).ending = .refused w := by
  rw [scan_refused_iff]
  constructor
  · rintro ⟨r', len', hr, hlen', hstops⟩
    rw [hv] at hr
    cases hr
    rw [hlen] at hlen'
    cases hlen'
    exact hstops
  · intro hstops
    exact ⟨r, len, hv, hlen, hstops⟩

theorem not_noArray {r : Nat} {len : Int} (hv : v = some (.table r)) (hlen : env.len r = .ok len)
    (hcalloc : env.calloc (sizeOf_ len) = true) : ¬ NoArray env v := by
  intro h
  rw [h r len hv hlen] at hcalloc
  cases hcalloc

/-- How the conversion for `sctp_sendv` ends: without an array, with one that it has freed, or with
one that is left. -/
theorem checkwiovecs_cases (env : Env) (idx : Int) (v : Option Value) :
    (∃ e, checkwiovecs env idx v = ⟨[], .error e⟩ ∧ NoArray env v) ∨
      ∃ n, ¬ NoArray env v ∧
        ((∃ e, checkwiovecs env idx v =
              ⟨[(.iovecs n, .acquire), (.iovecs n, .release)], .error e⟩ ∧
            Refuses env v stringOf) ∨
          ∃ result, checkwiovecs env idx v = ⟨[(.iovecs n, .acquire)], result⟩ ∧
            ¬ Refuses env v stringOf) := by
  rcases arrayLength_cases env idx v with ⟨e, harray, hnone⟩ | ⟨r, len, hv, hlen, hcalloc, harray⟩
  · exact Or.inl ⟨e, by rw [checkwiovecs, harray], hnone⟩
  · refine Or.inr ⟨sizeOf_ len, not_noArray hv hlen hcalloc, ?_⟩
    rw [refuses_iff hv hlen]
    cases hending : (scan (env.geti r) stringOf (sizeOf_ len) 0).ending with
    | refused w =>
      exact Or.inl ⟨.argerror idx "expected strings",
        by simp only [checkwiovecs, harray, hending], w, rfl⟩
    | interrupted e =>
      refine Or.inr ⟨.error e, by simp only [checkwiovecs, harray, hending], ?_⟩
      rintro ⟨w, hw⟩
      cases hw
    | complete =>
      refine Or.inr ⟨.ok (scan (env.geti r) stringOf (sizeOf_ len) 0).read,
        by simp only [checkwiovecs, harray, hending], ?_⟩
      rintro ⟨w, hw⟩
      cases hw

/-- How the conversion for `sctp_recvv` ends; some buffers have been allocated when the loop is
left. -/
theorem checkriovecs_cases (env : Env) (idx : Int) (v : Option Value) :
    (∃ e, checkriovecs env idx v = ⟨[], .error e⟩ ∧ NoArray env v) ∨
      ∃ r len, v = some (.table r) ∧ env.len r = .ok len ∧ ¬ NoArray env v ∧
        ((∃ k e, k ≤ sizeOf_ len ∧ Refuses env v (bufferOf env.malloc) ∧
            checkriovecs env idx v =
              ⟨(.iovecs (sizeOf_ len), .acquire) :: acquireBuffers k ++
                (freeriovecs (some ⟨.iovecs (sizeOf_ len), k⟩) (sizeOf_ len)).trace,
                .error e⟩) ∨
          (∃ k e, sizeOf_ len ≠ 0 ∧ ¬ Refuses env v (bufferOf env.malloc) ∧
            checkriovecs env idx v =
              ⟨(.iovecs (sizeOf_ len), .acquire) :: acquireBuffers k, .error e⟩) ∨
          ∃ lens, lens.length = sizeOf_ len ∧ ¬ Refuses env v (bufferOf env.malloc) ∧
            checkriovecs env idx v =
              ⟨(.iovecs lens.length, .acquire) :: acquireBuffers lens.length, .ok lens⟩) := by
  rcases arrayLength_cases env idx v with ⟨e, harray, hnone⟩ | ⟨r, len, hv, hlen, hcalloc, harray⟩
  · exact Or.inl ⟨e, by rw [checkriovecs, harray], hnone⟩
  · refine Or.inr ⟨r, len, hv, hlen, not_noArray hv hlen hcalloc, ?_⟩
    rw [refuses_iff hv hlen]
    generalize hscan : scan (env.geti r) (bufferOf env.malloc) (sizeOf_ len) 0 = iovs
    obtain ⟨hle, hcomplete⟩ : iovs.read.length ≤ sizeOf_ len ∧
        (iovs.ending = .complete → iovs.read.length = sizeOf_ len) := by
      rw [← hscan]
      exact scan_read_length (sizeOf_ len) 0
    cases hending : iovs.ending with
    | refused w =>
      exact Or.inl ⟨iovs.read.length, refusal idx w, hle, ⟨w, rfl⟩,
        by simp only [checkriovecs, harray, hscan, hending]⟩
    | interrupted e =>
      refine Or.inr (Or.inl ⟨iovs.read.length, e, fun hzero => ?_, ?_,
        by simp only [checkriovecs, harray, hscan, hending]⟩)
      · -- without elements the loop is complete
        rw [hzero] at hscan
        rw [← hscan] at hending
        cases hending
      · rintro ⟨w, hw⟩
        cases hw
    | complete =>
      have hlength := hcomplete hending
      refine Or.inr (Or.inr ⟨iovs.read, hlength, ?_,
        by simp only [checkriovecs, harray, hscan, hending, hlength]⟩)
      rintro ⟨w, hw⟩
      cases hw

/-- A call that has not allocated anything. -/
theorem clean_nil (o : Outcome) : (⟨[], [], o⟩ : Exit).Clean :=
  ⟨fun _ => Or.inl rfl, rfl⟩

/-- A call that has freed its array, with the buffers that are there. -/
theorem clean_freed {n k : Nat} (h : k ≤ n) (o : Outcome) :
    (⟨(.iovecs n, .acquire) :: acquireBuffers k ++ (freeriovecs (some ⟨.iovecs n, k⟩) n).trace, [],
      o⟩ : Exit).Clean := by
  refine ⟨?_, rfl⟩
  show ResourceTrace.Clean (_ ++ [])
  rw [List.append_nil]
  exact freed_clean h

theorem clean_freed_array (n : Nat) (o : Outcome) :
    (⟨[(.iovecs n, .acquire), (.iovecs n, .release)], [], o⟩ : Exit).Clean := by
  have h := clean_freed (Nat.zero_le n) o
  rw [freeriovecs, Nat.min_zero] at h
  exact h

theorem ok_ne_error (s : Int) : ¬ ∃ e, (Except.ok s : Except Raised Int) = .error e := by
  rintro ⟨e, he⟩
  cases he

/-! #### Sending -/

/-- Once its list is converted, only the addresses may be released. -/
theorem sendv_converted {s : Int} {strings : List Bytes}
    (hfd : checkfd env.host 1 (L.index 1) = .ok s)
    (hiov : (checkwiovecs env 2 (L.index 2)).result = .ok strings) :
    (l_sctp_sendv env L).close =
      ⟨(checkwiovecs env 2 (L.index 2)).trace ++
        (SctpAddrs.checkaddrs env.addrs 3
          ((withCloser L (strings.map .string) (env.closerRef 0)).index 3) 0).uses.map
            (fun use => (.addrs, use)), false⟩ := by
  have hone (p : Block) (len : Nat) : closeAll [closer p len .free_closer] = ⟨[], false⟩ :=
    closeAll_free (List.forall_mem_singleton.mpr ⟨p, len, rfl⟩)
  have htwo (p q : Block) (len len' : Nat) :
      closeAll [closer p len .free_closer, closer q len' .free_closer] = ⟨[], false⟩ :=
    closeAll_free (List.forall_mem_cons.mpr
      ⟨⟨p, len, rfl⟩, List.forall_mem_singleton.mpr ⟨q, len', rfl⟩⟩)
  rw [l_sctp_sendv, hfd]
  simp only [hiov]
  split
  · simp only [Exit.close, hone, List.append_nil]
  · split
    · simp only [Exit.close, htwo, List.append_nil]
    · split <;> simp only [Exit.close, htwo, List.append_nil]

/-- **When `sctp_sendv` releases its buffers**: it has none, or it frees the array itself. -/
theorem sendv_clean_iff (env : Env) (L : LuaState R) :
    (l_sctp_sendv env L).Clean ↔
      (∃ e, checkfd env.host 1 (L.index 1) = .error e) ∨ NoArray env (L.index 2) ∨
        Refuses env (L.index 2) stringOf := by
  cases hfd : checkfd env.host 1 (L.index 1) with
  | error e =>
    rw [l_sctp_sendv, hfd]
    exact iff_of_true (clean_nil _) (Or.inl ⟨e, rfl⟩)
  | ok s =>
    rw [or_iff_right (ok_ne_error s)]
    rcases checkwiovecs_cases env 2 (L.index 2) with
      ⟨e, hiov, hnone⟩ | ⟨n, harray, ⟨e, hiov, hrefuses⟩ | ⟨result, hiov, hrefuses⟩⟩
    · rw [l_sctp_sendv, hfd]
      simp only [hiov]
      exact iff_of_true (clean_nil _) (Or.inl hnone)
    · rw [l_sctp_sendv, hfd]
      simp only [hiov]
      exact iff_of_true (clean_freed_array _ _) (Or.inr hrefuses)
    · refine iff_of_false (fun h => ?_) (not_or.mpr ⟨harray, hrefuses⟩)
      have hreleased := h.released
      cases result with
      | error e =>
        rw [l_sctp_sendv, hfd] at hreleased
        simp only [hiov] at hreleased
        exact left_not_clean (List.forall_mem_nil _) hreleased
      | ok strings =>
        rw [sendv_converted hfd (by rw [hiov]), hiov] at hreleased
        refine left_not_clean (fun e he => ?_) hreleased
        obtain ⟨use, -, rfl⟩ := List.mem_map.mp he
        intro heq
        cases heq

/-! #### Receiving -/

/-- The array is left, and a null pointer is read through if there are buffers. -/
theorem recvv_not_received {s : Int} {lens : List Nat}
    (hfd : checkfd env.host 1 (L.index 1) = .ok s)
    (hiov : (checkriovecs env 2 (L.index 2)).result = .ok lens) (h : ¬ Receives env L s lens) :
    (l_sctp_recvv env L).close =
      ⟨(checkriovecs env 2 (L.index 2)).trace, decide (0 < lens.length)⟩ := by
  rw [l_sctp_recvv, hfd]
  simp only [hiov]
  split
  · simp only [Exit.close, closeAll_freeriovecs, List.append_nil]
  · next addr haddr =>
    split
    · simp only [Exit.close, closeAll_freeriovecs, List.append_nil]
    · next received hreceived => exact absurd ⟨addr, received, haddr, hreceived⟩ h

/-- The array is freed, and then the same happens. -/
theorem recvv_received {s : Int} {lens : List Nat}
    (hfd : checkfd env.host 1 (L.index 1) = .ok s)
    (hiov : (checkriovecs env 2 (L.index 2)).result = .ok lens) (h : Receives env L s lens) :
    (l_sctp_recvv env L).close =
      ⟨(checkriovecs env 2 (L.index 2)).trace ++
        (freeriovecs (some ⟨.iovecs lens.length, lens.length⟩) lens.length).trace,
        decide (0 < lens.length)⟩ := by
  obtain ⟨addr, received, haddr, hreceived⟩ := h
  rw [l_sctp_recvv, hfd]
  simp only [hiov, haddr, hreceived]
  split <;> simp only [Exit.close, closeAll_freeriovecs, List.append_nil]

/-- A call that has converted its list. -/
theorem recvv_complete_iff {s : Int} {lens : List Nat}
    (hfd : checkfd env.host 1 (L.index 1) = .ok s)
    (hiov : checkriovecs env 2 (L.index 2) =
      ⟨(.iovecs lens.length, .acquire) :: acquireBuffers lens.length, .ok lens⟩) :
    (l_sctp_recvv env L).Clean ↔ lens = [] ∧ Receives env L s lens := by
  have hresult : (checkriovecs env 2 (L.index 2)).result = .ok lens := by rw [hiov]
  by_cases hreceives : Receives env L s lens
  · have hclose := recvv_received hfd hresult hreceives
    rw [hiov] at hclose
    constructor
    · intro h
      have hempty := h.unfaulted
      rw [hclose] at hempty
      have hzero := Nat.eq_zero_of_not_pos (of_decide_eq_false hempty)
      exact ⟨List.length_eq_zero_iff.mp hzero, hreceives⟩
    · rintro ⟨rfl, -⟩
      refine ⟨?_, ?_⟩
      · rw [hclose]
        exact freed_clean (Nat.le_refl _)
      · rw [hclose]
        rfl
  · have hclose := recvv_not_received hfd hresult hreceives
    rw [hiov] at hclose
    refine iff_of_false (fun h => ?_) (fun h => hreceives h.2)
    have hreleased := h.released
    rw [hclose] at hreleased
    exact left_not_clean (acquireBuffers_ne _ _) hreleased

theorem receivesNothing_iff {s : Int} {r : Nat} {len : Int}
    (hfd : checkfd env.host 1 (L.index 1) = .ok s) (hv : L.index 2 = some (.table r))
    (hlen : env.len r = .ok len) :
    ReceivesNothing env L ↔ sizeOf_ len = 0 ∧ Receives env L s [] := by
  constructor
  · rintro ⟨s', r', len', hfd', hv', hlen', hzero, hreceives⟩
    rw [hfd] at hfd'
    cases hfd'
    rw [hv] at hv'
    cases hv'
    rw [hlen] at hlen'
    cases hlen'
    exact ⟨hzero, hreceives⟩
  · rintro ⟨hzero, hreceives⟩
    exact ⟨s, r, len, hfd, hv, hlen, hzero, hreceives⟩

/-- **When `sctp_recvv` releases its buffers**: it has none, or it frees the array itself. -/
theorem recvv_clean_iff (env : Env) (L : LuaState R) :
    (l_sctp_recvv env L).Clean ↔
      (∃ e, checkfd env.host 1 (L.index 1) = .error e) ∨ NoArray env (L.index 2) ∨
        Refuses env (L.index 2) (bufferOf env.malloc) ∨ ReceivesNothing env L := by
  cases hfd : checkfd env.host 1 (L.index 1) with
  | error e =>
    rw [l_sctp_recvv, hfd]
    exact iff_of_true (clean_nil _) (Or.inl ⟨e, rfl⟩)
  | ok s =>
    rw [or_iff_right (ok_ne_error s)]
    rcases checkriovecs_cases env 2 (L.index 2) with
      ⟨e, hiov, hnone⟩ | ⟨r, len, hv, hlen, harray, hends⟩
    · rw [l_sctp_recvv, hfd]
      simp only [hiov]
      exact iff_of_true (clean_nil _) (Or.inl hnone)
    · rw [or_iff_right harray, receivesNothing_iff hfd hv hlen]
      rcases hends with ⟨k, e, hle, hrefuses, hiov⟩ | ⟨k, e, hne, hrefuses, hiov⟩ |
        ⟨lens, hlength, hrefuses, hiov⟩
      · rw [l_sctp_recvv, hfd]
        simp only [hiov]
        exact iff_of_true (clean_freed hle _) (Or.inl hrefuses)
      · refine iff_of_false (fun h => ?_) (not_or.mpr ⟨hrefuses, fun h => hne h.1⟩)
        have hreleased := h.released
        rw [l_sctp_recvv, hfd] at hreleased
        simp only [hiov] at hreleased
        rw [Exit.close, closeAll, List.append_nil] at hreleased
        exact left_not_clean (acquireBuffers_ne _ _) hreleased
      · rw [or_iff_right hrefuses, recvv_complete_iff hfd hiov, ← hlength,
          List.length_eq_zero_iff]
        exact and_congr_right fun hread => by rw [hread]

end Calls

/-- What is expected of a call of `sctp_sendv` for that. -/
def SendsCleanly (env : Env) (L : LuaState R) : Prop :=
  (∃ e, checkfd env.host 1 (L.index 1) = .error e) ∨ NoArray env (L.index 2) ∨
    Refuses env (L.index 2) stringOf

/-- What is expected of a call of `sctp_recvv` for that. -/
def ReceivesCleanly (env : Env) (L : LuaState R) : Prop :=
  (∃ e, checkfd env.host 1 (L.index 1) = .error e) ∨ NoArray env (L.index 2) ∨
    Refuses env (L.index 2) (bufferOf env.malloc) ∨ ReceivesNothing env L

/-- **When the two functions release what they have allocated.** -/
theorem sctp_buffers_clean_iff (env : Env) (L : LuaState R) :
    ((l_sctp_sendv env L).Clean ↔ SendsCleanly env L) ∧
      ((l_sctp_recvv env L).Clean ↔ ReceivesCleanly env L) :=
  ⟨sendv_clean_iff env L, recvv_clean_iff env L⟩

/-! ## The same lists on a stack

The converters leave the elements of a list on the Lua stack, and ask for no room.  What they
take of it is in `FluaLibs.StackCapacity`; with enough stack, they give what they give here. -/

section Stack

/-- The lists, and the memory for them, are the same on a stack. -/
structure Stacked (env : Env) (stacked : Capacity.Env) : Prop where
  len : stacked.len = env.len
  geti : stacked.geti = env.geti
  calloc : stacked.array = env.calloc
  malloc : stacked.element = env.malloc

/-- What a loop over a list gives. -/
def Scan.result {α : Type} (refuse : Value → Raised) (s : Scan α) : Except Raised (List α) :=
  match s.ending with
  | .complete => .ok s.read
  | .refused v => .error (refuse v)
  | .interrupted e => .error e

variable {env : Env} {stacked : Capacity.Env} {α : Type} {geti : Nat → Except Raised Value}
  {accept : Nat → Value → Option α} {refuse : Value → Raised}
  {check : Nat → Value → Gauge R → Capacity.Ran R α}

/-- **The loop on a stack**, by induction on the number of elements: each of them stays, and the
others are read above it. -/
theorem readElements_result
    (haccepts : ∀ i v (L : Gauge R) a, accept i v = some a → (check i v L).1 = .ok a)
    (hrefuses : ∀ i v (L : Gauge R), accept i v = none → (check i v L).1 = .error (refuse v))
    (n i : Nat) (L : Gauge R) :
    (Capacity.readElements geti check n i L).1 = (scan geti accept n i).result refuse := by
  induction n generalizing i L with
  | zero => rfl
  | succ n ih =>
    cases hget : geti (i + 1) with
    | error e =>
      rw [scan_error hget]
      simp only [Capacity.readElements, hget]
      rfl
    | ok v =>
      simp only [Capacity.readElements, hget]
      cases haccept : accept i v with
      | none =>
        rw [scan_refused hget haccept]
        have hcheck := hrefuses i v (L.push v) haccept
        generalize check i v (L.push v) = x at hcheck ⊢
        obtain ⟨result, L'⟩ := x
        dsimp only at hcheck
        rw [hcheck]
        rfl
      | some a =>
        rw [scan_accepted hget haccept]
        have hcheck := haccepts i v (L.push v) a haccept
        generalize check i v (L.push v) = x at hcheck ⊢
        obtain ⟨result, L'⟩ := x
        dsimp only at hcheck
        rw [hcheck, Capacity.Ran.ok_bind]
        have hrest := ih (i + 1) L'
        generalize Capacity.readElements geti check n (i + 1) L' = y at hrest ⊢
        obtain ⟨rest, L''⟩ := y
        dsimp only at hrest
        rw [hrest]
        simp only [Scan.result]
        cases (scan geti accept n (i + 1)).ending <;> rfl

/-- The list, its length and the array for it come first. -/
theorem checkiovecs_result (h : Stacked env stacked) (L : Gauge R) (idx : Int) :
    (Capacity.checkiovecs stacked check L idx).1 =
      (arrayLength env idx (L.state.index idx)).bind (fun list =>
        (Capacity.readElements (env.geti list.1) check list.2 0 (L.spend 1)).1) := by
  unfold Capacity.checkiovecs Capacity.tableArgument arrayLength
  cases L.state.index idx with
  | none => rfl
  | some v =>
    cases v with
    | table r =>
      rw [h.len, h.geti, h.calloc]
      cases hlen : env.len r with
      | error e =>
        simp only [hlen]
        rfl
      | ok len =>
        simp only [hlen, Capacity.Ran.ok_bind, bind, Except.bind]
        split <;> rfl
    | _ => rfl

/-! The checks of an element. -/

theorem riovec_accepts (h : Stacked env stacked) (idx : Int) (i : Nat) (v : Value) (L : Gauge R)
    (size : Nat) (haccept : bufferOf env.malloc i v = some size) :
    (Capacity.riovec stacked idx i v L).1 = .ok size := by
  cases v with
  | integer len =>
    rw [bufferOf] at haccept
    rw [Capacity.riovec, h.malloc]
    split at haccept
    · next hmalloc =>
      cases haccept
      rw [if_pos hmalloc]
    · cases haccept
  | _ => cases haccept

theorem riovec_refuses (h : Stacked env stacked) (idx : Int) (i : Nat) (v : Value) (L : Gauge R)
    (hrefuse : bufferOf env.malloc i v = none) :
    (Capacity.riovec stacked idx i v L).1 = .error (refusal idx v) := by
  cases v with
  | integer len =>
    rw [bufferOf] at hrefuse
    rw [Capacity.riovec, h.malloc]
    split at hrefuse
    · cases hrefuse
    · next hmalloc =>
      rw [if_neg hmalloc]
      rfl
  | _ => rfl

theorem wiovec_accepts (stacked : Capacity.Env) (idx : Int) (i : Nat) (v : Value) (L : Gauge R)
    (s : Bytes) (haccept : stringOf i v = some s) :
    (Capacity.wiovec stacked idx i v L).1 = .ok s := by
  cases v with
  | string s =>
    cases haccept
    rfl
  | _ => cases haccept

theorem wiovec_refuses (stacked : Capacity.Env) (idx : Int) (i : Nat) (v : Value) (L : Gauge R)
    (hrefuse : stringOf i v = none) :
    (Capacity.wiovec stacked idx i v L).1 = .error (.argerror idx "expected strings") := by
  cases v with
  | string s => cases hrefuse
  | _ => rfl

/-- **`checkriovecs` on a stack gives what it gives here.** -/
theorem checkriovecs_stacked (h : Stacked env stacked) (L : Gauge R) (idx : Int) :
    (Capacity.checkriovecs stacked L idx).1 =
      (checkriovecs env idx (L.state.index idx)).result := by
  rw [Capacity.checkriovecs, checkiovecs_result h, checkriovecs]
  cases arrayLength env idx (L.state.index idx) with
  | error e => rfl
  | ok list =>
    simp only [Except.bind]
    rw [readElements_result (riovec_accepts h idx) (riovec_refuses h idx)]
    simp only [Scan.result]
    cases (scan (env.geti list.1) (bufferOf env.malloc) list.2 0).ending <;> rfl

theorem checkwiovecs_stacked (h : Stacked env stacked) (L : Gauge R) (idx : Int) :
    (Capacity.checkwiovecs stacked L idx).1 =
      (checkwiovecs env idx (L.state.index idx)).result := by
  rw [Capacity.checkwiovecs, checkiovecs_result h, checkwiovecs]
  cases arrayLength env idx (L.state.index idx) with
  | error e => rfl
  | ok list =>
    simp only [Except.bind]
    rw [readElements_result (wiovec_accepts stacked idx) (wiovec_refuses stacked idx)]
    simp only [Scan.result]
    cases (scan (env.geti list.1) stringOf list.2 0).ending <;> rfl

end Stack

/-! ## Two calls -/

/-- A call with a list of one string, a list of one address, and nothing else. -/
def sendingEnv : Env where
  host := .plain
  order := .little
  len _ := .ok 1
  geti _ _ := .ok (.string [104, 105])
  getfield _ _ := .ok .nil
  addrs := SctpAddrs.listEnv [⟨2, [0, 80, 127, 0, 0, 1]⟩]
  sockets := Sockets.longEnv
  calloc _ := true
  malloc _ _ := true
  closerRef i := i
  sctp_sendv _ := .ok 2
  sctp_recvv _ _ _ := .error 35

/-- The same, with the length of a buffer; `sctp_recvv` fails. -/
def receivingEnv : Env := { sendingEnv with geti := fun _ _ => .ok (.integer 16) }

/-- The descriptor, the buffers, the addresses, what goes with the message, and no flags: they
are written out, as a string of the buffers takes their place otherwise. -/
def messageCall : LuaState noFunctions :=
  ⟨[.integer 3, .table 0, .table 1, .table 2, .integer 0], [], 0⟩

theorem messageCall_not_clean :
    ¬ (l_sctp_sendv sendingEnv messageCall).Clean ∧
      ¬ (l_sctp_recvv receivingEnv messageCall).Clean := by
  constructor
  · intro h
    have hsettled := h.released (.iovecs 1)
    revert hsettled
    decide
  · intro h
    have hunfaulted := h.unfaulted
    revert hunfaulted
    decide

end SctpBuffers
end FluaLibs
