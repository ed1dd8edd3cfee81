import FluaLibs.AioReferences

/-! # The bytes of the buffers

Whether the buffer of a control block has been initialised is kept in two values of its
state, `CB_UNINIT` and `CB_INIT`.  This module puts the bytes beside the control blocks:
those that no initial string and no completed read has written are `none`.  The
machine is the one of `AioControlBlock` with the bytes carried along: the kernel's
requests have a kind, a completed read has data, and what `buf` and `iov` return and
what the write requests submit is recorded.
-/
namespace FluaLibs
namespace Aio
namespace Buffers

/-- The kind of a request.  `other` is any that does not write to the buffer. -/
inductive Request where
  | read
  | other
  deriving DecidableEq, Repr

/-- The buffer of a control block, its pieces one after the other, with the field
`aio_nbytes` (for a vector, `aio_iovcnt`), whether the opcode for `listio` is one of the
vectored ones, and the requests in progress. -/
structure Contents where
  bytes : List (Option UInt8)
  nbytes : Nat
  vectored : Bool
  running : List Request
  deriving DecidableEq, Repr

/-- All bytes have been initialised. -/
def Full (bytes : List (Option UInt8)) : Prop := ∀ b ∈ bytes, b ≠ none

instance (bytes : List (Option UInt8)) : Decidable (Full bytes) :=
  inferInstanceAs (Decidable (∀ b ∈ bytes, _))

/-- `malloc`, and `memcpy` of an initial string. -/
def pieceBytes : Piece → List (Option UInt8)
  | .string bytes => bytes.map some
  | .length n => List.replicate n none

/-- What `checkbuf` and `checkiovecs` leave in the control block; a refused description
leaves nothing. -/
def bufferBytes (buffer : Buffer) : List (Option UInt8) × Nat :=
  match buffer.check, buffer with
  | none, _ | _, .nil => ([], 0)
  | some _, .piece p => (pieceBytes p, (pieceBytes p).length)
  | some _, .table pieces => (pieces.flatMap pieceBytes, pieces.length)

namespace Contents
variable (x : Contents)

/-- A read has stored its data, from the beginning of the buffer. -/
def stored (data : List UInt8) : List (Option UInt8) :=
  data.map some ++ x.bytes.drop data.length

/-- The `k`th request completes; `none` when it has failed. -/
def complete (k : Nat) (result : Option (List UInt8)) : Contents :=
  { x with
    bytes := match x.running[k]?, result with
      | some .read, some data => x.stored data
      | _, _ => x.bytes
    running := x.running.eraseIdx k }

/-- The kernel has accepted a request. -/
def queue (r : Request) : Contents := { x with running := x.running ++ [r] }

/-- A request that takes the buffer for a vector, or for none, takes it as what it is. -/
def Matched (vectored : Bool) (cb : Rcaiocb) : Prop := vectored = cb.vector ∨ x.nbytes = 0

instance (vectored : Bool) (cb : Rcaiocb) : Decidable (x.Matched vectored cb) :=
  inferInstanceAs (Decidable (_ ∨ _))

/-- The bytes a write request takes.  When it takes a vector for a buffer, or a buffer for
a vector, they are not the ones of the buffer. -/
def submitted (vectored : Bool) (cb : Rcaiocb) : List (Option UInt8) :=
  if x.Matched vectored cb then x.bytes else List.replicate x.nbytes none

/-- The request that is made; what is no read counts as a write. -/
def request (read vectored : Bool) (cb : Rcaiocb) : Request :=
  if read = true ∧ x.Matched vectored cb then .read else .other

theorem request_of_matched {vectored : Bool} {cb : Rcaiocb} (h : x.Matched vectored cb)
    (read : Bool) : x.request read vectored cb = if read then .read else .other := by
  rw [request]
  simp only [h, and_true]

/-- All requests have been cancelled. -/
def cancel : Contents := { x with running := [] }

/-- The buffer has been freed. -/
def free : Contents := { x with bytes := x.bytes.map (fun _ => none) }

end Contents

/-- The call is a `read`. -/
def isRead : Option Invocation → Bool
  | some (.read _ _) => true
  | _ => false

/-- The call is a `write`. -/
def isWrite : Option Invocation → Bool
  | some (.write _ _) => true
  | _ => false

/-- The call takes the buffer for a vector: by `aio_readv` or `aio_writev` when it is one,
else by the flags of `aio_read2` or `aio_write2`. -/
def takesVector (cb : Rcaiocb) : Option Invocation → Bool
  | some (.read _ flags) | some (.write _ flags) =>
    cb.vector || (flags &&& AIO_OP2_VECTORED) != 0
  | _ => cb.vector

/-- The machine with the bytes: for each control block its contents, for each call which
function it is, and the byte sequences that have left a control block. -/
structure Memory where
  aio : State
  contents : Nat → Contents
  invocations : List (Option Invocation)
  left : List (List (Option UInt8))

/-- The actions: those that say something about the bytes, and all others. -/
inductive Event where
  | shared (lioRead vectored : Bool) (buffer : Buffer)
  | complete (a k : Nat) (result : Option (List UInt8))
  | act (e : Aio.Event)
  deriving DecidableEq, Repr

/-- The action on the control blocks. -/
def Event.base : Event → Aio.Event
  | shared lioRead _ buffer => .shared lioRead buffer
  | complete a _ result => .complete a result.isSome
  | act e => e

/-- The action is one of those that say nothing about the bytes. -/
def Event.isPlain : Aio.Event → Bool
  | .shared _ _ | .complete _ _ => false
  | _ => true

namespace Memory
variable (m : Memory)

def setContents (a : Nat) (x : Contents) : Memory :=
  { m with contents := Function.update m.contents a x }

/-- Bytes are returned to Lua or submitted for writing. -/
def leave (bytes : List (Option UInt8)) : Memory := { m with left := m.left ++ [bytes] }

/-- The function of a call. -/
def invocation (i : Nat) : Option Invocation := m.invocations[i]?.join

/-- What the next action of a call does to the bytes. -/
def stepBytes (i : Nat) (ok : Bool) : Pc → Memory
  | .submit a _ =>
    if ok then
      let cb := m.aio.cbs a
      let f := m.invocation i
      let x := m.contents a
      let m' := m.setContents a (x.queue (x.request (isRead f) (takesVector cb f) cb))
      if isWrite f then m'.leave (x.submitted (takesVector cb f) cb) else m'
    else m
  | .lio _ a _ _ =>
    if ok then
      let cb := m.aio.cbs a
      let x := m.contents a
      let m' := m.setContents a (x.queue (x.request cb.lioRead x.vectored cb))
      if cb.lioRead then m' else m'.leave (x.submitted x.vectored cb)
    else m
  | .copying a => m.leave (m.contents a).bytes
  | .aioCancel a => if ok then m.setContents a (m.contents a).cancel else m
  | _ => m

/-- What the next action of `l_aiocb_free` does to the bytes. -/
def freeBytes (a : Nat) (ok : Bool) : FreePc → Memory
  | .aioCancel => if ok then m.setContents a (m.contents a).cancel else m
  | .free => m.setContents a (m.contents a).free
  | _ => m

/-- What an action does to the bytes. -/
def effect : Event → Memory
  | .shared _ vectored buffer =>
    m.setContents m.aio.count ⟨(bufferBytes buffer).1, (bufferBytes buffer).2, vectored, []⟩
  | .complete a k result => m.setContents a ((m.contents a).complete k result)
  | .act (.call f) => { m with invocations := m.invocations ++ [some f] }
  | .act (.retain _) => { m with invocations := m.invocations ++ [none] }
  | .act (.step i ok) => m.aio.calls[i]?.elim m (fun c => m.stepBytes i ok c.pc)
  | .act (.freeStep u ok) => m.aio.userdata[u]?.elim m (fun x => m.freeBytes x.cb ok x.freePc)
  | .act _ => m

end Memory

/-- A read stores no more than the buffer has room for. -/
def Enabled (m : Memory) : Event → Prop
  | .shared lioRead _ buffer => Aio.Enabled m.aio (.shared lioRead buffer)
  | .complete a k result => Aio.Enabled m.aio (.complete a result.isSome) ∧
      k < (m.contents a).running.length ∧
      ∀ data ∈ result, data.length ≤ (m.contents a).bytes.length
  | .act e => Event.isPlain e = true ∧ Aio.Enabled m.aio e

def next (m : Memory) (e : Event) : Memory :=
  { m.effect e with aio := Aio.next m.aio e.base }

def system : System Memory Event where
  init := ⟨Aio.system.init, fun _ => ⟨[], 0, false, []⟩, [], []⟩
  Enabled := Enabled
  decEnabled m e := by
    cases e with
    | shared lioRead vectored buffer => exact Aio.system.decEnabled m.aio (.shared lioRead buffer)
    | complete a k result =>
      have := Aio.system.decEnabled m.aio (.complete a result.isSome)
      exact inferInstanceAs (Decidable (Aio.system.Enabled m.aio (.complete a result.isSome) ∧
        k < (m.contents a).running.length ∧
        ∀ data ∈ result, data.length ≤ (m.contents a).bytes.length))
    | act e =>
      have := Aio.system.decEnabled m.aio e
      exact inferInstanceAs (Decidable (_ ∧ Aio.system.Enabled m.aio e))
  next := next

theorem enabled_base {m : Memory} {e : Event} (h : Enabled m e) : Aio.Enabled m.aio e.base := by
  cases e with
  | shared lioRead vectored buffer => exact h
  | complete a k result => exact h.1
  | act e => exact h.2

/-- **The bytes change nothing else**: every run is a run of the control blocks. -/
theorem reachable_aio {ok : Memory → Event → Prop} {m : Memory} (h : system.ReachableBy ok m) :
    Aio.system.Reachable m.aio := by
  induction h with
  | init => exact .init
  | step _ _ he ih => exact ih.step trivial (enabled_base he)

/-! ## The submissions of a call -/

/-- The control blocks whose state was `CB_INIT`. -/
def initOf (begun : List (Nat × AiocbState)) : List Nat :=
  (begun.filter (fun x => x.2 = .init)).map Prod.fst

theorem mem_initOf {begun : List (Nat × AiocbState)} {a : Nat} :
    a ∈ initOf begun ↔ (a, AiocbState.init) ∈ begun := by
  simp [initOf]

theorem initOf_append (begun rest : List (Nat × AiocbState)) :
    initOf (begun ++ rest) = initOf begun ++ initOf rest := by
  simp [initOf]

/-- The control blocks that a call knows to be initialised: those whose state it has seen
to be `CB_INIT`, or which it is going to take to `CB_INIT`. -/
def relies : Pc → List Nat
  | .tryRead _ l | .tryWrite _ l => l.elim [] (fun l => initOf l.begun)
  | .submit a state | .restore a state _ => initOf [(a, state)]
  | .rollback a state rest _ => initOf ((a, state) :: rest)
  | .lio handled a state rest => initOf (handled.map Prod.fst ++ (a, state) :: rest)
  | .lioReturn handled => initOf (handled.map Prod.fst)
  | .refused begun _ => initOf begun
  | .commit a _ | .store a _ | .copying a | .waited a true | .waitedNew a true => [a]
  | _ => []

theorem relies_rollbackStates (outcome : Outcome) (begun : List (Nat × AiocbState)) :
    relies (rollbackStates outcome begun) = initOf begun := by
  cases begun <;> rfl

theorem relies_lioListio (handled : List ((Nat × AiocbState) × Bool))
    (rest : List (Nat × AiocbState)) :
    relies (lioListio handled rest) = initOf (handled.map Prod.fst ++ rest) := by
  cases rest with
  | nil => simp [lioListio, relies]
  | cons => rfl

theorem relies_nextEntry (begun : List (Nat × AiocbState)) (todo : List (Option (Nat × Bool))) :
    relies (nextEntry begun todo) = initOf begun := by
  rcases todo with _ | ⟨_ | ⟨a, _ | _⟩, todo⟩
  · exact relies_lioListio [] begun
  · exact relies_rollbackStates _ begun
  · rfl
  · rfl

theorem relies_collected (a : Nat) (source : Source) (result : Bool) {b : Nat}
    (h : b ∈ relies (collected a source result)) : b = a ∧ result = true := by
  cases result with
  | true => exact ⟨List.mem_singleton.mp h, rfl⟩
  | false => cases h

/-- The state says, or is going to say, that the buffer is initialised. -/
def Marked (cb : Rcaiocb) : Prop :=
  cb.state = .init ∨ cb.aioState = .init ∨ true ∈ cb.complete

section Exec
variable {call a : Nat} {ok : Bool} {cb : Rcaiocb} {pc : Pc}

theorem relies_afterBegin {l : Option Listing} {state : AiocbState} {b : Nat}
    (h : b ∈ relies (afterBegin a state l)) :
    b ∈ l.elim [] (fun l => initOf l.begun) ∨ b = a ∧ state = .init := by
  cases l with
  | none =>
    obtain ⟨rfl, rfl⟩ := Prod.mk.inj (List.mem_singleton.mp (mem_initOf.mp h))
    exact Or.inr ⟨rfl, rfl⟩
  | some l =>
    rw [afterBegin, relies_nextEntry, initOf_append, List.mem_append] at h
    refine h.imp id (fun hb => ?_)
    obtain ⟨rfl, rfl⟩ := Prod.mk.inj (List.mem_singleton.mp (mem_initOf.mp hb))
    exact ⟨rfl, rfl⟩

/-- A call gets to rely on a control block only when it sees it marked. -/
theorem relies_exec (htarget : pc.target = some a) {b : Nat}
    (h : b ∈ relies (pc.exec call ok cb).2) : b ∈ relies pc ∨ b = a ∧ Marked cb := by
  cases pc with
  | tryRead a' l =>
    obtain rfl := Option.some.inj htarget
    simp only [Pc.exec] at h
    split at h
    · exact (relies_afterBegin h).imp id (fun hb => ⟨hb.1, Or.inl hb.2⟩)
    · exact Or.inl h
  | tryWrite a' l =>
    obtain rfl := Option.some.inj htarget
    simp only [Pc.exec] at h
    split at h
    · exact (relies_afterBegin h).imp id (fun hb => ⟨hb.1, Or.inl hb.2⟩)
    · cases l with
      | none => cases h
      | some l => exact Or.inl h
  | submit a' state =>
    cases ok with
    | true => cases h
    | false => exact Or.inl h
  | rollback a' state rest outcome =>
    rw [Pc.exec, relies_rollbackStates, mem_initOf] at h
    exact Or.inl (mem_initOf.mpr (List.mem_cons_of_mem _ h))
  | lio handled a' state rest =>
    rw [Pc.exec, relies_lioListio, List.map_append, List.append_assoc] at h
    exact Or.inl h
  | aioReturn a' =>
    obtain rfl := Option.some.inj htarget
    simp only [Pc.exec] at h
    split at h
    · cases h
    · rename_i result rest hcomplete
      obtain ⟨rfl, rfl⟩ := relies_collected _ _ _ h
      exact Or.inr ⟨rfl, Or.inr (Or.inr (by rw [hcomplete]; exact List.mem_cons_self ..))⟩
  | failed a' source =>
    obtain rfl := Option.some.inj htarget
    obtain ⟨rfl, haio⟩ := Prod.mk.inj (List.mem_singleton.mp (mem_initOf.mp h))
    exact Or.inr ⟨rfl, Or.inr (Or.inl haio.symm)⟩
  | index a' iov =>
    obtain rfl := Option.some.inj htarget
    simp only [Pc.exec] at h
    split at h
    · cases h
    · split at h
      · rename_i hinit
        exact Or.inr ⟨List.mem_singleton.mp h, Or.inl hinit⟩
      · cases h
  | suspend a' rest =>
    simp only [Pc.exec] at h
    split at h
    · cases rest <;> cases h
    · cases h
  | tryReturn a' | cancel a' =>
    simp only [Pc.exec] at h
    split at h <;> cases h
  | commit => exact Or.inl h
  | waited a' result =>
    cases result with
    | true => exact Or.inl h
    | false => cases h
  | restore | store | copying | aioCancel | aioSuspend => cases h
  | lioReturn | refused | waitcomplete | waitedNew | retained | done => cases htarget

/-- A control block gets marked only by a call that relies on it. -/
theorem marked_exec (htarget : pc.target = some a) (h : Marked (pc.exec call ok cb).1) :
    Marked cb ∨ a ∈ relies pc := by
  cases pc with
  | tryRead | tryWrite | tryReturn =>
    simp only [Pc.exec] at h
    split at h
    · rename_i cb' heq
      obtain ⟨_, rfl⟩ := cb.compareExchange_eq_some call heq
      exact h.elim (fun hs => by cases hs) (fun hs => Or.inl (Or.inr hs))
    · exact Or.inl h
  | submit a' state | lio handled a' state rest => cases ok <;> exact Or.inl h
  | rollback a' state rest outcome | restore a' state source =>
    obtain rfl := Option.some.inj htarget
    rcases h with hs | hs
    · have hstate : state = .init := hs
      exact Or.inr (mem_initOf.mpr (by rw [hstate]; exact List.mem_cons_self ..))
    · exact Or.inl (Or.inr hs)
  | commit a' source | store a' source =>
    obtain rfl := Option.some.inj htarget
    exact Or.inr (List.mem_singleton.mpr rfl)
  | aioReturn a' =>
    simp only [Pc.exec] at h
    split at h
    · exact Or.inl h
    · rename_i result rest hcomplete
      refine Or.inl (h.imp id (fun h => h.imp id (fun hc => ?_)))
      rw [hcomplete]
      exact List.mem_cons_of_mem _ hc
  | aioCancel a' =>
    cases ok with
    | true =>
      refine Or.inl (h.imp id (fun h => h.imp id (fun hc => ?_)))
      rcases List.mem_append.mp hc with hc | hc
      · exact hc
      · exact absurd (List.eq_of_mem_replicate hc) (by decide)
    | false => exact Or.inl h
  | index | cancel | suspend =>
    simp only [Pc.exec] at h
    split at h
    · exact Or.inl h
    · first
        | exact Or.inl h
        | (split at h <;> exact Or.inl h)
  | failed | waited | copying | aioSuspend => exact Or.inl h
  | lioReturn | refused | waitcomplete | waitedNew | retained | done => cases htarget

/-- The opcode is never changed. -/
theorem lioRead_exec : (pc.exec call ok cb).1.lioRead = cb.lioRead := by
  cases pc with
  | tryRead | tryWrite | tryReturn =>
    simp only [Pc.exec]
    split
    · rename_i cb' heq
      obtain ⟨_, rfl⟩ := cb.compareExchange_eq_some call heq
      rfl
    · rfl
  | aioReturn | index | cancel | suspend =>
    simp only [Pc.exec]
    split
    · rfl
    · first
        | rfl
        | (split <;> rfl)
  | submit | lio | aioCancel => cases ok <;> rfl
  | _ => rfl

end Exec

/-- An entry that was begun: in `CB_UNINIT` only for a read. -/
def EntryOk (lioRead : Nat → Bool) (x : Nat × AiocbState) : Prop :=
  x.2 = .init ∨ lioRead x.1 = true

/-- The rest of a table has the opcodes of its control blocks. -/
structure ListingOk (lioRead : Nat → Bool) (l : Listing) : Prop where
  begun : ∀ x ∈ l.begun, EntryOk lioRead x
  todo : ∀ a r, some (a, r) ∈ l.todo → r = lioRead a

/-- A buffer in `CB_UNINIT` is only submitted for a read. -/
def Proper (lioRead : Nat → Bool) (f : Option Invocation) : Pc → Prop
  | .tryRead a l =>
    l.elim (isRead f = true) (fun l => ListingOk lioRead l ∧ lioRead a = true)
  | .tryWrite _ l => l.elim True (ListingOk lioRead)
  | .submit _ state => state = .init ∨ isRead f = true
  | .lio _ a state rest => ∀ x ∈ (a, state) :: rest, EntryOk lioRead x
  | .refused _ observed => observed ≠ .init
  | _ => True

section Proper
variable {lioRead : Nat → Bool} {f : Option Invocation}

theorem proper_rollbackStates (outcome : Outcome) (begun : List (Nat × AiocbState)) :
    Proper lioRead f (rollbackStates outcome begun) := by
  cases begun <;> trivial

theorem proper_lioListio (handled : List ((Nat × AiocbState) × Bool))
    {rest : List (Nat × AiocbState)} (h : ∀ x ∈ rest, EntryOk lioRead x) :
    Proper lioRead f (lioListio handled rest) := by
  cases rest with
  | nil => trivial
  | cons => exact h

theorem proper_nextEntry {begun : List (Nat × AiocbState)} {todo : List (Option (Nat × Bool))}
    (h : ListingOk lioRead ⟨todo, begun⟩) : Proper lioRead f (nextEntry begun todo) := by
  rcases todo with _ | ⟨_ | ⟨a, _ | _⟩, todo⟩
  · exact proper_lioListio [] h.begun
  · exact proper_rollbackStates _ begun
  · exact ⟨h.begun, fun b r hb => h.todo b r (List.mem_cons_of_mem _ hb)⟩
  · exact ⟨⟨h.begun, fun b r hb => h.todo b r (List.mem_cons_of_mem _ hb)⟩,
      (h.todo a true (List.mem_cons_self ..)).symm⟩

/-- An entry has been begun. -/
theorem ListingOk.concat {l : Listing} (h : ListingOk lioRead l) {x : Nat × AiocbState}
    (hx : EntryOk lioRead x) : ListingOk lioRead ⟨l.todo, l.begun ++ [x]⟩ where
  begun y hy := by
    rcases List.mem_append.mp hy with hy | hy
    · exact h.begun y hy
    · rw [List.mem_singleton.mp hy]
      exact hx
  todo := h.todo

variable {call a : Nat} {ok : Bool} {cb : Rcaiocb} {pc : Pc}

theorem Proper.exec (h : Proper lioRead f pc) : Proper lioRead f (pc.exec call ok cb).2 := by
  cases pc with
  | tryRead a l =>
    simp only [Pc.exec]
    split
    · cases l with
      | none => exact Or.inr h
      | some l => exact proper_nextEntry (h.1.concat (Or.inr h.2))
    · cases l with
      | none => trivial
      | some l => exact h.1
  | tryWrite a l =>
    simp only [Pc.exec]
    split
    · rename_i cb' heq
      have hinit := (cb.compareExchange_eq_some call heq).1
      cases l with
      | none => exact Or.inl hinit
      | some l => exact proper_nextEntry (ListingOk.concat h (Or.inl hinit))
    · rename_i heq
      cases l with
      | none => trivial
      | some l =>
        -- the compare-exchange would have succeeded in `CB_INIT`
        intro hinit
        simp [Rcaiocb.trybeginwrite, Rcaiocb.compareExchange, hinit] at heq
  | submit a state => cases ok <;> trivial
  | rollback a state rest outcome => exact proper_rollbackStates _ _
  | lio handled a state rest =>
    exact proper_lioListio _ (fun x hx => h x (List.mem_cons_of_mem _ hx))
  | tryReturn | cancel | index =>
    simp only [Pc.exec]
    split
    · trivial
    · first
        | trivial
        | (split <;> trivial)
  | aioReturn a =>
    simp only [Pc.exec]
    split
    · trivial
    · rename_i result rest heq
      cases result <;> trivial
  | suspend a rest =>
    simp only [Pc.exec]
    split
    · cases rest <;> trivial
    · trivial
  | refused => exact h
  | _ => trivial

/-- Only the opcodes of control blocks that the call has pointers to matter. -/
theorem Proper.congr {lioRead' : Nat → Bool} (h : Proper lioRead f pc)
    (heq : ∀ a ∈ pc.mentions, lioRead' a = lioRead a) : Proper lioRead' f pc := by
  have entry : ∀ x : Nat × AiocbState, x.1 ∈ pc.mentions → EntryOk lioRead x →
      EntryOk lioRead' x := by
    intro x hx
    exact Or.imp id (fun hread => (heq x.1 hx).trans hread)
  have listing : ∀ l : Listing, (∀ a ∈ l.mentions, a ∈ pc.mentions) →
      ListingOk lioRead l → ListingOk lioRead' l := by
    intro l hl hok
    refine ⟨fun x hx => entry x (hl _ ?_) (hok.begun x hx), fun a r ha => ?_⟩
    · exact List.mem_append_right _ (List.mem_map_of_mem hx)
    · rw [heq a (hl a ?_)]
      · exact hok.todo a r ha
      · exact List.mem_append_left _ (List.mem_filterMap.mpr ⟨_, ha, rfl⟩)
  cases pc with
  | tryRead a l =>
    cases l with
    | none => exact h
    | some l =>
      exact ⟨listing l (fun b hb => List.mem_cons_of_mem _ hb) h.1,
        (heq a (List.mem_cons_self ..)).trans h.2⟩
  | tryWrite a l =>
    cases l with
    | none => trivial
    | some l => exact listing l (fun b hb => List.mem_cons_of_mem _ hb) h
  | lio handled a state rest =>
    intro x hx
    refine entry x ?_ (h x hx)
    exact List.mem_append_right _ (List.mem_map_of_mem (f := Prod.fst) hx)
  | submit | refused => exact h
  | _ => trivial

end Proper

/-! ## What every step keeps -/

/-- As long as it has not been freed, the buffer is initialised. -/
def Memory.full (m : Memory) (a : Nat) : Prop :=
  (m.aio.cbs a).freed = 0 → Full (m.contents a).bytes

/-- What the state field and the calls say about the buffers is true. -/
structure Kept (m : Memory) : Prop where
  settled : ∀ a < m.aio.count,
    Marked (m.aio.cbs a) ∨ Request.other ∈ (m.contents a).running → m.full a
  relied : ∀ c ∈ m.aio.calls, ∀ a ∈ relies c.pc, m.full a
  proper : ∀ (i : Nat) c, m.aio.calls[i]? = some c →
    Proper (fun a => (m.aio.cbs a).lioRead) (m.invocation i) c.pc
  invocations : m.invocations.length = m.aio.calls.length
  left : ∀ bytes ∈ m.left, Full bytes

/-- Buffers that were initialised still are, and opcodes do not change. -/
structure Grows (m m' : Memory) : Prop where
  lioRead : ∀ a < m.aio.count, (m'.aio.cbs a).lioRead = (m.aio.cbs a).lioRead
  full : ∀ a < m.aio.count, m.full a → m'.full a

/-- What a call relies on, it has a pointer to. -/
theorem mentions_of_relies {pc : Pc} {a : Nat} (h : a ∈ relies pc) : a ∈ pc.mentions := by
  have begun : ∀ l : List (Nat × AiocbState), a ∈ initOf l → a ∈ l.map Prod.fst :=
    fun l hl => List.mem_map_of_mem (f := Prod.fst) (mem_initOf.mp hl)
  cases pc with
  | tryRead a' l | tryWrite a' l =>
    cases l with
    | none => cases h
    | some l => exact List.mem_cons_of_mem _ (List.mem_append_right _ (begun _ h))
  | submit | restore | rollback | refused => exact begun _ h
  | lio handled a' state rest | lioReturn handled =>
    have h' := begun _ h
    simpa [Pc.mentions] using h'
  | commit | store | copying => exact h
  | waited a' result | waitedNew a' result =>
    cases result with
    | true => exact h
    | false => cases h
  | _ => cases h

section Steps
variable {m m' : Memory} (h : Kept m) (hb : Bounded m.aio) (g : Grows m m')
include h hb g

theorem Kept.relied_grows {c : Call} (hc : c ∈ m.aio.calls) {a : Nat} (ha : a ∈ relies c.pc) :
    m'.full a :=
  g.full a (hb.calls c hc a (mentions_of_relies ha)) (h.relied c hc a ha)

theorem Kept.proper_grows {i : Nat} {c : Call} (hi : m.aio.calls[i]? = some c) :
    Proper (fun a => (m'.aio.cbs a).lioRead) (m.invocation i) c.pc :=
  (h.proper i c hi).congr
    (fun a ha => g.lioRead a (hb.calls c (List.mem_of_getElem? hi) a ha))

/-- A step that takes no call further. -/
theorem Kept.sameCalls (hcalls : m'.aio.calls = m.aio.calls)
    (hinvocations : m'.invocations = m.invocations)
    (hsettled : ∀ a < m'.aio.count,
      Marked (m'.aio.cbs a) ∨ Request.other ∈ (m'.contents a).running → m'.full a)
    (hleft : ∀ bytes ∈ m'.left, Full bytes) : Kept m' where
  settled := hsettled
  relied c hc := by
    rw [hcalls] at hc
    exact fun a => h.relied_grows hb g hc
  proper i c hi := by
    rw [hcalls] at hi
    rw [Memory.invocation, hinvocations]
    exact h.proper_grows hb g hi
  invocations := by rw [hcalls, hinvocations, h.invocations]
  left := hleft

/-- A step of one call. -/
theorem Kept.setCall {i : Nat} {c : Call} (hcalls : m'.aio.calls = m.aio.calls.set i c)
    (hinvocations : m'.invocations = m.invocations)
    (hsettled : ∀ a < m'.aio.count,
      Marked (m'.aio.cbs a) ∨ Request.other ∈ (m'.contents a).running → m'.full a)
    (hleft : ∀ bytes ∈ m'.left, Full bytes)
    (hrelied : ∀ a ∈ relies c.pc, m'.full a)
    (hproper : Proper (fun a => (m'.aio.cbs a).lioRead) (m.invocation i) c.pc) : Kept m' where
  settled := hsettled
  relied d hd := by
    rw [hcalls] at hd
    rcases List.mem_or_eq_of_mem_set hd with hd | rfl
    · exact fun a => h.relied_grows hb g hd
    · exact hrelied
  proper j d hj := by
    rw [hcalls] at hj
    rw [Memory.invocation, hinvocations]
    rcases getElem?_set_cases hj with ⟨rfl, rfl⟩ | ⟨_, hj⟩
    · exact hproper
    · exact h.proper_grows hb g hj
  invocations := by rw [hcalls, hinvocations, List.length_set, h.invocations]
  left := hleft

/-- A new call. -/
theorem Kept.addCall {f : Option Invocation} {c : Call}
    (hcalls : m'.aio.calls = m.aio.calls ++ [c])
    (hinvocations : m'.invocations = m.invocations ++ [f])
    (hsettled : ∀ a < m'.aio.count,
      Marked (m'.aio.cbs a) ∨ Request.other ∈ (m'.contents a).running → m'.full a)
    (hleft : ∀ bytes ∈ m'.left, Full bytes)
    (hrelied : ∀ a ∈ relies c.pc, m'.full a)
    (hproper : Proper (fun a => (m'.aio.cbs a).lioRead) f c.pc) : Kept m' where
  settled := hsettled
  relied d hd := by
    rw [hcalls] at hd
    rcases List.mem_append.mp hd with hd | hd
    · exact fun a => h.relied_grows hb g hd
    · rw [List.mem_singleton.mp hd]
      exact hrelied
  proper j d hj := by
    rw [hcalls] at hj
    rw [Memory.invocation, hinvocations]
    by_cases hlt : j < m.aio.calls.length
    · rw [List.getElem?_append_left hlt] at hj
      rw [List.getElem?_append_left (by rw [h.invocations]; exact hlt)]
      exact h.proper_grows hb g hj
    · have heq : j = m.aio.calls.length := by
        have hbound := (List.getElem?_eq_some_iff.mp hj).1
        rw [List.length_append, List.length_singleton] at hbound
        omega
      subst heq
      rw [List.getElem?_concat_length] at hj
      rw [← h.invocations, List.getElem?_concat_length, ← Option.some.inj hj]
      exact hproper
  invocations := by
    rw [hcalls, hinvocations, List.length_append, List.length_append, h.invocations]
    rfl
  left := hleft

end Steps

/-! ## The actions -/

/-- What the kernel and the scripts must do: a read that completes fills a buffer that
is not initialised yet; no call copies, or gives to the kernel, a buffer that has been
freed; and an opcode of `listio`, and the flags of `read` and `write`, are vectored ones
only when the buffer is a vector. -/
def Fills (m : Memory) : Event → Prop
  | .complete a k (some data) => (m.contents a).running[k]? = some .read →
      Full (m.contents a).bytes ∨ (m.contents a).bytes.length ≤ data.length
  | .act (.step i _) => ∀ c ∈ m.aio.calls[i]?, match c.pc with
      | .copying a => (m.aio.cbs a).freed = 0
      | .submit a _ => (m.aio.cbs a).freed = 0 ∧
          (m.contents a).Matched (takesVector (m.aio.cbs a) (m.invocation i)) (m.aio.cbs a)
      | .lio _ a _ _ => (m.aio.cbs a).freed = 0 ∧
          (m.contents a).Matched (m.contents a).vectored (m.aio.cbs a)
      | _ => True
  | _ => True

theorem full_stored {x : Contents} {data : List UInt8}
    (h : Full x.bytes ∨ x.bytes.length ≤ data.length) : Full (x.stored data) := by
  intro b hb
  rcases List.mem_append.mp hb with hb | hb
  · obtain ⟨byte, _, rfl⟩ := List.mem_map.mp hb
    exact Option.some_ne_none byte
  · rcases h with hfull | hlen
    · exact hfull b (List.mem_of_mem_drop hb)
    · rw [List.drop_of_length_le hlen] at hb
      cases hb

theorem full_pieceBytes {p : Piece} (h : p.isInit = true) : Full (pieceBytes p) := by
  cases p with
  | string bytes =>
    intro b hb
    obtain ⟨byte, _, rfl⟩ := List.mem_map.mp hb
    exact Option.some_ne_none byte
  | length n => cases h

/-- What is made in `CB_INIT` has initial contents. -/
theorem full_bufferBytes (buffer : Buffer)
    (h : (buffer.check.getD (false, .uninit)).2 = .init) : Full (bufferBytes buffer).1 := by
  cases buffer with
  | nil => exact fun b hb => by cases hb
  | piece p =>
    apply full_pieceBytes
    cases p with
    | string bytes => rfl
    | length n => cases h
  | table pieces =>
    simp only [Buffer.check] at h
    split at h
    · cases h
    · rename_i hsome
      split at h
      · rename_i hall
        have hinit : ∀ p ∈ pieces, p.isInit = true := List.countP_eq_length.mp hall
        intro b hb
        have hcheck : (Buffer.table pieces).check = some (true, .init) := by
          rw [Buffer.check, if_neg hsome, if_pos hall]
        simp only [bufferBytes, hcheck] at hb
        obtain ⟨p, hp, hbp⟩ := List.mem_flatMap.mp hb
        exact full_pieceBytes (hinit p hp) b hbp
      · cases h

/-- What one step of a call does to the bytes. -/
structure Steps (m : Memory) (a : Nat) (pc : Pc) (m' : Memory) : Prop where
  contents : ∃ x, m'.contents = Function.update m.contents a x ∧
    x.bytes = (m.contents a).bytes ∧
    (Request.other ∈ x.running → Request.other ∈ (m.contents a).running ∨ a ∈ relies pc)
  left : ∀ bytes ∈ m'.left, bytes ∈ m.left ∨ Full bytes
  invocations : m'.invocations = m.invocations

theorem Steps.same (m : Memory) (a : Nat) (pc : Pc) : Steps m a pc m where
  contents := ⟨m.contents a, (Function.update_eq_self a m.contents).symm, rfl, Or.inl⟩
  left _ hbytes := Or.inl hbytes
  invocations := rfl

theorem Steps.queue (m : Memory) {a : Nat} {pc : Pc} {r : Request}
    (hr : r = .other → a ∈ relies pc) :
    Steps m a pc (m.setContents a ((m.contents a).queue r)) where
  contents := by
    refine ⟨(m.contents a).queue r, rfl, rfl, fun h => ?_⟩
    rcases List.mem_append.mp h with h | h
    · exact Or.inl h
    · exact Or.inr (hr (List.mem_singleton.mp h).symm)
  left _ hbytes := Or.inl hbytes
  invocations := rfl

theorem Steps.leave {m m' : Memory} {a : Nat} {pc : Pc} (h : Steps m a pc m')
    {bytes : List (Option UInt8)} (hfull : Full bytes) : Steps m a pc (m'.leave bytes) where
  contents := h.contents
  left bytes' hmem := by
    rcases List.mem_append.mp hmem with hmem | hmem
    · exact h.left bytes' hmem
    · rw [List.mem_singleton.mp hmem]
      exact Or.inr hfull
  invocations := h.invocations

/-- Of a buffer taken as what it is, a request that is no read belongs to a call that is
none. -/
theorem isRead_of_request {x : Contents} {vectored : Bool} {cb : Rcaiocb}
    (h : x.Matched vectored cb) {read : Bool} (hother : x.request read vectored cb = .other) :
    read = false := by
  rw [x.request_of_matched h] at hother
  cases read with
  | false => rfl
  | true => cases hother

theorem isRead_of_isWrite {f : Option Invocation} (h : isWrite f = true) : isRead f = false := by
  cases f with
  | none => rfl
  | some f =>
    cases f with
    | read u flags => cases h
    | _ => rfl

theorem Kept.stepBytes {m : Memory} (h : Kept m) {i a : Nat} {c : Call} (ok : Bool)
    (hi : m.aio.calls[i]? = some c) (htarget : c.pc.target = some a)
    (hok : Fills m (.act (.step i ok))) : Steps m a c.pc (m.stepBytes i ok c.pc) := by
  have hfills := hok c hi
  have hproper := h.proper i c hi
  have hrelied := h.relied c (List.mem_of_getElem? hi)
  cases hpc : c.pc with
  | submit a' state =>
    rw [hpc] at htarget hfills hproper hrelied
    obtain rfl := Option.some.inj htarget
    obtain ⟨hfreed, hmatched⟩ := hfills
    -- a request other than a read belongs to a control block that was `CB_INIT`
    have hinit : isRead (m.invocation i) = false → a' ∈ relies (.submit a' state) := by
      intro hother
      rcases hproper with rfl | hread
      · exact mem_initOf.mpr (List.mem_cons_self ..)
      · exact absurd (hother.symm.trans hread) (by decide)
    cases ok with
    | false => exact Steps.same m a' _
    | true =>
      have hqueue : Steps m a' (.submit a' state) (m.setContents a' ((m.contents a').queue
          ((m.contents a').request (isRead (m.invocation i))
            (takesVector (m.aio.cbs a') (m.invocation i)) (m.aio.cbs a')))) :=
        Steps.queue m (fun hother => hinit (isRead_of_request hmatched hother))
      simp only [Memory.stepBytes, if_true]
      split
      · rename_i hwrite
        refine hqueue.leave ?_
        rw [Contents.submitted, if_pos hmatched]
        exact hrelied a' (hinit (isRead_of_isWrite hwrite)) hfreed
      · exact hqueue
  | lio handled a' state rest =>
    rw [hpc] at htarget hfills hproper hrelied
    obtain rfl := Option.some.inj htarget
    obtain ⟨hfreed, hmatched⟩ := hfills
    have hinit : (m.aio.cbs a').lioRead = false → a' ∈ relies (.lio handled a' state rest) := by
      intro hwrite
      rcases hproper (a', state) (List.mem_cons_self ..) with hinit | hread
      · refine mem_initOf.mpr (List.mem_append_right _ ?_)
        rw [← show state = .init from hinit]
        exact List.mem_cons_self ..
      · exact absurd (hwrite.symm.trans hread) (by decide)
    cases ok with
    | false => exact Steps.same m a' _
    | true =>
      have hqueue : Steps m a' (.lio handled a' state rest) (m.setContents a'
          ((m.contents a').queue ((m.contents a').request (m.aio.cbs a').lioRead
            (m.contents a').vectored (m.aio.cbs a')))) :=
        Steps.queue m (fun hother => hinit (isRead_of_request hmatched hother))
      simp only [Memory.stepBytes, if_true]
      split
      · exact hqueue
      · rename_i hwrite
        refine hqueue.leave ?_
        rw [Contents.submitted, if_pos hmatched]
        exact hrelied a' (hinit (Bool.eq_false_iff.mpr hwrite)) hfreed
  | copying a' =>
    rw [hpc] at htarget hfills hrelied
    obtain rfl := Option.some.inj htarget
    exact (Steps.same m a' _).leave (hrelied a' (List.mem_cons_self ..) hfills)
  | aioCancel a' =>
    rw [hpc] at htarget
    obtain rfl := Option.some.inj htarget
    cases ok with
    | false => exact Steps.same m a' _
    | true =>
      exact ⟨⟨(m.contents a').cancel, rfl, rfl, fun hother => by cases hother⟩,
        fun _ hbytes => Or.inl hbytes, rfl⟩
  | _ => exact Steps.same m a _

/-- One control block, and its contents, have changed. -/
structure Changed (m m' : Memory) (a : Nat) (cb : Rcaiocb) (x : Contents) : Prop where
  count : m'.aio.count = m.aio.count
  cbs : m'.aio.cbs = Function.update m.aio.cbs a cb
  contents : m'.contents = Function.update m.contents a x

section Changed
variable {m m' : Memory} {a : Nat} {cb : Rcaiocb} {x : Contents} (c : Changed m m' a cb x)
include c

theorem Changed.full_iff : m'.full a ↔ (cb.freed = 0 → Full x.bytes) := by
  rw [Memory.full, c.cbs, c.contents, Function.update_self, Function.update_self]

theorem Changed.full_iff_of_ne {b : Nat} (hb : b ≠ a) : m'.full b ↔ m.full b := by
  rw [Memory.full, c.cbs, c.contents, Function.update_of_ne hb, Function.update_of_ne hb,
    Memory.full]

theorem Changed.grows (hread : cb.lioRead = (m.aio.cbs a).lioRead)
    (hfull : m.full a → m'.full a) : Grows m m' where
  lioRead b _ := by
    by_cases hb : b = a
    · rw [hb, c.cbs, Function.update_self, hread]
    · rw [c.cbs, Function.update_of_ne hb]
  full b _ := by
    by_cases hb : b = a
    · rw [hb]
      exact hfull
    · exact (c.full_iff_of_ne hb).mpr

theorem Changed.settled (h : Kept m)
    (hmarked : a < m.aio.count → Marked cb ∨ Request.other ∈ x.running → m'.full a) :
    ∀ b < m'.aio.count,
      Marked (m'.aio.cbs b) ∨ Request.other ∈ (m'.contents b).running → m'.full b := by
  intro b hb
  rw [c.count] at hb
  by_cases hba : b = a
  · subst hba
    rw [c.cbs, c.contents, Function.update_self, Function.update_self]
    exact hmarked hb
  · rw [c.cbs, c.contents, Function.update_of_ne hba, Function.update_of_ne hba,
      c.full_iff_of_ne hba]
    exact h.settled b hb

end Changed

/-- Nothing has changed. -/
theorem changed_self {m m' : Memory} (hcount : m'.aio.count = m.aio.count)
    (hcbs : m'.aio.cbs = m.aio.cbs) (hcontents : m'.contents = m.contents) :
    Changed m m' 0 (m.aio.cbs 0) (m.contents 0) where
  count := hcount
  cbs := by rw [hcbs, Function.update_eq_self]
  contents := by rw [hcontents, Function.update_eq_self]

theorem marked_freeExec {pc : FreePc} {ok : Bool} {cb : Rcaiocb}
    (h : Marked (pc.exec ok cb).1) : Marked cb := by
  cases pc with
  | aioCancel =>
    cases ok with
    | true =>
      refine h.imp id (Or.imp id fun hmem => ?_)
      rcases List.mem_append.mp hmem with hmem | hmem
      · exact hmem
      · exact absurd (List.eq_of_mem_replicate hmem) (by decide)
    | false => exact h
  | aioReturn => exact h.imp id (Or.imp id List.mem_of_mem_tail)
  | idle | load | aioSuspend | free => exact h

section Actions
variable {m : Memory} (h : Kept m) (hb : Bounded m.aio)
include h hb

/-- A step that changes neither control blocks nor buffers, of one call. -/
theorem Kept.advance {m' : Memory} {i : Nat} {c : Call} (hcount : m'.aio.count = m.aio.count)
    (hcbs : m'.aio.cbs = m.aio.cbs) (hcontents : m'.contents = m.contents)
    (hleft : m'.left = m.left) (hcalls : m'.aio.calls = m.aio.calls.set i c)
    (hinvocations : m'.invocations = m.invocations) (hrelied : ∀ a ∈ relies c.pc, m.full a)
    (hproper : Proper (fun a => (m.aio.cbs a).lioRead) (m.invocation i) c.pc) : Kept m' := by
  have hchanged := changed_self hcount hcbs hcontents
  have hfull : ∀ a, m.full a → m'.full a := fun a ha => by
    rw [Memory.full, hcbs, hcontents]
    exact ha
  refine h.setCall hb (hchanged.grows rfl (hfull 0)) hcalls hinvocations
    (hchanged.settled h ?_) ?_ (fun a ha => hfull a (hrelied a ha)) ?_
  · exact fun ha hmarked => hfull 0 (h.settled 0 ha hmarked)
  · rw [hleft]
    exact h.left
  · rw [hcbs]
    exact hproper

theorem Kept.step (i : Nat) (ok : Bool) (hok : Fills m (.act (.step i ok))) {c : Call}
    (hi : m.aio.calls[i]? = some c) (htarget : c.pc.target.isSome = true) :
    Kept (next m (.act (.step i ok))) := by
  obtain ⟨a, ha⟩ := Option.isSome_iff_exists.mp htarget
  have hsteps := h.stepBytes ok hi ha hok
  obtain ⟨x, hcontents, hbytes, hother⟩ := hsteps.contents
  have haio : (next m (.act (.step i ok))).aio = m.aio.step i ok c := by
    simp [next, Event.base, Aio.next, hi]
  have heffect : m.effect (.act (.step i ok)) = m.stepBytes i ok c.pc := by
    simp [Memory.effect, hi]
  have hchanged : Changed m (next m (.act (.step i ok))) a
      (c.pc.exec i ok (m.aio.cbs a)).1 x := by
    refine ⟨?_, ?_, ?_⟩
    · rw [haio, State.step, ha]
      rfl
    · rw [haio, State.step, ha]
      rfl
    · show (m.effect (.act (.step i ok))).contents = _
      rw [heffect, hcontents]
  have hfreed : (c.pc.exec i ok (m.aio.cbs a)).1.freed = (m.aio.cbs a).freed :=
    Pc.exec_account.1
  -- an action of a call neither fills nor frees: the bytes stay as they are
  have hfull : (next m (.act (.step i ok))).full a ↔ m.full a := by
    rw [hchanged.full_iff, hfreed, hbytes, Memory.full]
  have hgrows := hchanged.grows lioRead_exec hfull.mpr
  have hbound : a < m.aio.count :=
    hb.calls c (List.mem_of_getElem? hi) a (Pc.mem_mentions_of_target ha)
  have hrelies := h.relied c (List.mem_of_getElem? hi)
  refine h.setCall (i := i) (c := { c with pc := (c.pc.exec i ok (m.aio.cbs a)).2 }) hb hgrows
    ?_ ?_ (hchanged.settled h ?_) ?_ ?_ ?_
  · rw [haio, State.step, ha]
    rfl
  · show (m.effect (.act (.step i ok))).invocations = _
    rw [heffect, hsteps.invocations]
  · intro _ hmarked
    rw [hfull]
    rcases hmarked with hmarked | hrunning
    · rcases marked_exec ha hmarked with hmarked | hrel
      · exact h.settled a hbound (Or.inl hmarked)
      · exact hrelies a hrel
    · rcases hother hrunning with hrunning | hrel
      · exact h.settled a hbound (Or.inr hrunning)
      · exact hrelies a hrel
  · intro bytes hmem
    have hmem' : bytes ∈ (m.effect (.act (.step i ok))).left := hmem
    rw [heffect] at hmem'
    exact (hsteps.left bytes hmem').elim (h.left bytes) id
  · intro b hrel
    rcases relies_exec ha hrel with hrel | ⟨rfl, hmarked⟩
    · exact h.relied_grows hb hgrows (List.mem_of_getElem? hi) hrel
    · exact hfull.mpr (h.settled b hbound (Or.inl hmarked))
  · exact Proper.exec (h.proper_grows hb hgrows hi)

theorem Kept.call (f : Invocation) : Kept (next m (.act (.call f))) := by
  have hchanged : Changed m (next m (.act (.call f))) 0 (m.aio.cbs 0) (m.contents 0) :=
    changed_self rfl rfl rfl
  refine h.addCall (f := some f) hb (hchanged.grows rfl id) rfl rfl
    (hchanged.settled h (h.settled 0)) h.left ?_ ?_
  · intro a ha
    cases f with
    | suspend us => cases us <;> cases ha
    | listio us =>
      have hnone : relies (m.aio.start (.listio us)) = [] := relies_nextEntry [] _
      rw [show relies (Call.pc ⟨_, m.aio.start (.listio us)⟩) = [] from hnone] at ha
      cases ha
    | _ => cases ha
  · cases f with
    | suspend us => cases us <;> trivial
    | listio us =>
      refine proper_nextEntry ⟨fun x hx => (by cases hx), fun a r ha => ?_⟩
      obtain ⟨entry, _, heq⟩ := List.mem_map.mp ha
      obtain ⟨u, _, hpair⟩ := Option.map_eq_some_iff.mp heq
      obtain ⟨rfl, rfl⟩ := Prod.mk.inj hpair
      rfl
    | read u flags => rfl
    | _ => trivial

theorem Kept.retain {u : Nat} {x : Userdata} (hu : m.aio.userdata[u]? = some x) :
    Kept (next m (.act (.retain u))) := by
  have haio : (next m (.act (.retain u))).aio = m.aio.retain x := by
    simp [next, Event.base, Aio.next, hu]
  have hchanged : Changed m (next m (.act (.retain u))) x.cb
      { m.aio.cbs x.cb with refs := (m.aio.cbs x.cb).refs.retain } (m.contents x.cb) :=
    ⟨by rw [haio]; rfl, by rw [haio]; rfl, (Function.update_eq_self _ _).symm⟩
  refine h.addCall (f := none) (c := ⟨[], .retained x.cb⟩) hb (hchanged.grows rfl ?_) ?_ rfl
    (hchanged.settled h ?_) h.left ?_ trivial
  · exact fun hfull => hchanged.full_iff.mpr hfull
  · rw [haio]
    rfl
  · exact fun ha hmarked => hchanged.full_iff.mpr (h.settled x.cb ha hmarked)
  · exact fun a ha => by cases ha

/-- A userdata is made, or the call is over. -/
theorem Kept.make (i : Nat) {c : Call} (hi : m.aio.calls[i]? = some c) :
    Kept (next m (.act (.make i))) := by
  have haio : (next m (.act (.make i))).aio = m.aio.make i c := by
    simp [next, Event.base, Aio.next, hi]
  have hrelied := h.relied c (List.mem_of_getElem? hi)
  cases hpc : c.pc with
  | retained a =>
    have haio' : (next m (.act (.make i))).aio =
        (m.aio.new a).setCall i { c with pc := .done .success } := by
      rw [haio, State.make, hpc]
    exact h.advance hb (i := i) (c := { c with pc := .done .success }) (by rw [haio']; rfl)
      (by rw [haio']; rfl) rfl rfl (by rw [haio']; rfl) rfl (fun b hb => by cases hb) trivial
  | waitedNew a result =>
    have haio' : (next m (.act (.make i))).aio = (m.aio.new a).setCall i
        ⟨[m.aio.userdata.length], collected a .aioWaitcomplete result⟩ := by
      rw [haio, State.make, hpc]
    refine h.advance hb (i := i)
      (c := ⟨[m.aio.userdata.length], collected a .aioWaitcomplete result⟩) (by rw [haio']; rfl)
      (by rw [haio']; rfl) rfl rfl (by rw [haio']; rfl) rfl (fun b hb => ?_) ?_
    · obtain ⟨rfl, rfl⟩ := relies_collected _ _ _ hb
      exact hrelied b (by rw [hpc]; exact List.mem_cons_self ..)
    · cases result <;> trivial
  | _ =>
    have haio' : (next m (.act (.make i))).aio = m.aio := by
      rw [haio, State.make, hpc]
    have hsame : next m (.act (.make i)) = m := by
      rw [next, show m.effect (.act (.make i)) = m from rfl]
      exact congrArg (fun aio => { m with aio := aio }) haio'
    rw [hsame]
    exact h

theorem Kept.lioReturn (i : Nat) (ok : Bool) {c : Call} (hi : m.aio.calls[i]? = some c)
    (hpc : c.pc.isLioReturn = true) : Kept (next m (.act (.lioReturn i ok))) := by
  have haio : (next m (.act (.lioReturn i ok))).aio = m.aio.lioReturn i ok c := by
    simp [next, Event.base, Aio.next, hi]
  have hrelied := h.relied c (List.mem_of_getElem? hi)
  cases hpc' : c.pc with
  | lioReturn handled =>
    have haio' : (next m (.act (.lioReturn i ok))).aio = m.aio.setCall i { c with
        pc := if ok then .done .success else rollbackStates .fail (handled.map Prod.fst) } := by
      rw [haio, State.lioReturn, hpc']
    refine h.advance hb (by rw [haio']; rfl) (by rw [haio']; rfl) rfl rfl (by rw [haio']; rfl)
      rfl (fun b hrel => ?_) ?_
    · cases ok with
      | true => cases hrel
      | false =>
        rw [if_neg (by simp), relies_rollbackStates] at hrel
        exact hrelied b (by rw [hpc']; exact hrel)
    · cases ok with
      | true => trivial
      | false => exact proper_rollbackStates _ _
  | _ => rw [hpc'] at hpc; cases hpc

/-- The stray entry gets a state in which its compare-exchange was refused, so not
`CB_INIT`. -/
theorem Kept.refuse (i : Nat) (stray : Option Nat) {c : Call} (hi : m.aio.calls[i]? = some c)
    (hpc : c.pc.isRefused = true) : Kept (next m (.act (.refuse i stray))) := by
  have haio : (next m (.act (.refuse i stray))).aio = m.aio.refuse i stray c := by
    simp [next, Event.base, Aio.next, hi]
  have hrelied := h.relied c (List.mem_of_getElem? hi)
  have hproper := h.proper i c hi
  cases hpc' : c.pc with
  | refused begun observed =>
    have haio' : (next m (.act (.refuse i stray))).aio = m.aio.setCall i { c with
        pc := rollbackStates (.argerror 2 "buffer not initialized")
          (begun ++ stray.toList.map (fun a => (a, observed))) } := by
      rw [haio, State.refuse, hpc']
    refine h.advance hb (by rw [haio']; rfl) (by rw [haio']; rfl) rfl rfl (by rw [haio']; rfl)
      rfl (fun b hrel => ?_) (proper_rollbackStates _ _)
    rw [relies_rollbackStates, initOf_append, List.mem_append] at hrel
    rcases hrel with hrel | hrel
    · exact hrelied b (by rw [hpc']; exact hrel)
    · obtain ⟨a, _, heq⟩ := List.mem_map.mp (mem_initOf.mp hrel)
      rw [hpc'] at hproper
      exact absurd (Prod.mk.inj heq).2 hproper
  | _ => rw [hpc'] at hpc; cases hpc

theorem Kept.waitcomplete (i : Nat) (found : Option Nat) {c : Call}
    (hi : m.aio.calls[i]? = some c) (hfound : ∀ a ∈ found, a < m.aio.count) :
    Kept (next m (.act (.waitcomplete i found))) := by
  have haio : (next m (.act (.waitcomplete i found))).aio = m.aio.waitcomplete i c found := by
    simp [next, Event.base, Aio.next, hi]
  cases found with
  | none =>
    exact h.advance hb (i := i) (c := { c with pc := .done .fail }) (by rw [haio]; rfl)
      (by rw [haio]; rfl) rfl rfl (by rw [haio]; rfl) rfl (fun b hrel => by cases hrel) trivial
  | some a =>
    have hbound := hfound a rfl
    cases hcomplete : (m.aio.cbs a).complete with
    | nil =>
      have haio' : (next m (.act (.waitcomplete i (some a)))).aio = m.aio := by
        simp only [haio, State.waitcomplete, hcomplete]
      have hsame : next m (.act (.waitcomplete i (some a))) = m := by
        rw [next, show m.effect (.act (.waitcomplete i (some a))) = m from rfl]
        exact congrArg (fun aio => { m with aio := aio }) haio'
      rw [hsame]
      exact h
    | cons result rest =>
      have haio' : (next m (.act (.waitcomplete i (some a)))).aio =
          (m.aio.setCb a { m.aio.cbs a with complete := rest }).setCall i
            { c with pc := .waited a result } := by
        simp only [haio, State.waitcomplete, hcomplete]
      have hchanged : Changed m (next m (.act (.waitcomplete i (some a)))) a
          { m.aio.cbs a with complete := rest } (m.contents a) :=
        ⟨by rw [haio']; rfl, by rw [haio']; rfl, (Function.update_eq_self _ _).symm⟩
      have hfull : (next m (.act (.waitcomplete i (some a)))).full a ↔ m.full a :=
        hchanged.full_iff
      refine h.setCall hb (hchanged.grows rfl hfull.mpr) (i := i)
        (c := { c with pc := .waited a result }) (by rw [haio']; rfl) rfl
        (hchanged.settled h (fun _ hmarked => hfull.mpr (h.settled a hbound ?_))) h.left
        (fun b hrel => ?_) trivial
      · refine hmarked.imp (Or.imp id (Or.imp id fun hmem => ?_)) id
        rw [hcomplete]
        exact List.mem_cons_of_mem _ hmem
      · cases result with
        | true =>
          rw [List.mem_singleton.mp hrel]
          refine hfull.mpr (h.settled a hbound (Or.inl (Or.inr (Or.inr ?_))))
          rw [hcomplete]
          exact List.mem_cons_self ..
        | false => cases hrel

/-- **A request completes.** -/
theorem Kept.complete (a k : Nat) (result : Option (List UInt8)) (ha : a < m.aio.count)
    (hk : k < (m.contents a).running.length) (hok : Fills m (.complete a k result)) :
    Kept (next m (.complete a k result)) := by
  have hchanged : Changed m (next m (.complete a k result)) a
      { m.aio.cbs a with
        running := (m.aio.cbs a).running - 1
        complete := (m.aio.cbs a).complete ++ [result.isSome] }
      ((m.contents a).complete k result) := ⟨rfl, rfl, rfl⟩
  have hgrow : m.full a → (next m (.complete a k result)).full a := by
    intro hfull
    rw [hchanged.full_iff]
    intro hfreed
    simp only [Contents.complete]
    split
    · exact full_stored (Or.inl (hfull hfreed))
    · exact hfull hfreed
  -- a request that succeeds leaves the whole buffer initialised
  have hdone : ∀ data, result = some data → (next m (.complete a k result)).full a := by
    rintro data rfl
    cases hr : (m.contents a).running[k] with
    | read =>
      have hread : (m.contents a).running[k]? = some .read := by
        rw [List.getElem?_eq_getElem hk, hr]
      rw [hchanged.full_iff]
      intro _
      simp only [Contents.complete, hread]
      exact full_stored (hok hread)
    | other =>
      refine hgrow (h.settled a ha (Or.inr ?_))
      rw [← hr]
      exact List.getElem_mem hk
  refine h.sameCalls hb (hchanged.grows rfl hgrow) rfl rfl (hchanged.settled h ?_) h.left
  rintro _ (hmarked | hrunning)
  · rcases hmarked with hstate | hstate | hmem
    · exact hgrow (h.settled a ha (Or.inl (Or.inl hstate)))
    · exact hgrow (h.settled a ha (Or.inl (Or.inr (Or.inl hstate))))
    · rcases List.mem_append.mp hmem with hmem | hmem
      · exact hgrow (h.settled a ha (Or.inl (Or.inr (Or.inr hmem))))
      · obtain ⟨data, hdata⟩ := Option.isSome_iff_exists.mp (List.mem_singleton.mp hmem).symm
        exact hdone data hdata
  · exact hgrow (h.settled a ha (Or.inr (List.mem_of_mem_eraseIdx hrunning)))

/-- `__close` and `__gc` count down. -/
theorem Kept.release (e : Aio.Event) {u : Nat} {x : Userdata} (gc : Bool)
    (haio : (next m (.act e)).aio = m.aio.release u gc x)
    (heffect : m.effect (.act e) = m) : Kept (next m (.act e)) := by
  have hcontents : (next m (.act e)).contents = m.contents := by
    show (m.effect (.act e)).contents = _
    rw [heffect]
  have hinvocations : (next m (.act e)).invocations = m.invocations := by
    show (m.effect (.act e)).invocations = _
    rw [heffect]
  have hleft : ∀ bytes ∈ (next m (.act e)).left, Full bytes := by
    show ∀ bytes ∈ (m.effect (.act e)).left, Full bytes
    rw [heffect]
    exact h.left
  by_cases hcookie : x.cookie = true
  · have hchanged : Changed m (next m (.act e)) x.cb
        { m.aio.cbs x.cb with refs := (m.aio.cbs x.cb).refs.release.2 } (m.contents x.cb) := by
      refine ⟨?_, ?_, ?_⟩
      · rw [haio, State.release, if_pos hcookie]
        rfl
      · rw [haio, State.release, if_pos hcookie]
        rfl
      · rw [hcontents, Function.update_eq_self]
    have hfull : (next m (.act e)).full x.cb ↔ m.full x.cb := hchanged.full_iff
    refine h.sameCalls hb (hchanged.grows rfl hfull.mpr) ?_ hinvocations
      (hchanged.settled h (fun ha hmarked => hfull.mpr (h.settled x.cb ha hmarked))) hleft
    rw [haio, State.release, if_pos hcookie]
    rfl
  · have haio' : (next m (.act e)).aio = m.aio.setUserdata u { x with collected := gc } := by
      rw [haio, State.release, if_neg hcookie]
    have hchanged : Changed m (next m (.act e)) 0 (m.aio.cbs 0) (m.contents 0) :=
      changed_self (by rw [haio']; rfl) (by rw [haio']; rfl) hcontents
    have hfull : (next m (.act e)).full 0 ↔ m.full 0 := hchanged.full_iff
    refine h.sameCalls hb (hchanged.grows rfl hfull.mpr) ?_ hinvocations
      (hchanged.settled h (fun ha hmarked => hfull.mpr (h.settled 0 ha hmarked))) hleft
    rw [haio']
    rfl

/-- `l_aiocb_free` goes on; nothing is said of a buffer that has been freed. -/
theorem Kept.freeStep (u : Nat) (ok : Bool) {x : Userdata} (hu : m.aio.userdata[u]? = some x) :
    Kept (next m (.act (.freeStep u ok))) := by
  have haio : (next m (.act (.freeStep u ok))).aio = m.aio.freeStep u ok x := by
    simp [next, Event.base, Aio.next, hu]
  have heffect : m.effect (.act (.freeStep u ok)) = m.freeBytes x.cb ok x.freePc := by
    simp [Memory.effect, hu]
  -- only the cancellation and the freeing itself touch the contents
  obtain ⟨y, hcontents, hrunning, hbytes⟩ : ∃ y, (m.freeBytes x.cb ok x.freePc).contents =
      Function.update m.contents x.cb y ∧
      (Request.other ∈ y.running → Request.other ∈ (m.contents x.cb).running) ∧
      (m.full x.cb → (x.freePc.exec ok (m.aio.cbs x.cb)).1.freed = 0 → Full y.bytes) := by
    have hsame : m.contents = Function.update m.contents x.cb (m.contents x.cb) :=
      (Function.update_eq_self _ _).symm
    cases x.freePc with
    | aioCancel =>
      cases ok with
      | true => exact ⟨(m.contents x.cb).cancel, rfl, fun hr => (by cases hr), id⟩
      | false => exact ⟨m.contents x.cb, hsame, id, id⟩
    | free => exact ⟨(m.contents x.cb).free, rfl, id, fun _ hfreed => by cases hfreed⟩
    | idle | load | aioSuspend | aioReturn => exact ⟨m.contents x.cb, hsame, id, id⟩
  have hrest : (m.freeBytes x.cb ok x.freePc).invocations = m.invocations ∧
      (m.freeBytes x.cb ok x.freePc).left = m.left := by
    unfold Memory.freeBytes
    split
    · cases ok <;> exact ⟨rfl, rfl⟩
    · exact ⟨rfl, rfl⟩
    · exact ⟨rfl, rfl⟩
  have hchanged : Changed m (next m (.act (.freeStep u ok))) x.cb
      (x.freePc.exec ok (m.aio.cbs x.cb)).1 y := by
    refine ⟨by rw [haio]; rfl, by rw [haio]; rfl, ?_⟩
    show (m.effect (.act (.freeStep u ok))).contents = _
    rw [heffect, hcontents]
  have hgrow : m.full x.cb → (next m (.act (.freeStep u ok))).full x.cb := fun hfull =>
    hchanged.full_iff.mpr (hbytes hfull)
  have hread : (x.freePc.exec ok (m.aio.cbs x.cb)).1.lioRead = (m.aio.cbs x.cb).lioRead := by
    cases x.freePc with
    | aioCancel => cases ok <;> rfl
    | _ => rfl
  refine h.sameCalls hb (hchanged.grows hread hgrow) (by rw [haio]; rfl) ?_
    (hchanged.settled h (fun ha hmarked => hgrow (h.settled x.cb ha ?_))) ?_
  · show (m.effect (.act (.freeStep u ok))).invocations = _
    rw [heffect, hrest.1]
  · exact hmarked.imp marked_freeExec hrunning
  · show ∀ bytes ∈ (m.effect (.act (.freeStep u ok))).left, Full bytes
    rw [heffect, hrest.2]
    exact h.left

/-- A control block is made. -/
theorem Kept.shared (lioRead vectored : Bool) (buffer : Buffer) :
    Kept (next m (.shared lioRead vectored buffer)) := by
  have hold : ∀ a < m.aio.count,
      (next m (.shared lioRead vectored buffer)).aio.cbs a = m.aio.cbs a ∧
      (next m (.shared lioRead vectored buffer)).contents a = m.contents a := by
    intro a ha
    have hne : a ≠ m.aio.count := Nat.ne_of_lt ha
    exact ⟨Function.update_of_ne hne _ _, Function.update_of_ne hne _ _⟩
  have hgrows : Grows m (next m (.shared lioRead vectored buffer)) := by
    refine ⟨fun a ha => by rw [(hold a ha).1], fun a ha hfull => ?_⟩
    rw [Memory.full, (hold a ha).1, (hold a ha).2]
    exact hfull
  refine h.sameCalls hb hgrows rfl rfl ?_ h.left
  intro a ha hmarked
  have ha' : a < m.aio.count + 1 := ha
  rcases Nat.lt_succ_iff_lt_or_eq.mp ha' with hlt | rfl
  · rw [(hold a hlt).1, (hold a hlt).2] at hmarked
    exact hgrows.full a hlt (h.settled a hlt hmarked)
  · have hcb : (next m (.shared lioRead vectored buffer)).aio.cbs m.aio.count =
        ⟨lioRead, (buffer.check.getD (false, .uninit)).1,
          (buffer.check.getD (false, .uninit)).2, Refcount.init 1,
          (buffer.check.getD (false, .uninit)).2, 0, [], 0,
          (buffer.check.getD (false, .uninit)).2, []⟩ := Function.update_self ..
    have hx : (next m (.shared lioRead vectored buffer)).contents m.aio.count =
        ⟨(bufferBytes buffer).1, (bufferBytes buffer).2, vectored, []⟩ :=
      Function.update_self ..
    rw [Memory.full, hx]
    intro _
    rw [hcb, hx] at hmarked
    rcases hmarked with (hinit | hinit | hmem) | hmem
    · exact full_bufferBytes buffer hinit
    · exact full_bufferBytes buffer hinit
    · cases hmem
    · cases hmem

end Actions

theorem Kept.next {m : Memory} (h : Kept m) (hb : Bounded m.aio) (e : Event) (hok : Fills m e)
    (he : Enabled m e) : Kept (next m e) := by
  cases e with
  | shared lioRead vectored buffer => exact h.shared hb lioRead vectored buffer
  | complete a k result =>
    obtain ⟨⟨ha, _⟩, hk, _⟩ := he
    exact h.complete hb a k result ha hk hok
  | act e =>
    obtain ⟨hplain, he⟩ := he
    cases e with
    | shared | complete => cases hplain
    | call f => exact h.call hb f
    | retain u =>
      obtain ⟨x, hu, _⟩ := he
      exact h.retain hb hu
    | step i ok =>
      obtain ⟨c, hi, htarget, _⟩ := he
      exact h.step hb i ok hok hi htarget
    | make i =>
      obtain ⟨c, hi, _⟩ := he
      exact h.make hb i hi
    | lioReturn i ok =>
      obtain ⟨c, hi, hpc⟩ := he
      exact h.lioReturn hb i ok hi hpc
    | refuse i stray =>
      obtain ⟨c, hi, hpc, _⟩ := he
      exact h.refuse hb i stray hi hpc
    | waitcomplete i found =>
      obtain ⟨c, hi, _, hfound⟩ := he
      exact h.waitcomplete hb i found hi (fun a ha => (hfound a ha).1)
    | close u =>
      obtain ⟨⟨x, hu, _⟩, _⟩ := he
      refine h.release hb _ (u := u) (x := x) false ?_ rfl
      simp [Buffers.next, Event.base, Aio.next, Option.mem_def.mp hu]
    | gc u =>
      obtain ⟨⟨x, hu, _⟩, _⟩ := he
      refine h.release hb _ (u := u) (x := x) true ?_ rfl
      simp [Buffers.next, Event.base, Aio.next, Option.mem_def.mp hu]
    | freeStep u ok =>
      obtain ⟨x, hu, _⟩ := he
      exact h.freeStep hb u ok hu

theorem kept_init : Kept system.init where
  settled a ha := absurd ha (Nat.not_lt_zero a)
  relied c hc := by cases hc
  proper i c hi := by cases hi
  invocations := rfl
  left bytes hmem := by cases hmem

/-! ## Every run -/

/-- Only bytes that an initial string or a completed read has written leave the control
blocks, and in `CB_INIT` a buffer consists of such bytes, until it is freed. -/
structure NoLeak (m : Memory) : Prop where
  left : ∀ bytes ∈ m.left, Full bytes
  init : ∀ a < m.aio.count, (m.aio.cbs a).freed = 0 → (m.aio.cbs a).state = .init →
    Full (m.contents a).bytes

/-- **No uninitialised bytes leave**, in every run in which reads fill the buffers that
are not initialised, freed buffers are not used, and opcodes match. -/
theorem aio_no_leak (m : Memory) (h : system.ReachableBy Fills m) : NoLeak m := by
  have hkept : Kept m :=
    h.invariant_under (fun _ hs => reachable_bounded (reachable_aio hs)) kept_init
      (fun _ e hbounded hs hok he => hs.next hbounded e hok he)
  exact ⟨hkept.left, fun a ha hfreed hinit =>
    hkept.settled a ha (Or.inl (Or.inl hinit)) hfreed⟩

instance (m : Memory) (e : Event) : Decidable (Fills m e) := by
  unfold Fills
  split
  · infer_instance
  · next i _ =>
    have dec : ∀ c : Call, Decidable (match c.pc with
        | .copying a => (m.aio.cbs a).freed = 0
        | .submit a _ => (m.aio.cbs a).freed = 0 ∧
            (m.contents a).Matched (takesVector (m.aio.cbs a) (m.invocation i)) (m.aio.cbs a)
        | .lio _ a _ _ => (m.aio.cbs a).freed = 0 ∧
            (m.contents a).Matched (m.contents a).vectored (m.aio.cbs a)
        | _ => True) := fun c => by split <;> infer_instance
    exact inferInstanceAs (Decidable (∀ c ∈ m.aio.calls[i]?, _))
  · infer_instance

/-- A buffer of `n` bytes is read into, with the answer `data`, and copied. -/
def readEvents (n : Nat) (data : List UInt8) : List Event :=
  [.shared true false (.piece (.length n)), .act (.call (.read 0 0)), .act (.step 0 true),
    .act (.step 0 true), .complete 0 0 (some data), .act (.call (.return_ 0)),
    .act (.step 1 true), .act (.step 1 true), .act (.step 1 true), .act (.step 1 true),
    .act (.call (.index 0 false)), .act (.step 2 true), .act (.step 2 true)]

theorem aio_no_leak_read : ∃ m, system.run (readEvents 2 [7, 8]) = some m ∧
    m.left = [[some 7, some 8]] ∧ NoLeak m := by
  have hrun : ((system.restrict Fills (fun _ _ => inferInstance)).run
      (readEvents 2 [7, 8])).map Memory.left = some [[some 7, some 8]] := by
    decide +kernel
  obtain ⟨m, hm, hleft⟩ := Option.map_eq_some_iff.mp hrun
  exact ⟨m, System.run_of_restrict hm, hleft, aio_no_leak m (System.run_restrict hm)⟩

/-- A read completes with one byte of two, and `buf` returns both. -/
theorem not_no_leak_short : ¬ ∀ m, system.Reachable m → NoLeak m := by
  intro hall
  have hrun : (system.run (readEvents 2 [7])).map Memory.left = some [[some 7, none]] := by
    decide +kernel
  obtain ⟨m, hm, hleft⟩ := Option.map_eq_some_iff.mp hrun
  have hfull := (hall m (System.run_reachable hm)).left [some 7, none]
    (by rw [hleft]; exact List.mem_cons_self ..)
  exact hfull none (by simp) rfl

end Buffers
end Aio
end FluaLibs
