import FluaLibs.CountedReads
import FluaLibs.LuaArguments
import Mathlib.Data.Multiset.AddSub

/-! # Receiving messages

`receive` and `timedreceive` of a message queue make a buffer of the size that the script asks for.
It is freed when there is no message, and `getsockopt` frees its own in any case; the buffer of a
message that has come is not freed, so that a script that goes on receiving holds more and more
(`messages_delivered`).  The memory that Lua itself takes for the strings is left out.
-/
namespace FluaLibs
namespace Messages
open LuaArguments Held

abbrev Bytes : Type := List UInt8

/-- What is outside the modules, in some state: the queue of a userdata, whether there is memory,
and the system calls, which give an error number.  A timeout is in seconds and nanoseconds. -/
structure MessageEnv (σ : Type) where
  host : Host
  queue : σ → Nat → Option Int
  malloc : σ → Nat → Bool
  mq_send : Int → Bytes → Int → Option (Int × Int) → σ → Except Nat Unit × σ
  mq_receive : Int → Nat → Option (Int × Int) → σ → Except Nat (Bytes × Int) × σ
  getsockopt : Int → Int → Int → Nat → σ → Except Nat Bytes × σ

inductive Result where
  | success
  | failed (errno : Nat)
  | message (text : Bytes) (prio : Int)
  | option (value : Bytes)
  deriving DecidableEq

section Code
variable {σ : Type} (env : MessageEnv σ) (s : σ) (args : Nat → Option Value)

/-- `luaL_checkudata` -/
def checkmqd (arg : Nat) : Except Raised Int :=
  match args arg with
  | some (.userdata u) =>
    match env.queue s u with
    | some mq => .ok mq
    | none => .error (.typeerror arg "mqd_t")
  | _ => .error (.typeerror arg "mqd_t")

def sizeT (i : Int) : Nat := (i % 2 ^ 64).toNat

/-- `abs_timeout`, which is at `arg` and behind it. -/
def checktimeout (arg : Nat) : Except Raised (Int × Int) := do
  let tv_sec ← checkinteger env.host arg (args arg)
  if isnoneornil (args (arg + 1)) = true then pure (tv_sec, 0)
  else do
    let tv_nsec ← checkinteger env.host (arg + 1) (args (arg + 1))
    pure (tv_sec, tv_nsec)

/-- A queue, a message and its priority. -/
def checkmessage : Except Raised (Int × Bytes × Int) := do
  let mq ← checkmqd env s args 1
  let msg ← checklstring env.host 2 (args 2)
  let prio ← checkinteger env.host 3 (args 3)
  pure (mq, msg, IntType.uint32.wrap prio)

/-- A queue and the size of a buffer. -/
def checkbuffer : Except Raised (Int × Nat) := do
  let mq ← checkmqd env s args 1
  let buflen ← checkinteger env.host 2 (args 2)
  pure (mq, sizeT buflen)

/-- A call that fills a buffer of some size.  `frees` says whether the buffer is freed also when
the call goes well. -/
def withBuffer {α : Type} (frees : Bool) (size : Nat) (answer : Except Nat α × σ)
    (bytes : α → Bytes) (finish : α → Result) : Code Raised (Result × σ) := do
  match ← Code.malloc (env.malloc s size) with
  | none => Code.raise (.fatal "malloc" ENOMEM)
  | some buf => do
    Code.touch buf
    match answer with
    | (.error error, s) => do
      Code.free buf
      pure (.failed error, s)
    | (.ok a, s) => do
      Code.demand (decide ((bytes a).length ≤ size))
      if frees = true then Code.free buf
      pure (finish a, s)

def send (mq : Int) (msg : Bytes) (prio : Int) (timeout : Option (Int × Int)) :
    Code Raised (Result × σ) :=
  match env.mq_send mq msg prio timeout s with
  | (.error error, s) => pure (.failed error, s)
  | (.ok (), s) => pure (.success, s)

def receive (mq : Int) (buflen : Nat) (timeout : Option (Int × Int)) : Code Raised (Result × σ) :=
  withBuffer env s false buflen (env.mq_receive mq buflen timeout s) Prod.fst
    (fun m => .message m.1 m.2)

def l_mq_send : Code Raised (Result × σ) := do
  let (mq, msg, prio) ← Code.ofExcept (checkmessage env s args)
  send env s mq msg prio none

def l_mq_timedsend : Code Raised (Result × σ) := do
  let (mq, msg, prio) ← Code.ofExcept (checkmessage env s args)
  let timeout ← Code.ofExcept (checktimeout env args 4)
  send env s mq msg prio (some timeout)

def l_mq_receive : Code Raised (Result × σ) := do
  let (mq, buflen) ← Code.ofExcept (checkbuffer env s args)
  receive env s mq buflen none

def l_mq_timedreceive : Code Raised (Result × σ) := do
  let (mq, buflen) ← Code.ofExcept (checkbuffer env s args)
  let timeout ← Code.ofExcept (checktimeout env args 3)
  receive env s mq buflen (some timeout)

/-- The arguments of `getsockopt`: a socket, a level, an option and a size. -/
def checkoption : Except Raised (Int × Int × Int × Nat) := do
  let fd ← checkfd env.host 1 (args 1)
  let level ← checkinteger env.host 2 (args 2)
  let optname ← checkinteger env.host 3 (args 3)
  let optlen ← checkinteger env.host 4 (args 4)
  pure (fd, IntType.int.wrap level, IntType.int.wrap optname, (IntType.uint32.wrap optlen).toNat)

def l_getsockopt : Code Raised (Result × σ) := do
  let (fd, level, optname, optlen) ← Code.ofExcept (checkoption env args)
  withBuffer env s true optlen (env.getsockopt fd level optname optlen s) id .option

end Code

/-! ## Runs -/

/-- Which function a script calls. -/
inductive Function where
  | send
  | timedsend
  | receive
  | timedreceive
  | getsockopt

/-- A call of a script. -/
structure Call where
  function : Function
  args : Nat → Option Value

section Runs
variable {σ : Type} (env : MessageEnv σ)

def Call.code (c : Call) (s : σ) : Code Raised (Result × σ) :=
  match c.function with
  | .send => l_mq_send env s c.args
  | .timedsend => l_mq_timedsend env s c.args
  | .receive => l_mq_receive env s c.args
  | .timedreceive => l_mq_timedreceive env s c.args
  | .getsockopt => l_getsockopt env s c.args

/-- What a script gets from a call. -/
abbrev Got : Type := Except Raised Result

/-- A script goes on after an error.  Nothing has happened outside then. -/
def attempt (s : σ) (c : Code Raised (Result × σ)) : Code Raised (Got × σ) := fun m =>
  match c.run m with
  | (.ok (r, s'), m') => (.ok (.ok r, s'), m')
  | (.error e, m') => (.ok (.error e, s), m')

def run : List Call → σ → Code Raised (List Got × σ)
  | [], s => pure ([], s)
  | c :: cs, s => do
    let (got, s) ← attempt s (c.code env s)
    let (gots, s) ← run cs s
    pure (got :: gots, s)

/-! ## What a script gets -/

/-- A call with a buffer. -/
def filled {α : Type} (s : σ) (size : Nat) (answer : Except Nat α × σ) (finish : α → Result) :
    Got × σ :=
  if env.malloc s size = true then
    ((.ok (match answer.1 with
      | .error error => .failed error
      | .ok a => finish a)), answer.2)
  else (.error (.fatal "malloc" ENOMEM), s)

def received (s : σ) (mq : Int) (buflen : Nat) (timeout : Option (Int × Int)) : Got × σ :=
  filled env s buflen (env.mq_receive mq buflen timeout s) (fun m => .message m.1 m.2)

def sent (s : σ) (mq : Int) (msg : Bytes) (prio : Int) (timeout : Option (Int × Int)) : Got × σ :=
  (.ok (match (env.mq_send mq msg prio timeout s).1 with
    | .error error => .failed error
    | .ok _ => .success), (env.mq_send mq msg prio timeout s).2)

/-- The arguments are checked, and then something is done. -/
def checked {α : Type} (s : σ) (x : Except Raised α) (f : α → Got × σ) : Got × σ :=
  match x with
  | .error e => (.error e, s)
  | .ok a => f a

def Call.gets (c : Call) (s : σ) : Got × σ :=
  match c.function with
  | .send => checked s (checkmessage env s c.args) fun m => sent env s m.1 m.2.1 m.2.2 none
  | .timedsend => checked s (checkmessage env s c.args) fun m =>
      checked s (checktimeout env c.args 4) fun t => sent env s m.1 m.2.1 m.2.2 (some t)
  | .receive => checked s (checkbuffer env s c.args) fun b => received env s b.1 b.2 none
  | .timedreceive => checked s (checkbuffer env s c.args) fun b =>
      checked s (checktimeout env c.args 3) fun t => received env s b.1 b.2 (some t)
  | .getsockopt => checked s (checkoption env c.args) fun o =>
      filled env s o.2.2.2 (env.getsockopt o.1 o.2.1 o.2.2.1 o.2.2.2 s) .option

def runs : List Call → σ → List Got × σ
  | [], s => ([], s)
  | c :: cs, s =>
    let first := c.gets env s
    let rest := runs cs first.2
    (first.1 :: rest.1, rest.2)

end Runs

/-- The buffers that a call leaves. -/
def left : Got → Nat
  | .ok (.message _ _) => 1
  | _ => 0

/-- What the system calls write fits into the buffer that they are given. -/
structure Fits {σ : Type} (env : MessageEnv σ) : Prop where
  mq_receive (mq : Int) (size : Nat) (timeout : Option (Int × Int)) (s : σ) (m : Bytes × Int) :
    (env.mq_receive mq size timeout s).1 = .ok m → m.1.length ≤ size
  getsockopt (fd level optname : Int) (size : Nat) (s : σ) (value : Bytes) :
    (env.getsockopt fd level optname size s).1 = .ok value → value.length ≤ size

/-- A text and its priority. -/
abbrev Message : Type := Bytes × Int

/-- **What the kernel does with messages**: `pending` are those that wait in queues. -/
structure Delivers {σ : Type} (env : MessageEnv σ) (pending : σ → Multiset Message) : Prop where
  sent (mq : Int) (msg : Bytes) (prio : Int) (timeout : Option (Int × Int)) (s s' : σ) :
    env.mq_send mq msg prio timeout s = (.ok (), s') → pending s' = (msg, prio) ::ₘ pending s
  not_sent (mq : Int) (msg : Bytes) (prio : Int) (timeout : Option (Int × Int)) (s s' : σ)
    (error : Nat) : env.mq_send mq msg prio timeout s = (.error error, s') → pending s' = pending s
  received (mq : Int) (size : Nat) (timeout : Option (Int × Int)) (s s' : σ) (m : Message) :
    env.mq_receive mq size timeout s = (.ok m, s') → pending s = m ::ₘ pending s'
  not_received (mq : Int) (size : Nat) (timeout : Option (Int × Int)) (s s' : σ) (error : Nat) :
    env.mq_receive mq size timeout s = (.error error, s') → pending s' = pending s
  getsockopt (fd level optname : Int) (size : Nat) (s : σ) :
    pending (env.getsockopt fd level optname size s).2 = pending s

/-- The message that a call has given to the script. -/
def taken : Got → Multiset Message
  | .ok (.message text prio) => {(text, prio)}
  | _ => 0

/-- The message that a call has put into a queue, if `m` was to be sent. -/
def put (got : Got) (m : Message) : Multiset Message := if got = .ok .success then {m} else 0

section Conservation
variable {σ : Type} (env : MessageEnv σ)

/-- What a call sends. -/
def Call.puts (c : Call) (s : σ) : Multiset Message :=
  match c.function with
  | .send | .timedsend =>
    (checkmessage env s c.args).toOption.elim 0 fun m => put (c.gets env s).1 (m.2.1, m.2.2)
  | _ => 0

/-- What is sent on the way. -/
def allPut : List Call → σ → Multiset Message
  | [], _ => 0
  | c :: cs, s => c.puts env s + allPut cs (c.gets env s).2

variable {env} {pending : σ → Multiset Message} {s : σ}

theorem sent_conserves (h : Delivers env pending) (mq : Int) (msg : Bytes) (prio : Int)
    (timeout : Option (Int × Int)) :
    pending s + put (sent env s mq msg prio timeout).1 (msg, prio) =
      taken (sent env s mq msg prio timeout).1 + pending (sent env s mq msg prio timeout).2 := by
  rcases hsend : env.mq_send mq msg prio timeout s with ⟨error | _, s'⟩
  · simp [sent, hsend, put, taken, h.not_sent mq msg prio timeout s s' error hsend]
  · have hpending := h.sent mq msg prio timeout s s' hsend
    simp only [sent, hsend, put, taken, if_true, zero_add, hpending]
    rw [add_comm, Multiset.singleton_add]

/-- A call with a buffer takes what its answer takes. -/
theorem filled_conserves {α : Type} {size : Nat} {answer : Except Nat α × σ} {finish : α → Result}
    (hok : ∀ a s', answer = (.ok a, s') → pending s = taken (.ok (finish a)) + pending s')
    (herror : ∀ error s', answer = (.error error, s') → pending s' = pending s) :
    pending s = taken (filled env s size answer finish).1 +
      pending (filled env s size answer finish).2 := by
  rw [filled]
  by_cases hthere : env.malloc s size = true
  · rw [if_pos hthere]
    obtain ⟨error | a, s'⟩ := answer
    · show pending s = 0 + pending s'
      rw [zero_add, herror error s' rfl]
    · exact hok a s' rfl
  · -- Nothing is taken before there is memory for it.
    rw [if_neg hthere]
    exact (zero_add _).symm

theorem received_conserves (h : Delivers env pending) (mq : Int) (buflen : Nat)
    (timeout : Option (Int × Int)) :
    pending s = taken (received env s mq buflen timeout).1 +
      pending (received env s mq buflen timeout).2 :=
  filled_conserves (fun m s' hm => h.received mq buflen timeout s s' m hm)
    (fun error s' herror => h.not_received mq buflen timeout s s' error herror)

theorem filled_option_conserves (h : Delivers env pending) (fd level optname : Int) (size : Nat) :
    pending s = taken (filled env s size (env.getsockopt fd level optname size s) .option).1 +
      pending (filled env s size (env.getsockopt fd level optname size s) .option).2 := by
  have hsame := h.getsockopt fd level optname size s
  refine filled_conserves (fun value s' hvalue => ?_) (fun error s' herror => ?_)
  · rw [hvalue] at hsame
    show pending s = 0 + pending s'
    rw [zero_add, hsame]
  · rw [herror] at hsame
    exact hsame

theorem gets_conserves (h : Delivers env pending) (c : Call) :
    pending s + c.puts env s = taken (c.gets env s).1 + pending (c.gets env s).2 := by
  obtain ⟨function, args⟩ := c
  cases function with
  | send =>
    rcases hmessage : checkmessage env s args with e | m
    · simp [Call.puts, Call.gets, checked, hmessage, taken, Except.toOption]
    · simpa [Call.puts, Call.gets, checked, hmessage, Except.toOption] using
        sent_conserves h m.1 m.2.1 m.2.2 none
  | timedsend =>
    rcases hmessage : checkmessage env s args with e | m
    · simp [Call.puts, Call.gets, checked, hmessage, taken, Except.toOption]
    rcases htimeout : checktimeout env args 4 with e | t
    · simp [Call.puts, Call.gets, checked, hmessage, htimeout, taken, put, Except.toOption]
    · simpa [Call.puts, Call.gets, checked, hmessage, htimeout, Except.toOption] using
        sent_conserves h m.1 m.2.1 m.2.2 (some t)
  | receive =>
    rcases hbuffer : checkbuffer env s args with e | b
    · simp [Call.puts, Call.gets, checked, hbuffer, taken]
    · simpa [Call.puts, Call.gets, checked, hbuffer] using received_conserves h b.1 b.2 none
  | timedreceive =>
    rcases hbuffer : checkbuffer env s args with e | b
    · simp [Call.puts, Call.gets, checked, hbuffer, taken]
    rcases htimeout : checktimeout env args 3 with e | t
    · simp [Call.puts, Call.gets, checked, hbuffer, htimeout, taken]
    · simpa [Call.puts, Call.gets, checked, hbuffer, htimeout] using
        received_conserves h b.1 b.2 (some t)
  | getsockopt =>
    rcases hoption : checkoption env args with e | o
    · simp [Call.puts, Call.gets, checked, hoption, taken]
    · simpa [Call.puts, Call.gets, checked, hoption] using
        filled_option_conserves h o.1 o.2.1 o.2.2.1 o.2.2.2

/-- No message is lost or comes twice. -/
theorem runs_conserve (h : Delivers env pending) (calls : List Call) : ∀ s : σ,
    pending s + allPut env calls s =
      ((runs env calls s).1.map taken).sum + pending (runs env calls s).2 := by
  induction calls with
  | nil => exact fun s => add_comm _ _
  | cons c cs ih =>
    intro s
    calc pending s + allPut env (c :: cs) s
        = pending s + c.puts env s + allPut env cs (c.gets env s).2 := (add_assoc ..).symm
      _ = taken (c.gets env s).1 + (pending (c.gets env s).2 + allPut env cs (c.gets env s).2) := by
          rw [gets_conserves h c, add_assoc]
      _ = taken (c.gets env s).1 + (((runs env cs (c.gets env s).2).1.map taken).sum +
            pending (runs env cs (c.gets env s).2).2) := by rw [ih]
      _ = ((runs env (c :: cs) s).1.map taken).sum + pending (runs env (c :: cs) s).2 := by
          rw [runs, List.map_cons, List.sum_cons, add_assoc]

end Conservation

/-- The call gives what `x` says, and holds the buffers that it leaves, over those that it has
found. -/
def Does {σ : Type} (base held : List Nat) (s : σ) (c : Code Raised (Result × σ)) (x : Got × σ) :
    Prop :=
  Spec base held c (fun r l => x = (.ok r.1, r.2) ∧ l.length = held.length + left x.1)
    (fun e l => x = (.error e, s) ∧ l.length = held.length + left x.1)

section Proofs
variable {σ : Type} {env : MessageEnv σ} {s : σ} {args : Nat → Option Value} {base held : List Nat}

/-- A check in front of a call. -/
theorem Does.checked {α : Type} {x : Except Raised α} {c : α → Code Raised (Result × σ)}
    {f : α → Got × σ} (h : ∀ a, x = .ok a → Does base held s (c a) (f a)) :
    Does base held s (Code.ofExcept x >>= c) (checked s x f) := by
  rcases hx : x with e | a
  · exact Spec.raise ⟨rfl, rfl⟩
  · exact Spec.checked (h a hx)

/-- The buffer is left if the call goes well and does not free it. -/
theorem withBuffer_does {α : Type} {frees : Bool} {size : Nat} {answer : Except Nat α × σ}
    {bytes : α → Bytes} {finish : α → Result}
    (hfits : ∀ a, answer.1 = .ok a → (bytes a).length ≤ size)
    (hleft : ∀ a, left (.ok (finish a)) = if frees = true then 0 else 1) :
    Does base held s (withBuffer env s frees size answer bytes finish)
      (filled env s size answer finish) := by
  rw [filled]
  by_cases hthere : env.malloc s size = true
  · rw [if_pos hthere]
    refine Spec.bind (Q := fun p l => ∃ buf, p = some buf ∧ l = buf :: held)
      (Spec.malloc (fun _ buf _ => ⟨buf, rfl, rfl⟩) (by simp [hthere])) ?_
    rintro _ _ ⟨buf, rfl, rfl⟩
    refine Spec.bind (Q := fun _ l => l = buf :: held) (Spec.touch (List.mem_cons_self ..) rfl) ?_
    rintro _ _ rfl
    obtain ⟨error | a, s'⟩ := answer
    · refine Spec.bind (Q := fun _ l => l = held) (Spec.free (List.Perm.refl _) rfl) ?_
      rintro _ _ rfl
      exact Spec.pure ⟨rfl, rfl⟩
    · have hroom : decide ((bytes a).length ≤ size) = true := decide_eq_true (hfits a rfl)
      refine Spec.bind (Q := fun _ l => l = buf :: held) (Spec.demand hroom rfl) ?_
      rintro _ _ rfl
      dsimp only
      rw [hleft a]
      cases frees with
      -- The buffer of a message stays.
      | false => exact Spec.pure ⟨rfl, rfl⟩
      | true =>
        refine Spec.bind (Q := fun _ l => l = held) (Spec.free (List.Perm.refl _) rfl) ?_
        rintro _ _ rfl
        exact Spec.pure ⟨rfl, rfl⟩
  · rw [if_neg hthere]
    refine Spec.bind (Q := fun p l => p = none ∧ l = held)
      (Spec.malloc (by simp [hthere]) (fun _ => ⟨rfl, rfl⟩)) ?_
    rintro _ _ ⟨rfl, rfl⟩
    exact Spec.raise ⟨rfl, rfl⟩

theorem receive_does (h : Fits env) (mq : Int) (buflen : Nat) (timeout : Option (Int × Int)) :
    Does base held s (receive env s mq buflen timeout) (received env s mq buflen timeout) :=
  withBuffer_does (fun m hm => h.mq_receive mq buflen timeout s m hm) (fun _ => rfl)

theorem send_does (mq : Int) (msg : Bytes) (prio : Int) (timeout : Option (Int × Int)) :
    Does base held s (send env s mq msg prio timeout) (sent env s mq msg prio timeout) := by
  rw [send, sent]
  rcases env.mq_send mq msg prio timeout s with ⟨error | _, s'⟩
  · exact Spec.pure ⟨rfl, rfl⟩
  · exact Spec.pure ⟨rfl, rfl⟩

/-- One call. -/
theorem code_does (h : Fits env) (c : Call) : Does base held s (c.code env s) (c.gets env s) := by
  obtain ⟨function, args⟩ := c
  cases function with
  | send => exact Does.checked fun m _ => send_does m.1 m.2.1 m.2.2 none
  | timedsend =>
    exact Does.checked fun m _ => Does.checked fun t _ => send_does m.1 m.2.1 m.2.2 (some t)
  | receive => exact Does.checked fun b _ => receive_does h b.1 b.2 none
  | timedreceive =>
    exact Does.checked fun b _ => Does.checked fun t _ => receive_does h b.1 b.2 (some t)
  | getsockopt =>
    exact Does.checked fun o _ => withBuffer_does
      (fun value hvalue => h.getsockopt o.1 o.2.1 o.2.2.1 o.2.2.2 s value hvalue) (fun _ => rfl)

/-- An error is a result as any other. -/
theorem attempt_spec {c : Code Raised (Result × σ)} {x : Got × σ} (h : Does base held s c x) :
    Spec base held (attempt s c) (fun r l => r = x ∧ l.length = held.length + left x.1)
      (fun _ _ => False) := by
  intro m hm
  have hleft := h m hm
  show Left _ _ _ (attempt s c m)
  rw [attempt]
  generalize c.run m = y at hleft
  rcases hleft with ⟨r, m', l, hl, hx, hlen⟩ | ⟨e, m', l, hl, hx, hlen⟩
  · exact .result _ m' l hl ⟨hx.symm, hlen⟩
  · exact .result _ m' l hl ⟨hx.symm, hlen⟩

/-- All calls, one after the other. -/
theorem run_spec (h : Fits env) (calls : List Call) : ∀ (s : σ) (held : List Nat),
    Spec base held (run env calls s)
      (fun out l => out = runs env calls s ∧
        l.length = held.length + ((runs env calls s).1.map left).sum) (fun _ _ => False) := by
  induction calls with
  | nil => exact fun s held => Spec.pure ⟨rfl, rfl⟩
  | cons c cs ih =>
    intro s held
    refine Spec.bind (attempt_spec (code_does h c)) ?_
    rintro _ l ⟨rfl, hl⟩
    refine Spec.bind (ih (c.gets env s).2 l) ?_
    rintro _ l' ⟨rfl, hl'⟩
    refine Spec.pure ⟨rfl, ?_⟩
    rw [hl', hl, runs, List.map_cons, List.sum_cons, Nat.add_assoc]

end Proofs

/-- **Messages over a run.**  A script that sends and receives in any order, with arguments that may
be refused and calls that may fail, gets each message that was sent exactly once, or it still
waits; and every message that it has got has left its buffer behind, which no other call does. -/
theorem messages_delivered {σ : Type} (env : MessageEnv σ) (hfits : Fits env) (calls : List Call)
    (s : σ) (base : List Nat) :
    Spec base [] (run env calls s)
      (fun out l => out = runs env calls s ∧ l.length = (out.1.map left).sum) (fun _ _ => False) ∧
    ∀ pending, Delivers env pending → pending s + allPut env calls s =
      ((runs env calls s).1.map taken).sum + pending (runs env calls s).2 := by
  constructor
  · refine (run_spec hfits calls s []).mono ?_ (fun _ _ h => h)
    rintro out l ⟨rfl, hl⟩
    refine ⟨rfl, ?_⟩
    rw [hl, List.length_nil, Nat.zero_add]
  · exact fun pending h => runs_conserve h calls s

/-- One queue, which gives its messages in the order in which they came. -/
def sampleEnv : MessageEnv (List Message) where
  host := Host.plain
  queue _ u := if u = 0 then some 3 else none
  malloc _ _ := true
  mq_send _ msg prio _ ms := (.ok (), ms ++ [(msg, prio)])
  mq_receive _ size _ ms :=
    match ms with
    | [] => (.error 35, [])
    | m :: rest => if m.1.length ≤ size then (.ok m, rest) else (.error 40, m :: rest)
  getsockopt _ _ _ _ ms := (.error 38, ms)

theorem sampleEnv_fits : Fits sampleEnv where
  mq_receive mq size timeout ms m h := by
    simp only [sampleEnv] at h
    split at h
    · cases h
    · split at h
      · cases h
        assumption
      · cases h
  getsockopt _ _ _ _ _ _ h := by cases h

theorem sampleEnv_delivers : Delivers sampleEnv fun ms => (ms : Multiset Message) where
  sent mq msg prio timeout ms ms' h := by
    cases h
    rw [← Multiset.coe_add, add_comm]
    rfl
  not_sent mq msg prio timeout ms ms' error h := by cases h
  received mq size timeout ms ms' m h := by
    simp only [sampleEnv] at h
    split at h
    · cases h
    · split at h
      · cases h
        rfl
      · cases h
  not_received mq size timeout ms ms' error h := by
    simp only [sampleEnv] at h
    split at h
    · cases h
      rfl
    · split at h
      · cases h
      · cases h
        rfl
  getsockopt _ _ _ _ _ := rfl

/-- `queue:send("h", 1)` -/
def sendArgs : Nat → Option Value
  | 1 => some (.userdata 0)
  | 2 => some (.string [104])
  | 3 => some (.integer 1)
  | _ => none

/-- `queue:receive(size)` -/
def receiveArgs (size : Int) : Nat → Option Value
  | 1 => some (.userdata 0)
  | 2 => some (.integer size)
  | _ => none

/-- The first buffer is too small, and the queue is empty at the end. -/
def sampleCalls : List Call :=
  [⟨.send, sendArgs⟩, ⟨.receive, receiveArgs 0⟩, ⟨.receive, receiveArgs 16⟩,
    ⟨.receive, receiveArgs 16⟩]

theorem messages_delivered_sample :
    Spec [] [] (run sampleEnv sampleCalls [])
      (fun out l => out = runs sampleEnv sampleCalls [] ∧ l.length = (out.1.map left).sum)
      (fun _ _ => False) ∧
    (([] : List Message) : Multiset Message) + allPut sampleEnv sampleCalls [] =
      ((runs sampleEnv sampleCalls []).1.map taken).sum +
        ((runs sampleEnv sampleCalls []).2 : Multiset Message) ∧
    runs sampleEnv sampleCalls [] =
      ([.ok .success, .ok (.failed 40), .ok (.message [104] 1), .ok (.failed 35)], []) :=
  ⟨(messages_delivered sampleEnv sampleEnv_fits sampleCalls [] []).1,
    (messages_delivered sampleEnv sampleEnv_fits sampleCalls [] []).2 _ sampleEnv_delivers, by rfl⟩

end Messages
end FluaLibs
