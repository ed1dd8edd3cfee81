import FluaLibs.ListEntries
import FluaLibs.LuaArguments
import FluaLibs.Ownership
import FluaLibs.Transition

/-! # The channels of Casper

A userdata holds a channel by its address, and so does a userdata for file arguments, which has
one of its own.  A `cap_mib` and a limit keep the address of a channel that a userdata holds, and
nothing keeps that userdata, or tells them when it is closed.

Every channel is held by exactly one userdata (`Kept`), as long as nothing is called on file
arguments that have been freed: their cookie stays.

Left out are the limits of `cap_net`, which keep the address of a channel in the same way as those
of `cap_sysctl`, and file arguments that the library makes without a channel, for no files.
-/
namespace FluaLibs
namespace Casper
open LuaArguments

/-- The types of the userdata, by their metatables. -/
inductive Metatable where
  | CAP_CHANNEL
  | FILEARGS
  | CAP_MIB
  | CAP_SYSCTL_LIMIT
  deriving DecidableEq

def Metatable.name : Metatable → String
  | CAP_CHANNEL => "cap_channel_t *"
  | FILEARGS => "fileargs_t *"
  | CAP_MIB => "struct cap_mib *"
  | CAP_SYSCTL_LIMIT => "cap_sysctl_limit_t *"

/-- `struct cap_mib`: its channel, and which of its texts it has. -/
structure Mib where
  chan : Option Nat
  format : Bool
  name : Bool
  description : Bool
  deriving DecidableEq

/-- The struct after `memset`. -/
def Mib.zero : Mib := ⟨none, false, false, false⟩

/-- A userdata, with the channel that its pointer leads to; of file arguments also whether
they have been freed. -/
inductive Object where
  | channel (cookie : Option Nat)
  | fileargs (cookie : Option Nat) (freed : Bool)
  | mib (m : Mib)
  | limit (cookie : Option Nat)
  deriving DecidableEq

/-- A `cap_channel_t`: how often it has been closed, whether it has been unwrapped, and how often
it has been used after that. -/
structure Channel where
  closes : Nat
  unwrapped : Bool
  late : Nat
  deriving DecidableEq

def Channel.Live (ch : Channel) : Prop := ch.closes = 0 ∧ ch.unwrapped = false

instance (ch : Channel) : Decidable ch.Live := inferInstanceAs (Decidable (_ ∧ _))

structure State where
  channels : List Channel
  objects : List Object

/-- What a call gives. -/
inductive Reply where
  | raised (e : Raised)
  | failed (errno : Nat)
  | returned (values : List Value)

namespace State
variable (s : State)

/-! ## What the library does to a channel -/

/-- A request on a channel, or any other use of it. -/
def use (c : Nat) : State :=
  { s with channels := s.channels.modify c (fun ch =>
      if ch.Live then ch else { ch with late := ch.late + 1 }) }

/-- `cap_close` -/
def cap_close (c : Nat) : State :=
  { s with channels := s.channels.modify c (fun ch => { ch with closes := ch.closes + 1 }) }

/-- `cap_unwrap` -/
def cap_unwrap (c : Nat) : State :=
  { s with channels := s.channels.modify c (fun ch => { ch with unwrapped := true }) }

/-! ## Userdata -/

def setObject (o : Nat) (x : Object) : State := { s with objects := s.objects.set o x }

/-- `new` -/
def new (x : Object) : State × Reply :=
  ({ s with objects := s.objects ++ [x] }, .returned [.userdata s.objects.length])

/-- A new channel, and a userdata for it, if the library has been able to make one. -/
def opened (x : Nat → Object) : Except Nat Unit → State × Reply
  | .ok _ => State.new { s with channels := s.channels ++ [⟨0, false, 0⟩] } (x s.channels.length)
  | .error errno => (s, .failed errno)

/-- The cookie of a userdata of this type. -/
def cookie (m : Metatable) (o : Nat) : Option (Option Nat) :=
  match m, s.objects[o]? with
  | .CAP_CHANNEL, some (.channel c) => some c
  | .FILEARGS, some (.fileargs c _) => some c
  | .CAP_SYSCTL_LIMIT, some (.limit c) => some c
  | _, _ => none

/-- `checkcookienull`: the userdata, and its cookie. -/
def checkcookienull (m : Metatable) : Option Value → Except Raised (Nat × Option Nat)
  | some (.userdata o) =>
    match s.cookie m o with
    | some c => .ok (o, c)
    | none => .error (.typeerror 1 m.name)
  | _ => .error (.typeerror 1 m.name)

/-- `checkcookie` -/
def checkcookie (m : Metatable) (v : Option Value) : Except Raised (Nat × Nat) :=
  match s.checkcookienull m v with
  | .ok (o, some c) => .ok (o, c)
  | .ok (_, none) => .error (.argerror 1 "cookie expired")
  | .error e => .error e

/-- `luaL_checkudata` for a `struct cap_mib`. -/
def checkmib : Option Value → Except Raised (Nat × Mib)
  | some (.userdata o) =>
    match s.objects[o]? with
    | some (.mib m) => .ok (o, m)
    | _ => .error (.typeerror 1 Metatable.CAP_MIB.name)
  | _ => .error (.typeerror 1 Metatable.CAP_MIB.name)

end State

/-! ## The code -/

/-! ### Channels

The first argument of a function is `v`; `rest` are the checks of the others, and `answer` is what
the library gives. -/

section Channels
variable (s : State) (v : Option Value) (rest : Except Raised Unit)

def l_cap_init (answer : Except Nat Unit) : State × Reply :=
  s.opened (fun c => .channel (some c)) answer

def l_cap_wrap (answer : Except Nat Unit) : State × Reply :=
  match rest with
  | .error e => (s, .raised e)
  | .ok _ => s.opened (fun c => .channel (some c)) answer

def l_cap_close : State × Reply :=
  match s.checkcookienull .CAP_CHANNEL v with
  | .error e => (s, .raised e)
  | .ok (_, none) => (s, .returned [])
  | .ok (o, some chan) => ((s.cap_close chan).setObject o (.channel none), .returned [])

def l_cap_unwrap (fd flags : Int) : State × Reply :=
  match s.checkcookie .CAP_CHANNEL v with
  | .error e => (s, .raised e)
  | .ok (o, chan) =>
    ((s.setObject o (.channel none)).cap_unwrap chan, .returned [.integer fd, .integer flags])

/-- A function that uses the channel of a userdata. -/
def used (m : Metatable) (answer : Except Nat (List Value)) : State × Reply :=
  match s.checkcookie m v with
  | .error e => (s, .raised e)
  | .ok (_, chan) =>
    match rest with
    | .error e => (s, .raised e)
    | .ok _ =>
      match answer with
      | .ok values => (s.use chan, .returned values)
      | .error errno => (s.use chan, .failed errno)

/-- A function that uses the channel of a userdata to make another. -/
def derived (x : Nat → Object) (answer : Except Nat Unit) : State × Reply :=
  match s.checkcookie .CAP_CHANNEL v with
  | .error e => (s, .raised e)
  | .ok (_, chan) =>
    match rest with
    | .error e => (s, .raised e)
    | .ok _ => (s.use chan).opened x answer

def l_cap_sock (fd : Int) : State × Reply := used s v (.ok ()) .CAP_CHANNEL (.ok [.integer fd])

def l_cap_limit (answer : Except Nat (List Value)) : State × Reply :=
  used s v rest .CAP_CHANNEL answer

def l_cap_send (answer : Except Nat (List Value)) : State × Reply :=
  used s v rest .CAP_CHANNEL answer

def l_cap_recv (answer : Except Nat (List Value)) : State × Reply :=
  used s v (.ok ()) .CAP_CHANNEL answer

def l_cap_xfer (answer : Except Nat (List Value)) : State × Reply :=
  used s v rest .CAP_CHANNEL answer

def l_cap_clone (answer : Except Nat Unit) : State × Reply :=
  derived s v (.ok ()) (fun c => .channel (some c)) answer

def l_cap_service_open (answer : Except Nat Unit) : State × Reply :=
  derived s v rest (fun c => .channel (some c)) answer

/-! ### File arguments -/

/-- `l_fileargs_init` and `l_fileargs_initnv` -/
def l_fileargs_init (answer : Except Nat Unit) : State × Reply :=
  match rest with
  | .error e => (s, .raised e)
  | .ok _ => s.opened (fun c => .fileargs (some c) false) answer

/-- `l_fileargs_cinit` and `l_fileargs_cinitnv` -/
def l_fileargs_cinit (answer : Except Nat Unit) : State × Reply :=
  derived s v rest (fun c => .fileargs (some c) false) answer

/-- The flags are taken from the first argument, which is the userdata. -/
def l_fileargs_wrap (host : Host) (answer : Except Nat Unit) : State × Reply :=
  match s.checkcookie .CAP_CHANNEL v with
  | .error e => (s, .raised e)
  | .ok (_, chan) =>
    match checkinteger host 1 v with
    | .error e => (s, .raised e)
    | .ok _ =>
      match answer with
      | .ok _ => s.new (.fileargs (some chan) false)
      | .error errno => (s, .failed errno)

/-- The cookie is not cleared. -/
def l_fileargs_free : State × Reply :=
  match s.checkcookienull .FILEARGS v with
  | .error e => (s, .raised e)
  | .ok (_, none) => (s, .returned [])
  | .ok (o, some chan) =>
    ((s.cap_close chan).setObject o (.fileargs (some chan) true), .returned [])

def l_fileargs_lstat (answer : Except Nat (List Value)) : State × Reply :=
  used s v rest .FILEARGS answer

def l_fileargs_open (answer : Except Nat (List Value)) : State × Reply :=
  used s v rest .FILEARGS answer

def l_fileargs_fopen (answer : Except Nat (List Value)) : State × Reply :=
  used s v rest .FILEARGS answer

def l_fileargs_realpath (answer : Except Nat (List Value)) : State × Reply :=
  used s v rest .FILEARGS answer

def l_fileargs_unwrap (fdflags : Int) : State × Reply :=
  match s.checkcookie .FILEARGS v with
  | .error e => (s, .raised e)
  | .ok (o, chan) =>
    let t := s.setObject o (.fileargs none false)
    ((t.new (.channel (some chan))).1,
      .returned [.userdata t.objects.length, .integer fdflags])

/-! ### Names of sysctl -/

/-- A `struct cap_mib` keeps the channel of the userdata. -/
def l_cap_sysctl (answer : Except Nat Bool) : State × Reply :=
  match s.checkcookie .CAP_CHANNEL v with
  | .error e => (s, .raised e)
  | .ok (_, chan) =>
    match rest with
    | .error e => (s, .raised e)
    | .ok _ =>
      match answer with
      | .ok named => s.new (.mib ⟨some chan, false, named, false⟩)
      | .error errno => (s, .failed errno)

/-- `cap_sysctl` -/
def Mib.request (m : Mib) (s : State) : State := m.chan.elim s s.use

def l_cap_mib_gc : State × Reply :=
  match s.checkmib v with
  | .error e => (s, .raised e)
  | .ok (o, _) => (s.setObject o (.mib .zero), .returned [])

/-- The texts that are asked for once. -/
inductive MibText where
  | format
  | name
  | description
  deriving DecidableEq

def Mib.has (m : Mib) : MibText → Bool
  | .format => m.format
  | .name => m.name
  | .description => m.description

def Mib.keep (m : Mib) : MibText → Mib
  | .format => { m with format := true }
  | .name => { m with name := true }
  | .description => { m with description := true }

/-- What is known of a text: what there is to return if it is kept, and what the library answers if
it is not, with `none` if there is no memory to keep it. -/
structure TextAnswer where
  kept : List Value
  answer : Except Nat (Option (List Value))

/-- A text that is asked for if it is not there, and kept. -/
def l_cap_mib_text (text : MibText) (refused : Nat → Reply) (a : TextAnswer) : State × Reply :=
  match s.checkmib v with
  | .error e => (s, .raised e)
  | .ok (o, m) =>
    if m.has text then (s, .returned a.kept)
    else
      match a.answer with
      | .ok (some values) => ((m.request s).setObject o (.mib (m.keep text)), .returned values)
      | .ok none => (m.request s, .raised (.fatal "strdup" ENOMEM))
      | .error errno => (m.request s, refused errno)

def l_cap_mib_format (a : TextAnswer) : State × Reply := l_cap_mib_text s v .format .failed a

def l_cap_mib_name (a : TextAnswer) : State × Reply := l_cap_mib_text s v .name .failed a

/-- `ENOENT` -/
def ENOENT : Nat := 2

def l_cap_mib_description (a : TextAnswer) : State × Reply :=
  l_cap_mib_text s v .description
    (fun errno => if errno = ENOENT then .returned [.nil] else .failed errno) a

/-- The value is read or written in some requests, none for a node; the format is asked for
first. -/
def l_cap_mib_value (format : TextAnswer) (requests : Nat) (reply : Reply) : State × Reply :=
  match s.checkmib v with
  | .error e => (s, .raised e)
  | .ok (_, m) =>
    match l_cap_mib_format s v format with
    | (t, .raised e) => (t, .raised e)
    | (t, _) => ((List.range requests).foldl (fun t _ => m.request t) t, reply)

/-- The next name has the channel of the one before; `answer` is whether there is one. -/
def l_cap_mib_iter_next (initial : Value) (answer : Except Nat Bool) : State × Reply :=
  match s.checkmib v with
  | .error _ => (s, .returned [initial])
  | .ok (_, prev) =>
    match answer with
    | .ok true => s.new (.mib { Mib.zero with chan := prev.chan })
    | .ok false => (s, .returned [.nil])
    | .error errno => (s, .failed errno)

/-! ### Limits -/

def l_cap_sysctl_limit_init (answer : Except Nat Unit) : State × Reply :=
  match s.checkcookie .CAP_CHANNEL v with
  | .error e => (s, .raised e)
  | .ok (_, chan) =>
    match answer with
    | .ok _ => s.new (.limit (some chan))
    | .error errno => (s, .failed errno)

def l_cap_sysctl_limit_free : State × Reply :=
  match s.checkcookienull .CAP_SYSCTL_LIMIT v with
  | .error e => (s, .raised e)
  | .ok (o, _) => (s.setObject o (.limit none), .returned [])

/-- The names are collected, without a request. -/
def l_cap_sysctl_limit_name (answer : Except Nat Unit) : State × Reply :=
  match s.checkcookie .CAP_SYSCTL_LIMIT v with
  | .error e => (s, .raised e)
  | .ok (o, _) =>
    match rest with
    | .error e => (s, .raised e)
    | .ok _ =>
      match answer with
      | .ok _ => (s, .returned [.userdata o])
      | .error errno => (s, .failed errno)

def l_cap_sysctl_limit (answer : Except Nat Unit) : State × Reply :=
  match s.checkcookie .CAP_SYSCTL_LIMIT v with
  | .error e => (s, .raised e)
  | .ok (o, chan) =>
    let t := (s.setObject o (.limit none)).use chan
    match answer with
    | .ok _ => (t, .returned [.integer 1])
    | .error errno => (t, .failed errno)

end Channels

/-! ## The system -/

/-- The functions on a channel that answer with values. -/
inductive ChannelFunction where
  | limit
  | send
  | recv
  | xfer
  deriving DecidableEq

/-- The methods of file arguments that answer with values. -/
inductive FileFunction where
  | lstat
  | open_
  | fopen
  | realpath
  deriving DecidableEq

/-- A call; `close` is also the finalizer of a channel, and `fileargs_free`, `mib_gc` and
`limit_free` are those of the others. -/
inductive Event where
  | init (answer : Except Nat Unit)
  | wrap (rest : Except Raised Unit) (answer : Except Nat Unit)
  | close (v : Option Value)
  | unwrap (v : Option Value) (fd flags : Int)
  | sock (v : Option Value) (fd : Int)
  | request (f : ChannelFunction) (v : Option Value) (rest : Except Raised Unit)
      (answer : Except Nat (List Value))
  | clone (v : Option Value) (answer : Except Nat Unit)
  | service_open (v : Option Value) (rest : Except Raised Unit) (answer : Except Nat Unit)
  | fileargs_init (rest : Except Raised Unit) (answer : Except Nat Unit)
  | fileargs_cinit (v : Option Value) (rest : Except Raised Unit) (answer : Except Nat Unit)
  | fileargs_wrap (v : Option Value) (host : Host) (answer : Except Nat Unit)
  | fileargs_free (v : Option Value)
  | fileargs_request (f : FileFunction) (v : Option Value) (rest : Except Raised Unit)
      (answer : Except Nat (List Value))
  | fileargs_unwrap (v : Option Value) (fdflags : Int)
  | sysctl (v : Option Value) (rest : Except Raised Unit) (answer : Except Nat Bool)
  | mib_gc (v : Option Value)
  | mib_text (text : MibText) (v : Option Value) (a : TextAnswer)
  | mib_value (v : Option Value) (format : TextAnswer) (requests : Nat) (reply : Reply)
  | mib_next (v : Option Value) (initial : Value) (answer : Except Nat Bool)
  | limit_init (v : Option Value) (answer : Except Nat Unit)
  | limit_free (v : Option Value)
  | limit_name (v : Option Value) (rest : Except Raised Unit) (answer : Except Nat Unit)
  | limit (v : Option Value) (answer : Except Nat Unit)

def ChannelFunction.run : ChannelFunction → State → Option Value → Except Raised Unit →
    Except Nat (List Value) → State × Reply
  | limit, s, v, rest, answer => l_cap_limit s v rest answer
  | send, s, v, rest, answer => l_cap_send s v rest answer
  | recv, s, v, _, answer => l_cap_recv s v answer
  | xfer, s, v, rest, answer => l_cap_xfer s v rest answer

def FileFunction.run : FileFunction → State → Option Value → Except Raised Unit →
    Except Nat (List Value) → State × Reply
  | lstat => l_fileargs_lstat
  | open_ => l_fileargs_open
  | fopen => l_fileargs_fopen
  | realpath => l_fileargs_realpath

def MibText.run : MibText → State → Option Value → TextAnswer → State × Reply
  | format => l_cap_mib_format
  | name => l_cap_mib_name
  | description => l_cap_mib_description

/-- What a call does. -/
def Event.run (s : State) : Event → State × Reply
  | init answer => l_cap_init s answer
  | wrap rest answer => l_cap_wrap s rest answer
  | close v => l_cap_close s v
  | unwrap v fd flags => l_cap_unwrap s v fd flags
  | sock v fd => l_cap_sock s v fd
  | request f v rest answer => f.run s v rest answer
  | clone v answer => l_cap_clone s v answer
  | service_open v rest answer => l_cap_service_open s v rest answer
  | fileargs_init rest answer => l_fileargs_init s rest answer
  | fileargs_cinit v rest answer => l_fileargs_cinit s v rest answer
  | fileargs_wrap v host answer => l_fileargs_wrap s v host answer
  | fileargs_free v => l_fileargs_free s v
  | fileargs_request f v rest answer => f.run s v rest answer
  | fileargs_unwrap v fdflags => l_fileargs_unwrap s v fdflags
  | sysctl v rest answer => l_cap_sysctl s v rest answer
  | mib_gc v => l_cap_mib_gc s v
  | mib_text text v a => text.run s v a
  | mib_value v format requests reply => l_cap_mib_value s v format requests reply
  | mib_next v initial answer => l_cap_mib_iter_next s v initial answer
  | limit_init v answer => l_cap_sysctl_limit_init s v answer
  | limit_free v => l_cap_sysctl_limit_free s v
  | limit_name v rest answer => l_cap_sysctl_limit_name s v rest answer
  | limit v answer => l_cap_sysctl_limit s v answer

/-- Any call may come next, and userdata are collected in any order. -/
def system : System State Event where
  init := ⟨[], []⟩
  Enabled _ _ := True
  decEnabled _ _ := inferInstanceAs (Decidable True)
  next s e := (e.run s).1

/-! ## What is expected -/

namespace State
variable (s : State)

/-- The userdata has the channel, and has not given it up. -/
def Owns (o c : Nat) : Prop :=
  s.objects[o]? = some (.channel (some c)) ∨ s.objects[o]? = some (.fileargs (some c) false)

/-- The channel has been neither closed nor unwrapped. -/
def Live (c : Nat) : Prop := ∃ ch, s.channels[c]? = some ch ∧ ch.Live

end State

/-- **What is expected of a state**: every channel has one owner, none has been closed more than
once, and none has been used after that. -/
structure Kept (s : State) : Prop where
  owned : OwnedOnce s.Owns s.Live
  once : ∀ ch ∈ s.channels, ch.closes ≤ 1
  late : ∀ ch ∈ s.channels, ch.late = 0

/-! ## The condition -/

namespace State
variable (s : State)

/-- A userdata still has the channel. -/
def Held (c : Nat) : Prop := .channel (some c) ∈ s.objects

instance (c : Nat) : Decidable (s.Held c) := inferInstanceAs (Decidable (_ ∈ _))

/-- The file arguments have not been freed. -/
def Unfreed (v : Option Value) : Prop :=
  ∀ o c, v = some (.userdata o) → s.objects[o]? ≠ some (.fileargs c true)

/-- A channel of this `struct cap_mib` is still held. -/
def MibHeld (v : Option Value) : Prop :=
  ∀ o m c, v = some (.userdata o) → s.objects[o]? = some (.mib m) → m.chan = some c → s.Held c

/-- The channel of this limit is still held. -/
def LimitHeld (v : Option Value) : Prop :=
  ∀ o c, v = some (.userdata o) → s.objects[o]? = some (.limit (some c)) → s.Held c

end State

/-- A text of this `struct cap_mib` is there. -/
def State.HasText (s : State) (text : MibText) (v : Option Value) : Prop :=
  ∃ o m, v = some (.userdata o) ∧ s.objects[o]? = some (.mib m) ∧ m.has text = true

/-- The condition on a call: nothing is called on file arguments that have been freed, and a
request of a `struct cap_mib` or a limit is sent while a userdata still has the channel. -/
def Careful (s : State) : Event → Prop
  | .fileargs_free v | .fileargs_request _ v _ _ | .fileargs_unwrap v _ => s.Unfreed v
  | .mib_text text v _ => s.HasText text v ∨ s.MibHeld v
  | .mib_value v _ requests _ => (s.HasText .format v ∧ requests = 0) ∨ s.MibHeld v
  | .limit v _ => s.LimitHeld v
  | _ => True

/-! ## Who has a channel -/

/-- The channel that a userdata has. -/
def Object.owned : Object → Option Nat
  | channel c => c
  | fileargs c false => c
  | _ => none

section Owners
variable {s t : State} {o p c d : Nat} {x : Object}

theorem State.owns_iff : s.Owns o c ↔ ∃ x, s.objects[o]? = some x ∧ x.owned = some c := by
  constructor
  · rintro (h | h)
    · exact ⟨_, h, rfl⟩
    · exact ⟨_, h, rfl⟩
  · rintro ⟨x, hx, howned⟩
    cases x with
    | channel cookie =>
      cases howned
      exact Or.inl hx
    | fileargs cookie freed =>
      cases freed with
      | false =>
        cases howned
        exact Or.inr hx
      | true => cases howned
    | mib m => cases howned
    | limit cookie => cases howned

theorem State.Owns.eq (h : s.Owns o c) (h' : s.Owns o d) : c = d := by
  obtain ⟨x, hx, howned⟩ := State.owns_iff.mp h
  obtain ⟨y, hy, howned'⟩ := State.owns_iff.mp h'
  cases hx.symm.trans hy
  exact Option.some.inj (howned.symm.trans howned')

theorem State.owns_new : (s.new x).1.Owns p c ↔
    s.Owns p c ∨ p = s.objects.length ∧ x.owned = some c := by
  rw [State.owns_iff, State.owns_iff]
  by_cases hp : p = s.objects.length
  · subst hp
    have hget : (s.new x).1.objects[s.objects.length]? = some x := List.getElem?_concat_length
    rw [hget, List.getElem?_eq_none (Nat.le_refl _)]
    simp
  · have hget : (s.new x).1.objects[p]? = s.objects[p]? := getElem?_concat_of_ne hp
    rw [hget]
    simp [hp]

/-- A userdata is changed. -/
theorem State.owns_set (ht : t.objects = s.objects.set o x) (ho : o < s.objects.length) :
    t.Owns p c ↔ s.Owns p c ∧ p ≠ o ∨ p = o ∧ x.owned = some c := by
  rw [State.owns_iff, State.owns_iff, ht, List.getElem?_set]
  by_cases hp : o = p
  · subst hp
    rw [if_pos rfl, if_pos ho]
    simp
  · rw [if_neg hp]
    simp [Ne.symm hp]

theorem State.Owns.lt (h : s.Owns o c) : o < s.objects.length := by
  obtain ⟨x, hx, -⟩ := State.owns_iff.mp h
  exact (List.getElem?_eq_some_iff.mp hx).1

/-! ### Checks -/

/-- The types whose userdata have a cookie. -/
theorem State.cookie_eq_some {m : Metatable} {c : Option Nat} (h : s.cookie m o = some c) :
    m = .CAP_CHANNEL ∧ s.objects[o]? = some (.channel c) ∨
      m = .FILEARGS ∧ (∃ freed, s.objects[o]? = some (.fileargs c freed)) ∨
        m = .CAP_SYSCTL_LIMIT ∧ s.objects[o]? = some (.limit c) := by
  unfold State.cookie at h
  split at h
  · next hget =>
    cases h
    exact Or.inl ⟨rfl, hget⟩
  · next hget =>
    cases h
    exact Or.inr (Or.inl ⟨rfl, _, hget⟩)
  · next hget =>
    cases h
    exact Or.inr (Or.inr ⟨rfl, hget⟩)
  · cases h

theorem State.cookie_channel {c : Option Nat} (h : s.cookie .CAP_CHANNEL o = some c) :
    s.objects[o]? = some (.channel c) := by
  rcases State.cookie_eq_some h with ⟨-, hget⟩ | ⟨hm, -⟩ | ⟨hm, -⟩
  · exact hget
  · cases hm
  · cases hm

theorem State.cookie_fileargs {c : Option Nat} (h : s.cookie .FILEARGS o = some c) :
    ∃ freed, s.objects[o]? = some (.fileargs c freed) := by
  rcases State.cookie_eq_some h with ⟨hm, -⟩ | ⟨-, hget⟩ | ⟨hm, -⟩
  · cases hm
  · exact hget
  · cases hm

theorem State.cookie_limit {c : Option Nat} (h : s.cookie .CAP_SYSCTL_LIMIT o = some c) :
    s.objects[o]? = some (.limit c) := by
  rcases State.cookie_eq_some h with ⟨hm, -⟩ | ⟨hm, -⟩ | ⟨-, hget⟩
  · cases hm
  · cases hm
  · exact hget

theorem State.checkcookienull_ok {m : Metatable} {v : Option Value} {c : Option Nat}
    (h : s.checkcookienull m v = .ok (o, c)) :
    v = some (.userdata o) ∧ s.cookie m o = some c := by
  unfold State.checkcookienull at h
  split at h
  · split at h
    · next hcookie =>
      cases h
      exact ⟨rfl, hcookie⟩
    · cases h
  · cases h

theorem State.checkcookie_ok {m : Metatable} {v : Option Value}
    (h : s.checkcookie m v = .ok (o, c)) :
    v = some (.userdata o) ∧ s.cookie m o = some (some c) := by
  unfold State.checkcookie at h
  split at h <;> cases h
  next hnull => exact State.checkcookienull_ok hnull

theorem State.checkmib_ok {v : Option Value} {m : Mib} (h : s.checkmib v = .ok (o, m)) :
    v = some (.userdata o) ∧ s.objects[o]? = some (.mib m) := by
  unfold State.checkmib at h
  split at h
  · split at h
    · next hget =>
      cases h
      exact ⟨rfl, hget⟩
    · cases h
  · cases h

/-- A channel that passes the check belongs to its userdata. -/
theorem State.owns_of_checkcookie {v : Option Value}
    (h : s.checkcookie .CAP_CHANNEL v = .ok (o, c)) : s.Owns o c :=
  Or.inl (State.cookie_channel (State.checkcookie_ok h).2)

/-- File arguments that have not been freed have their channel. -/
theorem State.owns_of_unfreed {v : Option Value} (hunfreed : s.Unfreed v)
    (hv : v = some (.userdata o)) (h : s.cookie .FILEARGS o = some (some c)) : s.Owns o c := by
  obtain ⟨freed, hget⟩ := State.cookie_fileargs h
  cases freed with
  | false => exact Or.inr hget
  | true => exact absurd hget (hunfreed o c hv)

/-! ### Channels that are live -/

theorem State.live_modify {f : Channel → Channel} (hf : ∀ ch, ¬ (f ch).Live)
    (ht : t.channels = s.channels.modify c f) : t.Live d ↔ s.Live d ∧ d ≠ c := by
  rw [State.Live, State.Live, ht, List.getElem?_modify]
  by_cases hd : c = d
  · subst hd
    cases s.channels[c]? with
    | none => simp
    | some ch => simp [hf ch]
  · cases s.channels[d]? with
    | none => simp
    | some ch => simp [hd, Ne.symm hd]

/-- **A channel that is live is used without harm.** -/
theorem State.use_of_live (h : s.Live c) : s.use c = s := by
  obtain ⟨ch, hget, hlive⟩ := h
  have hsame : s.channels.modify c (fun ch =>
      if ch.Live then ch else { ch with late := ch.late + 1 }) = s.channels := by
    refine List.ext_getElem? (fun i => ?_)
    by_cases hc : c = i
    · subst hc
      rw [List.getElem?_modify_eq, hget]
      exact congrArg some (if_pos hlive)
    · rw [List.getElem?_modify_ne _ _ hc]
  rw [State.use, hsame]

theorem Channel.not_live_close (ch : Channel) :
    ¬ ({ ch with closes := ch.closes + 1 } : Channel).Live :=
  fun h => Nat.succ_ne_zero _ h.1

theorem Channel.not_live_unwrap (ch : Channel) :
    ¬ ({ ch with unwrapped := true } : Channel).Live := by
  rintro ⟨-, h⟩
  cases h

/-! ## What keeps the channels -/

theorem kept_init : Kept system.init where
  owned := OwnedOnce.empty (fun o c h => by rcases h with h | h <;> cases h)
    (fun c h => by
      obtain ⟨ch, hget, -⟩ := h
      cases hget)
  once := List.forall_mem_nil _
  late := List.forall_mem_nil _

namespace Kept
variable (h : Kept s)
include h

theorem owns_live (hown : s.Owns o c) : s.Live c := h.owned.live o c hown

theorem use (hlive : s.Live c) : Kept (s.use c) := (State.use_of_live hlive).symm ▸ h

/-- A userdata that has no channel. -/
theorem new (hx : x.owned = none) : Kept (s.new x).1 where
  owned := by
    refine h.owned.congr (fun p d => ?_) (fun _ => Iff.rfl)
    rw [State.owns_new, hx]
    simp
  once := h.once
  late := h.late

/-- **A new channel**, with its userdata. -/
theorem opened {x : Nat → Object} (hx : (x s.channels.length).owned = some s.channels.length)
    (answer : Except Nat Unit) : Kept (s.opened x answer).1 := by
  cases answer with
  | error errno => exact h
  | ok _ =>
    have hlive (d : Nat) : (s.opened x (.ok ())).1.Live d ↔ s.Live d ∨ d = s.channels.length := by
      show (∃ ch, (s.channels ++ [(⟨0, false, 0⟩ : Channel)])[d]? = some ch ∧ ch.Live) ↔ _
      by_cases hd : d = s.channels.length
      · subst hd
        rw [List.getElem?_concat_length]
        exact iff_of_true ⟨_, rfl, rfl, rfl⟩ (Or.inr rfl)
      · rw [getElem?_concat_of_ne hd, or_iff_left hd]
        exact Iff.rfl
    have hzero : (⟨0, false, 0⟩ : Channel).closes ≤ 1 ∧ (⟨0, false, 0⟩ : Channel).late = 0 :=
      ⟨Nat.zero_le 1, rfl⟩
    refine ⟨?_, ?_, ?_⟩
    · refine h.owned.acquire s.objects.length (· = s.channels.length) ?_ (fun p d => ?_) hlive
      · rintro d rfl ⟨ch, hget, -⟩
        exact Nat.lt_irrefl _ (List.getElem?_eq_some_iff.mp hget).1
      · refine State.owns_new.trans ?_
        rw [hx, Option.some.injEq, eq_comm (a := s.channels.length)]
        exact Iff.rfl
    · exact List.forall_mem_append.mpr ⟨h.once, List.forall_mem_singleton.mpr hzero.1⟩
    · exact List.forall_mem_append.mpr ⟨h.late, List.forall_mem_singleton.mpr hzero.2⟩

/-- **A channel is let go** by its userdata, and is not live any more. -/
theorem release {f : Channel → Channel} (hown : s.Owns o c) (hx : x.owned = none)
    (hlive : ∀ ch, ¬ (f ch).Live) (honce : ∀ ch, ch.Live → (f ch).closes ≤ 1)
    (hlate : ∀ ch, (f ch).late = ch.late) (hobjects : t.objects = s.objects.set o x)
    (hchannels : t.channels = s.channels.modify c f) : Kept t where
  owned := by
    refine h.owned.release (· = c) (fun p d => ?_)
      (fun d => State.live_modify hlive hchannels)
    rw [State.owns_set hobjects hown.lt, hx]
    constructor
    · rintro (⟨hp, hne⟩ | ⟨-, hnone⟩)
      · refine ⟨hp, fun hd => hne ?_⟩
        subst hd
        exact h.owned.unique p o d hp hown
      · cases hnone
    · rintro ⟨hp, hd⟩
      refine Or.inl ⟨hp, fun heq => hd ?_⟩
      subst heq
      exact hp.eq hown
  once := by
    rw [hchannels]
    refine forall_mem_modify h.once (fun ch hget => honce ch ?_)
    obtain ⟨ch', hget', hlive'⟩ := h.owns_live hown
    cases hget.symm.trans hget'
    exact hlive'
  late := by
    rw [hchannels]
    exact forall_mem_modify h.late (fun ch hget =>
      (hlate ch).trans (h.late ch (List.mem_of_getElem? hget)))

theorem close (hown : s.Owns o c) (hx : x.owned = none) :
    Kept ((s.cap_close c).setObject o x) :=
  h.release hown hx Channel.not_live_close (fun ch hch => by rw [hch.1]) (fun _ => rfl) rfl rfl

theorem unwrap (hown : s.Owns o c) (hx : x.owned = none) :
    Kept ((s.setObject o x).cap_unwrap c) :=
  h.release hown hx Channel.not_live_unwrap
    (fun ch hch => by
      show ch.closes ≤ 1
      rw [hch.1]
      exact Nat.zero_le 1)
    (fun _ => rfl) rfl rfl

/-- A userdata that has no channel is changed. -/
theorem setObject {y : Object} (hy : s.objects[o]? = some y) (hold : y.owned = none)
    (hx : x.owned = none) : Kept (s.setObject o x) where
  owned := by
    refine h.owned.congr (fun p d => ?_) (fun _ => Iff.rfl)
    rw [State.owns_set rfl (List.getElem?_eq_some_iff.mp hy).1, hx]
    constructor
    · rintro (⟨hp, -⟩ | ⟨-, hnone⟩)
      · exact hp
      · cases hnone
    · intro hp
      refine Or.inl ⟨hp, fun heq => ?_⟩
      subst heq
      obtain ⟨z, hz, howned⟩ := State.owns_iff.mp hp
      cases hy.symm.trans hz
      rw [hold] at howned
      cases howned
  once := h.once
  late := h.late

/-- **A channel changes hands**: a new userdata has it, and the old one does not. -/
theorem transfer {y : Object} (hown : s.Owns o c) (hx : x.owned = none) (hy : y.owned = some c) :
    Kept ((s.setObject o x).new y).1 where
  owned := by
    have howns (p d : Nat) : ((s.setObject o x).new y).1.Owns p d ↔
        s.Owns p d ∧ p ≠ o ∨ p = s.objects.length ∧ d = c := by
      have hlength : (s.setObject o x).objects.length = s.objects.length := List.length_set ..
      rw [State.owns_new, State.owns_set rfl hown.lt, hx, hy, hlength, Option.some.injEq]
      simp [eq_comm]
    have hlt := hown.lt
    refine ⟨fun p d hp => ?_, fun p q d hp hq => ?_, fun d hd => ?_⟩
    · rcases (howns p d).mp hp with ⟨hp, -⟩ | ⟨-, rfl⟩
      · exact h.owns_live hp
      · exact h.owns_live hown
    · rcases (howns p d).mp hp with ⟨hp, hpo⟩ | ⟨rfl, rfl⟩ <;>
        rcases (howns q d).mp hq with ⟨hq, hqo⟩ | ⟨rfl, hd⟩
      · exact h.owned.unique p q d hp hq
      · subst hd
        exact absurd (h.owned.unique p o d hp hown) hpo
      · exact absurd (h.owned.unique q o d hq hown) hqo
      · rfl
    · obtain ⟨p, hp⟩ := h.owned.owned d hd
      by_cases hpo : p = o
      · subst hpo
        exact ⟨_, (howns _ d).mpr (Or.inr ⟨rfl, hp.eq hown⟩)⟩
      · exact ⟨p, (howns p d).mpr (Or.inl ⟨hp, hpo⟩)⟩
  once := h.once
  late := h.late

end Kept

end Owners

/-! ## Every call -/

section Calls
variable {s : State} {v : Option Value} {rest : Except Raised Unit}

theorem State.Held.live {c : Nat} (hheld : s.Held c) (h : Kept s) : s.Live c := by
  obtain ⟨o, ho⟩ := List.getElem?_of_mem hheld
  exact h.owns_live (Or.inl ho)

/-- A request on a live channel leaves everything as it is. -/
theorem Mib.request_eq {m : Mib} (hlive : ∀ c, m.chan = some c → s.Live c) : m.request s = s := by
  rw [Mib.request]
  cases hchan : m.chan with
  | none => rfl
  | some c => exact State.use_of_live (hlive c hchan)

namespace Kept
variable (h : Kept s)
include h

theorem used {m : Metatable} (hlive : ∀ o c, s.checkcookie m v = .ok (o, c) → s.Live c)
    (answer : Except Nat (List Value)) : Kept (Casper.used s v rest m answer).1 := by
  unfold Casper.used
  cases hcheck : s.checkcookie m v with
  | error e => exact h
  | ok result =>
    obtain ⟨o, chan⟩ := result
    cases rest with
    | error e => exact h
    | ok _ => cases answer <;> exact h.use (hlive o chan hcheck)

theorem used_channel (answer : Except Nat (List Value)) :
    Kept (Casper.used s v rest .CAP_CHANNEL answer).1 :=
  h.used (fun _ _ hcheck => h.owns_live (State.owns_of_checkcookie hcheck)) answer

theorem used_fileargs (hunfreed : s.Unfreed v) (answer : Except Nat (List Value)) :
    Kept (Casper.used s v rest .FILEARGS answer).1 := by
  refine h.used (fun o c hcheck => ?_) answer
  obtain ⟨hv, hcookie⟩ := State.checkcookie_ok hcheck
  exact h.owns_live (State.owns_of_unfreed hunfreed hv hcookie)

theorem derived {x : Nat → Object} (hx : ∀ c, (x c).owned = some c) (answer : Except Nat Unit) :
    Kept (Casper.derived s v rest x answer).1 := by
  unfold Casper.derived
  cases hcheck : s.checkcookie .CAP_CHANNEL v with
  | error e => exact h
  | ok result =>
    obtain ⟨o, chan⟩ := result
    cases rest with
    | error e => exact h
    | ok _ => exact (h.use (h.owns_live (State.owns_of_checkcookie hcheck))).opened (hx _) answer

theorem l_cap_close : Kept (Casper.l_cap_close s v).1 := by
  unfold Casper.l_cap_close
  cases hcheck : s.checkcookienull .CAP_CHANNEL v with
  | error e => exact h
  | ok result =>
    obtain ⟨o, cookie⟩ := result
    cases cookie with
    | none => exact h
    | some chan =>
      have hcookie := State.cookie_channel (State.checkcookienull_ok hcheck).2
      exact h.close (Or.inl hcookie) rfl

theorem l_cap_unwrap (fd flags : Int) : Kept (Casper.l_cap_unwrap s v fd flags).1 := by
  unfold Casper.l_cap_unwrap
  cases hcheck : s.checkcookie .CAP_CHANNEL v with
  | error e => exact h
  | ok result =>
    obtain ⟨o, chan⟩ := result
    exact h.unwrap (State.owns_of_checkcookie hcheck) rfl

/-- **A channel is never wrapped**: its userdata is not an integer. -/
theorem l_fileargs_wrap (host : Host) (answer : Except Nat Unit) :
    Kept (Casper.l_fileargs_wrap s v host answer).1 := by
  unfold Casper.l_fileargs_wrap
  cases hcheck : s.checkcookie .CAP_CHANNEL v with
  | error e => exact h
  | ok result =>
    obtain ⟨o, chan⟩ := result
    obtain ⟨rfl, -⟩ := State.checkcookie_ok hcheck
    exact h

theorem l_fileargs_free (hunfreed : s.Unfreed v) : Kept (Casper.l_fileargs_free s v).1 := by
  unfold Casper.l_fileargs_free
  cases hcheck : s.checkcookienull .FILEARGS v with
  | error e => exact h
  | ok result =>
    obtain ⟨o, cookie⟩ := result
    obtain ⟨hv, hcookie⟩ := State.checkcookienull_ok hcheck
    cases cookie with
    | none => exact h
    | some chan => exact h.close (State.owns_of_unfreed hunfreed hv hcookie) rfl

theorem l_fileargs_unwrap (hunfreed : s.Unfreed v) (fdflags : Int) :
    Kept (Casper.l_fileargs_unwrap s v fdflags).1 := by
  unfold Casper.l_fileargs_unwrap
  cases hcheck : s.checkcookie .FILEARGS v with
  | error e => exact h
  | ok result =>
    obtain ⟨o, chan⟩ := result
    obtain ⟨hv, hcookie⟩ := State.checkcookie_ok hcheck
    exact h.transfer (State.owns_of_unfreed hunfreed hv hcookie) rfl rfl

theorem l_cap_sysctl (answer : Except Nat Bool) : Kept (Casper.l_cap_sysctl s v rest answer).1 := by
  unfold Casper.l_cap_sysctl
  cases s.checkcookie .CAP_CHANNEL v with
  | error e => exact h
  | ok result =>
    cases rest with
    | error e => exact h
    | ok _ =>
      cases answer with
      | error errno => exact h
      | ok named => exact h.new rfl

theorem l_cap_mib_gc : Kept (Casper.l_cap_mib_gc s v).1 := by
  unfold Casper.l_cap_mib_gc
  cases hcheck : s.checkmib v with
  | error e => exact h
  | ok result =>
    obtain ⟨o, m⟩ := result
    exact h.setObject (State.checkmib_ok hcheck).2 rfl rfl

/-- The request for a text is a request on a live channel. -/
theorem mib_request {o : Nat} {m : Mib} (hcheck : s.checkmib v = .ok (o, m))
    (hheld : s.MibHeld v) : m.request s = s := by
  obtain ⟨hv, hget⟩ := State.checkmib_ok hcheck
  exact Mib.request_eq (fun c hchan => (hheld o m c hv hget hchan).live h)

/-- A text leaves all but the `struct cap_mib` as it is. -/
theorem l_cap_mib_text (text : MibText) (refused : Nat → Reply) (a : TextAnswer)
    (hasks : s.HasText text v ∨ s.MibHeld v) :
    (Casper.l_cap_mib_text s v text refused a).1 = s ∨
      ∃ o m, s.objects[o]? = some (.mib m) ∧
        (Casper.l_cap_mib_text s v text refused a).1 = s.setObject o (.mib (m.keep text)) := by
  unfold Casper.l_cap_mib_text
  cases hcheck : s.checkmib v with
  | error e => exact Or.inl rfl
  | ok result =>
    obtain ⟨o, m⟩ := result
    obtain ⟨hv, hget⟩ := State.checkmib_ok hcheck
    by_cases htext : m.has text = true
    · simp only [if_pos htext, true_or]
    · -- the text has to be asked for
      have hheld : s.MibHeld v := by
        refine hasks.resolve_left ?_
        rintro ⟨o', m', hv', hget', htext'⟩
        cases hv.symm.trans hv'
        cases hget.symm.trans hget'
        exact htext htext'
      have hrequest := h.mib_request hcheck hheld
      simp only [if_neg htext, hrequest]
      cases a.answer with
      | error errno => exact Or.inl rfl
      | ok values =>
        cases values with
        | none => exact Or.inl rfl
        | some values => exact Or.inr ⟨o, m, hget, rfl⟩

theorem mib_text {text : MibText} {refused : Nat → Reply} {a : TextAnswer}
    (hasks : s.HasText text v ∨ s.MibHeld v) :
    Kept (Casper.l_cap_mib_text s v text refused a).1 := by
  rcases h.l_cap_mib_text text refused a hasks with heq | ⟨o, m, hget, heq⟩
  · rw [heq]
    exact h
  · rw [heq]
    exact h.setObject hget rfl rfl

omit h in
theorem requests {m : Mib} (hrequest : m.request s = s) (n : Nat) :
    (List.range n).foldl (fun t _ => m.request t) s = s := by
  induction n with
  | zero => rfl
  | succ n ih => rw [List.range_succ, List.foldl_append, ih, List.foldl_cons, hrequest,
      List.foldl_nil]

theorem mib_value (format : TextAnswer) (requests : Nat) (reply : Reply)
    (hasks : (s.HasText .format v ∧ requests = 0) ∨ s.MibHeld v) :
    Kept (l_cap_mib_value s v format requests reply).1 := by
  have hformat : s.HasText .format v ∨ s.MibHeld v := hasks.imp_left And.left
  unfold l_cap_mib_value
  cases hcheck : s.checkmib v with
  | error e => exact h
  | ok result =>
    obtain ⟨o, m⟩ := result
    have hkept : Kept (l_cap_mib_format s v format).1 := h.mib_text hformat
    have hchannels : (l_cap_mib_format s v format).1.channels = s.channels := by
      rw [l_cap_mib_format]
      rcases h.l_cap_mib_text .format .failed format hformat with heq | ⟨o', m', -, heq⟩
      · rw [heq]
      · rw [heq]
        rfl
    have hvalue : ∀ t, t.channels = s.channels →
        (List.range requests).foldl (fun t _ => m.request t) t = t := by
      intro t ht
      rcases hasks with ⟨-, rfl⟩ | hheld
      · rfl
      · refine Kept.requests (Mib.request_eq (fun c hchan => ?_)) requests
        obtain ⟨hv, hget⟩ := State.checkmib_ok hcheck
        rw [State.Live, ht]
        exact (hheld o m c hv hget hchan).live h
    generalize l_cap_mib_format s v format = first at hkept hchannels
    obtain ⟨t, answer⟩ := first
    cases answer with
    | raised e => exact hkept
    | failed errno =>
      show Kept ((List.range requests).foldl (fun t _ => m.request t) t)
      rw [hvalue t hchannels]
      exact hkept
    | returned values =>
      show Kept ((List.range requests).foldl (fun t _ => m.request t) t)
      rw [hvalue t hchannels]
      exact hkept

theorem mib_next (initial : Value) (answer : Except Nat Bool) :
    Kept (l_cap_mib_iter_next s v initial answer).1 := by
  unfold l_cap_mib_iter_next
  cases s.checkmib v with
  | error e => exact h
  | ok result =>
    cases answer with
    | error errno => exact h
    | ok another =>
      cases another with
      | false => exact h
      | true => exact h.new rfl

theorem limit_init (answer : Except Nat Unit) :
    Kept (l_cap_sysctl_limit_init s v answer).1 := by
  unfold l_cap_sysctl_limit_init
  cases s.checkcookie .CAP_CHANNEL v with
  | error e => exact h
  | ok result =>
    cases answer with
    | error errno => exact h
    | ok _ => exact h.new rfl

theorem limit_free : Kept (l_cap_sysctl_limit_free s v).1 := by
  unfold l_cap_sysctl_limit_free
  cases hcheck : s.checkcookienull .CAP_SYSCTL_LIMIT v with
  | error e => exact h
  | ok result =>
    obtain ⟨o, cookie⟩ := result
    exact h.setObject (State.cookie_limit (State.checkcookienull_ok hcheck).2) rfl rfl

theorem limit_name (answer : Except Nat Unit) :
    Kept (l_cap_sysctl_limit_name s v rest answer).1 := by
  unfold l_cap_sysctl_limit_name
  cases s.checkcookie .CAP_SYSCTL_LIMIT v with
  | error e => exact h
  | ok result =>
    cases rest with
    | error e => exact h
    | ok _ => cases answer <;> exact h

theorem limit (hheld : s.LimitHeld v) (answer : Except Nat Unit) :
    Kept (l_cap_sysctl_limit s v answer).1 := by
  unfold l_cap_sysctl_limit
  cases hcheck : s.checkcookie .CAP_SYSCTL_LIMIT v with
  | error e => exact h
  | ok result =>
    obtain ⟨o, chan⟩ := result
    obtain ⟨hv, hcookie⟩ := State.checkcookie_ok hcheck
    have hget := State.cookie_limit hcookie
    have hlive : (s.setObject o (.limit none)).Live chan := (hheld o chan hv hget).live h
    have hkept := (h.setObject hget rfl rfl (x := .limit none)).use hlive
    cases answer <;> exact hkept

end Kept
end Calls

/-- **One call** keeps the channels. -/
theorem kept_step {s : State} {e : Event} (h : Kept s) (hcareful : Careful s e) :
    Kept (system.next s e) := by
  cases e with
  | init answer => exact h.opened rfl answer
  | wrap rest answer =>
    cases rest with
    | error e => exact h
    | ok _ => exact h.opened rfl answer
  | close v => exact h.l_cap_close
  | unwrap v fd flags => exact h.l_cap_unwrap fd flags
  | sock v fd => exact h.used_channel _
  | request f v rest answer => cases f <;> exact h.used_channel answer
  | clone v answer => exact h.derived (fun _ => rfl) answer
  | service_open v rest answer => exact h.derived (fun _ => rfl) answer
  | fileargs_init rest answer =>
    cases rest with
    | error e => exact h
    | ok _ => exact h.opened rfl answer
  | fileargs_cinit v rest answer => exact h.derived (fun _ => rfl) answer
  | fileargs_wrap v host answer => exact h.l_fileargs_wrap host answer
  | fileargs_free v => exact h.l_fileargs_free hcareful
  | fileargs_request f v rest answer => cases f <;> exact h.used_fileargs hcareful answer
  | fileargs_unwrap v fdflags => exact h.l_fileargs_unwrap hcareful fdflags
  | sysctl v rest answer => exact h.l_cap_sysctl answer
  | mib_gc v => exact h.l_cap_mib_gc
  | mib_text text v a => cases text <;> exact h.mib_text hcareful
  | mib_value v format requests reply => exact h.mib_value format requests reply hcareful
  | mib_next v initial answer => exact h.mib_next initial answer
  | limit_init v answer => exact h.limit_init answer
  | limit_free v => exact h.limit_free
  | limit_name v rest answer => exact h.limit_name answer
  | limit v answer => exact h.limit hcareful answer

/-- **When the channels are kept**: in every run in which nothing is called on file arguments that
have been freed, and requests are sent while a userdata has the channel. -/
theorem kept_of_careful {s : State} (h : system.ReachableBy Careful s) : Kept s :=
  h.invariant kept_init (fun _ _ hkept hcareful _ => kept_step hkept hcareful)

/-! ## Runs -/

/-- A channel is made, and a `struct cap_mib` from it, which asks for its format; then the
channel is closed. -/
theorem closedAfterRequest_kept :
    Kept ⟨[⟨1, false, 0⟩], [.channel none, .mib ⟨some 0, true, false, false⟩]⟩ := by
  have hinit : system.ReachableBy Careful ⟨[⟨0, false, 0⟩], [.channel (some 0)]⟩ :=
    System.ReachableBy.init.step (e := Event.init (.ok ())) trivial trivial
  have hmib : system.ReachableBy Careful
      ⟨[⟨0, false, 0⟩], [.channel (some 0), .mib ⟨some 0, false, false, false⟩]⟩ :=
    hinit.step (e := Event.sysctl (some (.userdata 0)) (.ok ()) (.ok false)) trivial trivial
  have hheld : State.MibHeld
      ⟨[⟨0, false, 0⟩], [.channel (some 0), .mib ⟨some 0, false, false, false⟩]⟩
      (some (.userdata 1)) := by
    intro o m c hv hget hchan
    cases hv
    cases hget
    cases hchan
    exact List.mem_cons_self ..
  have hformat : system.ReachableBy Careful
      ⟨[⟨0, false, 0⟩], [.channel (some 0), .mib ⟨some 0, true, false, false⟩]⟩ :=
    hmib.step (e := Event.mib_text .format (some (.userdata 1)) ⟨[], .ok (some [])⟩) (Or.inr hheld)
      trivial
  exact kept_of_careful (hformat.step (e := Event.close (some (.userdata 0))) trivial trivial)

/-- File arguments are freed, by a call of the finalizer, and then by the collector. -/
def freedTwice : List Event :=
  [.fileargs_init (.ok ()) (.ok ()), .fileargs_free (some (.userdata 0)),
    .fileargs_free (some (.userdata 0))]

/-- A `struct cap_mib` asks for its format when its channel has been closed. -/
def requestAfterClose : List Event :=
  [.init (.ok ()), .sysctl (some (.userdata 0)) (.ok ()) (.ok false), .close (some (.userdata 0)),
    .mib_text .format (some (.userdata 1)) ⟨[], .ok (some [])⟩]

/-- In the first run a channel is closed twice, and in the second it is used after it is closed. -/
theorem runs_not_kept :
    (∃ s, system.run freedTwice = some s ∧ ¬ Kept s) ∧
      ∃ s, system.run requestAfterClose = some s ∧ ¬ Kept s := by
  constructor
  · refine ⟨⟨[⟨2, false, 0⟩], [.fileargs (some 0) true]⟩, rfl, fun h => ?_⟩
    exact absurd (h.once _ (List.mem_cons_self ..)) (by decide)
  · refine ⟨⟨[⟨1, false, 1⟩], [.channel none, .mib ⟨some 0, true, false, false⟩]⟩, rfl,
      fun h => ?_⟩
    exact absurd (h.late _ (List.mem_cons_self ..)) (by decide)

end Casper
end FluaLibs
