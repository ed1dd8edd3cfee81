import FluaLibs.LuaArguments
import FluaLibs.MachineWords
import Mathlib.Data.List.TakeWhile

/-! # Reading inotify events

One `read(2)` of an inotify descriptor gives some events, each a header of 16 bytes and
the number of bytes that the header says: a name, filled up with NULs.  The loop goes from
one event to the next until all bytes that were read are used up.  A table for an event has
its watch descriptor, its mask and its name, but not its cookie.
-/
namespace FluaLibs
namespace Inotify
open LuaArguments
variable {R : Runtime}

abbrev Bytes : Type := List UInt8

/-! ## Events -/

/-- A name, and how many NULs there are behind the one that ends it. -/
structure Name where
  text : Bytes
  nul_free : 0 ∉ text
  padding : Nat
  deriving DecidableEq

def Name.bytes (n : Name) : Bytes := n.text ++ List.replicate (n.padding + 1) 0

/-- `struct inotify_event` -/
structure Event where
  wd : Int32
  mask : UInt32
  cookie : UInt32
  name : Option Name
  deriving DecidableEq

/-- `sizeof(struct inotify_event)`, without the name. -/
def headerSize : Nat := 16

/-- The bytes behind the header. -/
def Event.nameBytes (e : Event) : Bytes :=
  match e.name with
  | some n => n.bytes
  | none => []

def Event.bytes (o : ByteOrder) (e : Event) : Bytes :=
  o.bytes 4 e.wd.toUInt32.toNat ++ (o.bytes 4 e.mask.toNat ++ (o.bytes 4 e.cookie.toNat ++
    (o.bytes 4 e.nameBytes.length ++ e.nameBytes)))

/-- Some events, one behind the other. -/
def encode (o : ByteOrder) (events : List Event) : Bytes := (events.map (Event.bytes o)).flatten

/-! ## The code -/

/-- What is outside the module: the descriptor in the user value of each inotify handle, and
what `read(2)` gives. -/
structure Env where
  order : ByteOrder
  filedesc : Nat → Option Value
  read : Int → Nat → Except Nat Bytes

/-- A table, as its fields in the order in which they are set. -/
abbrev Fields : Type := List (String × Value)

/-- `lua_pushstring` at an address: the bytes up to a NUL, if there is one. -/
def stringAt (m : Bytes) (addr : Nat) : Option Bytes :=
  if 0 ∈ m.drop addr then some (cstr (m.drop addr)) else none

/-- What `pushevent` gives: the table, the next event and what is left. -/
structure Pushed where
  fields : Fields
  next : Nat
  resid : Int

/-- The field for the name. -/
def nameField (m : Bytes) (addr len : Nat) : Option Fields :=
  if 0 < len then
    match stringAt m addr with
    | some s => some [("name", .string s)]
    | none => none
  else some []

/-- `pushevent`; there is no result if a byte is read that is not one of `m`. -/
def pushevent (o : ByteOrder) (m : Bytes) (ie : Nat) (resid : Int) : Option Pushed :=
  if ie + headerSize ≤ m.length then
    let len := o.word m (ie + 12) 4
    match nameField m (ie + headerSize) len with
    | some name =>
      some
        { fields :=
            [("wd", .integer (IntType.int32.wrap (o.word m ie 4))),
              ("mask", .integer (o.word m (ie + 4) 4))] ++ name
          next := ie + (headerSize + len)
          resid := resid - (headerSize + len : Nat) }
    | none => none
  else none

/-- Every event takes something away. -/
theorem pushevent_resid {o : ByteOrder} {m : Bytes} {ie : Nat} {resid : Int} {p : Pushed}
    (h : pushevent o m ie resid = some p) : p.resid < resid := by
  unfold pushevent at h
  dsimp only at h
  split at h
  · split at h
    · cases h
      show resid - (headerSize + _ : Nat) < resid
      rw [headerSize]
      omega
    · cases h
  · cases h

/-- The loop of `l_inotify_read`, which ends whatever the bytes are. -/
def events (o : ByteOrder) (m : Bytes) (ie : Nat) (len : Int) : Option (List Fields) :=
  if 0 < len then
    match _h : pushevent o m ie len with
    | some p => (events o m p.next p.resid).map (p.fields :: ·)
    | none => none
  else some []
termination_by len.toNat
decreasing_by
  have hless := pushevent_resid _h
  omega

/-- How a call ends; `overread` is a read behind what the kernel has returned. -/
inductive Outcome where
  | raised (e : Raised)
  | failed (errno : Nat)
  | returned (events : List Fields)
  | overread
  deriving DecidableEq

def checkinotify (env : Env) (idx : Int) (v : Option Value) : Except Raised Int :=
  match v with
  | some (.userdata u) =>
    match env.filedesc u with
    | some (.integer fd) => .ok (IntType.int.wrap fd)
    | some _ => .error (.argerror idx "invalid inotify fd (closed)")
    | none => .error (.typeerror idx "inotify fd")
  | _ => .error (.typeerror idx "inotify fd")

/-- `sizeof(event)`: a header and `NAME_MAX + 1` bytes. -/
def bufferSize : Nat := headerSize + 256

def l_inotify_read (env : Env) (L : LuaState R) : Outcome :=
  match checkinotify env 1 (L.index 1) with
  | .error e => .raised e
  | .ok fd =>
    match env.read fd bufferSize with
    | .error errno => .failed errno
    | .ok m =>
      match events env.order m 0 m.length with
      | some ts => .returned ts
      | none => .overread

/-! ## One event -/

section Headers
variable (o : ByteOrder) (e : Event) (before rest : Bytes)

/-- The number at an offset of an object in memory. -/
theorem word_at (offset width : Nat) :
    o.word (before ++ rest) (before.length + offset) width = o.word rest offset width := by
  rw [o.word_append (Nat.le_add_right ..), Nat.add_sub_cancel_left]

/-- A number of four bytes at the start. -/
theorem word_first {v : Nat} (h : v < 2 ^ 32) : o.word (o.bytes 4 v ++ rest) 0 4 = v :=
  o.word_bytes h rest

/-- The numbers behind it. -/
theorem word_next (v : Nat) {offset : Nat} (h : 4 ≤ offset) :
    o.word (o.bytes 4 v ++ rest) offset 4 = o.word rest (offset - 4) 4 := by
  have hlength := o.bytes_length 4 v
  rw [o.word_append (by omega), hlength]

theorem bytes_append :
    e.bytes o ++ rest =
      o.bytes 4 e.wd.toUInt32.toNat ++ (o.bytes 4 e.mask.toNat ++ (o.bytes 4 e.cookie.toNat ++
        (o.bytes 4 e.nameBytes.length ++ (e.nameBytes ++ rest)))) := by
  simp only [Event.bytes, List.append_assoc]

theorem wd_word : o.word (e.bytes o ++ rest) 0 4 = e.wd.toUInt32.toNat := by
  rw [bytes_append, word_first o _ e.wd.toUInt32.toNat_lt]

theorem mask_word : o.word (e.bytes o ++ rest) 4 4 = e.mask.toNat := by
  rw [bytes_append, word_next o _ _ (by decide), word_first o _ e.mask.toNat_lt]

theorem len_word (h : e.nameBytes.length < 2 ^ 32) :
    o.word (e.bytes o ++ rest) 12 4 = e.nameBytes.length := by
  rw [bytes_append, word_next o _ _ (by decide), word_next o _ _ (by decide),
    word_next o _ _ (by decide), word_first o _ h]

theorem bytes_length : (e.bytes o).length = headerSize + e.nameBytes.length := by
  simp only [Event.bytes, List.length_append, ByteOrder.bytes_length, headerSize]
  omega

theorem drop_header : (e.bytes o ++ rest).drop headerSize = e.nameBytes ++ rest := by
  have hheader : e.bytes o ++ rest =
      (o.bytes 4 e.wd.toUInt32.toNat ++ (o.bytes 4 e.mask.toNat ++ (o.bytes 4 e.cookie.toNat ++
        o.bytes 4 e.nameBytes.length))) ++ (e.nameBytes ++ rest) := by
    simp only [Event.bytes, List.append_assoc]
  rw [hheader]
  apply List.drop_left'
  simp only [List.length_append, ByteOrder.bytes_length]
  rfl

end Headers

/-- The number of a watch descriptor. -/
theorem wrap_wd (wd : Int32) : IntType.int32.wrap wd.toUInt32.toNat = wd.toInt := by
  rw [IntType.wrap, if_pos (show IntType.int32.isSigned = true from rfl), Int32.toInt,
    BitVec.toInt_eq_toNat_bmod]
  rfl

/-- The string of a name is the name without what fills it up. -/
theorem cstr_name (n : Name) (rest : Bytes) : cstr (n.bytes ++ rest) = n.text := by
  have hall : ∀ b ∈ n.text, decide (b ≠ 0) = true := by
    intro b hb
    rw [decide_eq_true_iff]
    rintro rfl
    exact n.nul_free hb
  rw [cstr, Name.bytes, List.append_assoc, List.takeWhile_append_of_pos hall,
    List.replicate_succ, List.cons_append]
  exact List.append_nil _

/-- The field of a table for the name. -/
def Event.nameFields (e : Event) : Fields :=
  match e.name with
  | some n => [("name", .string n.text)]
  | none => []

/-- The table for an event. -/
def Event.fields (e : Event) : Fields :=
  [("wd", .integer e.wd.toInt), ("mask", .integer e.mask.toNat)] ++ e.nameFields

section Tables
variable (o : ByteOrder) (e : Event) (before rest : Bytes)

theorem nameField_bytes :
    nameField (before ++ (e.bytes o ++ rest)) (before.length + headerSize)
      e.nameBytes.length = some e.nameFields := by
  have hdrop : (before ++ (e.bytes o ++ rest)).drop (before.length + headerSize) =
      e.nameBytes ++ rest := by
    rw [List.drop_length_add_append, drop_header]
  rw [nameField, stringAt, hdrop]
  rw [Event.nameBytes, Event.nameFields]
  cases e.name with
  | none => rfl
  | some n =>
    have hlength : 0 < n.bytes.length := by
      rw [Name.bytes, List.length_append, List.length_replicate]
      omega
    have hzero : 0 ∈ n.bytes ++ rest := by
      apply List.mem_append_left
      exact List.mem_append_right _ (List.mem_replicate.mpr ⟨Nat.succ_ne_zero _, rfl⟩)
    simp only [hlength, if_true, hzero, cstr_name]

/-- **`pushevent` on an event**, whatever is before it and behind it. -/
theorem pushevent_bytes (h : e.nameBytes.length < 2 ^ 32) (resid : Int) :
    pushevent o (before ++ (e.bytes o ++ rest)) before.length resid =
      some ⟨e.fields, (before ++ e.bytes o).length, resid - (e.bytes o).length⟩ := by
  have hfits : before.length + headerSize ≤ (before ++ (e.bytes o ++ rest)).length := by
    rw [List.length_append, List.length_append, bytes_length]
    omega
  have hwd := word_at o before (e.bytes o ++ rest) 0 4
  rw [Nat.add_zero, wd_word] at hwd
  have hmask := word_at o before (e.bytes o ++ rest) 4 4
  rw [mask_word] at hmask
  have hlen := word_at o before (e.bytes o ++ rest) 12 4
  rw [len_word o e rest h] at hlen
  rw [pushevent, if_pos hfits]
  simp only [hlen, hwd, hmask, nameField_bytes, wrap_wd, ← bytes_length o e,
    List.length_append]
  rfl

end Tables

/-! ## Some events -/

theorem bytes_pos (o : ByteOrder) (e : Event) : 0 < (e.bytes o).length := by
  rw [bytes_length, headerSize]
  omega

/-- **The loop** from one event on. -/
theorem events_encode (o : ByteOrder) (before : Bytes) (es : List Event)
    (h : ∀ e ∈ es, e.nameBytes.length < 2 ^ 32) :
    events o (before ++ encode o es) before.length (encode o es).length =
      some (es.map Event.fields) := by
  induction es generalizing before with
  | nil =>
    rw [events]
    rfl
  | cons e es ih =>
    obtain ⟨he, hes⟩ := List.forall_mem_cons.mp h
    have hencode : encode o (e :: es) = e.bytes o ++ encode o es := rfl
    have hpos := bytes_pos o e
    have hmore : 0 < ((e.bytes o ++ encode o es).length : Int) := by
      rw [List.length_append]
      omega
    have hresid : ((e.bytes o ++ encode o es).length : Int) - (e.bytes o).length =
        (encode o es).length := by
      rw [List.length_append]
      omega
    have hpush := pushevent_bytes o e before (encode o es) he (e.bytes o ++ encode o es).length
    rw [hresid] at hpush
    have hrest := ih (before ++ e.bytes o) hes
    rw [List.append_assoc] at hrest
    rw [hencode, events, if_pos hmore]
    split
    · next p hp =>
      rw [hpush] at hp
      cases hp
      rw [hrest]
      rfl
    · next hp =>
      rw [hpush] at hp
      cases hp

/-- What fits in the buffer has names that fit. -/
theorem nameBytes_le (o : ByteOrder) {es : List Event} {e : Event} (he : e ∈ es) :
    e.nameBytes.length ≤ (encode o es).length := by
  have hle : (e.bytes o).length ≤ (encode o es).length :=
    (List.sublist_flatten_of_mem (List.mem_map_of_mem he)).length_le
  rw [bytes_length] at hle
  omega

section Calls
variable {env : Env} {L : LuaState R} {es : List Event}

/-- A call with an open handle, for which `read(2)` gives some events that fit the buffer. -/
structure Reads (env : Env) (L : LuaState R) (es : List Event) : Prop where
  opened : ∃ u fd, L.index 1 = some (.userdata u) ∧ env.filedesc u = some (.integer fd) ∧
    env.read (IntType.int.wrap fd) bufferSize = .ok (encode env.order es)
  fits : (encode env.order es).length ≤ bufferSize

/-- The steps of such a call. -/
theorem Reads.steps (h : Reads env L es) :
    ∃ fd, checkinotify env 1 (L.index 1) = .ok fd ∧
      env.read fd bufferSize = .ok (encode env.order es) ∧
      events env.order (encode env.order es) 0 (encode env.order es).length =
        some (es.map Event.fields) := by
  obtain ⟨⟨u, fd, hfirst, hfiledesc, hread⟩, hfits⟩ := h
  refine ⟨IntType.int.wrap fd, ?_, hread, ?_⟩
  · simp only [hfirst, checkinotify, hfiledesc]
  · have hsmall : ∀ e ∈ es, e.nameBytes.length < 2 ^ 32 := by
      intro e he
      have hsize : bufferSize < 2 ^ 32 := by decide
      exact ((nameBytes_le env.order he).trans hfits).trans_lt hsize
    exact events_encode env.order [] es hsmall

/-- **One read returns the events**, in order and nothing else, each with its watch descriptor,
its mask and its name. -/
theorem l_inotify_read_events (h : Reads env L es) :
    l_inotify_read env L = .returned (es.map Event.fields) := by
  obtain ⟨fd, hcheck, hread, hevents⟩ := h.steps
  rw [l_inotify_read, hcheck]
  simp only [hread, hevents]

end Calls

/-! ## What a table says -/

/-- A table with all that an event has. -/
structure Conveys (t : Fields) (e : Event) : Prop where
  wd : t.lookup "wd" = some (.integer e.wd.toInt)
  mask : t.lookup "mask" = some (.integer e.mask.toNat)
  cookie : t.lookup "cookie" = some (.integer e.cookie.toNat)
  name : t.lookup "name" = e.name.map (fun n => .string n.text)

/-- The cookie is missing. -/
theorem fields_not_conveys (e : Event) : ¬ Conveys e.fields e := by
  intro h
  have hmissing : e.fields.lookup "cookie" = none := by
    rw [Event.fields, Event.nameFields]
    cases e.name with
    | none => rfl
    | some n => rfl
  have hcookie := h.cookie
  rw [hmissing] at hcookie
  cases hcookie

def sampleName : Name := ⟨[97], by decide, 2⟩

/-- One half of a rename, and a write to a file that is watched itself. -/
def sampleEvents : List Event := [⟨1, 0x40, 7, some sampleName⟩, ⟨2, 0x2, 0, none⟩]

def sampleEnv : Env where
  order := .little
  filedesc _ := some (.integer 3)
  read _ _ := .ok (encode .little sampleEvents)

def sampleCall : LuaState noFunctions := ⟨[.userdata 0], [], 0⟩

theorem sampleCall_reads : Reads sampleEnv sampleCall sampleEvents :=
  ⟨⟨0, 3, rfl, rfl, rfl⟩, by decide⟩

theorem l_inotify_read_sample :
    l_inotify_read sampleEnv sampleCall =
      .returned [[("wd", .integer 1), ("mask", .integer 0x40), ("name", .string [97])],
        [("wd", .integer 2), ("mask", .integer 0x2)]] :=
  l_inotify_read_events sampleCall_reads

theorem not_conveyed :
    ¬ ∃ ts, l_inotify_read sampleEnv sampleCall = .returned ts ∧
      List.Forall₂ Conveys ts sampleEvents := by
  rintro ⟨ts, hreturned, hall⟩
  obtain ⟨fd, hcheck, hread, hevents⟩ := sampleCall_reads.steps
  rw [l_inotify_read, hcheck] at hreturned
  simp only [hread, hevents, Outcome.returned.injEq] at hreturned
  rw [← hreturned] at hall
  cases hall with
  | cons hfirst hrest => exact fields_not_conveys _ hfirst

end Inotify
end FluaLibs
