import FluaLibs.MachineWords

/-! # What `sctp_recvv` says about a message

With a message the kernel reports nothing, an `sctp_rcvinfo`, an `sctp_nxtinfo`, or an
`sctp_recvv_rn`, which is an `sctp_rcvinfo` with an `sctp_nxtinfo` behind it.  The code
receives all of them in one union and takes the `sctp_nxtinfo` from its start also where
an `sctp_rcvinfo` is there.
-/
namespace FluaLibs
namespace SctpReceive

abbrev Bytes : Type := List UInt8

/-! ## The structures -/

/-- `struct sctp_rcvinfo`, with the two bytes behind the flags that no member covers. -/
structure RcvInfo where
  sid : UInt16
  ssn : UInt16
  flags : UInt16
  padding : UInt16
  ppid : UInt32
  tsn : UInt32
  cumtsn : UInt32
  context : UInt32
  assoc_id : UInt32
  deriving DecidableEq

/-- `struct sctp_nxtinfo` -/
structure NxtInfo where
  sid : UInt16
  flags : UInt16
  ppid : UInt32
  length : UInt32
  assoc_id : UInt32
  deriving DecidableEq

/-- What the kernel reports. -/
inductive Info where
  | noinfo
  | rcvinfo (rcv : RcvInfo)
  | nxtinfo (nxt : NxtInfo)
  | rn (rcv : RcvInfo) (nxt : NxtInfo)
  deriving DecidableEq

def SCTP_RECVV_NOINFO : Nat := 0
def SCTP_RECVV_RCVINFO : Nat := 1
def SCTP_RECVV_NXTINFO : Nat := 2
def SCTP_RECVV_RN : Nat := 3

section Layout
variable (o : ByteOrder)

def RcvInfo.bytes (i : RcvInfo) : Bytes :=
  o.bytes 2 i.sid.toNat ++ (o.bytes 2 i.ssn.toNat ++ (o.bytes 2 i.flags.toNat ++
    (o.bytes 2 i.padding.toNat ++ (o.bytes 4 i.ppid.toNat ++ (o.bytes 4 i.tsn.toNat ++
      (o.bytes 4 i.cumtsn.toNat ++ (o.bytes 4 i.context.toNat ++
        o.bytes 4 i.assoc_id.toNat)))))))

def NxtInfo.bytes (i : NxtInfo) : Bytes :=
  o.bytes 2 i.sid.toNat ++ (o.bytes 2 i.flags.toNat ++ (o.bytes 4 i.ppid.toNat ++
    (o.bytes 4 i.length.toNat ++ o.bytes 4 i.assoc_id.toNat)))

/-- What the kernel writes. -/
def Info.bytes : Info → Bytes
  | noinfo => []
  | rcvinfo rcv => rcv.bytes o
  | nxtinfo nxt => nxt.bytes o
  | rn rcv nxt => rcv.bytes o ++ nxt.bytes o

end Layout

def Info.infotype : Info → Nat
  | noinfo => SCTP_RECVV_NOINFO
  | rcvinfo _ => SCTP_RECVV_RCVINFO
  | nxtinfo _ => SCTP_RECVV_NXTINFO
  | rn _ _ => SCTP_RECVV_RN

/-! ## The code -/

/-- A member of a structure. -/
structure Member where
  name : String
  offset : Nat
  width : Nat

def rcvMembers : List Member :=
  [⟨"sid", 0, 2⟩, ⟨"ssn", 2, 2⟩, ⟨"flags", 4, 2⟩, ⟨"ppid", 8, 4⟩, ⟨"tsn", 12, 4⟩,
    ⟨"cumtsn", 16, 4⟩, ⟨"context", 20, 4⟩, ⟨"assoc_id", 24, 4⟩]

def nxtMembers : List Member :=
  [⟨"sid", 0, 2⟩, ⟨"flags", 2, 2⟩, ⟨"ppid", 4, 4⟩, ⟨"length", 8, 4⟩, ⟨"assoc_id", 12, 4⟩]

/-- A table of integers: its fields in the order in which they are set. -/
abbrev Fields : Type := List (String × Nat)

/-- A field of the table that is returned. -/
inductive Entry where
  | fields (t : Fields)
  | text (s : String)
  deriving DecidableEq

section Code
variable (o : ByteOrder) (info : Bytes)

/-- A table with the members of the structure at an offset. -/
def pushMembers (members : List Member) (offset : Nat) : Fields :=
  members.map (fun m => (m.name, o.word info (offset + m.offset) m.width))

def pushrcvinfo (offset : Nat) : Fields := pushMembers o info rcvMembers offset

def pushnxtinfo (offset : Nat) : Fields := pushMembers o info nxtMembers offset

/-- `pushrecvvinfo`; the members of the union are all at offset 0. -/
def pushrecvvinfo (infotype : Nat) : List (String × Entry) :=
  if infotype = SCTP_RECVV_NOINFO then []
  else if infotype = SCTP_RECVV_NXTINFO then [("nxtinfo", .fields (pushnxtinfo o info 0))]
  else if infotype = SCTP_RECVV_RCVINFO then [("rcvinfo", .fields (pushrcvinfo o info 0))]
  else if infotype = SCTP_RECVV_RN then
    [("nxtinfo", .fields (pushnxtinfo o info 0)), ("rcvinfo", .fields (pushrcvinfo o info 0))]
  else [("error", .text "unknown infotype")]

end Code

/-- The table that `l_sctp_recvv` returns: the kernel has written to the start of the union,
and what was there before is behind. -/
def receivedInfo (o : ByteOrder) (reported : Info) (before : Bytes) : List (String × Entry) :=
  pushrecvvinfo o (reported.bytes o ++ before.drop (reported.bytes o).length) reported.infotype

/-! ## What the structures hold -/

def RcvInfo.fields (i : RcvInfo) : Fields :=
  [("sid", i.sid.toNat), ("ssn", i.ssn.toNat), ("flags", i.flags.toNat), ("ppid", i.ppid.toNat),
    ("tsn", i.tsn.toNat), ("cumtsn", i.cumtsn.toNat), ("context", i.context.toNat),
    ("assoc_id", i.assoc_id.toNat)]

def NxtInfo.fields (i : NxtInfo) : Fields :=
  [("sid", i.sid.toNat), ("flags", i.flags.toNat), ("ppid", i.ppid.toNat),
    ("length", i.length.toNat), ("assoc_id", i.assoc_id.toNat)]

/-- The table for what was reported. -/
def Info.table : Info → List (String × Entry)
  | noinfo => []
  | rcvinfo rcv => [("rcvinfo", .fields rcv.fields)]
  | nxtinfo nxt => [("nxtinfo", .fields nxt.fields)]
  | rn rcv nxt => [("nxtinfo", .fields nxt.fields), ("rcvinfo", .fields rcv.fields)]

section Members
variable (o : ByteOrder)

theorem halfword_lt (v : UInt16) : v.toNat < 256 ^ 2 := v.toNat_lt

theorem word_lt (v : UInt32) : v.toNat < 256 ^ 4 := v.toNat_lt

/-- The first member of a structure. -/
theorem word_halfword (v : UInt16) (rest : Bytes) :
    o.word (o.bytes 2 v.toNat ++ rest) 0 2 = v.toNat := o.word_bytes (halfword_lt v) rest

theorem word_fullword (v : UInt32) (rest : Bytes) :
    o.word (o.bytes 4 v.toNat ++ rest) 0 4 = v.toNat := o.word_bytes (word_lt v) rest

/-- The members behind the first. -/
theorem word_behind {first offset : Nat} (v : Nat) (rest : Bytes) (width : Nat)
    (h : first ≤ offset) :
    o.word (o.bytes first v ++ rest) offset width = o.word rest (offset - first) width := by
  have hlength := o.bytes_length first v
  rw [o.word_append (by omega), hlength]

theorem pushrcvinfo_bytes (i : RcvInfo) (rest : Bytes) :
    pushrcvinfo o (i.bytes o ++ rest) 0 = i.fields := by
  simp only [pushrcvinfo, pushMembers, rcvMembers, RcvInfo.bytes, RcvInfo.fields,
    List.append_assoc, List.map_cons, List.map_nil, Nat.zero_add]
  simp (disch := decide) only [word_halfword, word_fullword, word_behind, Nat.reduceSub]

theorem pushnxtinfo_bytes (i : NxtInfo) (rest : Bytes) :
    pushnxtinfo o (i.bytes o ++ rest) 0 = i.fields := by
  simp only [pushnxtinfo, pushMembers, nxtMembers, NxtInfo.bytes, NxtInfo.fields,
    List.append_assoc, List.map_cons, List.map_nil, Nat.zero_add]
  simp (disch := decide) only [word_halfword, word_fullword, word_behind, Nat.reduceSub]

/-- The number whose bytes are those of two halfwords. -/
def pair (v w : UInt16) : Nat := o.number (o.bytes 2 v.toNat ++ o.bytes 2 w.toNat)

/-- What an `sctp_rcvinfo` is when it is read as an `sctp_nxtinfo`. -/
def RcvInfo.misread (i : RcvInfo) : Fields :=
  [("sid", i.sid.toNat), ("flags", i.ssn.toNat), ("ppid", pair o i.flags i.padding),
    ("length", i.ppid.toNat), ("assoc_id", i.tsn.toNat)]

theorem word_pair (v w : UInt16) (rest : Bytes) :
    o.word (o.bytes 2 v.toNat ++ (o.bytes 2 w.toNat ++ rest)) 0 4 = pair o v w := by
  have hlength : (o.bytes 2 v.toNat ++ o.bytes 2 w.toNat).length = 4 := by
    rw [List.length_append, o.bytes_length, o.bytes_length]
  rw [ByteOrder.word, List.drop_zero, ← List.append_assoc, List.take_left' hlength, pair]

theorem pushnxtinfo_rcv (i : RcvInfo) (rest : Bytes) :
    pushnxtinfo o (i.bytes o ++ rest) 0 = i.misread o := by
  simp only [pushnxtinfo, pushMembers, nxtMembers, RcvInfo.bytes, RcvInfo.misread,
    List.append_assoc, List.map_cons, List.map_nil, Nat.zero_add]
  simp (disch := decide) only [word_halfword, word_fullword, word_pair, word_behind,
    Nat.reduceSub]

/-- The members of the `sctp_nxtinfo` are what is at their places in the `sctp_rcvinfo`. -/
structure Coincide (rcv : RcvInfo) (nxt : NxtInfo) : Prop where
  sid : nxt.sid = rcv.sid
  flags : nxt.flags = rcv.ssn
  ppid : nxt.ppid.toNat = pair o rcv.flags rcv.padding
  length : nxt.length = rcv.ppid
  assoc_id : nxt.assoc_id = rcv.tsn

theorem misread_eq_iff (rcv : RcvInfo) (nxt : NxtInfo) :
    rcv.misread o = nxt.fields ↔ Coincide o rcv nxt := by
  constructor
  · intro h
    simp only [RcvInfo.misread, NxtInfo.fields, List.cons.injEq, Prod.mk.injEq, true_and,
      and_true] at h
    obtain ⟨hsid, hflags, hppid, hlength, hassoc⟩ := h
    exact ⟨(UInt16.toNat_inj.mp hsid).symm, (UInt16.toNat_inj.mp hflags).symm, hppid.symm,
      (UInt32.toNat_inj.mp hlength).symm, (UInt32.toNat_inj.mp hassoc).symm⟩
  · rintro ⟨hsid, hflags, hppid, hlength, hassoc⟩
    rw [RcvInfo.misread, NxtInfo.fields, hsid, hflags, hppid, hlength, hassoc]

end Members

/-! ## What is returned -/

/-- **The table is the one for what was reported, except where both structures are reported**
and differ from what is read at the start. -/
theorem receivedInfo_eq_iff (o : ByteOrder) (reported : Info) (before : Bytes) :
    receivedInfo o reported before = reported.table ↔
      ∀ rcv nxt, reported = .rn rcv nxt → Coincide o rcv nxt := by
  cases reported with
  | noinfo =>
    refine iff_of_true rfl (fun rcv nxt h => ?_)
    cases h
  | rcvinfo rcv =>
    refine iff_of_true ?_ (fun rcv nxt h => ?_)
    · have hpush := pushrcvinfo_bytes o rcv (before.drop (rcv.bytes o).length)
      exact congrArg (fun t => [("rcvinfo", Entry.fields t)]) hpush
    · cases h
  | nxtinfo nxt =>
    refine iff_of_true ?_ (fun rcv nxt h => ?_)
    · have hpush := pushnxtinfo_bytes o nxt (before.drop (nxt.bytes o).length)
      exact congrArg (fun t => [("nxtinfo", Entry.fields t)]) hpush
    · cases h
  | rn rcv nxt =>
    have hreceived : receivedInfo o (.rn rcv nxt) before =
        [("nxtinfo", .fields (rcv.misread o)), ("rcvinfo", .fields rcv.fields)] := by
      show [("nxtinfo", Entry.fields (pushnxtinfo o ((rcv.bytes o ++ nxt.bytes o) ++ _) 0)),
        ("rcvinfo", Entry.fields (pushrcvinfo o ((rcv.bytes o ++ nxt.bytes o) ++ _) 0))] = _
      rw [List.append_assoc, pushnxtinfo_rcv, pushrcvinfo_bytes]
    rw [hreceived, Info.table]
    simp only [List.cons.injEq, Prod.mk.injEq, Entry.fields.injEq, true_and, and_true,
      misread_eq_iff]
    constructor
    · rintro h r n heq
      cases heq
      exact h
    · exact fun h => h rcv nxt rfl

def noRcvInfo : RcvInfo := ⟨0, 0, 0, 0, 0, 0, 0, 0, 0⟩

/-- The next message is for stream 2. -/
def nextInfo : NxtInfo := ⟨2, 0, 0, 0, 0⟩

theorem not_receivedInfo_eq :
    ¬ ∀ (o : ByteOrder) (reported : Info) (before : Bytes),
      receivedInfo o reported before = reported.table := by
  intro h
  have hnext := h .little (.rn noRcvInfo nextInfo) []
  revert hnext
  decide

end SctpReceive
end FluaLibs
