import FluaLibs.LuaArguments
import FluaLibs.LuaTables

/-! # The names of extended attributes

The kernel gives the attribute names of a file as one buffer: the length of a name in one
byte, its bytes, then the next name.  `pushlist` makes a table of them.  It reads the
length as a `char`, which has a sign on some machines and none on others, so the
signedness is a parameter (`charSigned`).

Every buffer is the encoding of some names and a rest that is empty, starts with a length
that a `char` does not hold, or ends before its name does (`exists_split`), and each rest
has its own ending (`scan_split`).
-/
namespace FluaLibs
namespace Extattr
open LuaArguments

abbrev Bytes : Type := List UInt8

/-! ## The encoding -/

/-- The name of an attribute. -/
structure AttrName where
  bytes : Bytes
  pos : 1 ≤ bytes.length
  le : bytes.length ≤ 255
  deriving DecidableEq

/-- A length byte and the bytes. -/
def encodeName (n : Bytes) : Bytes := UInt8.ofNat n.length :: n

def encodeBytes (ns : List Bytes) : Bytes := ns.flatMap encodeName

/-- What the kernel writes for a list of names. -/
def encode (names : List AttrName) : Bytes := encodeBytes (names.map AttrName.bytes)

/-! ## The code -/

/-- `char` -/
def char (charSigned : Bool) : IntType := ⟨8, charSigned, IntType.uint8.pos⟩

/-- The ways in which the loop ends early: Lua refuses the string, or the bytes that are
read are not in the buffer. -/
inductive Fault where
  | tooBig
  | outOfBounds
  deriving DecidableEq

/-- Where the loop has come to: the table, and the bytes before `p`. -/
@[ext] structure Cursor where
  table : Table
  p : Nat

section Code
variable (charSigned : Bool) (length : Length) (r : Nat)

/-- `lua_pushlstring(L, p, len)`, and the table with the string at its end. -/
def pushName (buffer : Bytes) (c : Cursor) (len : Nat) : Except Fault Cursor :=
  if MAX_SIZE ≤ len then .error .tooBig
  else if buffer.length < c.p + len then .error .outOfBounds
  else
    .ok ⟨c.table.set (length.border r c.table + 1) (.string ((buffer.drop c.p).take len)),
      c.p + len⟩

/-- A round of the loop, with the byte at `p`: `len = *p++`, which `lua_pushlstring` takes
as a `size_t`. -/
def round (buffer : Bytes) (c : Cursor) (b : UInt8) : Except Fault Cursor :=
  let len := (char charSigned).wrap b.toNat
  pushName length r buffer ⟨c.table, c.p + 1⟩ (IntType.uint64.wrap len).toNat

theorem pushName_advances {buffer : Bytes} {c c' : Cursor} {len : Nat}
    (h : pushName length r buffer c len = .ok c') : c'.p = c.p + len := by
  unfold pushName at h
  split at h
  · cases h
  split at h
  · cases h
  · cases h
    rfl

/-- The loop, from where it has come to. -/
def scan (buffer : Bytes) (c : Cursor) : Except Fault Cursor :=
  if _hlt : c.p < buffer.length then
    match _hround : round charSigned length r buffer c buffer[c.p] with
    | .error f => .error f
    | .ok c' => scan buffer c'
  else .ok c
termination_by buffer.length - c.p
decreasing_by
  have hadvances := pushName_advances length r _hround
  dsimp only at hadvances
  omega

/-- `pushlist` -/
def pushlist (buffer : Bytes) : Except Fault Cursor :=
  scan charSigned length r buffer ⟨.ofList [], 0⟩

end Code

/-! ## Lengths as `char` -/

section Lengths
variable {charSigned : Bool} {b : UInt8}

/-- Whether a `char` holds a length. -/
def Fits (charSigned : Bool) (len : Nat) : Prop :=
  len < if charSigned then 128 else 256

instance (charSigned : Bool) (len : Nat) : Decidable (Fits charSigned len) :=
  inferInstanceAs (Decidable (_ < _))

theorem size_of_fits (h : Fits charSigned b.toNat) :
    (IntType.uint64.wrap ((char charSigned).wrap b.toNat)).toNat = b.toNat := by
  have hb := b.toNat_lt
  have hchar : (char charSigned).Holds b.toNat := by
    cases charSigned
    · exact ⟨by omega, by
        show (b.toNat : Int) < 2 ^ 8
        omega⟩
    · have hlt : b.toNat < 128 := h
      exact ⟨by
        show -2 ^ 7 ≤ (b.toNat : Int)
        omega, by
        show (b.toNat : Int) < 2 ^ 7
        omega⟩
  have hsize : IntType.uint64.Holds b.toNat := ⟨by omega, by
    show (b.toNat : Int) < 2 ^ 64
    omega⟩
  rw [IntType.wrap_of_holds hchar, IntType.wrap_of_holds hsize, Int.toNat_natCast]

/-- A length that a `char` does not hold becomes negative, and then enormous. -/
theorem size_of_not_fits (h : ¬ Fits charSigned b.toNat) :
    MAX_SIZE ≤ (IntType.uint64.wrap ((char charSigned).wrap b.toNat)).toNat := by
  have hb := b.toNat_lt
  cases charSigned with
  | false => exact absurd hb h
  | true =>
    have hge : ¬ b.toNat < 128 := h
    have hchar : (char true).wrap b.toNat = (b.toNat : Int) - 256 := by
      simp only [IntType.wrap, char, ite_true, Int.bmod_def]
      omega
    have hsize : IntType.uint64.wrap ((b.toNat : Int) - 256) = (b.toNat : Int) - 256 + 2 ^ 64 := by
      simp only [IntType.wrap, IntType.uint64, Bool.false_eq_true, ite_false]
      omega
    rw [hchar, hsize, MAX_SIZE]
    omega

theorem toNat_ofNat_length {n : Bytes} (h : Fits charSigned n.length) :
    (UInt8.ofNat n.length).toNat = n.length := by
  apply UInt8.toNat_ofNat_of_lt'
  have hlt : n.length < if charSigned then 128 else 256 := h
  show n.length < 256
  split at hlt <;> omega

end Lengths

/-! ## Scanning an encoding -/

section Scan
variable {charSigned : Bool} {length : Length} {r : Nat} {buffer : Bytes} {c c' : Cursor}

theorem scan_end (h : buffer.length ≤ c.p) : scan charSigned length r buffer c = .ok c := by
  rw [scan, dif_neg (Nat.not_lt_of_le h)]

theorem scan_ok {b : UInt8} (hb : buffer[c.p]? = some b)
    (hround : round charSigned length r buffer c b = .ok c') :
    scan charSigned length r buffer c = scan charSigned length r buffer c' := by
  obtain ⟨hlt, rfl⟩ := List.getElem?_eq_some_iff.mp hb
  rw [scan, dif_pos hlt]
  split
  · next f hf => rw [hround] at hf; cases hf
  · next c'' hc => rw [hround] at hc; cases hc; rfl

theorem scan_error {b : UInt8} {f : Fault} (hb : buffer[c.p]? = some b)
    (hround : round charSigned length r buffer c b = .error f) :
    scan charSigned length r buffer c = .error f := by
  obtain ⟨hlt, rfl⟩ := List.getElem?_eq_some_iff.mp hb
  rw [scan, dif_pos hlt]
  split
  · next f' hf => rw [hround] at hf; cases hf; rfl
  · next c' hc => rw [hround] at hc; cases hc

/-- The table of some names. -/
def nameTable (ns : List Bytes) : Table := .ofList (ns.map .string)

theorem nameTable_append (length : Length) (r : Nat) (ns : List Bytes) (n : Bytes) :
    (nameTable ns).set (length.border r (nameTable ns) + 1) (.string n) =
      nameTable (ns ++ [n]) := by
  have hnil : Value.nil ∉ ns.map Value.string := by simp
  rw [nameTable, length.border_ofList hnil r, Table.ofList_set_length, nameTable, List.map_append]
  rfl

/-- The cursor after some names. -/
def after (ns : List Bytes) : Cursor := ⟨nameTable ns, (encodeBytes ns).length⟩

theorem encodeBytes_append (ns : List Bytes) (n : Bytes) :
    encodeBytes (ns ++ [n]) = encodeBytes ns ++ encodeName n := by
  simp [encodeBytes]

theorem after_append (ns : List Bytes) (n : Bytes) :
    after (ns ++ [n]) = ⟨nameTable (ns ++ [n]), (encodeBytes ns).length + 1 + n.length⟩ := by
  rw [after, encodeBytes_append, List.length_append, encodeName, List.length_cons]
  congr 1
  omega

/-- The byte at the cursor, and the bytes after it. -/
theorem getElem?_after (ns : List Bytes) (b : UInt8) (rest : Bytes) :
    (encodeBytes ns ++ b :: rest)[(after ns).p]? = some b := by
  simp [after]

theorem drop_after (ns : List Bytes) (b : UInt8) (rest : Bytes) :
    (encodeBytes ns ++ b :: rest).drop ((after ns).p + 1) = rest := by
  simp [after, List.drop_append]

/-- A round at a length that a `char` holds. -/
theorem round_of_fits {ns : List Bytes} {b : UInt8} {rest : Bytes}
    (hfits : Fits charSigned b.toNat) (hrest : b.toNat ≤ rest.length) :
    round charSigned length r (encodeBytes ns ++ b :: rest) (after ns) b =
      .ok ⟨nameTable (ns ++ [rest.take b.toNat]), (encodeBytes ns).length + 1 + b.toNat⟩ := by
  have hb := b.toNat_lt
  have hsmall : ¬ MAX_SIZE ≤ b.toNat := by rw [MAX_SIZE]; omega
  have hin : ¬ (encodeBytes ns ++ b :: rest).length < (after ns).p + 1 + b.toNat := by
    simp only [after, List.length_append, List.length_cons]
    omega
  rw [round, size_of_fits hfits, pushName, if_neg hsmall, if_neg hin, drop_after]
  dsimp only [after]
  rw [nameTable_append]

theorem round_of_long {ns : List Bytes} {b : UInt8} {rest : Bytes}
    (hlong : ¬ Fits charSigned b.toNat) :
    round charSigned length r (encodeBytes ns ++ b :: rest) (after ns) b = .error .tooBig := by
  rw [round, pushName, if_pos (size_of_not_fits hlong)]

theorem round_of_short {ns : List Bytes} {b : UInt8} {rest : Bytes}
    (hfits : Fits charSigned b.toNat) (hshort : rest.length < b.toNat) :
    round charSigned length r (encodeBytes ns ++ b :: rest) (after ns) b = .error .outOfBounds := by
  have hb := b.toNat_lt
  have hsmall : ¬ MAX_SIZE ≤ b.toNat := by rw [MAX_SIZE]; omega
  have hout : (encodeBytes ns ++ b :: rest).length < (after ns).p + 1 + b.toNat := by
    simp only [after, List.length_append, List.length_cons]
    omega
  rw [round, size_of_fits hfits, pushName, if_neg hsmall, if_pos hout]

/-- A name that a `char` holds the length of is read, and the loop goes on behind it. -/
theorem scan_name {ns : List Bytes} {n rest : Bytes} (hfits : Fits charSigned n.length) :
    scan charSigned length r (encodeBytes ns ++ encodeName n ++ rest) (after ns) =
      scan charSigned length r (encodeBytes (ns ++ [n]) ++ rest) (after (ns ++ [n])) := by
  have hlen := toNat_ofNat_length hfits
  rw [encodeBytes_append, after_append, encodeName, List.append_assoc, List.cons_append]
  apply scan_ok (getElem?_after ..)
  rw [round_of_fits (by rwa [hlen]) (by rw [hlen, List.length_append]; omega), hlen,
    List.take_left]

/-- **The names at the start of a buffer are read**, if a `char` holds their lengths. -/
theorem scan_names {before ns : List Bytes} {rest : Bytes}
    (hfits : ∀ n ∈ ns, Fits charSigned n.length) :
    scan charSigned length r (encodeBytes before ++ encodeBytes ns ++ rest) (after before) =
      scan charSigned length r (encodeBytes (before ++ ns) ++ rest) (after (before ++ ns)) := by
  induction ns generalizing before with
  | nil => rw [List.append_nil, show encodeBytes [] = [] from rfl, List.append_nil]
  | cons n ns ih =>
    obtain ⟨hn, hns⟩ := List.forall_mem_cons.mp hfits
    have hcons : encodeBytes (n :: ns) = encodeName n ++ encodeBytes ns := by simp [encodeBytes]
    have hassoc : encodeBytes before ++ encodeBytes (n :: ns) ++ rest =
        encodeBytes before ++ encodeName n ++ (encodeBytes ns ++ rest) := by
      rw [hcons]
      simp only [List.append_assoc]
    rw [hassoc, scan_name hn, ← List.append_assoc, ih hns, List.append_assoc before [n] ns]
    rfl

/-! ## Every buffer -/

/-- The rest of a buffer after the names at its start, and how the loop ends at it. -/
inductive Rest (charSigned : Bool) : Bytes → Option Fault → Prop
  | done : Rest charSigned [] none
  | long {b : UInt8} {rest : Bytes} (h : ¬ Fits charSigned b.toNat) :
    Rest charSigned (b :: rest) (some .tooBig)
  | short {b : UInt8} {rest : Bytes} (hfits : Fits charSigned b.toNat)
    (h : rest.length < b.toNat) : Rest charSigned (b :: rest) (some .outOfBounds)

/-- The names at the start of a buffer. -/
theorem exists_split (charSigned : Bool) (buffer : Bytes) :
    ∃ ns rest fault, buffer = encodeBytes ns ++ rest ∧
      (∀ n ∈ ns, Fits charSigned n.length) ∧ Rest charSigned rest fault := by
  match buffer with
  | [] => exact ⟨[], [], none, rfl, List.forall_mem_nil _, .done⟩
  | b :: rest =>
    by_cases hfits : Fits charSigned b.toNat
    · by_cases hshort : rest.length < b.toNat
      · exact ⟨[], b :: rest, _, rfl, List.forall_mem_nil _, .short hfits hshort⟩
      have hlen : (rest.take b.toNat).length = b.toNat := by
        rw [List.length_take]
        omega
      obtain ⟨ns, rest', fault, hsplit, hns, hrest⟩ :=
        exists_split charSigned (rest.drop b.toNat)
      refine ⟨rest.take b.toNat :: ns, rest', fault, ?_, ?_, hrest⟩
      · have hname : encodeName (rest.take b.toNat) = b :: rest.take b.toNat := by
          rw [encodeName, hlen, UInt8.ofNat_toNat]
        show b :: rest = encodeName (rest.take b.toNat) ++ encodeBytes ns ++ rest'
        rw [hname, List.append_assoc, ← hsplit, List.cons_append, List.take_append_drop]
      · exact List.forall_mem_cons.mpr ⟨by rwa [hlen], hns⟩
    · exact ⟨[], b :: rest, _, rfl, List.forall_mem_nil _, .long hfits⟩
termination_by buffer.length

/-- How the loop ends. -/
def ending (ns : List Bytes) : Option Fault → Except Fault Cursor
  | none => .ok (after ns)
  | some f => .error f

/-- **What `pushlist` makes of a buffer.** -/
theorem pushlist_split {ns : List Bytes} {rest : Bytes} {fault : Option Fault}
    (hns : ∀ n ∈ ns, Fits charSigned n.length) (hrest : Rest charSigned rest fault) :
    pushlist charSigned length r (encodeBytes ns ++ rest) = ending ns fault := by
  have hscan : scan charSigned length r (encodeBytes [] ++ encodeBytes ns ++ rest) (after []) =
      scan charSigned length r (encodeBytes ([] ++ ns) ++ rest) (after ([] ++ ns)) :=
    scan_names hns
  refine Eq.trans hscan ?_
  cases hrest with
  | done =>
    apply scan_end
    rw [List.append_nil]
    rfl
  | long h => exact scan_error (getElem?_after ..) (round_of_long h)
  | short hfits h => exact scan_error (getElem?_after ..) (round_of_short hfits h)

end Scan

/-! ## The list of names -/

section Names
variable {charSigned : Bool} {length : Length} {r : Nat}

/-- The table of exactly the given names, made from exactly their encoding. -/
def Decodes (charSigned : Bool) (length : Length) (r : Nat) (names : List AttrName) : Prop :=
  pushlist charSigned length r (encode names) =
    .ok ⟨.ofList (names.map (fun n => .string n.bytes)), (encode names).length⟩

theorem after_names (names : List AttrName) :
    after (names.map AttrName.bytes) =
      ⟨.ofList (names.map (fun n => .string n.bytes)), (encode names).length⟩ := by
  rw [after, nameTable, List.map_map]
  rfl

theorem pushlist_of_fits {names : List AttrName}
    (h : ∀ n ∈ names, Fits charSigned n.bytes.length) : Decodes charSigned length r names := by
  have hns : ∀ n ∈ names.map AttrName.bytes, Fits charSigned n.length := by simpa using h
  have hpush : pushlist charSigned length r (encode names ++ []) =
      ending (names.map AttrName.bytes) none := pushlist_split hns .done
  rw [List.append_nil] at hpush
  rw [Decodes, hpush, ending, after_names]

/-- The rest of a list of names from one on whose length a `char` does not hold. -/
theorem rest_of_long {n : AttrName} (rest : Bytes) (h : ¬ Fits charSigned n.bytes.length) :
    Rest charSigned (encodeName n.bytes ++ rest) (some .tooBig) := by
  have hlen : (UInt8.ofNat n.bytes.length).toNat = n.bytes.length :=
    UInt8.toNat_ofNat_of_lt' (Nat.lt_succ_of_le n.le)
  exact Rest.long (by rwa [hlen])

theorem encode_append (before : List AttrName) (n : AttrName) (behind : List AttrName) :
    encode (before ++ n :: behind) =
      encodeBytes (before.map AttrName.bytes) ++ (encodeName n.bytes ++ encode behind) := by
  simp [encode, encodeBytes]

/-- The loop ends at the first name whose length a `char` does not hold. -/
theorem pushlist_of_long {names : List AttrName} {n : AttrName} (hmem : n ∈ names)
    (h : ¬ Fits charSigned n.bytes.length) :
    pushlist charSigned length r (encode names) = .error .tooBig := by
  have hfind : (names.find? (fun n => ¬ Fits charSigned n.bytes.length)).isSome := by
    rw [List.find?_isSome]
    exact ⟨n, hmem, by simpa using h⟩
  obtain ⟨m, hm⟩ := Option.isSome_iff_exists.mp hfind
  obtain ⟨hlong, before, behind, rfl, hbefore⟩ := List.find?_eq_some_iff_append.mp hm
  have hfits : ∀ n ∈ before.map AttrName.bytes, Fits charSigned n.length := by
    simpa using hbefore
  rw [encode_append, pushlist_split hfits (rest_of_long _ (by simpa using hlong))]
  rfl

/-- **The list is decoded exactly if a `char` holds the length of every name.** -/
theorem decodes_iff (charSigned : Bool) (length : Length) (r : Nat) (names : List AttrName) :
    Decodes charSigned length r names ↔
      charSigned = false ∨ ∀ n ∈ names, n.bytes.length < 128 := by
  have hfits : (∀ n ∈ names, Fits charSigned n.bytes.length) ↔
      charSigned = false ∨ ∀ n ∈ names, n.bytes.length < 128 := by
    cases charSigned with
    | true => simp [Fits]
    | false =>
      refine iff_of_true (fun n _ => ?_) (Or.inl rfl)
      exact Nat.lt_succ_of_le n.le
  rw [← hfits]
  constructor
  · intro hdecodes
    by_contra hnot
    push Not at hnot
    obtain ⟨n, hmem, hlong⟩ := hnot
    rw [Decodes, pushlist_of_long hmem hlong] at hdecodes
    cases hdecodes
  · exact pushlist_of_fits

/-- A name of 128 bytes. -/
def longName : AttrName := ⟨List.replicate 128 97, by rw [List.length_replicate]; decide,
  by rw [List.length_replicate]; decide⟩

/-- A name of 128 bytes makes the call raise an error, where a `char` is signed. -/
theorem not_decodes : ¬ ∀ names, Decodes true .least 0 names := by
  intro hall
  have long : ¬ Fits true longName.bytes.length := by
    rw [longName, List.length_replicate]
    decide
  have hdecodes := hall [longName]
  rw [Decodes, pushlist_of_long (List.mem_singleton_self longName) long] at hdecodes
  cases hdecodes

end Names
end Extattr
end FluaLibs
