import FluaLibs.ByteStores
import Mathlib.Algebra.GroupWithZero.Nat

/-! # The dump of an SFP module as text

`l_sfp_dump_tostring` writes the regions of a dump as hexadecimal numbers into memory that it
allocates, with `hex_dump`, and gives Lua the string that is there.  The loop of `hex_dump`
chooses what stands behind each number; what comes out are rows of sixteen.

The sizes of the regions are of libifconfig: `Layout` has them, and `Layout.Documented` says that
the regions are in the dump, one behind the other.
-/
namespace FluaLibs
namespace SfpDump

abbrev Bytes : Type := List UInt8

/-- The bytes of a literal of the source. -/
def literal (s : String) : Bytes := s.toList.map (fun c => UInt8.ofNat c.toNat)

structure Layout where
  SFF_DUMP_SIZE : Nat
  SFP_DUMP_START : Nat
  SFP_DUMP_SIZE : Nat
  QSFP_DUMP0_START : Nat
  QSFP_DUMP0_SIZE : Nat
  QSFP_DUMP1_START : Nat
  QSFP_DUMP1_SIZE : Nat

structure Layout.Documented (l : Layout) : Prop where
  size : 128 ≤ l.SFF_DUMP_SIZE
  sfp : l.SFP_DUMP_START + l.SFP_DUMP_SIZE ≤ l.SFF_DUMP_SIZE
  qsfp0 : l.QSFP_DUMP0_START + l.QSFP_DUMP0_SIZE ≤ l.QSFP_DUMP1_START
  qsfp1 : l.QSFP_DUMP1_START + l.QSFP_DUMP1_SIZE ≤ l.SFF_DUMP_SIZE

/-! ## The code -/

/-- Where the next byte is written, and what has been written. -/
structure Writer where
  p : Nat
  stores : List ByteStore

/-- `p += sprintf(p, ..)`, with a NUL behind the text. -/
def Writer.sprintf (w : Writer) (text : Bytes) : Writer :=
  ⟨w.p + text.length, w.stores ++ [⟨w.p, text ++ [0]⟩]⟩

def hexDigit (n : Nat) : UInt8 := if n < 10 then UInt8.ofNat (48 + n) else UInt8.ofNat (55 + n)

/-- `%02X` -/
def hex (b : UInt8) : Bytes := [hexDigit (b.toNat / 16), hexDigit (b.toNat % 16)]

def LINE_BYTES : Nat := 16

/-- What stands behind the number of a byte. -/
def sep (i len : Nat) : UInt8 :=
  if i = len - 1 then 10 else if (i + 1) % LINE_BYTES ≠ 0 then 32 else 10

/-- `none` when a byte is read that the dump does not have. -/
def hex_dump (data : Bytes) (start len : Nat) (w : Writer) : Option Writer :=
  (List.range len).foldlM
    (fun w i => data[start + i]?.map (fun b => w.sprintf (hex b ++ [sep i len]))) w

/-- The pointer whose size is cleared has 8 bytes. -/
def sizeofBuf : Nat := 8

def qsfp0Heading : String := "SFF8436 DUMP (0xA0 0..81 range):\n"
def qsfp1Heading : String := "SFF8436 DUMP (0xA0 128..255 range):\n"
def sfpHeading : String := "SFF8472 DUMP (0xA0 0..127 range):\n"
def unidentifiedHeading : String := "UNIDENTIFIED DUMP (0xA0 0..255 range):\n"

/-- The memory is at `base`; the library counts the regions. -/
def l_sfp_dump_tostring (l : Layout) (regionCount : Nat) (data : Bytes) (base : Nat) :
    Option Writer :=
  let w : Writer := ⟨base, [⟨base, List.replicate sizeofBuf 0⟩]⟩
  if regionCount = 2 then do
    let w ← hex_dump data l.QSFP_DUMP0_START l.QSFP_DUMP0_SIZE (w.sprintf (literal qsfp0Heading))
    hex_dump data l.QSFP_DUMP1_START l.QSFP_DUMP1_SIZE (w.sprintf (literal qsfp1Heading))
  else if regionCount = 1 then
    hex_dump data l.SFP_DUMP_START l.SFP_DUMP_SIZE (w.sprintf (literal sfpHeading))
  else hex_dump data 0 data.length (w.sprintf (literal unidentifiedHeading))

/-- `lua_pushstring`: what is in memory, up to the first NUL. -/
def stringAt (m : ByteMemory) (base size : Nat) : Bytes :=
  (m.load base size).takeWhile (fun b => b ≠ 0)

/-! ## What the text says -/

/-- The bytes of a row, with blanks between them. -/
def row (bs : Bytes) : Bytes := [32].intercalate (bs.map hex) ++ [10]

/-- The bytes, sixteen in a row. -/
def rows (bs : Bytes) : List Bytes :=
  (List.range ((bs.length + 15) / 16)).map (fun k => (bs.drop (16 * k)).take 16)

def hexText (bs : Bytes) : Bytes := (rows bs).flatMap row

/-- A part of the text: its heading, and the part of the dump that it is about. -/
structure Part where
  heading : String
  start : Nat
  size : Nat

def Part.region (data : Bytes) (p : Part) : Bytes := (data.drop p.start).take p.size

def Part.text (data : Bytes) (p : Part) : Bytes := literal p.heading ++ hexText (p.region data)

def Layout.parts (l : Layout) (regionCount : Nat) : List Part :=
  if regionCount = 2 then
    [⟨qsfp0Heading, l.QSFP_DUMP0_START, l.QSFP_DUMP0_SIZE⟩,
      ⟨qsfp1Heading, l.QSFP_DUMP1_START, l.QSFP_DUMP1_SIZE⟩]
  else if regionCount = 1 then [⟨sfpHeading, l.SFP_DUMP_START, l.SFP_DUMP_SIZE⟩]
  else [⟨unidentifiedHeading, 0, l.SFF_DUMP_SIZE⟩]

/-! ## Reading the text -/

/-- The value of a hexadecimal digit. -/
def digitValue (c : UInt8) : Option Nat :=
  if 48 ≤ c.toNat ∧ c.toNat < 58 then some (c.toNat - 48)
  else if 65 ≤ c.toNat ∧ c.toNat < 71 then some (c.toNat - 55)
  else none

/-- The numbers, each with one character behind it. -/
def readHex : Bytes → Option Bytes
  | [] => some []
  | a :: b :: _ :: text => do
    let high ← digitValue a
    let low ← digitValue b
    let bs ← readHex text
    some (UInt8.ofNat (16 * high + low) :: bs)
  | _ => none

/-- The regions that a text of these parts is about. -/
def readParts : List Part → Bytes → Option (List Bytes)
  | [], _ => some []
  | p :: parts, text => do
    let behind := text.drop (literal p.heading).length
    let bs ← readHex (behind.take (3 * p.size))
    let rest ← readParts parts (behind.drop (3 * p.size))
    some (bs :: rest)

/-! ## The rows -/

/-- What the loop of `hex_dump` writes. -/
def loopText (bs : Bytes) : Bytes :=
  (List.range bs.length).flatMap (fun i => hex (bs.getD i 0) ++ [sep i bs.length])

theorem rows_of_le {bs : Bytes} (hpos : 0 < bs.length) (hle : bs.length ≤ 16) : rows bs = [bs] := by
  have hone : (bs.length + 15) / 16 = 1 := by omega
  simp [rows, hone, List.take_of_length_le hle]

theorem rows_of_lt {bs : Bytes} (hlt : 16 < bs.length) :
    rows bs = bs.take 16 :: rows (bs.drop 16) := by
  have hmore : (bs.length + 15) / 16 = (bs.length - 16 + 15) / 16 + 1 := by omega
  rw [rows, hmore, List.range_succ_eq_map, List.map_cons, List.map_map, rows, List.length_drop]
  refine congrArg₂ List.cons (by simp) (List.map_congr_left fun k _ => ?_)
  rw [Function.comp_apply, List.drop_drop, Nat.mul_succ, Nat.add_comm]

/-- The last number of a row, and the others. -/
theorem row_concat (bs : Bytes) (b : UInt8) :
    row (bs ++ [b]) = bs.flatMap (fun b => hex b ++ [32]) ++ (hex b ++ [10]) := by
  induction bs with
  | nil => simp [row]
  | cons a bs ih =>
    have hne : bs ++ [b] ≠ [] := by simp
    obtain ⟨c, cs, hcs⟩ := List.exists_cons_of_ne_nil hne
    rw [row, hcs] at ih
    rw [row, List.cons_append, hcs, List.map_cons, List.map_cons, List.intercalate_cons_cons]
    rw [List.map_cons] at ih
    rw [List.flatMap_cons, List.append_assoc, List.append_assoc, List.append_assoc, ih]
    simp

theorem flatMap_range (f : UInt8 → Bytes) (bs : Bytes) :
    (List.range bs.length).flatMap (fun i => f (bs.getD i 0)) = bs.flatMap f := by
  induction bs with
  | nil => rfl
  | cons b bs ih =>
    rw [List.length_cons, List.range_succ_eq_map, List.flatMap_cons, List.flatMap_map,
      List.flatMap_cons, ← ih]
    rfl

/-- Behind the last number of a row there is a newline, behind the others a blank. -/
theorem loopText_of_le {bs : Bytes} (hpos : 0 < bs.length) (hle : bs.length ≤ 16) :
    loopText bs = row bs := by
  obtain ⟨front, b, rfl⟩ : ∃ front b, bs = front ++ [b] :=
    ⟨bs.dropLast, _, (List.dropLast_concat_getLast (List.ne_nil_of_length_pos hpos)).symm⟩
  rw [List.length_append, List.length_singleton] at hle
  rw [loopText, List.length_append, List.length_singleton, List.range_succ, List.flatMap_append,
    List.flatMap_singleton, row_concat, ← flatMap_range]
  congr 1
  · apply List.flatMap_congr
    intro i hi
    have hlt := List.mem_range.mp hi
    have hsep : sep i (front.length + 1) = 32 := by
      rw [sep, if_neg (by omega), if_pos (by rw [LINE_BYTES]; omega)]
    rw [hsep, List.getD_append _ _ _ _ hlt]
  · have hsep : sep front.length (front.length + 1) = 10 := if_pos (by omega)
    rw [hsep]
    simp

/-- The loop begins a new row after sixteen numbers. -/
theorem loopText_of_lt {bs : Bytes} (hlt : 16 < bs.length) :
    loopText bs = row (bs.take 16) ++ loopText (bs.drop 16) := by
  have hlength : (bs.take 16).length = 16 := by
    rw [List.length_take]
    omega
  have hsplit : bs.length = 16 + (bs.drop 16).length := by
    rw [List.length_drop]
    omega
  have hrange : List.range bs.length =
      List.range 16 ++ (List.range (bs.drop 16).length).map (fun i => 16 + i) := by
    rw [hsplit, List.range_add]
  rw [← loopText_of_le (by omega) (Nat.le_of_eq hlength), loopText, loopText, loopText, hlength,
    hrange, List.flatMap_append, List.flatMap_map]
  congr 1
  · apply List.flatMap_congr
    intro i hi
    have hi16 := List.mem_range.mp hi
    have hsep : sep i bs.length = sep i 16 := by
      rw [sep, sep, LINE_BYTES, if_neg (by omega)]
      by_cases hlast : i = 15
      · simp [hlast]
      · rw [if_pos (by omega), if_neg (by omega)]
    rw [hsep, List.getD_eq_getElem?_getD, List.getD_eq_getElem?_getD, List.getElem?_take,
      if_pos hi16]
  · apply List.flatMap_congr
    intro i hi
    have hi' := List.mem_range.mp hi
    have hsep : sep (16 + i) bs.length = sep i (bs.drop 16).length := by
      rw [sep, sep, LINE_BYTES]
      have hmod : (16 + i + 1) % 16 = (i + 1) % 16 := by omega
      rw [hmod]
      by_cases hlast : i = (bs.drop 16).length - 1
      · rw [if_pos (by omega), if_pos hlast]
      · rw [if_neg (by omega), if_neg hlast]
    rw [hsep, List.getD_eq_getElem?_getD, List.getD_eq_getElem?_getD, List.getElem?_drop]

/-- **The loop writes the rows.** -/
theorem loopText_eq (bs : Bytes) : loopText bs = hexText bs := by
  generalize hn : bs.length = n
  induction n using Nat.strongRecOn generalizing bs with
  | _ n ih =>
    by_cases hlong : 16 < bs.length
    · rw [loopText_of_lt hlong, hexText, rows_of_lt hlong, List.flatMap_cons]
      refine congrArg₂ _ rfl (ih (bs.drop 16).length ?_ (bs.drop 16) rfl)
      rw [List.length_drop]
      omega
    · by_cases hempty : bs.length = 0
      · rw [List.length_eq_zero_iff.mp hempty]
        rfl
      · rw [loopText_of_le (by omega) (by omega), hexText, rows_of_le (by omega) (by omega)]
        simp

theorem length_flatMap_range {f : Nat → Bytes} (hf : ∀ i, (f i).length = 3) (k : Nat) :
    ((List.range k).flatMap f).length = 3 * k := by
  induction k with
  | zero => rfl
  | succ k ih =>
    rw [List.range_succ, List.flatMap_append, List.length_append, ih, List.flatMap_singleton, hf]
    omega

theorem hexText_length (bs : Bytes) : (hexText bs).length = 3 * bs.length := by
  rw [← loopText_eq, loopText]
  exact length_flatMap_range (fun i => rfl) bs.length

/-! ## The digits -/

theorem digitValue_hexDigit {n : Nat} (hn : n < 16) : digitValue (hexDigit n) = some n := by
  rw [hexDigit]
  by_cases hdecimal : n < 10
  · have hvalue : (UInt8.ofNat (48 + n)).toNat = 48 + n := by
      rw [UInt8.toNat_ofNat']
      omega
    rw [if_pos hdecimal, digitValue, hvalue, if_pos (by omega)]
    simp
  · have hvalue : (UInt8.ofNat (55 + n)).toNat = 55 + n := by
      rw [UInt8.toNat_ofNat']
      omega
    rw [if_neg hdecimal, digitValue, hvalue, if_neg (by omega), if_pos (by omega)]
    simp

theorem hexDigit_ne_zero {n : Nat} (hn : n < 16) : hexDigit n ≠ 0 := by
  intro hzero
  have hvalue := digitValue_hexDigit hn
  rw [hzero] at hvalue
  cases hvalue

/-- **The numbers can be read back.** -/
theorem readHex_flatMap (bs : List (UInt8 × UInt8)) :
    readHex (bs.flatMap (fun p => hex p.1 ++ [p.2])) = some (bs.map Prod.fst) := by
  induction bs with
  | nil => rfl
  | cons p bs ih =>
    have hb := p.1.toNat_lt
    have hhigh := digitValue_hexDigit (n := p.1.toNat / 16) (by omega)
    have hlow := digitValue_hexDigit (n := p.1.toNat % 16) (by omega)
    have hbyte : UInt8.ofNat (16 * (p.1.toNat / 16) + p.1.toNat % 16) = p.1 := by
      rw [Nat.div_add_mod]
      exact UInt8.ofNat_toNat
    rw [List.flatMap_cons, hex]
    simp only [List.cons_append, List.nil_append, readHex, hhigh, hlow, ih, Option.bind_eq_bind,
      Option.bind_some, hbyte, List.map_cons]

theorem readHex_hexText (bs : Bytes) : readHex (hexText bs) = some bs := by
  have hpairs := readHex_flatMap
    ((List.range bs.length).map (fun i => (bs.getD i 0, sep i bs.length)))
  rw [List.flatMap_map, List.map_map] at hpairs
  rw [← loopText_eq]
  refine hpairs.trans (congrArg some ?_)
  apply List.ext_getElem
  · simp
  · intro i hi hi'
    simp [hi']

theorem zero_not_mem_hexText (bs : Bytes) : 0 ∉ hexText bs := by
  rw [← loopText_eq, loopText]
  intro hzero
  obtain ⟨i, -, hi⟩ := List.mem_flatMap.mp hzero
  have hbyte := (bs.getD i 0).toNat_lt
  rcases List.mem_append.mp hi with hdigit | hsep
  · rw [hex, List.mem_cons, List.mem_singleton] at hdigit
    rcases hdigit with hdigit | hdigit
    · exact hexDigit_ne_zero (by omega) hdigit.symm
    · exact hexDigit_ne_zero (by omega) hdigit.symm
  · rw [List.mem_singleton, sep] at hsep
    split at hsep
    · cases hsep
    · split at hsep <;> cases hsep

/-! ## What is in memory -/

theorem text_length {data : Bytes} {q : Part} (hq : q.start + q.size ≤ data.length) :
    (q.text data).length = (literal q.heading).length + 3 * q.size := by
  rw [Part.text, List.length_append, hexText_length, Part.region, List.length_take,
    List.length_drop]
  omega

/-- The parts are written as the switch of the source does for the number of regions. -/
def writeParts (data : Bytes) (parts : List Part) (w : Writer) : Option Writer :=
  parts.foldlM (fun w q => hex_dump data q.start q.size (w.sprintf (literal q.heading))) w

/-- The text has been written from `base` on, with a NUL behind it. -/
structure Wrote (m : ByteMemory) (base size : Nat) (w : Writer) (text : Bytes) : Prop where
  place : w.p = base + text.length
  there : (ByteStore.run m w.stores).load base text.length = text
  terminated : ByteStore.run m w.stores (base + text.length) = 0
  within : ∀ s ∈ w.stores, s.Within base size

section Memory
variable {m : ByteMemory} {base size : Nat} {w : Writer} {text : Bytes}

theorem wrote_cleared (hsize : sizeofBuf ≤ size) :
    Wrote m base size ⟨base, [⟨base, List.replicate sizeofBuf 0⟩]⟩ [] where
  place := rfl
  there := rfl
  terminated := by
    have hcovers : (⟨base, List.replicate sizeofBuf 0⟩ : ByteStore).Covers base :=
      ⟨Nat.le_refl base, Nat.lt_add_of_pos_right (by simp [sizeofBuf])⟩
    exact (ByteStore.apply_of_covers hcovers).trans (by simp [sizeofBuf])
  within := by
    intro s hs
    obtain rfl := List.mem_singleton.mp hs
    refine ⟨Nat.le_refl base, ?_⟩
    rw [List.length_replicate]
    exact Nat.add_le_add_left hsize base

/-- More text is written over the NUL. -/
theorem Wrote.sprintf (h : Wrote m base size w text) (more : Bytes)
    (hsize : text.length + more.length < size) :
    Wrote m base size (w.sprintf more) (text ++ more) := by
  have hrun : ByteStore.run m (w.sprintf more).stores =
      ByteStore.apply (ByteStore.run m w.stores) ⟨base + text.length, more ++ [0]⟩ := by
    rw [Writer.sprintf, ByteStore.run_concat, h.place]
  have hstored := ByteStore.load_apply (ByteStore.run m w.stores)
    ⟨base + text.length, more ++ [0]⟩
  rw [← hrun] at hstored
  have hbefore : (ByteStore.run m (w.sprintf more).stores).load base text.length = text := by
    rw [hrun]
    refine Eq.trans (ByteMemory.load_congr fun a _ hlt => ?_) h.there
    exact ByteStore.apply_of_not_covers (fun hcovers => Nat.not_le_of_lt hlt hcovers.1)
  rw [List.length_append, ByteMemory.load_add] at hstored
  obtain ⟨hmore, hzero⟩ := List.append_inj hstored (ByteMemory.load_length ..)
  constructor
  · rw [Writer.sprintf, h.place, List.length_append, Nat.add_assoc]
  · rw [List.length_append, ByteMemory.load_add, hbefore, hmore]
  · rw [List.length_append, ← Nat.add_assoc]
    exact List.head_eq_of_cons_eq hzero
  · intro s hs
    rcases List.mem_append.mp hs with hs | hs
    · exact h.within s hs
    · obtain rfl := List.mem_singleton.mp hs
      rw [h.place]
      refine ⟨Nat.le_add_right .., ?_⟩
      show base + text.length + (more ++ [0]).length ≤ base + size
      rw [List.length_append, List.length_singleton]
      omega

/-- **The loop stays in the memory**, and writes a region row by row. -/
theorem Wrote.hex_dump (h : Wrote m base size w text) {data : Bytes} (q : Part)
    (hdata : q.start + q.size ≤ data.length) (hsize : text.length + 3 * q.size < size) :
    ∃ w', SfpDump.hex_dump data q.start q.size w = some w' ∧
      Wrote m base size w' (text ++ hexText (q.region data)) := by
  have hlength : (q.region data).length = q.size := by
    rw [Part.region, List.length_take, List.length_drop]
    omega
  -- the loop after some of its rounds
  have rounds : ∀ k ≤ q.size, ∃ w',
      (List.range k).foldlM (fun w i => data[q.start + i]?.map
        (fun b => w.sprintf (hex b ++ [sep i q.size]))) w = some w' ∧
      Wrote m base size w' (text ++ (List.range k).flatMap
        (fun i => hex ((q.region data).getD i 0) ++ [sep i q.size])) := by
    intro k
    induction k with
    | zero =>
      refine fun _ => ⟨w, rfl, ?_⟩
      rw [List.range_zero, List.flatMap_nil, List.append_nil]
      exact h
    | succ k ih =>
      intro hk
      obtain ⟨w', hw', hwrote⟩ := ih (by omega)
      have hbyte : data[q.start + k]? = some ((q.region data).getD k 0) := by
        rw [List.getD_eq_getElem?_getD, Part.region, List.getElem?_take, if_pos (by omega),
          List.getElem?_drop, List.getElem?_eq_getElem (by omega)]
        rfl
      refine ⟨w'.sprintf (hex ((q.region data).getD k 0) ++ [sep k q.size]), ?_, ?_⟩
      · rw [List.range_succ, List.foldlM_append, hw']
        simp [hbyte]
      · rw [List.range_succ, List.flatMap_append, List.flatMap_singleton, ← List.append_assoc]
        refine hwrote.sprintf _ ?_
        rw [List.length_append, length_flatMap_range (fun i => rfl)]
        show text.length + 3 * k + 3 < size
        omega
  obtain ⟨w', hw', hwrote⟩ := rounds q.size (Nat.le_refl _)
  refine ⟨w', hw', ?_⟩
  rw [← loopText_eq, loopText, hlength]
  exact hwrote

/-- The parts are written one behind the other. -/
theorem Wrote.parts (h : Wrote m base size w text) (data : Bytes) {parts : List Part}
    (hparts : ∀ q ∈ parts, q.start + q.size ≤ data.length)
    (hsize : text.length + (parts.flatMap (Part.text data)).length < size) :
    ∃ w', writeParts data parts w = some w' ∧
      Wrote m base size w' (text ++ parts.flatMap (Part.text data)) := by
  induction parts generalizing w text with
  | nil =>
    refine ⟨w, rfl, ?_⟩
    rw [List.flatMap_nil, List.append_nil]
    exact h
  | cons q parts ih =>
    obtain ⟨hq, hrest⟩ := List.forall_mem_cons.mp hparts
    rw [List.flatMap_cons, List.length_append, text_length hq] at hsize
    have hheading := h.sprintf (literal q.heading) (by omega)
    obtain ⟨w₁, hw₁, hwrote₁⟩ := hheading.hex_dump q hq (by rw [List.length_append]; omega)
    rw [List.append_assoc] at hwrote₁
    have hwritten : (text ++ q.text data).length =
        text.length + ((literal q.heading).length + 3 * q.size) := by
      rw [List.length_append, text_length hq]
    obtain ⟨w₂, hw₂, hwrote₂⟩ := ih hwrote₁ hrest (by
      have hsame : text ++ (literal q.heading ++ hexText (q.region data)) =
        text ++ q.text data := rfl
      rw [hsame, hwritten]
      omega)
    refine ⟨w₂, ?_, ?_⟩
    · rw [writeParts, List.foldlM_cons, hw₁]
      exact hw₂
    · rw [List.flatMap_cons, ← List.append_assoc]
      exact hwrote₂

/-- What Lua gets is the text. -/
theorem Wrote.stringAt (h : Wrote m base size w text) (hzero : 0 ∉ text)
    (hsize : text.length < size) :
    SfpDump.stringAt (ByteStore.run m w.stores) base size = text := by
  obtain ⟨k, rfl⟩ : ∃ k, size = text.length + (1 + k) := ⟨size - text.length - 1, by omega⟩
  rw [SfpDump.stringAt, ByteMemory.load_add, h.there, ByteMemory.load_add,
    List.takeWhile_append_of_pos]
  · have hone : (ByteStore.run m w.stores).load (base + text.length) 1 = [0] := by
      simp [ByteMemory.load, h.terminated]
    rw [hone]
    simp
  · intro b hb
    simp only [ne_eq, decide_not, Bool.not_eq_eq_eq_not, Bool.not_true, decide_eq_false_iff_not]
    rintro rfl
    exact hzero hb

end Memory

/-! ## The whole text -/

theorem zero_not_mem_text (data : Bytes) {q : Part} (hq : 0 ∉ literal q.heading) :
    0 ∉ q.text data := by
  rw [Part.text, List.mem_append, not_or]
  exact ⟨hq, zero_not_mem_hexText _⟩

/-- The regions are read back from their texts. -/
theorem readParts_text {data : Bytes} {parts : List Part}
    (hparts : ∀ q ∈ parts, q.start + q.size ≤ data.length) :
    readParts parts (parts.flatMap (Part.text data)) = some (parts.map (Part.region data)) := by
  induction parts with
  | nil => rfl
  | cons q parts ih =>
    obtain ⟨hq, hrest⟩ := List.forall_mem_cons.mp hparts
    have hlength : (hexText (q.region data)).length = 3 * q.size := by
      rw [hexText_length, Part.region, List.length_take, List.length_drop]
      omega
    rw [List.flatMap_cons, Part.text, List.append_assoc, readParts, List.drop_left,
      List.take_left' hlength, List.drop_left' hlength, readHex_hexText, ih hrest]
    rfl

/-- The switch writes the parts. -/
theorem l_sfp_dump_tostring_eq {l : Layout} {data : Bytes} (hdata : data.length = l.SFF_DUMP_SIZE)
    (regionCount base : Nat) : l_sfp_dump_tostring l regionCount data base =
      writeParts data (l.parts regionCount) ⟨base, [⟨base, List.replicate sizeofBuf 0⟩]⟩ := by
  unfold l_sfp_dump_tostring Layout.parts
  rw [hdata]
  by_cases htwo : regionCount = 2
  · simp [htwo, writeParts]
  · by_cases hone : regionCount = 1 <;> simp [htwo, hone, writeParts]

section Parts
variable {l : Layout} (hl : l.Documented) {data : Bytes} (hdata : data.length = l.SFF_DUMP_SIZE)
include hl hdata

theorem parts_within (regionCount : Nat) :
    ∀ q ∈ l.parts regionCount, q.start + q.size ≤ data.length := by
  obtain ⟨-, hsfp, hqsfp0, hqsfp1⟩ := hl
  unfold Layout.parts
  split
  · simp only [List.forall_mem_cons, List.not_mem_nil, false_implies, implies_true, and_true]
    omega
  · split <;> simp only [List.mem_singleton, forall_eq] <;> omega

/-- Three characters for a byte, and the headings: the memory is sufficiently large. -/
theorem parts_fit (regionCount : Nat) :
    ((l.parts regionCount).flatMap (Part.text data)).length < l.SFF_DUMP_SIZE * 4 := by
  have hwithin := parts_within hl hdata regionCount
  obtain ⟨hsize, hsfp, hqsfp0, hqsfp1⟩ := hl
  have hheadings : (literal qsfp0Heading).length = 33 ∧ (literal qsfp1Heading).length = 36 ∧
      (literal sfpHeading).length = 34 ∧ (literal unidentifiedHeading).length = 39 := by
    decide
  unfold Layout.parts at hwithin ⊢
  by_cases htwo : regionCount = 2
  · rw [if_pos htwo] at hwithin ⊢
    obtain ⟨hq0, hrest⟩ := List.forall_mem_cons.mp hwithin
    obtain ⟨hq1, -⟩ := List.forall_mem_cons.mp hrest
    rw [List.flatMap_cons, List.flatMap_cons, List.flatMap_nil, List.append_nil,
      List.length_append, text_length hq0, text_length hq1]
    dsimp only
    omega
  · rw [if_neg htwo] at hwithin ⊢
    by_cases hone : regionCount = 1
    · rw [if_pos hone] at hwithin ⊢
      rw [List.flatMap_singleton, text_length (hwithin _ (List.mem_singleton_self _))]
      dsimp only
      omega
    · rw [if_neg hone] at hwithin ⊢
      rw [List.flatMap_singleton, text_length (hwithin _ (List.mem_singleton_self _))]
      dsimp only
      omega

end Parts

theorem zero_not_mem_parts (l : Layout) (data : Bytes) (regionCount : Nat) :
    0 ∉ (l.parts regionCount).flatMap (Part.text data) := by
  have hheadings : ∀ q ∈ l.parts regionCount, 0 ∉ literal q.heading := by
    have hliterals : 0 ∉ literal qsfp0Heading ∧ 0 ∉ literal qsfp1Heading ∧
        0 ∉ literal sfpHeading ∧ 0 ∉ literal unidentifiedHeading := by
      decide
    unfold Layout.parts
    split
    · simp [hliterals]
    · split <;> simp [hliterals]
  intro hzero
  obtain ⟨q, hq, hmem⟩ := List.mem_flatMap.mp hzero
  exact zero_not_mem_text data (hheadings q hq) hmem

/-- **The dump of a module is text in the memory that was allocated for it, and says what is in
the module.**  Whatever the module has and the library counts, every byte of the text is written
in the memory, no byte is read that the dump does not have, and the text has a row for each
sixteen bytes of a region, from which the regions can be read. -/
theorem sfp_dump_text {l : Layout} (hl : l.Documented) {data : Bytes}
    (hdata : data.length = l.SFF_DUMP_SIZE) (regionCount : Nat) (m : ByteMemory) (base : Nat) :
    ∃ w text, l_sfp_dump_tostring l regionCount data base = some w ∧
      (∀ s ∈ w.stores, s.Within base (l.SFF_DUMP_SIZE * 4)) ∧
      stringAt (ByteStore.run m w.stores) base (l.SFF_DUMP_SIZE * 4) = text ∧
      text = (l.parts regionCount).flatMap (Part.text data) ∧
      readParts (l.parts regionCount) text =
        some ((l.parts regionCount).map (Part.region data)) := by
  have hsize := hl.size
  have hcleared : Wrote m base (l.SFF_DUMP_SIZE * 4)
      ⟨base, [⟨base, List.replicate sizeofBuf 0⟩]⟩ [] := wrote_cleared (by rw [sizeofBuf]; omega)
  have hwithin := parts_within hl hdata regionCount
  have hfit := parts_fit hl hdata regionCount
  obtain ⟨w, hw, hwrote⟩ := hcleared.parts data hwithin (by rw [List.length_nil]; omega)
  rw [← l_sfp_dump_tostring_eq hdata] at hw
  exact ⟨w, _, hw, hwrote.within, hwrote.stringAt (zero_not_mem_parts l data regionCount) hfit,
    rfl, readParts_text hwithin⟩

/-- The sizes in the headings. -/
def headingLayout : Layout := ⟨256, 0, 128, 0, 82, 128, 128⟩

/-- A module with two regions. -/
theorem sfp_dump_text_qsfp :
    ∃ w text, l_sfp_dump_tostring headingLayout 2 (List.replicate 256 171) 4096 = some w ∧
      (∀ s ∈ w.stores, s.Within 4096 1024) ∧
      stringAt (ByteStore.run (fun _ => 255) w.stores) 4096 1024 = text ∧
      readParts (headingLayout.parts 2) text =
        some [List.replicate 82 171, List.replicate 128 171] := by
  have hl : headingLayout.Documented := ⟨by decide, by decide, by decide, by decide⟩
  have hdata : (List.replicate 256 (171 : UInt8)).length = headingLayout.SFF_DUMP_SIZE :=
    List.length_replicate
  obtain ⟨w, text, hw, hwithin, hstring, -, hread⟩ :=
    sfp_dump_text hl hdata 2 (fun _ => 255) 4096
  refine ⟨w, text, hw, hwithin, hstring, hread.trans ?_⟩
  simp only [Layout.parts, if_pos, List.map_cons, List.map_nil, Part.region, List.drop_replicate,
    List.take_replicate]
  rfl

/-- Eighteen bytes take two rows. -/
example : hexText (List.replicate 17 10 ++ [255]) =
    literal "0A 0A 0A 0A 0A 0A 0A 0A 0A 0A 0A 0A 0A 0A 0A 0A\n0A FF\n" := by
  decide

end SfpDump
end FluaLibs
