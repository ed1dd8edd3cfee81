import FluaLibs.SctpBuffers

/-! # Vectored reads

`readv` and `preadv` allocate a buffer for each length of a list, let the kernel fill them one
after the other, and return each as a string.  The strings are as long as the buffers, whatever
has been read; the manual's example has garbage in the last of them.

The elements of the list stay on the Lua stack, and the results come above them; it is taken to
have room (`FluaLibs.StackCapacity` says how much the list takes, and `checkriovecs_stacked` that
the list is read in the same way there).
-/
namespace FluaLibs

/-! ## Filling buffers -/

namespace Scatter
variable {α : Type}

/-- Writes a list over buffers, from the first one on; what is not written over stays. -/
def fill : List (List α) → List α → List (List α)
  | [], _ => []
  | b :: bs, s => (s.take b.length ++ b.drop s.length) :: fill bs (s.drop b.length)

/-- **The buffers together** have what is written first, and behind it what they had. -/
theorem flatten_fill {bs : List (List α)} {s : List α} (h : s.length ≤ bs.flatten.length) :
    (fill bs s).flatten = s ++ bs.flatten.drop s.length := by
  induction bs generalizing s with
  | nil =>
    have hnil : s = [] := List.length_eq_zero_iff.mp (Nat.le_zero.mp h)
    rw [hnil]
    rfl
  | cons b bs ih =>
    rw [List.flatten_cons, List.length_append] at h
    have hrest : (s.drop b.length).length ≤ bs.flatten.length := by
      rw [List.length_drop]
      omega
    rw [fill, List.flatten_cons, ih hrest, List.flatten_cons, List.drop_append,
      List.length_drop]
    rcases Nat.le_total s.length b.length with hle | hle
    · -- the list ends in this buffer
      rw [List.take_of_length_le hle, List.drop_of_length_le hle, List.nil_append,
        List.append_assoc]
    · rw [List.drop_of_length_le hle, List.append_nil, List.nil_append, ← List.append_assoc,
        List.take_append_drop]

theorem flatten_fill_eq_iff {bs : List (List α)} {s : List α}
    (h : s.length ≤ bs.flatten.length) :
    (fill bs s).flatten = s ↔ s.length = bs.flatten.length := by
  rw [flatten_fill h, List.append_right_eq_self, List.drop_eq_nil_iff]
  exact ⟨Nat.le_antisymm h, Nat.le_of_eq ∘ Eq.symm⟩

/-- The buffers stay as long as they are. -/
theorem map_length_fill (bs : List (List α)) (s : List α) :
    (fill bs s).map List.length = bs.map List.length := by
  induction bs generalizing s with
  | nil => rfl
  | cons b bs ih =>
    have hlength : (s.take b.length ++ b.drop s.length).length = b.length := by
      rw [List.length_append, List.length_take, List.length_drop]
      omega
    rw [fill, List.map_cons, List.map_cons, ih, hlength]

end Scatter

namespace Uio
open LuaArguments
variable {R : Runtime}

abbrev Bytes : Type := List UInt8

/-- What is outside the module.  A buffer that is allocated has some contents; `readv(2)` and
`preadv(2)` get the descriptor, the lengths of the buffers, the number of them and the offset, and
give the bytes that are delivered. -/
structure Env where
  lists : SctpBuffers.Env
  fresh : Nat → Nat → UInt8
  readv : Int → List Nat → Int → Except Nat Bytes
  preadv : Int → List Nat → Int → Int → Except Nat Bytes

/-- How a call ends. -/
inductive Outcome where
  | raised (e : Raised)
  | failed (errno : Nat)
  | returned (buffers : List Bytes) (len : Int)
  deriving DecidableEq

/-! ## The code -/

section Code
variable (env : Env)

/-- The buffers before the call, from the one with the index `i` on. -/
def buffers : Nat → List Nat → List Bytes
  | _, [] => []
  | i, n :: lens => (List.range n).map (env.fresh i) :: buffers (i + 1) lens

/-- The buffers after the kernel has delivered some bytes. -/
def filled (lens : List Nat) (bytes : Bytes) : List Bytes :=
  Scatter.fill (buffers env 0 lens) bytes

/-- `pushriovecs`: every buffer is a string, as long as the `iov_len` of it. -/
def pushriovecs (lens : List Nat) (bases : List Bytes) : List Bytes :=
  List.zipWith (fun len base => base.take len) lens bases

def l_readv (L : LuaState R) : Outcome :=
  match checkfd env.lists.host 1 (L.index 1) with
  | .error e => .raised e
  | .ok fd =>
    match (SctpBuffers.checkriovecs env.lists 2 (L.index 2)).result with
    | .error e => .raised e
    | .ok lens =>
      match env.readv fd lens (IntType.int.wrap lens.length) with
      | .error errno => .failed errno
      | .ok bytes => .returned (pushriovecs lens (filled env lens bytes)) bytes.length

def l_preadv (L : LuaState R) : Outcome :=
  match checkfd env.lists.host 1 (L.index 1) with
  | .error e => .raised e
  | .ok fd =>
    match checkinteger env.lists.host 3 (L.index 3) with
    | .error e => .raised e
    | .ok offset =>
      match (SctpBuffers.checkriovecs env.lists 2 (L.index 2)).result with
      | .error e => .raised e
      | .ok lens =>
        match env.preadv fd lens (IntType.int.wrap lens.length) offset with
        | .error errno => .failed errno
        | .ok bytes => .returned (pushriovecs lens (filled env lens bytes)) bytes.length

/-- The two functions. -/
inductive Function where
  | readv
  | preadv
  deriving DecidableEq

def Function.run : Function → LuaState R → Outcome
  | readv => l_readv env
  | preadv => l_preadv env

end Code

/-! ## What is expected -/

/-- The bytes that the kernel delivers in a call; a call of `preadv` also has an offset. -/
def Function.Delivers (env : Env) (L : LuaState R) (fd : Int) (lens : List Nat) (bytes : Bytes) :
    Function → Prop
  | readv => env.readv fd lens (IntType.int.wrap lens.length) = .ok bytes
  | preadv => ∃ offset, checkinteger env.lists.host 3 (L.index 3) = .ok offset ∧
      env.preadv fd lens (IntType.int.wrap lens.length) offset = .ok bytes

/-- A call with buffers of these lengths into which the kernel delivers bytes, no more than there
is room for. -/
structure Reads (env : Env) (f : Function) (L : LuaState R) (lens : List Nat) (bytes : Bytes) :
    Prop where
  list : (SctpBuffers.checkriovecs env.lists 2 (L.index 2)).result = .ok lens
  delivers : ∃ fd, checkfd env.lists.host 1 (L.index 1) = .ok fd ∧ f.Delivers env L fd lens bytes
  room : bytes.length ≤ lens.sum

/-- What is returned is what was read: the strings together are the bytes that the kernel has
delivered, and their number is returned with them. -/
def Outcome.Returns (o : Outcome) (bytes : Bytes) : Prop :=
  ∃ strings : List Bytes, o = .returned strings bytes.length ∧ strings.flatten = bytes

/-- Whole buffers: each is as long as was asked for, what was read comes first, and behind it is
what has been in them. -/
structure Whole (env : Env) (lens : List Nat) (bytes : Bytes) (strings : List Bytes) : Prop where
  lengths : strings.map List.length = lens
  first : strings.flatten.take bytes.length = bytes
  behind : strings.flatten.drop bytes.length = (buffers env 0 lens).flatten.drop bytes.length

/-- What is returned are whole buffers, with the number of bytes that were read. -/
def Outcome.ReturnsWhole (o : Outcome) (env : Env) (lens : List Nat) (bytes : Bytes) : Prop :=
  ∃ strings : List Bytes, o = .returned strings bytes.length ∧ Whole env lens bytes strings

section Calls
variable {env : Env} {f : Function} {L : LuaState R} {lens : List Nat} {bytes : Bytes}

theorem buffers_map_length (env : Env) (i : Nat) (lens : List Nat) :
    (buffers env i lens).map List.length = lens := by
  induction lens generalizing i with
  | nil => rfl
  | cons n lens ih => rw [buffers, List.map_cons, ih, List.length_map, List.length_range]

theorem buffers_length (env : Env) (i : Nat) (lens : List Nat) :
    (buffers env i lens).flatten.length = lens.sum := by
  rw [List.length_flatten, buffers_map_length]

/-- Every buffer is returned whole. -/
theorem pushriovecs_eq {bases : List Bytes} (h : bases.map List.length = lens) :
    pushriovecs lens bases = bases := by
  subst h
  induction bases with
  | nil => rfl
  | cons base bases ih =>
    rw [pushriovecs, List.map_cons, List.zipWith_cons_cons, List.take_length]
    exact congrArg (base :: ·) ih

theorem filled_map_length (env : Env) (lens : List Nat) (bytes : Bytes) :
    (filled env lens bytes).map List.length = lens := by
  rw [filled, Scatter.map_length_fill, buffers_map_length]

theorem pushriovecs_filled (env : Env) (lens : List Nat) (bytes : Bytes) :
    pushriovecs lens (filled env lens bytes) = filled env lens bytes :=
  pushriovecs_eq (filled_map_length env lens bytes)

/-- **A call that reads returns all its buffers.** -/
theorem Reads.run_eq (h : Reads env f L lens bytes) :
    f.run env L = .returned (filled env lens bytes) bytes.length := by
  obtain ⟨fd, hfd, hdelivers⟩ := h.delivers
  cases f with
  | readv =>
    have hreadv : env.readv fd lens (IntType.int.wrap lens.length) = .ok bytes := hdelivers
    simp only [Function.run, l_readv, hfd, h.list, hreadv, pushriovecs_filled]
  | preadv =>
    obtain ⟨offset, hoffset, hpreadv⟩ := hdelivers
    simp only [Function.run, l_preadv, hfd, hoffset, h.list, hpreadv, pushriovecs_filled]

/-- The strings together: what was read, and behind it what was in the buffers. -/
theorem Reads.flatten_filled (h : Reads env f L lens bytes) :
    (filled env lens bytes).flatten =
      bytes ++ (buffers env 0 lens).flatten.drop bytes.length := by
  refine Scatter.flatten_fill ?_
  rw [buffers_length]
  exact h.room

theorem Reads.whole_filled (h : Reads env f L lens bytes) :
    Whole env lens bytes (filled env lens bytes) where
  lengths := filled_map_length env lens bytes
  first := by rw [h.flatten_filled, List.take_left]
  behind := by rw [h.flatten_filled, List.drop_left]

/-- The strings together are what was read where all the buffers are full. -/
theorem Reads.returns_iff (h : Reads env f L lens bytes) :
    (f.run env L).Returns bytes ↔ bytes.length = lens.sum := by
  have hroom : bytes.length ≤ (buffers env 0 lens).flatten.length := by
    rw [buffers_length]
    exact h.room
  have hfill := Scatter.flatten_fill_eq_iff hroom
  rw [buffers_length] at hfill
  rw [h.run_eq, ← hfill]
  constructor
  · rintro ⟨strings, heq, hbytes⟩
    cases heq
    exact hbytes
  · intro hbytes
    exact ⟨_, rfl, hbytes⟩

/-- **What is returned**: whole buffers that begin with what was read, and nothing else where all
of them are full. -/
theorem readv_returns_whole (h : Reads env f L lens bytes) :
    (f.run env L).ReturnsWhole env lens bytes ∧
      ((f.run env L).Returns bytes ↔ bytes.length = lens.sum) :=
  ⟨⟨_, h.run_eq, h.whole_filled⟩, h.returns_iff⟩

end Calls

/-! ## A short read -/

/-- A list with one buffer of four bytes, and a kernel that delivers three; a new buffer has the
byte 0xa5 everywhere. -/
def fourEnv : Env where
  lists := { SctpBuffers.sendingEnv with geti := fun _ _ => .ok (.integer 4) }
  fresh _ _ := 0xa5
  readv _ _ _ := .ok [1, 2, 3]
  preadv _ _ _ _ := .ok [1, 2, 3]

/-- `readv(3, {4})` -/
def fourCall : LuaState noFunctions := ⟨[.integer 3, .table 0], [], 0⟩

theorem fourCall_reads : Reads fourEnv .readv fourCall [4] [1, 2, 3] where
  list := rfl
  delivers := ⟨3, rfl, rfl⟩
  room := by decide

theorem fourCall_returns_whole :
    (Function.run fourEnv .readv fourCall).ReturnsWhole fourEnv [4] [1, 2, 3] ∧
      ((Function.run fourEnv .readv fourCall).Returns [1, 2, 3] ↔
        List.length ([1, 2, 3] : Bytes) = [4].sum) :=
  readv_returns_whole fourCall_reads

/-- Three bytes are read, and four are returned. -/
theorem fourCall_not_returns : ¬ (Function.run fourEnv .readv fourCall).Returns [1, 2, 3] := by
  rw [fourCall_reads.returns_iff]
  decide

end Uio
end FluaLibs
