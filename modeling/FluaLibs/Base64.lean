import FluaLibs.LuaArguments
import FluaLibs.Base64Text
import Mathlib.Data.List.TakeWhile

/-! # Base64 strings

`b64.encode` and `b64.decode` compute the size of a buffer, allocate it, and let the
resolver library convert.  The sizes are always enough (`encodeSize_room`,
`decodeSize_room`), but the length that comes back is kept in an `int`: a text of 2^31
characters or more is not pushed as it is.
-/
namespace FluaLibs
namespace Base64
open LuaArguments
open Base64Text (write)
variable {R : Runtime}

abbrev Bytes : Type := List UInt8

/-- `b64_ntop(3)` and `b64_pton(3)`, given the size of the target: what they write there, or
nothing if they return -1. -/
structure Resolv where
  b64_ntop : Bytes → Nat → Option Bytes
  b64_pton : Bytes → Nat → Option Bytes

/-- The size that `b64_pton` asks for: where the last group is not full, its check of the
bounds is one byte ahead of what it writes. -/
def bound (n : Nat) : Nat := if n % 3 = 0 then n else n + 1

/-- What the functions are documented to do. -/
structure Resolv.Documented (lib : Resolv) : Prop where
  b64_ntop_eq (x : Bytes) (targsize : Nat) :
    lib.b64_ntop x targsize =
      if 4 * ((x.length + 2) / 3) + 1 ≤ targsize then some (write x) else none
  b64_pton_write (x : Bytes) (targsize : Nat) :
    lib.b64_pton (write x) targsize = if bound x.length ≤ targsize then some x else none

/-- What is outside the module. -/
structure Env where
  host : Host
  lib : Resolv
  malloc : Nat → Bool

/-! ## The code -/

/-- How a call ends; `overread` is a copy from behind the end of what is in the buffer. -/
inductive Outcome where
  | raised (e : Raised)
  | aborted
  | failed (errno : Nat)
  | returned (s : Bytes)
  | overread
  deriving DecidableEq

/-- `EINVAL` -/
def EINVAL : Nat := 22

/-- `4 * (datalen + 2) / 3 + 1`, computed as `size_t`. -/
def encodeSize (datalen : Nat) : Nat :=
  (4 * ((datalen + 2) % 2 ^ 64) % 2 ^ 64 / 3 + 1) % 2 ^ 64

/-- `3 * enclen / 4`, computed as `size_t`. -/
def decodeSize (enclen : Nat) : Nat := 3 * enclen % 2 ^ 64 / 4

/-- `len`, an `int`: the number of bytes that were written, or -1. -/
def len (written : Option Bytes) : Int :=
  match written with
  | some s => IntType.int.wrap s.length
  | none => -1

/-- `lua_pushlstring(L, buf, len)`, which converts the length to a `size_t`. -/
def pushlstring (buf : Bytes) (len : Int) : Outcome :=
  let size := (IntType.uint64.wrap len).toNat
  if MAX_SIZE ≤ size then .raised (.error "memory allocation error: block too big")
  else if size ≤ buf.length then .returned (buf.take size)
  else .overread

def l_b64_encode (env : Env) (L : LuaState R) : Outcome :=
  match checklstring env.host 1 (L.index 1) with
  | .error e => .raised e
  | .ok data =>
    let buflen := encodeSize data.length
    if env.malloc buflen then
      let buf := env.lib.b64_ntop data buflen
      if len buf = -1 then .aborted
      -- the text ends with a NUL, which does not count
      else pushlstring (buf.getD [] ++ [0]) (len buf)
    else .raised (.fatal "malloc" ENOMEM)

def l_b64_decode (env : Env) (L : LuaState R) : Outcome :=
  match checklstring env.host 1 (L.index 1) with
  | .error e => .raised e
  | .ok encoded =>
    let buflen := decodeSize encoded.length
    if env.malloc buflen then
      let buf := env.lib.b64_pton (cstr encoded) buflen
      if len buf = -1 then .failed EINVAL
      else pushlstring (buf.getD []) (len buf)
    else .raised (.fatal "malloc" ENOMEM)

/-! ## Sizes -/

section Sizes
variable {n : Nat}

theorem encodeSize_eq (h : n < 2 ^ 61) : encodeSize n = 4 * (n + 2) / 3 + 1 := by
  have hsum : (n + 2) % 2 ^ 64 = n + 2 := Nat.mod_eq_of_lt (by omega)
  have hproduct : 4 * (n + 2) % 2 ^ 64 = 4 * (n + 2) := Nat.mod_eq_of_lt (by omega)
  have hsize : (4 * (n + 2) / 3 + 1) % 2 ^ 64 = 4 * (n + 2) / 3 + 1 := Nat.mod_eq_of_lt (by omega)
  rw [encodeSize, hsum, hproduct, hsize]

/-- **There is room for the text**, whatever is left of the length modulo three. -/
theorem encodeSize_room (h : n < 2 ^ 61) : 4 * ((n + 2) / 3) + 1 ≤ encodeSize n := by
  rw [encodeSize_eq h]
  omega

/-- **There is room for the bytes of a text**, and for the check of the bounds. -/
theorem decodeSize_room (h : n < 2 ^ 61) : bound n ≤ decodeSize (4 * ((n + 2) / 3)) := by
  unfold bound decodeSize
  split <;> omega

end Sizes

/-! ## Lengths -/

section Lengths
variable {buf s : Bytes}

theorem pushlstring_of_lt {v : Int} (hpos : 0 ≤ v) (hlt : v < 2 ^ 31) (hbuf : v ≤ buf.length) :
    pushlstring buf v = .returned (buf.take v.toNat) := by
  have hholds : IntType.uint64.Holds v := by
    show 0 ≤ v ∧ v < 2 ^ 64
    omega
  have hsmall : ¬ MAX_SIZE ≤ v.toNat := by
    rw [MAX_SIZE]
    omega
  have hread : v.toNat ≤ buf.length := by omega
  rw [pushlstring, IntType.wrap_of_holds hholds, if_neg hsmall, if_pos hread]

/-- A negative length is a size that Lua refuses. -/
theorem pushlstring_of_neg {v : Int} (hlow : -2 ^ 31 ≤ v) (hneg : v < 0) :
    pushlstring buf v = .raised (.error "memory allocation error: block too big") := by
  have hsize : IntType.uint64.wrap v = v + 2 ^ 64 := by
    show v % 2 ^ 64 = v + 2 ^ 64
    omega
  have hbig : MAX_SIZE ≤ (v + 2 ^ 64).toNat := by
    rw [MAX_SIZE]
    omega
  rw [pushlstring, hsize, if_pos hbig]

theorem len_small (h : s.length < 2 ^ 31) : len (some s) = s.length := by
  have hholds : IntType.int.Holds (s.length : Int) := by
    show -2 ^ 31 ≤ (s.length : Int) ∧ (s.length : Int) < 2 ^ 31
    omega
  rw [len, IntType.wrap_of_holds hholds]

theorem len_range (s : Bytes) : -2 ^ 31 ≤ len (some s) ∧ len (some s) < 2 ^ 31 :=
  IntType.wrap_holds IntType.int s.length

/-- A multiple of four does not become -1. -/
theorem len_ne_neg_one {k : Nat} (h : s.length = 4 * k) : len (some s) ≠ -1 := by
  intro hlen
  have hmod : IntType.int.wrap s.length % 2 ^ 32 = (s.length : Int) % 2 ^ 32 :=
    IntType.wrap_modEq IntType.int s.length
  rw [len] at hlen
  rw [hlen, h] at hmod
  push_cast at hmod
  omega

/-- What is pushed when the library has written `s` at the start of the buffer. -/
theorem pushlstring_small (h : s.length < 2 ^ 31) (rest : Bytes) :
    pushlstring (s ++ rest) (len (some s)) = .returned s := by
  rw [len_small h, pushlstring_of_lt (by omega) (by omega) (by simp), Int.toNat_natCast,
    List.take_left]

theorem pushlstring_large (h : 2 ^ 31 ≤ s.length) (rest : Bytes) :
    pushlstring (s ++ rest) (len (some s)) ≠ .returned s := by
  obtain ⟨hlow, hhigh⟩ := len_range s
  rcases Int.lt_or_le (len (some s)) 0 with hneg | hpos
  · rw [pushlstring_of_neg hlow hneg]
    intro heq
    cases heq
  · rw [pushlstring_of_lt hpos hhigh (by rw [List.length_append]; omega)]
    intro heq
    have hlength := congrArg List.length (Outcome.returned.inj heq)
    rw [List.length_take] at hlength
    omega

end Lengths

/-! ## Round trips -/

section Calls
variable {env : Env} {x : Bytes}

/-- The state of a call with a string, and with other arguments. -/
def passing (s : Bytes) (L : LuaState R) : LuaState R := { L with stack := .string s :: L.stack }

theorem checklstring_passing (host : Host) (s : Bytes) (L : LuaState R) :
    checklstring host 1 ((passing s L).index 1) = .ok s := rfl

theorem encode_passing (hlib : env.lib.Documented) (hx : x.length < 2 ^ 61)
    (hmalloc : env.malloc (encodeSize x.length) = true) (L : LuaState R) :
    l_b64_encode env (passing x L) = pushlstring (write x ++ [0]) (len (some (write x))) := by
  have hne := len_ne_neg_one (Base64Text.write_length x)
  rw [l_b64_encode, checklstring_passing]
  simp only [hmalloc, if_true, hlib.b64_ntop_eq, encodeSize_room hx, hne, if_false]
  rfl

/-- The assertion holds. -/
theorem encode_ne_aborted (hlib : env.lib.Documented) (hx : x.length < 2 ^ 61)
    (L : LuaState R) : l_b64_encode env (passing x L) ≠ .aborted := by
  by_cases hmalloc : env.malloc (encodeSize x.length) = true
  · rw [encode_passing hlib hx hmalloc, pushlstring]
    intro h
    split at h
    · cases h
    · split at h <;> cases h
  · rw [l_b64_encode, checklstring_passing]
    simp only [hmalloc]
    intro h
    cases h

theorem cstr_write (x : Bytes) : cstr (write x) = write x := by
  rw [cstr, List.takeWhile_eq_self_iff]
  intro b hb
  rw [decide_eq_true_iff]
  rintro rfl
  exact Base64Text.zero_not_mem_write x hb

theorem decode_passing (hlib : env.lib.Documented) (hx : x.length < 2 ^ 31)
    (hmalloc : env.malloc (decodeSize (write x).length) = true) (L : LuaState R) :
    l_b64_decode env (passing (write x) L) = .returned x := by
  have hroom : bound x.length ≤ decodeSize (4 * ((x.length + 2) / 3)) :=
    decodeSize_room (by omega)
  rw [← Base64Text.write_length] at hroom
  have hpush := pushlstring_small hx []
  rw [List.append_nil] at hpush
  have hne : (x.length : Int) ≠ -1 := by omega
  rw [l_b64_decode, checklstring_passing]
  simp only [hmalloc, if_true, cstr_write, hlib.b64_pton_write, hroom, len_small hx, hne, if_false]
  rw [len_small hx] at hpush
  exact hpush

/-- What is expected of a string: the size of the buffer does not overflow and the assertion
holds, whatever `malloc` does; with enough memory, the result is its text, which is decoded to
it. -/
structure RoundTrips (host : Host) (lib : Resolv) (x : Bytes) (L : LuaState R) : Prop where
  fits : encodeSize x.length = 4 * (x.length + 2) / 3 + 1
  asserted (malloc : Nat → Bool) : l_b64_encode ⟨host, lib, malloc⟩ (passing x L) ≠ .aborted
  encoded (malloc : Nat → Bool) (hmalloc : ∀ size, malloc size = true) :
    l_b64_encode ⟨host, lib, malloc⟩ (passing x L) = .returned (write x)
  decoded (malloc : Nat → Bool) (hmalloc : ∀ size, malloc size = true) :
    l_b64_decode ⟨host, lib, malloc⟩ (passing (write x) L) = .returned x

/-- **A string round-trips exactly if its text has fewer than 2^31 characters.** -/
theorem round_trips_iff {lib : Resolv} (hlib : lib.Documented) (host : Host) (L : LuaState R)
    (hx : x.length < 2 ^ 61) :
    RoundTrips host lib x L ↔ 4 * ((x.length + 2) / 3) < 2 ^ 31 := by
  have hlength := Base64Text.write_length x
  constructor
  · intro h
    by_contra hlarge
    have hencoded := h.encoded (fun _ => true) (fun _ => rfl)
    rw [encode_passing hlib hx rfl] at hencoded
    exact pushlstring_large (by omega) [0] hencoded
  · intro hsmall
    refine ⟨encodeSize_eq hx, fun malloc => encode_ne_aborted hlib hx L, ?_, ?_⟩
    · intro malloc hmalloc
      rw [encode_passing hlib hx (hmalloc _)]
      exact pushlstring_small (by omega) [0]
    · intro malloc hmalloc
      exact decode_passing hlib (by omega) (hmalloc _) L

end Calls

/-! ## The library as it is -/

/-- A library that does what is documented; its `b64_pton` checks the bounds of what it has
read. -/
def resolv : Resolv where
  b64_ntop x targsize :=
    if 4 * ((x.length + 2) / 3) + 1 ≤ targsize then some (write x) else none
  b64_pton text targsize :=
    (Base64Text.read text).filter (fun x => bound x.length ≤ targsize)

theorem resolv_documented : resolv.Documented where
  b64_ntop_eq _ _ := rfl
  b64_pton_write x targsize := by
    show (Base64Text.read (write x)).filter _ = _
    rw [Base64Text.read_write, Option.filter_some]
    simp only [decide_eq_true_eq]

def noArguments : LuaState noFunctions := ⟨[], [], 0⟩

/-- The bytes of "Hi". -/
theorem greeting_round_trips : RoundTrips .plain resolv [72, 105] noArguments :=
  (round_trips_iff resolv_documented .plain noArguments (by decide)).mpr (by decide)

/-- Of so many bytes, the text has 2^31 characters. -/
theorem large_not_round_trips :
    ¬ RoundTrips .plain resolv (List.replicate (3 * 2 ^ 29) 0) noArguments := by
  intro h
  have hlength : (List.replicate (3 * 2 ^ 29) (0 : UInt8)).length = 3 * 2 ^ 29 :=
    List.length_replicate
  have hlarge : 2 ^ 31 ≤ (write (List.replicate (3 * 2 ^ 29) 0)).length := by
    rw [Base64Text.write_length, hlength]
    decide
  have hencoded := h.encoded (fun _ => true) (fun _ => rfl)
  rw [encode_passing resolv_documented (by rw [hlength]; decide) rfl] at hencoded
  exact pushlstring_large hlarge [0] hencoded

end Base64
end FluaLibs
