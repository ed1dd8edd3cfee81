import FluaLibs.LuaArguments
import FluaLibs.Requests

/-! # Configuration strings

`confstr(3)` reports the size that a string needs with its terminating NUL, whatever room
it is given, and 0 if there is no such string.  `l_confstr` asks with no room, allocates
twice the size it is told, and asks again until the string fits.  What it pushes has the
length that was reported last, which counts the NUL.
-/
namespace FluaLibs
namespace Confstr
open LuaArguments
variable {R : Runtime}

/-- A C string in memory. -/
structure CString where
  bytes : List UInt8
  nul_free : 0 ∉ bytes
  length_lt : bytes.length < 2 ^ 62

/-- What `confstr` finds for a name: a string, a name without a value, or an error. -/
inductive Answer where
  | value (s : CString)
  | unset
  | failed (errno : Nat)

namespace Answer

/-- What `confstr` returns. -/
def size : Answer → Nat
  | value s => s.bytes.length + 1
  | unset | failed _ => 0

/-- What `errno` is after it, if it was 0. -/
def errno : Answer → Nat
  | failed errno => errno
  | value _ | unset => 0

/-- What `confstr` writes where there is room for `len` bytes. -/
def written (a : Answer) (len : Nat) : List UInt8 :=
  match a with
  | value s => if len = 0 then [] else s.bytes.take (len - 1) ++ [0]
  | unset | failed _ => []

end Answer

/-- What is outside the module: what each call of `confstr` finds for a name, and whether
there is memory after it. -/
structure Env where
  host : Host
  confstr : Int → Nat → Answer
  malloc : Nat → Nat → Bool

/-! ## The code -/

/-- The calls of `confstr`; a size is a `size_t`. -/
def requests (answer : Nat → Answer) (malloc : Nat → Nat → Bool) : Requests Empty where
  report k _ := .ok (answer k).size
  grow newlen := newlen * 2 % 2 ^ 64
  grants := malloc

/-- How a call ends; `call` is the number of calls of `confstr` before the last. -/
inductive Outcome where
  | running
  | raised (e : Raised)
  | nothing
  | failed (errno : Nat)
  | returned (s : List UInt8) (call : Nat)
  deriving DecidableEq

/-- The function from the loop on. -/
def retrieve (answer : Nat → Answer) (malloc : Nat → Nat → Bool) (rounds : Nat) : Outcome :=
  match (requests answer malloc).loop rounds 0 0 with
  | .running => .running
  | .refused => .raised (.fatal "malloc" ENOMEM)
  | .failed e => nomatch e
  | .fits k len newlen =>
    if newlen = 0 then
      if (answer k).errno = 0 then .nothing else .failed (answer k).errno
    else .returned (((answer k).written len).take newlen) k

/-- `l_confstr` -/
def l_confstr (env : Env) (rounds : Nat) (L : LuaState R) : Outcome :=
  match checkinteger env.host 1 (L.index 1) with
  | .error e => .raised e
  | .ok name => retrieve (env.confstr (IntType.int.wrap name)) env.malloc rounds

/-! ## What is returned -/

section Strings
variable {answer : Nat → Answer} {malloc : Nat → Nat → Bool} {rounds k : Nat} {s : CString}

theorem written_of_fits {len : Nat} (hfits : s.bytes.length + 1 ≤ len) :
    ((Answer.value s).written len).take (s.bytes.length + 1) = s.bytes ++ [0] := by
  have hlen : len ≠ 0 := by omega
  have hroom : s.bytes.length ≤ len - 1 := by omega
  rw [Answer.written, if_neg hlen, List.take_of_length_le hroom]
  apply List.take_of_length_le
  rw [List.length_append, List.length_singleton]

/-- **The string is returned with its NUL.** -/
theorem retrieve_value {v : List UInt8} (hk : answer k = .value s)
    (hreturned : retrieve answer malloc rounds = .returned v k) : v = s.bytes ++ [0] := by
  unfold retrieve at hreturned
  split at hreturned
  · cases hreturned
  · cases hreturned
  · next e _ => exact nomatch e
  · next j len newlen hloop =>
    obtain ⟨-, -, ⟨hreport, hle⟩, rfl⟩ := Requests.loop_eq_fits_iff.mp hloop
    split at hreturned
    · split at hreturned <;> cases hreturned
    · cases hreturned
      have hsize : (answer k).size = newlen := Except.ok.inj hreport
      rw [hk] at hsize
      cases hsize
      rw [hk]
      exact written_of_fits hle

theorem size_value (s : CString) : (Answer.value s).size = s.bytes.length + 1 := rfl

/-- Twice the size of a string is no smaller, as a `size_t`. -/
theorem le_grow (s : CString) :
    (Answer.value s).size ≤ (requests answer malloc).grow (Answer.value s).size := by
  have hlt := s.length_lt
  show s.bytes.length + 1 ≤ (s.bytes.length + 1) * 2 % 2 ^ 64
  omega

/-- The value settles. -/
def Settles (values : Nat → CString) : Prop := ∃ n, ∀ k, n ≤ k → values k = values n

/-- **The call ends** if the value settles and there is memory, and returns a string. -/
theorem retrieve_ends {values : Nat → CString} (hsettles : Settles values)
    (hvalues : ∀ k, answer k = .value (values k)) (hmalloc : ∀ k size, malloc k size = true) :
    ∃ n, ∀ rounds, n ≤ rounds →
      ∃ k, retrieve answer malloc rounds = .returned ((values k).bytes ++ [0]) k := by
  obtain ⟨n, hn⟩ := hsettles
  refine ⟨n + 2, fun rounds hrounds => ?_⟩
  have hreport (k room : Nat) : (requests answer malloc).report k room =
      .ok ((values k).bytes.length + 1) := by
    show Except.ok (answer k).size = _
    rw [hvalues, size_value]
  have hends : (requests answer malloc).loop rounds 0 0 ≠ .running := by
    have hsettled (k : Nat) (hk : n ≤ k) (room size : Nat)
        (hsize : (requests answer malloc).report k room = .ok size) :
        size = (Answer.value (values n)).size := by
      cases (hreport k room).symm.trans hsize
      rw [hn k hk]
      rfl
    exact Requests.not_running_of_settled hsettled (le_grow (values n)) hrounds
  have hgo : (requests answer malloc).loop rounds 0 0 = .running ∨ ∃ j size,
      (requests answer malloc).loop rounds 0 0 =
        .fits j ((requests answer malloc).room 0 j) size :=
    Requests.running_or_fits (fun k room => ⟨_, hreport k room⟩) hmalloc rounds 0
  rcases hgo with hrunning | ⟨k, size, hloop⟩
  · exact absurd hrunning hends
  · obtain ⟨-, -, ⟨hsize, hle⟩, -⟩ := Requests.loop_eq_fits_iff.mp hloop
    cases (hreport k _).symm.trans hsize
    refine ⟨k, ?_⟩
    rw [retrieve, hloop]
    dsimp only
    rw [if_neg (Nat.succ_ne_zero _), hvalues k, written_of_fits hle]

end Strings

/-- A configuration string with some value at each call. -/
def stringEnv (host : Host) (malloc : Nat → Nat → Bool) (values : Nat → CString) : Env :=
  ⟨host, fun _ k => .value (values k), malloc⟩

/-- The call ends, and returns the characters of the string. -/
def Retrieves (host : Host) (malloc : Nat → Nat → Bool) (values : Nat → CString)
    (L : LuaState R) : Prop :=
  ∃ n, ∀ rounds, n ≤ rounds →
    ∃ k, l_confstr (stringEnv host malloc values) rounds L = .returned (values k).bytes k

section Returned
variable {host : Host} {malloc : Nat → Nat → Bool} {values : Nat → CString} {L : LuaState R}

theorem l_confstr_returned {rounds k : Nat} {v : List UInt8}
    (hreturned : l_confstr (stringEnv host malloc values) rounds L = .returned v k) :
    v = (values k).bytes ++ [0] := by
  unfold l_confstr at hreturned
  split at hreturned
  · cases hreturned
  · next name _ =>
    have hvalue : (stringEnv host malloc values).confstr (IntType.int.wrap name) k =
        .value (values k) := rfl
    exact retrieve_value hvalue hreturned

/-- **No call returns the characters of the string**: there is always a NUL at the end. -/
theorem returned_with_nul (host : Host) (malloc : Nat → Nat → Bool) (values : Nat → CString)
    (L : LuaState R) :
    (∀ rounds v k, l_confstr (stringEnv host malloc values) rounds L = .returned v k →
      v = (values k).bytes ++ [0]) ∧ ¬ Retrieves host malloc values L := by
  refine ⟨fun rounds v k => l_confstr_returned, ?_⟩
  rintro ⟨n, hall⟩
  obtain ⟨k, hreturned⟩ := hall n (Nat.le_refl n)
  have hlength := congrArg List.length (l_confstr_returned hreturned)
  rw [List.length_append, List.length_singleton] at hlength
  omega

end Returned

/-- `"/bin"` -/
def bin : CString := ⟨[47, 98, 105, 110], by decide, by decide⟩

/-- `unistd.confstr(unistd._CS_PATH)` -/
def pathCall : LuaState noFunctions := ⟨[.integer 1], [], 0⟩

/-- The value never changes, and five bytes are returned for its four. -/
theorem not_retrieves : ¬ ∀ (host : Host) (malloc : Nat → Nat → Bool) (values : Nat → CString)
    (L : LuaState noFunctions), Settles values → Retrieves host malloc values L := by
  intro hall
  obtain ⟨n, hends⟩ := hall .plain (fun _ _ => true) (fun _ => bin) pathCall ⟨0, fun _ _ => rfl⟩
  obtain ⟨k, hreturned⟩ := hends n (Nat.le_refl n)
  have hbytes : bin.bytes = bin.bytes ++ [0] := l_confstr_returned hreturned
  exact absurd hbytes (by decide)

end Confstr
end FluaLibs
