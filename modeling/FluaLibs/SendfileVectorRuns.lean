import FluaLibs.SendfileVectors
import FluaLibs.ListArgumentRuns

/-! # What becomes of headers and trailers

The arrays are freed when an element is no string and when there is no memory for the second one,
and nowhere else: `sendfileOf` counts those that are left at the end of a call.  They are left also
when the call goes well.
-/
namespace FluaLibs
namespace Sendfile
open LuaArguments Held ListArguments

section Results
variable (env : SendEnv) (args : Nat → Option Value)

/-- The string after `i`; or the error, and how many of the arrays that are there it leaves. -/
def stringOf (t : Nat) (message : String) (arrays i : Nat) : Except (Raised × Nat) Bytes :=
  match env.geti t (i + 1) with
  | .error e => .error (e, arrays)
  | .ok (.string s) => (env.tostring s).mapError (·, arrays)
  | .ok _ => .error (.error message, 0)

def stringsOf (t : Nat) (message : String) (arrays : Nat) :
    Nat → Nat → Except (Raised × Nat) (List Bytes)
  | 0, _ => pure []
  | n + 1, i => do
    let string ← stringOf env t message arrays i
    let strings ← stringsOf t message arrays n (i + 1)
    pure (string :: strings)

/-- A list with `count` strings, when there are `earlier` arrays; and how many arrays it has. -/
def listOf (t : Nat) (message : String) (which earlier : Nat) (count : Int) :
    Except (Raised × Nat) (Nat × Half) :=
  if env.malloc which (sizeT (count * 16)) = true then
    (stringsOf env t message (earlier + 1) count.toNat 0).map (1, ⟨count, ·⟩)
  else .error (.fatal "malloc" ENOMEM, 0)

/-- A vector; no list is an empty one. -/
def iovecsOf (hdtr : Nat) (field message : String) (which earlier : Nat) :
    Except (Raised × Nat) (Nat × Half) :=
  match env.getfield hdtr field with
  | .error e => .error (e, earlier)
  | .ok (.table t) =>
    match env.len t with
    | .error e => .error (e, earlier)
    | .ok len =>
      if IntType.int.wrap len = 0 then .ok (0, ⟨0, []⟩)
      else listOf env t message which earlier (IntType.int.wrap len)
  | .ok _ => .ok (0, ⟨0, []⟩)

/-- The two vectors, and how many arrays they have. -/
def hdtrOf (hdtr : Nat) : Except (Raised × Nat) (Nat × Half × Half) := do
  let (arrays, headers) ← iovecsOf env hdtr "headers" "headers must be strings" 0 0
  let (more, trailers) ← iovecsOf env hdtr "trailers" "trailers must be strings" 1 arrays
  pure (more + arrays, headers, trailers)

/-- The call, when there are arrays.  They stay. -/
def callOf (sendfile : Given → Except Nat Int) (given : Given) (arrays arg : Nat) :
    Counted Raised (Given × Except Nat Int) :=
  ((lastArguments env args arg).map fun last =>
    (given.withLast last, sendfile (given.withLast last)), arrays)

/-- The call with a table. -/
def tableOf (sendfile : Given → Except Nat Int) (given : Given) (t : Nat) :
    Counted Raised (Given × Except Nat Int) :=
  match hdtrOf env t with
  | .error (e, arrays) => (.error e, arrays)
  | .ok (arrays, hdtr) => callOf env args sendfile { given with hdtr := some hdtr } arrays 6

/-- `sendfile`, and how many arrays are left at its end. -/
def sendfileOf (sendfile : Given → Except Nat Int) : Counted Raised (Given × Except Nat Int) :=
  match firstArguments env args with
  | .error e => (.error e, 0)
  | .ok given =>
    match istable (args 5) with
    | some t => tableOf env args sendfile given t
    | none => callOf env args sendfile given 0 5

/-- The length of the list in a field, if there is a list. -/
def listLength (hdtr : Nat) (field : String) : Option Nat :=
  match env.getfield hdtr field with
  | .ok (.table t) =>
    match env.len t with
    | .ok len => some (IntType.int.wrap len).toNat
    | .error _ => some 0
  | _ => none

/-- How many strings a field is to have. -/
def countOf (hdtr : Nat) (field : String) : Nat := (listLength env hdtr field).getD 0

/-- The slots of the two lists. -/
def hdtrSlots (hdtr : Nat) : Nat :=
  (1 + 2 * countOf env hdtr "headers") + (1 + 2 * countOf env hdtr "trailers")

/-- The slots of a result.  One is needed after the lists also when there is none: it is the last
in the search for a metamethod. -/
def endSlots : Except Raised (Given × Except Nat Int) → Nat
  | .ok (_, result) => resultSlots result
  | .error _ => 1

/-- The slots that a call needs. -/
def sendfileSlots (sendfile : Given → Except Nat Int) : Nat :=
  (istable (args 5)).elim 0 (hdtrSlots env) + endSlots (sendfileOf env args sendfile).1

/-- The half has a string for every element of the list in the field, in this order. -/
structure Sends (hdtr : Nat) (field : String) (half : Half) : Prop where
  length : half.strings.length = half.count.toNat
  strings : ∀ (i : Nat) (string : Bytes), half.strings[i]? = some string → ∃ t s,
    env.getfield hdtr field = .ok (.table t) ∧ env.geti t (i + 1) = .ok (.string s) ∧
      env.tostring s = .ok string

/-- The arrays of two halves: an empty one has none. -/
def arraysOf (hdtr : Half × Half) : Nat :=
  (if hdtr.2.count = 0 then 0 else 1) + if hdtr.1.count = 0 then 0 else 1

end Results

section Steps
variable {ε α β : Type} {x : Except ε α} {f : α → Except ε β} {a : α} {b : β} {e : ε}

theorem bind_of_ok (h : x = .ok a) : (x >>= f) = f a := by
  rw [h]
  rfl

theorem bind_of_error (h : x = .error e) : (x >>= f) = .error e := by
  rw [h]
  rfl

theorem ok_of_bind (h : (x >>= f) = .ok b) : ∃ a, x = .ok a ∧ f a = .ok b := by
  rcases x with e | a
  · cases h
  · exact ⟨a, rfl, h⟩

end Steps

section Runs
variable {env : SendEnv} {args : Nat → Option Value} {base l : List Nat}

/-! ## Strings -/

section Strings
variable {t size count below : Nat} {message : String}

theorem takeString_sticky (arrays : List Nat) (i : Nat) (v : Value) :
    Sticky (takeString env size message arrays below i v) := by
  cases v with
  | string s =>
    exact (Sticky.demand _).bind fun _ => (Sticky.demand _).bind fun _ => Sticky.ofExcept _
  | _ => exact (Sticky.freeAll arrays).bind fun _ => Sticky.raise _

theorem readString_sticky (arrays : List Nat) (i : Nat) :
    Sticky (readString env t size message arrays below i) :=
  (Sticky.demand _).bind fun _ => (Sticky.ofExcept _).bind fun v => takeString_sticky arrays i v

theorem freeAll_spec {arrays : List Nat} (hl : l.Perm arrays) :
    Spec base l (Code.freeAll arrays : Code Raised Unit) (fun _ l' => l' = [])
      (fun _ _ => False) := by
  have hp : l.Perm (arrays ++ []) := by rwa [List.append_nil]
  exact Spec.freeAll hp rfl

theorem readString_spec {arrays : List Nat} {i : Nat} (hl : l.Perm arrays)
    (hplace : hasPlace size 16 i = true) (hroom : below + 2 * i + 3 ≤ minstack) :
    Spec base l (readString env t size message arrays below i)
      (fun string l' => l' = l ∧ stringOf env t message l.length i = .ok string)
      (fun e l' => stringOf env t message l.length i = .error (e, l'.length)) := by
  have hfirst : decide (below + 2 * i + 1 ≤ minstack) = true := decide_eq_true (by omega)
  refine Spec.bind (Q := fun _ l' => l' = l) (Spec.demand hfirst rfl) ?_
  rintro _ l rfl
  rcases hget : env.geti t (i + 1) with e | v
  · exact Spec.raise (by simp only [stringOf, hget])
  refine Spec.checked ?_
  cases v with
  | string s =>
    refine Spec.bind (Q := fun _ l' => l' = l) (Spec.demand (decide_eq_true hroom) rfl) ?_
    rintro _ l rfl
    refine Spec.bind (Q := fun _ l' => l' = l) (Spec.demand hplace rfl) ?_
    rintro _ l rfl
    refine Spec.ofExcept (fun string hs => ⟨rfl, ?_⟩) (fun e hs => ?_)
    · simp only [stringOf, hget, hs]
      rfl
    · simp only [stringOf, hget, hs]
      rfl
  | _ =>
    refine Spec.bind ((freeAll_spec hl).mono (fun _ _ h => h) (fun _ _ h => h.elim)) ?_
    rintro _ _ rfl
    exact Spec.raise (by simp only [stringOf, hget]; rfl)

/-- There are no slots for a string. -/
theorem readString_faults {arrays : List Nat} {k i : Nat} {string : Bytes}
    (hok : stringOf env t message k i = .ok string) (hroom : minstack < below + 2 * i + 3) :
    Faults base l (readString env t size message arrays below i) := by
  by_cases hfirst : below + 2 * i + 1 ≤ minstack
  · refine Faults.right (Spec.demand (decide_eq_true hfirst) (Q := fun _ l' => l' = l) rfl) ?_
    rintro _ l rfl
    rcases hget : env.geti t (i + 1) with e | v
    · simp only [stringOf, hget] at hok
      cases hok
    refine Faults.checked ?_
    cases v with
    | string s =>
      refine (Faults.demand (decide_eq_false (by omega))).left fun _ => ?_
      exact (Sticky.demand _).bind fun _ => Sticky.ofExcept _
    | _ =>
      simp only [stringOf, hget] at hok
      cases hok
  · refine (Faults.demand (decide_eq_false hfirst)).left fun _ => ?_
    exact (Sticky.ofExcept _).bind fun v => takeString_sticky arrays i v

theorem readStrings_spec {arrays : List Nat} (hl : l.Perm arrays) (hsize : count * 16 ≤ size)
    (n : Nat) : ∀ i : Nat, i + n = count → (n ≠ 0 → below + 2 * count + 1 ≤ minstack) →
      Spec base l (readStrings env t size message arrays below n i)
        (fun strings l' => l' = l ∧ stringsOf env t message l.length n i = .ok strings)
        (fun e l' => stringsOf env t message l.length n i = .error (e, l'.length)) := by
  induction n with
  | zero => exact fun i _ _ => Spec.pure ⟨rfl, rfl⟩
  | succ n ih =>
    intro i hi hroom
    have hslots : below + 2 * count + 1 ≤ minstack := hroom (Nat.succ_ne_zero n)
    refine Spec.bind ((readString_spec hl (hasPlace_of_le hsize (by omega)) (by omega)).mono
      (fun _ _ h => h) ?_) ?_
    · intro e l' he
      rw [stringsOf, bind_of_error he]
    rintro string l ⟨rfl, hstring⟩
    refine Spec.bind ((ih (i + 1) (by omega) (fun _ => hslots)).mono (fun _ _ h => h) ?_) ?_
    · intro e l' he
      rw [stringsOf, bind_of_ok hstring, bind_of_error he]
    · rintro strings l ⟨rfl, hstrings⟩
      refine Spec.pure ⟨rfl, ?_⟩
      rw [stringsOf, bind_of_ok hstring, bind_of_ok hstrings]
      rfl

theorem readStrings_sticky (arrays : List Nat) (n : Nat) : ∀ i : Nat,
    Sticky (readStrings env t size message arrays below n i) := by
  induction n with
  | zero => exact fun i => Sticky.pure []
  | succ n ih =>
    exact fun i => (readString_sticky arrays i).bind fun _ => (ih (i + 1)).bind fun _ =>
      Sticky.pure _

theorem stringsOf_succ {k n i : Nat} {strings : List Bytes}
    (h : stringsOf env t message k (n + 1) i = .ok strings) :
    ∃ string rest, stringOf env t message k i = .ok string ∧
      stringsOf env t message k n (i + 1) = .ok rest ∧ strings = string :: rest := by
  obtain ⟨string, hstring, htail⟩ := ok_of_bind h
  obtain ⟨rest, hrest, hcons⟩ := ok_of_bind htail
  cases hcons
  exact ⟨string, rest, hstring, hrest, rfl⟩

theorem stringsOf_length {k : Nat} (n : Nat) : ∀ (i : Nat) (strings : List Bytes),
    stringsOf env t message k n i = .ok strings → strings.length = n := by
  induction n with
  | zero =>
    intro i strings h
    cases h
    rfl
  | succ n ih =>
    intro i strings h
    obtain ⟨string, rest, -, hrest, rfl⟩ := stringsOf_succ h
    rw [List.length_cons, ih (i + 1) rest hrest]

theorem stringOf_ok {k i : Nat} {string : Bytes}
    (h : stringOf env t message k i = .ok string) :
    ∃ s, env.geti t (i + 1) = .ok (.string s) ∧ env.tostring s = .ok string := by
  rcases hget : env.geti t (i + 1) with e | v
  · simp only [stringOf, hget] at h
    cases h
  cases v with
  | string s =>
    simp only [stringOf, hget] at h
    rcases hstring : env.tostring s with e | made
    · rw [hstring] at h
      cases h
    · rw [hstring] at h
      cases h
      exact ⟨s, rfl, hstring⟩
  | _ =>
    simp only [stringOf, hget] at h
    cases h

/-- The strings are those of the elements from the first on. -/
theorem stringsOf_getElem {k : Nat} (n : Nat) : ∀ (i : Nat) (strings : List Bytes),
    stringsOf env t message k n i = .ok strings → ∀ (j : Nat) (string : Bytes),
      strings[j]? = some string →
      ∃ s, env.geti t (i + j + 1) = .ok (.string s) ∧ env.tostring s = .ok string := by
  induction n with
  | zero =>
    intro i strings h j string hj
    cases h
    cases hj
  | succ n ih =>
    intro i strings h j string hj
    obtain ⟨first, rest, hfirst, hrest, rfl⟩ := stringsOf_succ h
    cases j with
    | zero =>
      cases hj
      exact stringOf_ok hfirst
    | succ j =>
      obtain ⟨s, hs, hstring⟩ := ih (i + 1) rest hrest j string hj
      refine ⟨s, ?_, hstring⟩
      rwa [show i + (j + 1) = i + 1 + j by omega]

/-- The loop comes to a string that there are no slots for. -/
theorem readStrings_faults {arrays : List Nat} (hl : l.Perm arrays) (hsize : count * 16 ≤ size)
    (hbig : minstack < below + 2 * count + 1) (n : Nat) : ∀ (i : Nat) (strings : List Bytes),
      i + n = count → n ≠ 0 → stringsOf env t message l.length n i = .ok strings →
      Faults base l (readStrings env t size message arrays below n i) := by
  induction n with
  | zero => exact fun i strings _ h => absurd rfl h
  | succ n ih =>
    intro i strings hi _ hok
    obtain ⟨string, rest, hstring, hrest, -⟩ := stringsOf_succ hok
    -- The slots end at this string or at a later one.
    by_cases hroom : below + 2 * i + 3 ≤ minstack
    · refine Faults.right (Q := fun _ l' => l' = l) ((readString_spec hl
        (hasPlace_of_le hsize (by omega)) hroom).mono (fun _ _ h => h.1) ?_) ?_
      · intro e l' he
        rw [hstring] at he
        cases he
      rintro _ _ rfl
      exact (ih (i + 1) rest (by omega) (by omega) hrest).left fun _ => Sticky.pure _
    · refine (readString_faults hstring (Nat.not_le.mp hroom)).left fun _ => ?_
      exact (readStrings_sticky arrays n (i + 1)).bind fun _ => Sticky.pure _

end Strings

/-! ## A vector -/

section Vectors
variable {t hdtr which below : Nat} {field message : String} {earlier : List Nat} {count : Int}

/-- The slots that a field takes while it is read: a list has one for its length, or two for the
search for a metamethod of its last string. -/
def peak (below : Nat) : Option Nat → Nat
  | none => below + 1
  | some count => below + 2 + 2 * count

theorem lt_peak (below : Nat) (length : Option Nat) : below < peak below length := by
  rcases length with _ | count
  · exact Nat.lt_succ_self below
  · exact Nat.lt_of_lt_of_le (Nat.lt_add_of_pos_right (Nat.succ_pos 1)) (Nat.le_add_right ..)

theorem peak_le (below : Nat) (length : Option Nat) :
    peak below length ≤ below + 2 + 2 * length.getD 0 := by
  rcases length with _ | count
  · exact Nat.le_succ _
  · exact Nat.le_refl _

theorem listLength_table {t : Nat} (h : env.getfield hdtr field = .ok (.table t)) :
    listLength env hdtr field =
      some ((env.len t).toOption.elim 0 fun len => (IntType.int.wrap len).toNat) := by
  rcases hlen : env.len t with e | len
  · simp only [listLength, h, hlen]
    rfl
  · simp only [listLength, h, hlen]
    rfl

theorem int_lt (len : Int) : IntType.int.wrap len < 2 ^ 31 :=
  (IntType.wrap_holds IntType.int len).2

theorem sizeT_count (hcount : 0 ≤ count) (hlt : count < 2 ^ 31) :
    count.toNat * 16 ≤ sizeT (count * 16) := by
  have hsize : (sizeT (count * 16) : Int) = count * 16 := sizeT_of_nonneg (by omega) (by omega)
  have hcast : (count.toNat : Int) = count := Int.toNat_of_nonneg hcount
  omega

/-- Also when the number is negative: there are no strings then. -/
theorem toNat_le_size (hlt : count < 2 ^ 31) : count.toNat * 16 ≤ sizeT (count * 16) := by
  rcases lt_or_ge count 0 with hneg | hpos
  · rw [Int.toNat_of_nonpos (by omega), Nat.zero_mul]
    exact Nat.zero_le _
  · exact sizeT_count hpos hlt

theorem makeIovecs_spec (hlt : count < 2 ^ 31)
    (hroom : below + 2 + 2 * count.toNat ≤ minstack) :
    Spec base earlier (makeIovecs env t message which earlier (below + 1) count)
      (fun v l => l = v.array ++ earlier ∧
        listOf env t message which earlier.length count = .ok (v.array.length, v.half))
      (fun e l => listOf env t message which earlier.length count = .error (e, l.length)) := by
  by_cases hthere : env.malloc which (sizeT (count * 16)) = true
  · refine Spec.bind (Q := fun p l => ∃ a, p = some a ∧ l = a :: earlier)
      (Spec.malloc (fun _ a _ => ⟨a, rfl, rfl⟩) (by simp [hthere])) ?_
    rintro _ _ ⟨array, rfl, rfl⟩
    have hstrings : count.toNat ≠ 0 → below + 1 + 2 * count.toNat + 1 ≤ minstack :=
      fun _ => by omega
    refine Spec.bind ((readStrings_spec (List.Perm.refl _) (toNat_le_size hlt) count.toNat 0
      (Nat.zero_add _) hstrings).mono (fun _ _ h => h) ?_) ?_
    · intro e l he
      rw [List.length_cons] at he
      rw [listOf, if_pos hthere, he]
      rfl
    · rintro strings l ⟨rfl, hok⟩
      refine Spec.pure ⟨rfl, ?_⟩
      rw [List.length_cons] at hok
      rw [listOf, if_pos hthere, hok]
      rfl
  · refine Spec.bind (Q := fun p l => p = none ∧ l = earlier)
      (Spec.malloc (by simp [hthere]) (fun _ => ⟨rfl, rfl⟩)) ?_
    rintro _ _ ⟨rfl, rfl⟩
    refine Spec.bind ((freeAll_spec (List.Perm.refl _)).mono (fun _ _ h => h)
      (fun _ _ h => h.elim)) ?_
    rintro _ _ rfl
    refine Spec.raise ?_
    rw [listOf, if_neg hthere]
    rfl

theorem makeIovecs_sticky (earlier : List Nat) (below : Nat) (count : Int) :
    Sticky (makeIovecs env t message which earlier below count) := by
  refine (Sticky.malloc _).bind fun p => ?_
  rcases p with _ | array
  · exact (Sticky.freeAll earlier).bind fun _ => Sticky.raise _
  · exact (readStrings_sticky _ _ 0).bind fun _ => Sticky.pure _

theorem makeIovecs_faults (hlt : count < 2 ^ 31) {v : Nat × Half}
    (hok : listOf env t message which earlier.length count = .ok v)
    (hroom : below + 2 ≤ minstack) (hbig : minstack < below + 2 + 2 * count.toNat) :
    Faults base earlier (makeIovecs env t message which earlier (below + 1) count) := by
  rw [listOf] at hok
  split at hok
  · rename_i hthere
    refine Faults.right (Q := fun p l => ∃ a, p = some a ∧ l = a :: earlier)
      (Spec.malloc (fun _ a _ => ⟨a, rfl, rfl⟩) (by simp [hthere])) ?_
    rintro _ _ ⟨array, rfl, rfl⟩
    have hne : count.toNat ≠ 0 := by omega
    rcases hstrings : stringsOf env t message (earlier.length + 1) count.toNat 0 with e | strings
    · rw [hstrings] at hok
      cases hok
    have hread : Faults base (array :: earlier) (readStrings env t (sizeT (count * 16)) message
        (array :: earlier) (below + 1) count.toNat 0) :=
      readStrings_faults (List.Perm.refl _) (toNat_le_size hlt) (by omega) count.toNat 0 strings
        (Nat.zero_add _) hne hstrings
    exact hread.left fun _ => Sticky.pure _
  · cases hok

/-- One half of `get_hdtr`, when there is room for its list. -/
theorem getIovecs_spec (hroom : peak below (listLength env hdtr field) ≤ minstack) :
    Spec base earlier (getIovecs env hdtr field message which earlier below)
      (fun v l => l = v.array ++ earlier ∧
        iovecsOf env hdtr field message which earlier.length = .ok (v.array.length, v.half))
      (fun e l => iovecsOf env hdtr field message which earlier.length = .error (e, l.length)) := by
  have hfield : decide (below + 1 ≤ minstack) = true :=
    decide_eq_true ((Nat.succ_le_of_lt (lt_peak below _)).trans hroom)
  refine Spec.bind (Q := fun _ l => l = earlier) (Spec.demand hfield rfl) ?_
  rintro _ _ rfl
  rcases hget : env.getfield hdtr field with e | v
  · exact Spec.raise (by rw [iovecsOf, hget])
  refine Spec.checked ?_
  cases v with
  | table t =>
    rw [listLength_table hget] at hroom
    have hlength : decide (below + 2 ≤ minstack) = true :=
      decide_eq_true (le_trans (Nat.le_add_right ..) hroom)
    refine Spec.bind (Spec.demand hlength (Q := fun _ l => l = _) rfl) ?_
    rintro _ _ rfl
    rw [listIovecs]
    rcases hlen : env.len t with e | len
    · exact Spec.raise (by simp only [iovecsOf, hget, hlen])
    refine Spec.checked ?_
    rw [hlen] at hroom
    by_cases hzero : IntType.int.wrap len = 0
    · simp only [hzero, if_true]
      exact Spec.pure ⟨rfl, by simp only [iovecsOf, hget, hlen, hzero, if_true]; rfl⟩
    · simp only [hzero, if_false]
      refine (makeIovecs_spec (int_lt len) hroom).mono ?_ ?_
      · rintro v l ⟨hl, hok⟩
        exact ⟨hl, by simp only [iovecsOf, hget, hlen, hzero, if_false, hok]⟩
      · intro e l he
        simp only [iovecsOf, hget, hlen, hzero, if_false, he]
  | _ => exact Spec.pure ⟨rfl, by simp only [iovecsOf, hget]; rfl⟩

theorem listIovecs_sticky (earlier : List Nat) (below t : Nat) :
    Sticky (listIovecs env message which earlier below t) := by
  refine (Sticky.ofExcept _).bind fun len => ?_
  by_cases hzero : IntType.int.wrap len = 0
  · simp only [hzero, if_true]
    exact Sticky.pure _
  · simp only [hzero, if_false]
    exact makeIovecs_sticky earlier below _

theorem takeIovecs_sticky (earlier : List Nat) (below : Nat) (v : Value) :
    Sticky (takeIovecs env message which earlier below v) := by
  cases v with
  | table t => exact (Sticky.demand _).bind fun _ => listIovecs_sticky earlier (below + 1) t
  | _ => exact Sticky.pure _

theorem getIovecs_sticky (earlier : List Nat) (below : Nat) :
    Sticky (getIovecs env hdtr field message which earlier below) :=
  (Sticky.demand _).bind fun _ => (Sticky.ofExcept _).bind fun v =>
    takeIovecs_sticky earlier below v

theorem listOf_ok {k n : Nat} {half : Half}
    (h : listOf env t message which k count = .ok (n, half)) : n = 1 ∧ half.count = count ∧
      stringsOf env t message (k + 1) count.toNat 0 = .ok half.strings := by
  rw [listOf] at h
  split at h
  · rcases hstrings : stringsOf env t message (k + 1) count.toNat 0 with e | strings
    · rw [hstrings] at h
      cases h
    · rw [hstrings] at h
      cases h
      exact ⟨rfl, rfl, rfl⟩
  · cases h

/-- A vector has as many strings as its list is long, and an array if it is not empty. -/
theorem iovecsOf_ok {k n : Nat} {half : Half}
    (h : iovecsOf env hdtr field message which k = .ok (n, half)) :
    half.slots = 1 + 2 * countOf env hdtr field ∧ (n = if half.count = 0 then 0 else 1) ∧
      Sends env hdtr field half := by
  rcases hget : env.getfield hdtr field with e | v
  · simp only [iovecsOf, hget] at h
    cases h
  have hempty : Sends env hdtr field ⟨0, []⟩ := ⟨rfl, fun _ _ hi => by cases hi⟩
  cases v with
  | table t =>
    rcases hlen : env.len t with e | len
    · simp only [iovecsOf, hget, hlen] at h
      cases h
    simp only [countOf, listLength, hget, hlen]
    by_cases hzero : IntType.int.wrap len = 0
    · simp only [iovecsOf, hget, hlen, hzero, if_true] at h
      cases h
      exact ⟨by rw [hzero]; rfl, rfl, hempty⟩
    · simp only [iovecsOf, hget, hlen, hzero, if_false] at h
      obtain ⟨rfl, hcount, hstrings⟩ := listOf_ok h
      have hlength : half.strings.length = (IntType.int.wrap len).toNat :=
        stringsOf_length _ 0 half.strings hstrings
      refine ⟨by rw [Half.slots, hlength, Option.getD_some], by rw [hcount, if_neg hzero], ?_⟩
      refine ⟨by rw [hlength, hcount], fun i string hi => ?_⟩
      obtain ⟨s, hs, hstring⟩ := stringsOf_getElem _ 0 half.strings hstrings i string hi
      rw [Nat.zero_add] at hs
      exact ⟨t, s, hget, hs, hstring⟩
  | _ =>
    simp only [iovecsOf, hget] at h
    cases h
    simp only [countOf, listLength, hget]
    exact ⟨rfl, rfl, hempty⟩

theorem getIovecs_faults {v : Nat × Half}
    (hok : iovecsOf env hdtr field message which earlier.length = .ok v)
    (hbig : minstack < peak below (listLength env hdtr field)) :
    Faults base earlier (getIovecs env hdtr field message which earlier below) := by
  by_cases hfield : below + 1 ≤ minstack
  · refine Faults.right (Spec.demand (decide_eq_true hfield) (Q := fun _ l => l = earlier) rfl) ?_
    rintro _ earlier rfl
    rcases hget : env.getfield hdtr field with e | w
    · simp only [iovecsOf, hget] at hok
      cases hok
    refine Faults.checked ?_
    cases w with
    | table t =>
      rw [listLength_table hget] at hbig
      by_cases hlength : below + 2 ≤ minstack
      · refine Faults.right (Spec.demand (decide_eq_true hlength) (Q := fun _ l => l = earlier)
          rfl) ?_
        rintro _ earlier rfl
        rw [listIovecs]
        rcases hlen : env.len t with e | len
        · simp only [iovecsOf, hget, hlen] at hok
          cases hok
        refine Faults.checked ?_
        rw [hlen] at hbig
        have hpast : minstack < below + 2 + 2 * (IntType.int.wrap len).toNat := hbig
        have hzero : IntType.int.wrap len ≠ 0 := by omega
        simp only [iovecsOf, hget, hlen, hzero, if_false] at hok
        simp only [hzero, if_false]
        exact makeIovecs_faults (int_lt len) hok hlength hpast
      · refine (Faults.demand (decide_eq_false hlength)).left fun _ => ?_
        exact listIovecs_sticky earlier (below + 1) t
    | _ =>
      simp only [listLength, hget] at hbig
      exact absurd hfield (Nat.not_le.mpr hbig)
  · refine (Faults.demand (decide_eq_false hfield)).left fun _ => ?_
    exact (Sticky.ofExcept _).bind fun w => takeIovecs_sticky earlier below w

end Vectors

/-! ## The call -/

/-- The program ends as `x` says, and holds as much as `x` counts. -/
def Leaves {ε α : Type} (base held : List Nat) (c : Code ε α) (x : Counted ε α) : Prop :=
  Spec base held c (fun a l => x.1 = .ok a ∧ l.length = x.2)
    (fun e l => x.1 = .error e ∧ l.length = x.2)

section Call
variable {hdtr : Nat} {sendfile : Given → Except Nat Int} {given : Given} {arrays : List Nat}
  {arg slots : Nat}

/-- The room for the lists themselves. -/
def HdtrRoom (env : SendEnv) (hdtr : Nat) : Prop :=
  peak 0 (listLength env hdtr "headers") ≤ minstack ∧
    peak (1 + 2 * countOf env hdtr "headers") (listLength env hdtr "trailers") ≤ minstack

theorem hdtrRoom_of_le (h : hdtrSlots env hdtr + 1 ≤ minstack) : HdtrRoom env hdtr := by
  rw [hdtrSlots] at h
  constructor
  · have hpeak := peak_le 0 (listLength env hdtr "headers")
    rw [← countOf] at hpeak
    omega
  · have hpeak := peak_le (1 + 2 * countOf env hdtr "headers") (listLength env hdtr "trailers")
    rw [← countOf] at hpeak
    omega

theorem hdtrOf_ok {n : Nat} {halves : Half × Half} (h : hdtrOf env hdtr = .ok (n, halves)) :
    ∃ k more, iovecsOf env hdtr "headers" "headers must be strings" 0 0 = .ok (k, halves.1) ∧
      iovecsOf env hdtr "trailers" "trailers must be strings" 1 k = .ok (more, halves.2) ∧
      n = more + k := by
  obtain ⟨⟨k, first⟩, hheaders, htail⟩ := ok_of_bind h
  obtain ⟨⟨more, second⟩, htrailers, hpair⟩ := ok_of_bind htail
  cases hpair
  exact ⟨k, more, hheaders, htrailers, rfl⟩

/-- Both vectors take the slots of the lists. -/
theorem hdtrOf_slots {n : Nat} {halves : Half × Half} (h : hdtrOf env hdtr = .ok (n, halves)) :
    halves.1.slots + halves.2.slots = hdtrSlots env hdtr := by
  obtain ⟨k, more, hheaders, htrailers, -⟩ := hdtrOf_ok h
  rw [(iovecsOf_ok hheaders).1, (iovecsOf_ok htrailers).1, hdtrSlots]

theorem get_hdtr_spec (hroom : HdtrRoom env hdtr) :
    Spec base [] (get_hdtr env hdtr)
      (fun v l => l = v.2.array ++ v.1.array ∧
        hdtrOf env hdtr = .ok (l.length, v.1.half, v.2.half))
      (fun e l => hdtrOf env hdtr = .error (e, l.length)) := by
  refine Spec.bind ((getIovecs_spec hroom.1).mono (fun _ _ h => h) ?_) ?_
  · intro e l he
    rw [List.length_nil] at he
    rw [hdtrOf, bind_of_error he]
  rintro headers l ⟨rfl, hheaders⟩
  rw [List.length_nil] at hheaders
  rw [List.append_nil]
  have hslots : headers.half.slots = 1 + 2 * countOf env hdtr "headers" :=
    (iovecsOf_ok hheaders).1
  rw [hslots]
  refine Spec.bind ((getIovecs_spec hroom.2).mono (fun _ _ h => h) ?_) ?_
  · intro e l he
    rw [hdtrOf, bind_of_ok hheaders]
    exact bind_of_error he
  · rintro trailers l ⟨rfl, htrailers⟩
    refine Spec.pure ⟨rfl, ?_⟩
    rw [hdtrOf, bind_of_ok hheaders, List.length_append]
    exact bind_of_ok htrailers

theorem get_hdtr_faults {n : Nat} {halves : Half × Half}
    (hok : hdtrOf env hdtr = .ok (n, halves)) (hbig : ¬ HdtrRoom env hdtr) :
    Faults base [] (get_hdtr env hdtr) := by
  obtain ⟨k, more, hheaders, htrailers, -⟩ := hdtrOf_ok hok
  -- The headers have no room, or the trailers behind them.
  by_cases hfirst : peak 0 (listLength env hdtr "headers") ≤ minstack
  · have hsecond : ¬ peak (1 + 2 * countOf env hdtr "headers") (listLength env hdtr "trailers") ≤
        minstack := fun h => hbig ⟨hfirst, h⟩
    refine Faults.right ((getIovecs_spec hfirst).mono (fun _ _ h => h) ?_) ?_
    · intro e l he
      rw [List.length_nil, hheaders] at he
      cases he
    rintro headers l ⟨rfl, hread⟩
    rw [List.length_nil] at hread
    have hslots : headers.half.slots = 1 + 2 * countOf env hdtr "headers" := (iovecsOf_ok hread).1
    have hlength : headers.array.length = k :=
      congrArg Prod.fst (Except.ok.inj (hread.symm.trans hheaders))
    rw [List.append_nil, hslots]
    rw [← hlength] at htrailers
    exact (getIovecs_faults htrailers (Nat.not_le.mp hsecond)).left fun _ => Sticky.pure _
  · refine (getIovecs_faults hheaders (Nat.not_le.mp hfirst)).left fun headers => ?_
    exact (getIovecs_sticky _ _).bind fun _ => Sticky.pure _

theorem callSendfile_sticky (arrays : List Nat) (arg slots : Nat) :
    Sticky (callSendfile env args sendfile given arrays arg slots) := by
  refine (Sticky.ofExcept _).bind fun last => (Sticky.touchAll arrays).bind fun _ => ?_
  exact (Sticky.demand _).bind fun _ => Sticky.pure _

theorem callSendfile_leaves (hl : ∀ a ∈ arrays, a ∈ l)
    (hroom : slots + endSlots (callOf env args sendfile given l.length arg).1 ≤ minstack) :
    Leaves base l (callSendfile env args sendfile given arrays arg slots)
      (callOf env args sendfile given l.length arg) := by
  rw [callOf] at hroom ⊢
  rcases hlast : lastArguments env args arg with e | last
  · rw [callSendfile, hlast]
    exact Spec.raise ⟨rfl, rfl⟩
  rw [hlast] at hroom
  rw [callSendfile, hlast]
  refine Spec.checked (Spec.bind (Q := fun _ l' => l' = l) (Spec.touchAll hl rfl) ?_)
  rintro _ l rfl
  refine Spec.bind (Q := fun _ l' => l' = l) (Spec.demand (decide_eq_true hroom) rfl) ?_
  rintro _ l rfl
  exact Spec.pure ⟨rfl, rfl⟩

theorem callSendfile_faults {k : Nat} {r : Given × Except Nat Int} (hl : ∀ a ∈ arrays, a ∈ l)
    (hok : (callOf env args sendfile given k arg).1 = .ok r)
    (hbig : minstack < slots + endSlots (callOf env args sendfile given k arg).1) :
    Faults base l (callSendfile env args sendfile given arrays arg slots) := by
  rw [callOf] at hok hbig
  rcases hlast : lastArguments env args arg with e | last
  · rw [hlast] at hok
    cases hok
  rw [hlast] at hbig
  rw [callSendfile, hlast]
  refine Faults.checked (Faults.right (Q := fun _ l' => l' = l) (Spec.touchAll hl rfl) ?_)
  rintro _ l rfl
  exact (Faults.demand (decide_eq_false (Nat.not_le.mpr hbig))).left fun _ => Sticky.pure _

theorem one_le_endSlots (x : Except Raised (Given × Except Nat Int)) : 1 ≤ endSlots x := by
  rcases x with e | ⟨given, e | sent⟩
  · exact Nat.le_refl 1
  · exact Nat.le_add_left 1 2
  · exact Nat.le_refl 1

/-- A table is given. -/
theorem table_leaves {t : Nat}
    (hroom : hdtrSlots env t + endSlots (tableOf env args sendfile given t).1 ≤ minstack) :
    Leaves base [] (callTable env args sendfile given t)
      (tableOf env args sendfile given t) := by
  have hlists : hdtrSlots env t + 1 ≤ minstack :=
    le_trans (Nat.add_le_add_left (one_le_endSlots _) _) hroom
  rw [tableOf] at hroom ⊢
  refine Spec.bind ((get_hdtr_spec (hdtrRoom_of_le hlists)).mono (fun _ _ h => h) ?_) ?_
  · intro e l he
    rw [he]
    exact ⟨rfl, rfl⟩
  · rintro ⟨headers, trailers⟩ l ⟨rfl, hhdtr⟩
    rw [hhdtr] at hroom ⊢
    refine callSendfile_leaves (fun a ha => ha) ?_
    rwa [hdtrOf_slots hhdtr]

theorem table_faults {t : Nat} {r : Given × Except Nat Int}
    (hok : (tableOf env args sendfile given t).1 = .ok r)
    (hbig : minstack < hdtrSlots env t + endSlots (tableOf env args sendfile given t).1) :
    Faults base [] (callTable env args sendfile given t) := by
  rw [tableOf] at hok hbig
  rcases hhdtr : hdtrOf env t with ⟨e, k⟩ | ⟨n, halves⟩
  · rw [hhdtr] at hok
    cases hok
  rw [hhdtr] at hok hbig
  -- There may be room for the lists, and none for the result.
  by_cases hroom : HdtrRoom env t
  · refine Faults.right ((get_hdtr_spec hroom).mono (fun _ _ h => h) ?_) ?_
    · intro e l he
      rw [hhdtr] at he
      cases he
    rintro ⟨headers, trailers⟩ l ⟨rfl, hread⟩
    obtain ⟨rfl, rfl⟩ := Prod.mk.inj (Except.ok.inj (hhdtr.symm.trans hread))
    refine callSendfile_faults (fun a ha => ha) hok ?_
    rwa [hdtrOf_slots hhdtr]
  · exact (get_hdtr_faults hhdtr hroom).left fun _ => callSendfile_sticky _ _ _

theorem l_sendfile_leaves (hroom : sendfileSlots env args sendfile ≤ minstack) :
    Leaves base [] (l_sendfile env args sendfile) (sendfileOf env args sendfile) := by
  rw [sendfileSlots] at hroom
  rw [l_sendfile]
  rw [sendfileOf] at hroom ⊢
  rcases hfirst : firstArguments env args with e | given
  · exact Spec.raise ⟨rfl, rfl⟩
  rw [hfirst] at hroom
  refine Spec.checked ?_
  rcases htable : istable (args 5) with _ | t
  · rw [htable] at hroom
    exact callSendfile_leaves (fun a ha => ha) hroom
  · rw [htable] at hroom
    exact table_leaves hroom

theorem l_sendfile_faults {r : Given × Except Nat Int}
    (hok : (sendfileOf env args sendfile).1 = .ok r)
    (hbig : minstack < sendfileSlots env args sendfile) :
    Faults base [] (l_sendfile env args sendfile) := by
  rw [sendfileSlots] at hbig
  rw [l_sendfile]
  rw [sendfileOf] at hok hbig
  rcases hfirst : firstArguments env args with e | given
  · rw [hfirst] at hok
    cases hok
  rw [hfirst] at hok hbig
  refine Faults.checked ?_
  rcases htable : istable (args 5) with _ | t
  · rw [htable] at hok hbig
    exact callSendfile_faults (fun a ha => ha) hok hbig
  · rw [htable] at hok hbig
    exact table_faults hok hbig

theorem callOf_ok {k n : Nat} {made : Given} {result : Except Nat Int}
    (h : callOf env args sendfile given k arg = (.ok (made, result), n)) :
    made.hdtr = given.hdtr ∧ result = sendfile made ∧ n = k := by
  rw [callOf] at h
  rcases hlast : lastArguments env args arg with e | last
  · rw [hlast] at h
    cases h
  · rw [hlast] at h
    cases h
    exact ⟨rfl, rfl, rfl⟩

theorem firstArguments_hdtr (h : firstArguments env args = .ok given) : given.hdtr = none := by
  obtain ⟨fd, -, hfd⟩ := bind_eq_ok_iff.mp h
  obtain ⟨s, -, hs⟩ := bind_eq_ok_iff.mp hfd
  obtain ⟨offset, -, hoffset⟩ := bind_eq_ok_iff.mp hs
  obtain ⟨nbytes, -, hnbytes⟩ := bind_eq_ok_iff.mp hoffset
  cases hnbytes
  rfl

theorem istable_eq_some {v : Option Value} {t : Nat} (h : istable v = some t) :
    v = some (.table t) := by
  rcases v with _ | v
  · cases h
  cases v with
  | table u =>
    cases h
    rfl
  | _ => cases h

/-- A result: what `sendfile` was given, and what is left. -/
theorem sendfileOf_ok {n : Nat} {made : Given} {result : Except Nat Int}
    (h : sendfileOf env args sendfile = (.ok (made, result), n)) :
    result = sendfile made ∧ n = made.hdtr.elim 0 arraysOf ∧
      ∀ headers trailers, made.hdtr = some (headers, trailers) → ∃ t,
        args 5 = some (.table t) ∧ Sends env t "headers" headers ∧
          Sends env t "trailers" trailers := by
  rw [sendfileOf] at h
  rcases hfirst : firstArguments env args with e | given
  · rw [hfirst] at h
    cases h
  rw [hfirst] at h
  rcases htable : istable (args 5) with _ | t
  · rw [htable] at h
    obtain ⟨hhdtr, hresult, rfl⟩ := callOf_ok h
    rw [hhdtr, firstArguments_hdtr hfirst]
    exact ⟨hresult, rfl, fun _ _ hsome => by cases hsome⟩
  · rw [htable] at h
    dsimp only at h
    rw [tableOf] at h
    rcases hlists : hdtrOf env t with ⟨e, k⟩ | ⟨k, halves⟩
    · rw [hlists] at h
      cases h
    rw [hlists] at h
    obtain ⟨hhdtr, hresult, rfl⟩ := callOf_ok h
    obtain ⟨first, second, hheaders, htrailers, rfl⟩ := hdtrOf_ok hlists
    obtain ⟨-, rfl, hsent⟩ := iovecsOf_ok hheaders
    obtain ⟨-, rfl, hsent'⟩ := iovecsOf_ok htrailers
    refine ⟨hresult, by rw [hhdtr]; rfl, ?_⟩
    intro headers trailers hsome
    cases hhdtr.symm.trans hsome
    exact ⟨t, istable_eq_some htable, hsent, hsent'⟩

end Call

end Runs

/-- **`socket.sendfile`** is given a string for each element of the lists, in their order, and
leaves an array for each list that is not empty, whether the kernel takes the file or not; an
error leaves the arrays there are, except that an element that is no string and memory that is
missing free them first.  So it is when the strings fit into the slots that Lua promises; when they
do not, a call that would return takes slots that it may not have. -/
theorem sendfile_arrays (env : SendEnv) (args : Nat → Option Value) (base : List Nat)
    (sendfile : Given → Except Nat Int) :
    (sendfileSlots env args sendfile ≤ minstack →
      Leaves base [] (l_sendfile env args sendfile) (sendfileOf env args sendfile)) ∧
    (∀ r, (sendfileOf env args sendfile).1 = .ok r → minstack < sendfileSlots env args sendfile →
      Faults base [] (l_sendfile env args sendfile)) ∧
    ∀ given result n, sendfileOf env args sendfile = (.ok (given, result), n) →
      result = sendfile given ∧ n = given.hdtr.elim 0 arraysOf ∧
        ∀ headers trailers, given.hdtr = some (headers, trailers) → ∃ t,
          args 5 = some (.table t) ∧ Sends env t "headers" headers ∧
            Sends env t "trailers" trailers :=
  ⟨l_sendfile_leaves, fun _ hok hbig => l_sendfile_faults hok hbig, fun _ _ _ h => sendfileOf_ok h⟩

/-- Two headers, and one trailer, which is a number if `wrong`. -/
def sampleEnv (wrong : Bool) : SendEnv where
  host := Host.plain
  len t := .ok (if t = 1 then 2 else 1)
  geti t i := .ok (if t = 2 ∧ wrong = true then .integer 7 else .string [72, UInt8.ofNat i])
  cookie _ _ := none
  isRights _ := false
  malloc _ _ := true
  nlistSize := 24
  getfield _ field := .ok (.table (if field = "headers" then 1 else 2))
  tostring s := .ok s

/-- `sendfile(3, 4, 0, 512, { headers = …, trailers = … })` -/
def sampleArgs : Nat → Option Value
  | 1 => some (.integer 3)
  | 2 => some (.integer 4)
  | 3 => some (.integer 0)
  | 4 => some (.integer 512)
  | 5 => some (.table 0)
  | _ => none

/-- The kernel is busy, and both arrays are left. -/
theorem sendfile_arrays_sample :
    Leaves [] [] (l_sendfile (sampleEnv false) sampleArgs fun _ => .error 16)
      (sendfileOf (sampleEnv false) sampleArgs fun _ => .error 16) ∧
    sendfileOf (sampleEnv false) sampleArgs (fun _ => .error 16) =
      (.ok (⟨3, 4, 0, 512, some (⟨2, [[72, 1], [72, 2]]⟩, ⟨1, [[72, 1]]⟩), 0, 0⟩, .error 16), 2) :=
  ⟨(sendfile_arrays (sampleEnv false) sampleArgs [] fun _ => .error 16).1 (by decide +kernel),
    by rfl⟩

/-- Nothing is left when a trailer is no string. -/
example : (sendfileOf (sampleEnv true) sampleArgs (fun _ => .ok 512)).2 = 0 ∧
    ((l_sendfile (sampleEnv true) sampleArgs (fun _ => .ok 512)).run ⟨0, [], false⟩).2.used =
      [] := by
  decide +kernel

end Sendfile
end FluaLibs
