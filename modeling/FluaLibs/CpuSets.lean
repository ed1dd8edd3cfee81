import FluaLibs.BitWords
import FluaLibs.LuaArguments

/-! # CPU sets

A userdata of the module `sys.cpuset` holds the words of a set, and the functions of the module
are the macros of `cpuset(9)` on them.  They are defined here for any representation of sets
(`Macros`): with the words (`words`) they are the code, and with finite sets (`finsets`) they are
what the code is to do.  A CPU is any integer; the functions do not compare it with
`CPU_SETSIZE`, and the word of one that is too large, or negative, is outside of the set.
-/
namespace FluaLibs
namespace CpuSet
open LuaArguments
variable {R : Runtime} {β γ : Type}

/-- The macros on a representation of sets; `none` is an access outside of the words. -/
structure Macros (β : Type) where
  CPU_ZERO : β
  CPU_FILL : β
  CPU_SETOF : Nat → Option β
  CPU_SET : Nat → β → Option β
  CPU_CLR : Nat → β → Option β
  CPU_ISSET : Nat → β → Option Bool
  CPU_OR : β → β → β
  CPU_ORNOT : β → β → β
  CPU_AND : β → β → β
  CPU_ANDNOT : β → β → β
  CPU_XOR : β → β → β
  CPU_EMPTY : β → Bool
  CPU_ISFULLSET : β → Bool
  CPU_SUBSET : β → β → Bool
  CPU_OVERLAP : β → β → Bool
  CPU_CMP : β → β → Bool
  CPU_COUNT : β → Nat
  CPU_FFS : β → Nat

/-- `CPU_SETSIZE`, with `k` words. -/
def CPU_SETSIZE (k : Nat) : Nat := 64 * k

/-- The macros on words. -/
def words (k : Nat) : Macros (BitWords k) where
  CPU_ZERO := BitWords.zero
  CPU_FILL := BitWords.fill
  CPU_SETOF := BitWords.setof
  CPU_SET := BitWords.set
  CPU_CLR := BitWords.clr
  CPU_ISSET := BitWords.isset
  CPU_OR := BitWords.or
  CPU_ORNOT := BitWords.ornot
  CPU_AND := BitWords.and
  CPU_ANDNOT := BitWords.andnot
  CPU_XOR := BitWords.xor
  CPU_EMPTY := BitWords.empty
  CPU_ISFULLSET := BitWords.isfullset
  CPU_SUBSET := BitWords.subset
  CPU_OVERLAP := BitWords.overlap
  CPU_CMP := BitWords.cmp
  CPU_COUNT := BitWords.count
  CPU_FFS := BitWords.ffs

/-! ## The code -/

/-- An error, or an access outside of the words of a set. -/
inductive Fault where
  | raised (e : Raised)
  | outside
  deriving DecidableEq

/-- The sets of the userdata after a call, and what it returns. -/
abbrev Result (β : Type) : Type := List β × Option Value

/-- `luaL_checkudata`: the userdata and its set. -/
def checkset (heap : List β) (arg : Int) : Option Value → Except Fault (Nat × β)
  | some (.userdata r) =>
    match heap[r]? with
    | some b => .ok (r, b)
    | none => .error (.raised (.typeerror arg "cpuset_t"))
  | _ => .error (.raised (.typeerror arg "cpuset_t"))

/-- `luaL_checkinteger`, as a `size_t`. -/
def checkindex (host : Host) (arg : Int) (v : Option Value) : Except Fault Nat :=
  match checkinteger host arg v with
  | .ok i => .ok (IntType.uint64.wrap i).toNat
  | .error e => .error (.raised e)

/-- `luaL_checktype` for `LUA_TNONE`. -/
def checknone (arg : Int) : Option Value → Except Fault Unit
  | none => .ok ()
  | some _ => .error (.raised (.typeerror arg "no value"))

def access {α : Type} : Option α → Except Fault α
  | some a => .ok a
  | none => .error .outside

/-- `newanoncpuset`, and the set it gets. -/
def newanoncpuset (heap : List β) (b : β) : Except Fault (Result β) :=
  .ok (heap ++ [b], some (.userdata heap.length))

section Kinds
variable (host : Host) (heap : List β) (L : LuaState R)

/-- A new set of two others. -/
def combined (op : β → β → β) : Except Fault (Result β) := do
  let src1 ← checkset heap 1 (L.index 1)
  let src2 ← checkset heap 2 (L.index 2)
  newanoncpuset heap (op src1.2 src2.2)

/-- A set that is changed at an index. -/
def changeAt (op : Nat → β → Option β) : Except Fault (Result β) := do
  let set ← checkset heap 1 (L.index 1)
  let cpu_idx ← checkindex host 2 (L.index 2)
  checknone 3 (L.index 3)
  let b ← access (op cpu_idx set.2)
  pure (heap.set set.1 b, (L.pop 1).index (-1))

/-- A set that is changed with another. -/
def changeWith (op : β → β → β) : Except Fault (Result β) := do
  let set ← checkset heap 1 (L.index 1)
  let other ← checkset heap 2 (L.index 2)
  checknone 3 (L.index 3)
  pure (heap.set set.1 (op set.2 other.2), (L.pop 1).index (-1))

/-- A set that is replaced. -/
def replaced (b : β) : Except Fault (Result β) := do
  let set ← checkset heap 1 (L.index 1)
  checknone 2 (L.index 2)
  pure (heap.set set.1 b, L.index (-1))

/-- A question about a set. -/
def asked (f : β → Value) : Except Fault (Result β) := do
  let set ← checkset heap 1 (L.index 1)
  pure (heap, some (f set.2))

/-- A question about two sets. -/
def compared (f : β → β → Bool) : Except Fault (Result β) := do
  let set1 ← checkset heap 1 (L.index 1)
  let set2 ← checkset heap 2 (L.index 2)
  pure (heap, some (.boolean (f set1.2 set2.2)))

end Kinds

section Code
variable (M : Macros β) (host : Host) (heap : List β) (L : LuaState R)

def l_cpuset_copied : Except Fault (Result β) := do
  let src ← checkset heap 1 (L.index 1)
  newanoncpuset heap src.2

def l_cpuset_filled : Except Fault (Result β) := newanoncpuset heap M.CPU_FILL

def l_cpuset_only : Except Fault (Result β) := do
  let cpu_idx ← checkindex host 1 (L.index 1)
  let b ← access (M.CPU_SETOF cpu_idx)
  newanoncpuset heap b

def l_cpuset_ored : Except Fault (Result β) := combined heap L M.CPU_OR
def l_cpuset_ornoted : Except Fault (Result β) := combined heap L M.CPU_ORNOT
def l_cpuset_anded : Except Fault (Result β) := combined heap L M.CPU_AND
def l_cpuset_andnoted : Except Fault (Result β) := combined heap L M.CPU_ANDNOT
def l_cpuset_xored : Except Fault (Result β) := combined heap L M.CPU_XOR
def l_cpuset_zeroed : Except Fault (Result β) := newanoncpuset heap M.CPU_ZERO
def l_cpuset_clr : Except Fault (Result β) := changeAt host heap L M.CPU_CLR
def l_cpuset_copy : Except Fault (Result β) := changeWith heap L (fun _ src => src)

def l_cpuset_isset : Except Fault (Result β) := do
  let set ← checkset heap 1 (L.index 1)
  let cpu_idx ← checkindex host 2 (L.index 2)
  let b ← access (M.CPU_ISSET cpu_idx set.2)
  pure (heap, some (.boolean b))

def l_cpuset_set : Except Fault (Result β) := changeAt host heap L M.CPU_SET
def l_cpuset_zero : Except Fault (Result β) := replaced heap L M.CPU_ZERO
def l_cpuset_fill : Except Fault (Result β) := replaced heap L M.CPU_FILL
def l_cpuset_setof : Except Fault (Result β) :=
  changeAt host heap L (fun cpu_idx _ => M.CPU_SETOF cpu_idx)
def l_cpuset_empty : Except Fault (Result β) :=
  asked heap L (fun set => .boolean (M.CPU_EMPTY set))
def l_cpuset_isfullset : Except Fault (Result β) :=
  asked heap L (fun set => .boolean (M.CPU_ISFULLSET set))

/-- Unlike the macro this counts from 0. -/
def l_cpuset_ffs : Except Fault (Result β) :=
  asked heap L (fun set =>
    let cpu_idx : Int := M.CPU_FFS set - 1
    if 0 ≤ cpu_idx then .integer cpu_idx else .nil)

def l_cpuset_count : Except Fault (Result β) := asked heap L (fun set => .integer (M.CPU_COUNT set))
def l_cpuset_subset : Except Fault (Result β) := compared heap L M.CPU_SUBSET
def l_cpuset_overlap : Except Fault (Result β) := compared heap L M.CPU_OVERLAP
def l_cpuset_cmp : Except Fault (Result β) := compared heap L M.CPU_CMP
def l_cpuset_equal : Except Fault (Result β) :=
  compared heap L (fun set1 set2 => !M.CPU_CMP set1 set2)
def l_cpuset_or : Except Fault (Result β) := changeWith heap L M.CPU_OR
def l_cpuset_ornot : Except Fault (Result β) := changeWith heap L M.CPU_ORNOT
def l_cpuset_and : Except Fault (Result β) := changeWith heap L M.CPU_AND
def l_cpuset_andnot : Except Fault (Result β) := changeWith heap L M.CPU_ANDNOT
def l_cpuset_xor : Except Fault (Result β) := changeWith heap L M.CPU_XOR

/-- The functions of the module, and the methods of a set. -/
inductive Function where
  | copied | filled | only | ored | ornoted | anded | andnoted | xored | zeroed
  | clr | copy | isset | set | zero | fill | setof
  | empty | isfullset | ffs | count | subset | overlap | cmp | equal
  | or | ornot | and | andnot | xor
  deriving DecidableEq

def Function.run : Function → Except Fault (Result β)
  | copied => l_cpuset_copied heap L
  | filled => l_cpuset_filled M heap
  | only => l_cpuset_only M host heap L
  | ored => l_cpuset_ored M heap L
  | ornoted => l_cpuset_ornoted M heap L
  | anded => l_cpuset_anded M heap L
  | andnoted => l_cpuset_andnoted M heap L
  | xored => l_cpuset_xored M heap L
  | zeroed => l_cpuset_zeroed M heap
  | clr => l_cpuset_clr M host heap L
  | copy => l_cpuset_copy heap L
  | isset => l_cpuset_isset M host heap L
  | set => l_cpuset_set M host heap L
  | zero => l_cpuset_zero M heap L
  | fill => l_cpuset_fill M heap L
  | setof => l_cpuset_setof M host heap L
  | empty => l_cpuset_empty M heap L
  | isfullset => l_cpuset_isfullset M heap L
  | ffs => l_cpuset_ffs M heap L
  | count => l_cpuset_count M heap L
  | subset => l_cpuset_subset M heap L
  | overlap => l_cpuset_overlap M heap L
  | cmp => l_cpuset_cmp M heap L
  | equal => l_cpuset_equal M heap L
  | or => l_cpuset_or M heap L
  | ornot => l_cpuset_ornot M heap L
  | and => l_cpuset_and M heap L
  | andnot => l_cpuset_andnot M heap L
  | xor => l_cpuset_xor M heap L

end Code

/-- A function and its arguments. -/
structure Call (R : Runtime) where
  function : Function
  L : LuaState R

def Call.run (c : Call R) (M : Macros β) (host : Host) (heap : List β) : Except Fault (Result β) :=
  c.function.run M host heap c.L

/-- What a call gives. -/
inductive Reply where
  | raised (e : Raised)
  | returned (v : Option Value)
  deriving DecidableEq

/-- A sequence of calls, with `none` if one of them has an access outside of a set. -/
def replay (M : Macros β) (host : Host) : List β → List (Call R) → Option (List Reply × List β)
  | heap, [] => some ([], heap)
  | heap, c :: calls =>
    match c.run M host heap with
    | .ok (heap', v) => (replay M host heap' calls).map (fun r => (.returned v :: r.1, r.2))
    | .error (.raised e) => (replay M host heap calls).map (fun r => (.raised e :: r.1, r.2))
    | .error .outside => none

/-! ## Sets -/

/-- The macros on the sets themselves; a number that is too large is ignored. -/
def finsets (k : Nat) : Macros (Finset Nat) where
  CPU_ZERO := ∅
  CPU_FILL := Finset.range (CPU_SETSIZE k)
  CPU_SETOF n := some (if n < CPU_SETSIZE k then {n} else ∅)
  CPU_SET n A := some (if n < CPU_SETSIZE k then insert n A else A)
  CPU_CLR n A := some (A.erase n)
  CPU_ISSET n A := some (decide (n ∈ A))
  CPU_OR A B := A ∪ B
  CPU_ORNOT A B := A ∪ (Finset.range (CPU_SETSIZE k) \ B)
  CPU_AND A B := A ∩ B
  CPU_ANDNOT A B := A \ B
  CPU_XOR A B := symmDiff A B
  CPU_EMPTY A := decide (A = ∅)
  CPU_ISFULLSET A := decide (A = Finset.range (CPU_SETSIZE k))
  CPU_SUBSET A B := decide (B ⊆ A)
  CPU_OVERLAP A B := decide (A ∩ B ≠ ∅)
  CPU_CMP A B := decide (A ≠ B)
  CPU_COUNT A := A.card
  CPU_FFS A := BitWords.first A

/-- The argument that is a CPU. -/
def Function.indexArg : Function → Option Int
  | only => some 1
  | clr | isset | set | setof => some 2
  | _ => none

/-- The CPU that is passed, if one is, is there. -/
def Call.InRange (host : Host) (k : Nat) (c : Call R) : Prop :=
  ∀ arg i, c.function.indexArg = some arg → checkinteger host arg (c.L.index arg) = .ok i →
    0 ≤ i ∧ i < CPU_SETSIZE k

/-- **How sets evolve** in a sequence of calls; a call with a CPU that is not there may raise an
error. -/
inductive Evolves (k : Nat) (host : Host) :
    List (Finset Nat) → List (Call R) → List Reply → List (Finset Nat) → Prop
  | nil (sets : List (Finset Nat)) : Evolves k host sets [] [] sets
  | returned {sets sets' sets'' : List (Finset Nat)} {c : Call R} {calls : List (Call R)}
      {replies : List Reply} {v : Option Value} :
      c.run (finsets k) host sets = .ok (sets', v) → Evolves k host sets' calls replies sets'' →
      Evolves k host sets (c :: calls) (.returned v :: replies) sets''
  | raised {sets sets' : List (Finset Nat)} {c : Call R} {calls : List (Call R)}
      {replies : List Reply} {e : Raised} :
      c.run (finsets k) host sets = .error (.raised e) → Evolves k host sets calls replies sets' →
      Evolves k host sets (c :: calls) (.raised e :: replies) sets'
  | refused {sets sets' : List (Finset Nat)} {c : Call R} {calls : List (Call R)}
      {replies : List Reply} {e : Raised} :
      ¬ c.InRange host k → Evolves k host sets calls replies sets' →
      Evolves k host sets (c :: calls) (.raised e :: replies) sets'

/-- **The userdata are sets**: a sequence of calls accesses nothing outside of them, and what they
stand for evolves as sets do. -/
def Refines (k : Nat) (host : Host) (calls : List (Call R)) : Prop :=
  ∃ replies heap, replay (words k) host [] calls = some (replies, heap) ∧
    Evolves k host [] calls replies (heap.map BitWords.denote) ∧
    ∀ s ∈ heap, BitWords.denote s ⊆ Finset.range (CPU_SETSIZE k)

/-! ## The words are the sets -/

section Mapping
variable {φ : β → γ} {heap : List β} {host : Host} {L : LuaState R} {k : Nat}

/-- The result of a call, with other sets. -/
def mapResult (φ : β → γ) (r : Except Fault (Result β)) : Except Fault (Result γ) :=
  r.map (fun p => (p.1.map φ, p.2))

/-- A step of a function, and then the others. -/
theorem map_bind {α α' δ δ' : Type} {x : Except Fault α} {g : α → Except Fault δ} {f : α → α'}
    {g' : α' → Except Fault δ'} {F : δ → δ'} (h : ∀ a, x = .ok a → (g a).map F = g' (f a)) :
    (x >>= g).map F = (x.map f >>= g') := by
  cases x with
  | error e => rfl
  | ok a => exact h a rfl

/-- A check does not look into a set. -/
theorem checkset_map (φ : β → γ) (heap : List β) (arg : Int) (v : Option Value) :
    checkset (heap.map φ) arg v = (checkset heap arg v).map (fun p => (p.1, φ p.2)) := by
  cases v with
  | none => rfl
  | some v =>
    cases v with
    | userdata r =>
      rw [checkset, checkset, List.getElem?_map]
      cases heap[r]? <;> rfl
    | _ => rfl

theorem newanoncpuset_map (φ : β → γ) (heap : List β) (b : β) :
    mapResult φ (newanoncpuset heap b) = newanoncpuset (heap.map φ) (φ b) := by
  simp only [mapResult, newanoncpuset, Except.map, List.map_append, List.map_cons, List.map_nil,
    List.length_map]

theorem access_map {α δ : Type} (f : α → δ) (o : Option α) :
    access (o.map f) = (access o).map f := by
  cases o <;> rfl

theorem combined_map {op : β → β → β} {op' : γ → γ → γ} (h : ∀ a b, φ (op a b) = op' (φ a) (φ b)) :
    mapResult φ (combined heap L op) = combined (heap.map φ) L op' := by
  rw [combined, combined, checkset_map]
  refine map_bind (fun src1 _ => ?_)
  rw [checkset_map]
  refine map_bind (fun src2 _ => ?_)
  rw [← h]
  exact newanoncpuset_map φ heap _

theorem changeAt_map {op : Nat → β → Option β} {op' : Nat → γ → Option γ}
    (h : ∀ n, checkindex host 2 (L.index 2) = .ok n → ∀ b, (op n b).map φ = op' n (φ b)) :
    mapResult φ (changeAt host heap L op) = changeAt host (heap.map φ) L op' := by
  rw [changeAt, changeAt, checkset_map]
  refine map_bind (fun set _ => ?_)
  cases hindex : checkindex host 2 (L.index 2) with
  | error e => rfl
  | ok n =>
    cases checknone 3 (L.index 3) with
    | error e => rfl
    | ok _ =>
      show Except.map _ (access (op n set.2) >>= _) = access (op' n (φ set.2)) >>= _
      rw [← h n hindex, access_map]
      exact map_bind (fun b _ => congrArg (fun l => Except.ok (l, _)) List.map_set)

theorem changeWith_map {op : β → β → β} {op' : γ → γ → γ}
    (h : ∀ a b, φ (op a b) = op' (φ a) (φ b)) :
    mapResult φ (changeWith heap L op) = changeWith (heap.map φ) L op' := by
  rw [changeWith, changeWith, checkset_map]
  refine map_bind (fun set _ => ?_)
  rw [checkset_map]
  refine map_bind (fun other _ => ?_)
  cases checknone 3 (L.index 3) with
  | error e => rfl
  | ok _ =>
    rw [← h]
    exact congrArg (fun l => Except.ok (l, _)) List.map_set

theorem replaced_map {b : β} {c : γ} (h : φ b = c) :
    mapResult φ (replaced heap L b) = replaced (heap.map φ) L c := by
  rw [replaced, replaced, checkset_map]
  refine map_bind (fun set _ => ?_)
  cases checknone 2 (L.index 2) with
  | error e => rfl
  | ok _ =>
    rw [← h]
    exact congrArg (fun l => Except.ok (l, _)) List.map_set

theorem asked_map {f : β → Value} {g : γ → Value} (h : ∀ b, f b = g (φ b)) :
    mapResult φ (asked heap L f) = asked (heap.map φ) L g := by
  rw [asked, asked, checkset_map]
  refine map_bind (fun set _ => ?_)
  rw [← h]
  rfl

theorem compared_map {f : β → β → Bool} {g : γ → γ → Bool} (h : ∀ a b, f a b = g (φ a) (φ b)) :
    mapResult φ (compared heap L f) = compared (heap.map φ) L g := by
  rw [compared, compared, checkset_map]
  refine map_bind (fun set1 _ => ?_)
  rw [checkset_map]
  refine map_bind (fun set2 _ => ?_)
  rw [← h]
  rfl

/-- One representation stands for another, for the CPUs that are passed. -/
structure Macros.Maps (M : Macros β) (A : Macros γ) (φ : β → γ) (size : Nat) : Prop where
  zero : φ M.CPU_ZERO = A.CPU_ZERO
  fill : φ M.CPU_FILL = A.CPU_FILL
  setof : ∀ n < size, (M.CPU_SETOF n).map φ = A.CPU_SETOF n
  set : ∀ n < size, ∀ b, (M.CPU_SET n b).map φ = A.CPU_SET n (φ b)
  clr : ∀ n < size, ∀ b, (M.CPU_CLR n b).map φ = A.CPU_CLR n (φ b)
  isset : ∀ n < size, ∀ b, M.CPU_ISSET n b = A.CPU_ISSET n (φ b)
  or : ∀ a b, φ (M.CPU_OR a b) = A.CPU_OR (φ a) (φ b)
  ornot : ∀ a b, φ (M.CPU_ORNOT a b) = A.CPU_ORNOT (φ a) (φ b)
  and : ∀ a b, φ (M.CPU_AND a b) = A.CPU_AND (φ a) (φ b)
  andnot : ∀ a b, φ (M.CPU_ANDNOT a b) = A.CPU_ANDNOT (φ a) (φ b)
  xor : ∀ a b, φ (M.CPU_XOR a b) = A.CPU_XOR (φ a) (φ b)
  empty : ∀ b, M.CPU_EMPTY b = A.CPU_EMPTY (φ b)
  isfullset : ∀ b, M.CPU_ISFULLSET b = A.CPU_ISFULLSET (φ b)
  subset : ∀ a b, M.CPU_SUBSET a b = A.CPU_SUBSET (φ a) (φ b)
  overlap : ∀ a b, M.CPU_OVERLAP a b = A.CPU_OVERLAP (φ a) (φ b)
  cmp : ∀ a b, M.CPU_CMP a b = A.CPU_CMP (φ a) (φ b)
  count : ∀ b, M.CPU_COUNT b = A.CPU_COUNT (φ b)
  ffs : ∀ b, M.CPU_FFS b = A.CPU_FFS (φ b)

/-- **The words stand for the sets.** -/
theorem words_maps (k : Nat) : (words k).Maps (finsets k) BitWords.denote (CPU_SETSIZE k) where
  zero := BitWords.denote_zero
  fill := BitWords.denote_fill
  setof _ hn := (BitWords.denote_setof hn).trans (congrArg some (if_pos hn).symm)
  set _ hn _ := (BitWords.denote_set hn).trans (congrArg some (if_pos hn).symm)
  clr _ hn _ := BitWords.denote_clr hn
  isset _ hn _ := BitWords.isset_eq hn
  or _ _ := BitWords.denote_or
  ornot _ _ := BitWords.denote_ornot
  and _ _ := BitWords.denote_and
  andnot _ _ := BitWords.denote_andnot
  xor _ _ := BitWords.denote_xor
  empty := BitWords.empty_eq
  isfullset := BitWords.isfullset_eq
  subset := BitWords.subset_eq
  overlap := BitWords.overlap_eq
  cmp := BitWords.cmp_eq
  count := BitWords.count_eq
  ffs := BitWords.ffs_eq

/-- A CPU that is there is passed on as it is. -/
theorem Call.InRange.index_lt {c : Call R} (h : c.InRange host k) {arg : Int} {n : Nat}
    (harg : c.function.indexArg = some arg)
    (hindex : checkindex host arg (c.L.index arg) = .ok n) : n < CPU_SETSIZE k := by
  rw [checkindex] at hindex
  split at hindex
  · next i hi =>
    obtain ⟨hpos, hlt⟩ := h arg i harg hi
    cases hindex
    have hwrap : IntType.uint64.wrap i = i % 18446744073709551616 := rfl
    rw [hwrap]
    omega
  · cases hindex

/-- **One call**: with CPUs that are there, the words evolve as the sets do. -/
theorem Call.run_map (c : Call R) (heap : List β) {M : Macros β} {A : Macros γ}
    (hmaps : M.Maps A φ (CPU_SETSIZE k)) (h : c.InRange host k) :
    mapResult φ (c.run M host heap) = c.run A host (heap.map φ) := by
  obtain ⟨f, L⟩ := c
  have hindex (arg : Int) (n : Nat) (harg : f.indexArg = some arg)
      (hn : checkindex host arg (L.index arg) = .ok n) : n < CPU_SETSIZE k := h.index_lt harg hn
  cases f with
  | copied =>
    show mapResult φ (l_cpuset_copied heap L) = l_cpuset_copied (heap.map φ) L
    rw [l_cpuset_copied, l_cpuset_copied, checkset_map]
    exact map_bind (fun src _ => newanoncpuset_map φ heap src.2)
  | filled => exact (newanoncpuset_map φ heap _).trans (by rw [hmaps.fill]; rfl)
  | zeroed => exact (newanoncpuset_map φ heap _).trans (by rw [hmaps.zero]; rfl)
  | only =>
    show mapResult φ (l_cpuset_only M host heap L) = l_cpuset_only A host (heap.map φ) L
    rw [l_cpuset_only, l_cpuset_only]
    cases hn : checkindex host 1 (L.index 1) with
    | error e => rfl
    | ok n =>
      show Except.map _ (access (M.CPU_SETOF n) >>= _) = access (A.CPU_SETOF n) >>= _
      rw [← hmaps.setof n (hindex 1 n rfl hn), access_map]
      exact map_bind (fun b _ => newanoncpuset_map φ heap b)
  | isset =>
    show mapResult φ (l_cpuset_isset M host heap L) = l_cpuset_isset A host (heap.map φ) L
    rw [l_cpuset_isset, l_cpuset_isset, checkset_map]
    refine map_bind (fun set _ => ?_)
    cases hn : checkindex host 2 (L.index 2) with
    | error e => rfl
    | ok n =>
      show Except.map _ (access (M.CPU_ISSET n set.2) >>= _) =
        access (A.CPU_ISSET n (φ set.2)) >>= _
      rw [← hmaps.isset n (hindex 2 n rfl hn)]
      cases access (M.CPU_ISSET n set.2) <;> rfl
  | clr => exact changeAt_map (fun n hn => hmaps.clr n (hindex 2 n rfl hn))
  | set => exact changeAt_map (fun n hn => hmaps.set n (hindex 2 n rfl hn))
  | setof =>
    show mapResult φ (l_cpuset_setof M host heap L) = l_cpuset_setof A host (heap.map φ) L
    exact changeAt_map (fun n hn _ => hmaps.setof n (hindex 2 n rfl hn))
  | copy =>
    show mapResult φ (l_cpuset_copy heap L) = l_cpuset_copy (heap.map φ) L
    exact changeWith_map (fun _ _ => rfl)
  | zero => exact replaced_map hmaps.zero
  | fill => exact replaced_map hmaps.fill
  | ored => exact combined_map hmaps.or
  | ornoted => exact combined_map hmaps.ornot
  | anded => exact combined_map hmaps.and
  | andnoted => exact combined_map hmaps.andnot
  | xored => exact combined_map hmaps.xor
  | or => exact changeWith_map hmaps.or
  | ornot => exact changeWith_map hmaps.ornot
  | and => exact changeWith_map hmaps.and
  | andnot => exact changeWith_map hmaps.andnot
  | xor => exact changeWith_map hmaps.xor
  | empty =>
    show mapResult φ (l_cpuset_empty M heap L) = l_cpuset_empty A (heap.map φ) L
    exact asked_map (fun b => by rw [hmaps.empty])
  | isfullset =>
    show mapResult φ (l_cpuset_isfullset M heap L) = l_cpuset_isfullset A (heap.map φ) L
    exact asked_map (fun b => by rw [hmaps.isfullset])
  | ffs =>
    show mapResult φ (l_cpuset_ffs M heap L) = l_cpuset_ffs A (heap.map φ) L
    exact asked_map (fun b => by rw [hmaps.ffs])
  | count =>
    show mapResult φ (l_cpuset_count M heap L) = l_cpuset_count A (heap.map φ) L
    exact asked_map (fun b => by rw [hmaps.count])
  | subset => exact compared_map hmaps.subset
  | overlap => exact compared_map hmaps.overlap
  | cmp => exact compared_map hmaps.cmp
  | equal =>
    show mapResult φ (l_cpuset_equal M heap L) = l_cpuset_equal A (heap.map φ) L
    exact compared_map (fun a b => by rw [hmaps.cmp])

end Mapping

/-! ## Runs -/

section Runs
variable {host : Host} {k : Nat}

theorem bind_ne_outside {α δ : Type} {x : Except Fault α} {g : α → Except Fault δ}
    (hx : x ≠ .error .outside) (hg : ∀ a, g a ≠ .error .outside) :
    (x >>= g) ≠ .error .outside := by
  cases x with
  | error e => exact fun h => hx (congrArg Except.error (Except.error.inj h))
  | ok a => exact hg a

theorem checkset_ne_outside (heap : List β) (arg : Int) (v : Option Value) :
    checkset heap arg v ≠ .error .outside := by
  rw [checkset.eq_def]
  split
  · split <;> exact nofun
  · exact nofun

theorem checkindex_ne_outside (arg : Int) (v : Option Value) :
    checkindex host arg v ≠ .error .outside := by
  rw [checkindex]
  split <;> exact nofun

theorem checknone_ne_outside (arg : Int) (v : Option Value) :
    checknone arg v ≠ .error .outside := by
  rw [checknone.eq_def]
  split <;> exact nofun

section Kinds
variable (heap : List β) (L : LuaState R)

theorem combined_ne_outside (op : β → β → β) : combined heap L op ≠ .error .outside :=
  bind_ne_outside (checkset_ne_outside heap 1 _) (fun _ =>
    bind_ne_outside (checkset_ne_outside heap 2 _) (fun _ => nofun))

theorem changeAt_ne_outside {op : Nat → β → Option β} (h : ∀ n b, op n b ≠ none) :
    changeAt host heap L op ≠ .error .outside := by
  refine bind_ne_outside (checkset_ne_outside heap 1 _) (fun set => ?_)
  refine bind_ne_outside (checkindex_ne_outside 2 _) (fun n => ?_)
  refine bind_ne_outside (checknone_ne_outside 3 _) (fun _ => ?_)
  refine bind_ne_outside ?_ (fun _ => nofun)
  cases hop : op n set.2 with
  | none => exact absurd hop (h n set.2)
  | some b => exact nofun

theorem changeWith_ne_outside (op : β → β → β) : changeWith heap L op ≠ .error .outside :=
  bind_ne_outside (checkset_ne_outside heap 1 _) (fun _ =>
    bind_ne_outside (checkset_ne_outside heap 2 _) (fun _ =>
      bind_ne_outside (checknone_ne_outside 3 _) (fun _ => nofun)))

theorem replaced_ne_outside (b : β) : replaced heap L b ≠ .error .outside :=
  bind_ne_outside (checkset_ne_outside heap 1 _) (fun _ =>
    bind_ne_outside (checknone_ne_outside 2 _) (fun _ => nofun))

theorem asked_ne_outside (f : β → Value) : asked heap L f ≠ .error .outside :=
  bind_ne_outside (checkset_ne_outside heap 1 _) (fun _ => nofun)

theorem compared_ne_outside (f : β → β → Bool) : compared heap L f ≠ .error .outside :=
  bind_ne_outside (checkset_ne_outside heap 1 _) (fun _ =>
    bind_ne_outside (checkset_ne_outside heap 2 _) (fun _ => nofun))

end Kinds

/-- With finite sets nothing is outside. -/
theorem Call.run_finsets (c : Call R) (host : Host) (k : Nat) (sets : List (Finset Nat)) :
    c.run (finsets k) host sets ≠ .error .outside := by
  obtain ⟨f, L⟩ := c
  rw [Call.run]
  cases f with
  | copied => exact bind_ne_outside (checkset_ne_outside sets 1 _) (fun _ => nofun)
  | filled | zeroed => exact nofun
  | only => exact bind_ne_outside (checkindex_ne_outside 1 _) (fun _ => nofun)
  | isset =>
    exact bind_ne_outside (checkset_ne_outside sets 1 _) (fun _ =>
      bind_ne_outside (checkindex_ne_outside 2 _) (fun _ => nofun))
  | clr | set | setof => exact changeAt_ne_outside sets L (fun _ _ => Option.some_ne_none _)
  | ored | ornoted | anded | andnoted | xored => exact combined_ne_outside sets L _
  | copy =>
    rw [Function.run, l_cpuset_copy]
    exact changeWith_ne_outside sets L _
  | or | ornot | and | andnot | xor => exact changeWith_ne_outside sets L _
  | zero | fill => exact replaced_ne_outside sets L _
  | empty =>
    rw [Function.run, l_cpuset_empty]
    exact asked_ne_outside sets L _
  | isfullset =>
    rw [Function.run, l_cpuset_isfullset]
    exact asked_ne_outside sets L _
  | ffs =>
    rw [Function.run, l_cpuset_ffs]
    exact asked_ne_outside sets L _
  | count =>
    rw [Function.run, l_cpuset_count]
    exact asked_ne_outside sets L _
  | equal =>
    rw [Function.run, l_cpuset_equal]
    exact compared_ne_outside sets L _
  | subset | overlap | cmp => exact compared_ne_outside sets L _

section Replay
variable {M : Macros β} {heap : List β} {c : Call R} {calls : List (Call R)}

theorem replay_returned {heap' : List β} {v : Option Value}
    (h : c.run M host heap = .ok (heap', v)) :
    replay M host heap (c :: calls) =
      (replay M host heap' calls).map (fun r => (.returned v :: r.1, r.2)) := by
  rw [replay, h]

theorem replay_raised {e : Raised} (h : c.run M host heap = .error (.raised e)) :
    replay M host heap (c :: calls) =
      (replay M host heap calls).map (fun r => (.raised e :: r.1, r.2)) := by
  rw [replay, h]

theorem replay_outside (h : c.run M host heap = .error .outside) :
    replay M host heap (c :: calls) = none := by
  rw [replay, h]

end Replay

/-- **A run**: with CPUs that are there, the userdata stay sets. -/
theorem evolves_of_inRange {calls : List (Call R)} (heap : List (BitWords k))
    (h : ∀ c ∈ calls, c.InRange host k) :
    ∃ replies heap', replay (words k) host heap calls = some (replies, heap') ∧
      Evolves k host (heap.map BitWords.denote) calls replies (heap'.map BitWords.denote) := by
  induction calls generalizing heap with
  | nil => exact ⟨[], heap, rfl, .nil _⟩
  | cons c calls ih =>
    obtain ⟨hc, hcalls⟩ := List.forall_mem_cons.mp h
    have hmap := c.run_map heap (words_maps k) hc
    cases hrun : c.run (words k) host heap with
    | ok result =>
      obtain ⟨heap₁, v⟩ := result
      obtain ⟨replies, heap', hreplay, hevolves⟩ := ih heap₁ hcalls
      rw [hrun] at hmap
      refine ⟨.returned v :: replies, heap', ?_, .returned hmap.symm hevolves⟩
      rw [replay_returned hrun, hreplay, Option.map_some]
    | error fault =>
      rw [hrun] at hmap
      cases fault with
      | raised e =>
        obtain ⟨replies, heap', hreplay, hevolves⟩ := ih heap hcalls
        refine ⟨.raised e :: replies, heap', ?_, .raised hmap.symm hevolves⟩
        rw [replay_raised hrun, hreplay, Option.map_some]
      | outside => exact absurd hmap.symm (c.run_finsets host k _)

/-- **When the userdata are sets**: every CPU that is passed is there. -/
theorem refines_of_inRange (k : Nat) (host : Host) (calls : List (Call R))
    (h : ∀ c ∈ calls, c.InRange host k) : Refines k host calls := by
  obtain ⟨replies, heap, hreplay, hevolves⟩ := evolves_of_inRange [] h
  exact ⟨replies, heap, hreplay, hevolves, fun s _ => BitWords.denote_subset s⟩

/-- A CPU that is not there is a word outside. -/
theorem le_index {i : Int} {size : Nat} (hi : IntType.int64.Holds i) (hsize : size ≤ 2 ^ 63)
    (h : ¬ (0 ≤ i ∧ i < size)) : size ≤ (IntType.uint64.wrap i).toNat := by
  obtain ⟨hlow, hhigh⟩ := IntType.int64_holds_iff.mp hi
  have hwrap : IntType.uint64.wrap i = i % 18446744073709551616 := rfl
  rw [hwrap]
  omega

/-- **A set is changed outside** with a CPU that is not there. -/
theorem l_cpuset_set_outside {heap : List (BitWords k)} {L : LuaState R} {r : Nat}
    {s : BitWords k} {i : Int} (hset : checkset heap 1 (L.index 1) = .ok (r, s))
    (hindex : checkinteger host 2 (L.index 2) = .ok i) (hnone : L.index 3 = none)
    (hi : IntType.int64.Holds i) (hsize : CPU_SETSIZE k ≤ 2 ^ 63)
    (hrange : ¬ (0 ≤ i ∧ i < CPU_SETSIZE k)) :
    l_cpuset_set (words k) host heap L = .error .outside := by
  have hcheck : checkindex host 2 (L.index 2) = .ok (IntType.uint64.wrap i).toNat := by
    rw [checkindex, hindex]
  have houtside : BitWords.set (IntType.uint64.wrap i).toNat s = none :=
    BitWords.update_eq_none (le_index hi hsize hrange)
  have hword : (words k).CPU_SET (IntType.uint64.wrap i).toNat s = none := houtside
  rw [l_cpuset_set, changeAt, hset]
  show (checkindex host 2 (L.index 2) >>= _) = _
  rw [hcheck, hnone]
  show (access ((words k).CPU_SET _ s) >>= _) = _
  rw [hword]
  rfl

end Runs

/-! ## Two runs -/

/-- `cpuset.zero()` -/
def zeroCall : Call noFunctions := ⟨.zeroed, ⟨[], [], 0⟩⟩

/-- `set:set(i)` -/
def setCall (i : Int) : Call noFunctions := ⟨.set, ⟨[.userdata 0, .integer i], [], 0⟩⟩

theorem setCall_refines : Refines 16 .plain [zeroCall, setCall 70] := by
  refine refines_of_inRange 16 .plain [zeroCall, setCall 70] (fun c hc => ?_)
  rcases List.mem_pair.mp hc with rfl | rfl
  · intro arg i harg _
    cases harg
  · intro arg i harg hi
    cases harg
    cases hi
    decide

theorem setCall_not_refines : ¬ Refines 16 .plain [zeroCall, setCall (-1)] := by
  rintro ⟨replies, heap, hreplay, -⟩
  have houtside : l_cpuset_set (words 16) .plain [BitWords.zero] (setCall (-1)).L =
      .error .outside :=
    l_cpuset_set_outside rfl rfl rfl (by decide) (by decide) (by decide)
  have hrun : (setCall (-1)).run (words 16) .plain [BitWords.zero] = .error .outside := houtside
  have hzero : zeroCall.run (words 16) .plain [] = .ok ([BitWords.zero], some (.userdata 0)) := rfl
  rw [replay_returned hzero, replay_outside hrun] at hreplay
  cases hreplay

end CpuSet
end FluaLibs
