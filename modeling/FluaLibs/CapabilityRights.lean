import FluaLibs.LuaArguments
import Mathlib.Data.Set.Lattice
import Mathlib.Data.BitVec

/-! # Capability rights

An object of `sys.capsicum` is a `cap_rights_t`, which its methods change and ask through the C
library (`Library`).  The methods are written over any such library, and one with sets in the place
of rights says what they mean (`setLibrary`): a library that `Means` the one with sets gives a
script the same answers in every run.  A function of the library that is given an integer that is
no right aborts, and the run ends there.
-/
namespace FluaLibs
namespace CapabilityRights
open LuaArguments

/-- The functions of the C library.  Those that take a right abort (`none`) on an integer that is
none. -/
structure Library (ρ : Type*) where
  cap_rights_init : ρ
  cap_rights_set : ρ → Int → Option ρ
  cap_rights_clear : ρ → Int → Option ρ
  cap_rights_is_set : ρ → Int → Option Bool
  cap_rights_is_empty : ρ → Bool
  cap_rights_merge : ρ → ρ → ρ
  cap_rights_remove : ρ → ρ → ρ
  cap_rights_contains : ρ → ρ → Bool

/-! ## The code -/

section Code
variable {ρ : Type*} (lib : Library ρ) (host : Host)

/-- The loop over the rights from argument `i` on.  An argument that is no integer ends it, and
what was done before it stays done. -/
def forRights (f : ρ → Int → Option ρ) :
    Nat → List Value → ρ → Option (Except Raised Unit × ρ)
  | _, [], rights => some (.ok (), rights)
  | i, v :: vs, rights =>
    match checkinteger host i (some v) with
    | .error e => some (.error e, rights)
    | .ok right => (f rights right).bind fun rights => forRights f (i + 1) vs rights

/-- The loop ends at the first right that is missing. -/
def areSet (rights : ρ) : Nat → List Value → Option (Except Raised Bool)
  | _, [] => some (.ok true)
  | i, v :: vs =>
    match checkinteger host i (some v) with
    | .error e => some (.error e)
    | .ok right =>
      (lib.cap_rights_is_set rights right).bind fun set =>
        if set = true then areSet rights (i + 1) vs else some (.ok false)

/-- `luaL_checkudata` for an object, and what it is. -/
def checkrights (objects : List ρ) (arg : Nat) (args : List Value) : Except Raised (Nat × ρ) :=
  match args[arg - 1]? with
  | some (.userdata u) =>
    match objects[u]? with
    | some rights => .ok (u, rights)
    | none => .error (.typeerror arg "cap_rights_t *")
  | _ => .error (.typeerror arg "cap_rights_t *")

/-- What a call returns, and the objects behind it; nothing where the program is aborted. -/
abbrev Outcome (ρ : Type*) : Type _ := Option (Except Raised Value × List ρ)

/-- The new object is not there for the script when an argument is refused. -/
def l_cap_rights_new (objects : List ρ) (args : List Value) : Outcome ρ :=
  (forRights host lib.cap_rights_set 1 args lib.cap_rights_init).map fun made =>
    match made.1 with
    | .ok () => (.ok (.userdata objects.length), objects ++ [made.2])
    | .error e => (.error e, objects)

/-- A method that changes its object by a loop over the other arguments. -/
def changeRights (f : ρ → Int → Option ρ) (start : ρ → ρ) (result : Nat → Value)
    (objects : List ρ) (args : List Value) : Outcome ρ :=
  match checkrights objects 1 args with
  | .error e => some (.error e, objects)
  | .ok (u, rights) =>
    (forRights host f 2 (args.drop 1) (start rights)).map fun changed =>
      (changed.1.map fun _ => result u, objects.set u changed.2)

/-- The last argument is returned, which is the object if there is no other. -/
def l_cap_rights_init (objects : List ρ) (args : List Value) : Outcome ρ :=
  changeRights host lib.cap_rights_set (fun _ => lib.cap_rights_init)
    (fun u => (args.drop 1).getLastD (.userdata u)) objects args

def l_cap_rights_set (objects : List ρ) (args : List Value) : Outcome ρ :=
  changeRights host lib.cap_rights_set id .userdata objects args

def l_cap_rights_clear (objects : List ρ) (args : List Value) : Outcome ρ :=
  changeRights host lib.cap_rights_clear id .userdata objects args

def l_cap_rights_is_set (objects : List ρ) (args : List Value) : Outcome ρ :=
  match checkrights objects 1 args with
  | .error e => some (.error e, objects)
  | .ok (_, rights) =>
    (areSet lib host rights 2 (args.drop 1)).map fun answer => (answer.map .boolean, objects)

def l_cap_rights_is_empty (objects : List ρ) (args : List Value) : Outcome ρ :=
  match checkrights objects 1 args with
  | .error e => some (.error e, objects)
  | .ok (_, rights) => some (.ok (.boolean (lib.cap_rights_is_empty rights)), objects)

/-- A method with another object, which comes second. -/
def withOther (f : Nat → ρ → ρ → Value × List ρ) (objects : List ρ) (args : List Value) :
    Outcome ρ :=
  match checkrights objects 1 args with
  | .error e => some (.error e, objects)
  | .ok (u, dst) =>
    match checkrights objects 2 args with
    | .error e => some (.error e, objects)
    | .ok (_, src) => some (.ok (f u dst src).1, (f u dst src).2)

def l_cap_rights_merge (objects : List ρ) (args : List Value) : Outcome ρ :=
  withOther (fun u dst src => (.userdata u, objects.set u (lib.cap_rights_merge dst src))) objects
    args

def l_cap_rights_remove (objects : List ρ) (args : List Value) : Outcome ρ :=
  withOther (fun u dst src => (.userdata u, objects.set u (lib.cap_rights_remove dst src))) objects
    args

def l_cap_rights_contains (objects : List ρ) (args : List Value) : Outcome ρ :=
  withOther (fun _ big little => (.boolean (lib.cap_rights_contains big little), objects)) objects
    args

end Code

/-! ## Runs -/

inductive Function where
  | new
  | init
  | set
  | clear
  | isSet
  | isEmpty
  | merge
  | remove
  | contains

structure Call where
  function : Function
  args : List Value

section Runs
variable {ρ : Type*} (lib : Library ρ) (host : Host)

def Call.outcome (c : Call) (objects : List ρ) : Outcome ρ :=
  match c.function with
  | .new => l_cap_rights_new lib host objects c.args
  | .init => l_cap_rights_init lib host objects c.args
  | .set => l_cap_rights_set lib host objects c.args
  | .clear => l_cap_rights_clear lib host objects c.args
  | .isSet => l_cap_rights_is_set lib host objects c.args
  | .isEmpty => l_cap_rights_is_empty lib objects c.args
  | .merge => l_cap_rights_merge lib objects c.args
  | .remove => l_cap_rights_remove lib objects c.args
  | .contains => l_cap_rights_contains lib objects c.args

/-- The answers, and the objects at the end.  A script goes on after an error, and not after an
abort, which leaves no objects. -/
def run : List Call → List ρ → List (Except Raised Value) × Option (List ρ)
  | [], objects => ([], some objects)
  | c :: cs, objects =>
    match c.outcome lib host objects with
    | none => ([], none)
    | some (answer, objects) =>
      let rest := run cs objects
      (answer :: rest.1, rest.2)

end Runs

/-! ## What rights mean -/

section Meaning
variable {ρ τ β : Type*} {lib : Library ρ} {lib' : Library τ} {mem : ρ → τ} {host : Host}

/-- Each function does in one library what it does in the other. -/
structure Means (lib : Library ρ) (mem : ρ → τ) (lib' : Library τ) : Prop where
  init : mem lib.cap_rights_init = lib'.cap_rights_init
  set (r : ρ) (x : Int) : (lib.cap_rights_set r x).map mem = lib'.cap_rights_set (mem r) x
  clear (r : ρ) (x : Int) : (lib.cap_rights_clear r x).map mem = lib'.cap_rights_clear (mem r) x
  is_set (r : ρ) (x : Int) : lib.cap_rights_is_set r x = lib'.cap_rights_is_set (mem r) x
  is_empty (r : ρ) : lib.cap_rights_is_empty r = lib'.cap_rights_is_empty (mem r)
  merge (r r' : ρ) : mem (lib.cap_rights_merge r r') = lib'.cap_rights_merge (mem r) (mem r')
  remove (r r' : ρ) : mem (lib.cap_rights_remove r r') = lib'.cap_rights_remove (mem r) (mem r')
  contains (r r' : ρ) : lib.cap_rights_contains r r' = lib'.cap_rights_contains (mem r) (mem r')

open Classical in
/-- Rights are sets, and an integer that is a right stands for some elements of them. -/
noncomputable def setLibrary (bits : Int → Option (Set β)) : Library (Set β) where
  cap_rights_init := ∅
  cap_rights_set r x := (bits x).map fun b => r ∪ b
  cap_rights_clear r x := (bits x).map fun b => r \ b
  cap_rights_is_set r x := (bits x).map fun b => decide (b ⊆ r)
  cap_rights_is_empty r := decide (r = ∅)
  cap_rights_merge r r' := r ∪ r'
  cap_rights_remove r r' := r \ r'
  cap_rights_contains r r' := decide (r' ⊆ r)

/-- What some integers stand for together, if all of them are rights. -/
def union (bits : Int → Option (Set β)) : List Int → Option (Set β)
  | [] => some ∅
  | x :: xs => (bits x).bind fun b => (union bits xs).map fun c => b ∪ c

/-! ### One call -/

theorem forRights_means {f : ρ → Int → Option ρ} {f' : τ → Int → Option τ}
    (hf : ∀ r x, (f r x).map mem = f' (mem r) x) (vs : List Value) : ∀ (i : Nat) (r : ρ),
      forRights host f' i vs (mem r) = (forRights host f i vs r).map (Prod.map id mem) := by
  induction vs with
  | nil => exact fun _ _ => rfl
  | cons v vs ih =>
    intro i r
    -- Both loops come to the same argument, and end there if it is no integer.
    rw [forRights, forRights]
    rcases checkinteger host i (some v) with e | x
    · rfl
    · dsimp only
      rw [← hf]
      rcases f r x with _ | r'
      · rfl
      · exact ih (i + 1) r'

theorem areSet_means (h : Means lib mem lib') (r : ρ) (vs : List Value) : ∀ i : Nat,
    areSet lib' host (mem r) i vs = areSet lib host r i vs := by
  induction vs with
  | nil => exact fun _ => rfl
  | cons v vs ih =>
    intro i
    rw [areSet, areSet]
    rcases checkinteger host i (some v) with e | x
    · rfl
    · dsimp only
      rw [← h.is_set, ih]

theorem checkrights_means (objects : List ρ) (arg : Nat) (args : List Value) :
    checkrights (objects.map mem) arg args =
      (checkrights objects arg args).map (Prod.map id mem) := by
  rw [checkrights, checkrights]
  rcases args[arg - 1]? with _ | v
  · rfl
  cases v with
  | userdata u =>
    dsimp only
    rw [List.getElem?_map]
    rcases objects[u]? with _ | r
    · rfl
    · rfl
  | _ => rfl

/-- An outcome in the other library. -/
def Outcome.means (mem : ρ → τ) (o : Outcome ρ) : Outcome τ := o.map (Prod.map id (List.map mem))

theorem changeRights_means {f : ρ → Int → Option ρ} {f' : τ → Int → Option τ} {start : ρ → ρ}
    {start' : τ → τ} (hf : ∀ r x, (f r x).map mem = f' (mem r) x)
    (hstart : ∀ r, mem (start r) = start' (mem r)) (result : Nat → Value) (objects : List ρ)
    (args : List Value) :
    changeRights host f' start' result (objects.map mem) args =
      (changeRights host f start result objects args).means mem := by
  rw [changeRights, changeRights, checkrights_means]
  rcases checkrights objects 1 args with e | ⟨u, r⟩
  · rfl
  · simp only [Except.map, Prod.map_apply, id_eq]
    rw [← hstart, forRights_means hf]
    rcases forRights host f 2 (args.drop 1) (start r) with _ | changed
    · rfl
    · simp only [Outcome.means, Option.map_some, Prod.map_apply, Prod.map_fst, Prod.map_snd,
        id_eq, List.map_set]

theorem withOther_means {f : Nat → ρ → ρ → Value × List ρ} {f' : Nat → τ → τ → Value × List τ}
    (hf : ∀ u r r', f' u (mem r) (mem r') = ((f u r r').1, (f u r r').2.map mem))
    (objects : List ρ) (args : List Value) :
    withOther f' (objects.map mem) args = (withOther f objects args).means mem := by
  rw [withOther, withOther, checkrights_means, checkrights_means]
  rcases checkrights objects 1 args with e | ⟨u, dst⟩
  · rfl
  rcases checkrights objects 2 args with e | ⟨u', src⟩
  · rfl
  · simp only [Except.map, Prod.map_apply, id_eq, hf]
    rfl

/-- One call does the same in both libraries. -/
theorem outcome_means (h : Means lib mem lib') (c : Call) (objects : List ρ) :
    c.outcome lib' host (objects.map mem) = (c.outcome lib host objects).means mem := by
  obtain ⟨function, args⟩ := c
  cases function with
  | new =>
    simp only [Call.outcome, l_cap_rights_new]
    rw [← h.init, forRights_means h.set]
    rcases forRights host lib.cap_rights_set 1 args lib.cap_rights_init with _ | ⟨e | _, r⟩
    · rfl
    · rfl
    · simp only [Option.map_some, Prod.map_apply, id_eq, Outcome.means, List.length_map,
        List.map_append, List.map_cons, List.map_nil]
  | init =>
    exact changeRights_means h.set (fun _ => h.init) _ objects args
  | set => exact changeRights_means h.set (fun _ => rfl) _ objects args
  | clear => exact changeRights_means h.clear (fun _ => rfl) _ objects args
  | isSet =>
    simp only [Call.outcome, l_cap_rights_is_set]
    rw [checkrights_means]
    rcases checkrights objects 1 args with e | ⟨u, r⟩
    · rfl
    · simp only [Except.map, Prod.map_apply, id_eq, areSet_means h]
      rcases areSet lib host r 2 (args.drop 1) with _ | answer
      · rfl
      · rfl
  | isEmpty =>
    simp only [Call.outcome, l_cap_rights_is_empty]
    rw [checkrights_means]
    rcases checkrights objects 1 args with e | ⟨u, r⟩
    · rfl
    · simp only [Except.map, Prod.map_apply, id_eq, ← h.is_empty]
      rfl
  | merge =>
    refine withOther_means (fun u r r' => ?_) objects args
    rw [← h.merge, List.map_set]
  | remove =>
    refine withOther_means (fun u r r' => ?_) objects args
    rw [← h.remove, List.map_set]
  | contains =>
    refine withOther_means (fun u r r' => ?_) objects args
    rw [← h.contains]

/-- So does a run. -/
theorem run_means (h : Means lib mem lib') (calls : List Call) : ∀ objects : List ρ,
    run lib' host calls (objects.map mem) =
      ((run lib host calls objects).1, (run lib host calls objects).2.map (List.map mem)) := by
  induction calls with
  | nil => exact fun _ => rfl
  | cons c cs ih =>
    intro objects
    rw [run, run, outcome_means h]
    rcases c.outcome lib host objects with _ | ⟨answer, objects'⟩
    · rfl
    · simp only [Outcome.means, Option.map_some, Prod.map_apply, id_eq, ih]

/-! ### Rights in a loop -/

section Loops
variable {bits : Int → Option (Set β)} {mem : ρ → Set β}

/-- The library's function for one right after the other, up to an abort. -/
theorem forRights_integers (f : ρ → Int → Option ρ) (xs : List Int) : ∀ (i : Nat) (r : ρ),
    forRights host f i (xs.map .integer) r =
      (xs.foldlM f r).map fun r' => (.ok (), r') := by
  induction xs with
  | nil => exact fun _ _ => rfl
  | cons x xs ih =>
    intro i r
    have hcheck : checkinteger host i (some (.integer x)) = .ok x := rfl
    rw [List.map_cons, forRights, hcheck, List.foldlM_cons]
    dsimp only
    cases f r x with
    | none => rfl
    | some r' => exact ih (i + 1) r'

/-- A right after the other is all of them at once, for an operation with a set `b` that is, on
two of them, the operation with both. -/
theorem foldlM_means {f : ρ → Int → Option ρ} (op : Set β → Set β → Set β)
    (hf : ∀ r x, (f r x).map mem = (bits x).map (op (mem r))) (hempty : ∀ s, op s ∅ = s)
    (hunion : ∀ s b c, op (op s b) c = op s (b ∪ c)) (xs : List Int) : ∀ r : ρ,
      (xs.foldlM f r).map mem = (union bits xs).map (op (mem r)) := by
  induction xs with
  | nil => exact fun r => congrArg some (hempty (mem r)).symm
  | cons x xs ih =>
    intro r
    have hone := hf r x
    rw [List.foldlM_cons, union]
    cases hbits : bits x with
    | none =>
      rw [hbits, Option.map_none, Option.map_eq_none_iff] at hone
      rw [hone]
      rfl
    | some b =>
      rw [hbits] at hone
      obtain ⟨r', hr', hmem⟩ := Option.map_eq_some_iff.mp hone
      rw [hr', Option.bind_some]
      refine (ih r').trans ?_
      rw [hmem, Option.map_map]
      exact congrArg (fun g => Option.map g (union bits xs)) (funext (hunion (mem r) b))

theorem foldlM_set (h : Means lib mem (setLibrary bits)) (xs : List Int) (r : ρ) :
    (xs.foldlM lib.cap_rights_set r).map mem = (union bits xs).map fun b => mem r ∪ b :=
  foldlM_means (· ∪ ·) h.set Set.union_empty Set.union_assoc xs r

theorem foldlM_clear (h : Means lib mem (setLibrary bits)) (xs : List Int) (r : ρ) :
    (xs.foldlM lib.cap_rights_clear r).map mem = (union bits xs).map fun b => mem r \ b :=
  foldlM_means (· \ ·) h.clear (fun _ => Set.sdiff_empty) (fun _ _ _ => Set.sdiff_sdiff)
    xs r

open Classical in
/-- Whether all of some rights are there is whether what they stand for is. -/
theorem areSet_integers (h : Means lib mem (setLibrary bits)) (r : ρ) {b : Set β} (xs : List Int) :
    ∀ i : Nat, union bits xs = some b →
      ∃ answer, areSet lib host r i (xs.map .integer) = some (.ok answer) ∧
        (answer = true ↔ b ⊆ mem r) := by
  induction xs generalizing b with
  | nil =>
    rintro i hb
    cases hb
    exact ⟨true, rfl, by simp⟩
  | cons x xs ih =>
    intro i hb
    obtain ⟨first, hfirst, hrest⟩ := Option.bind_eq_some_iff.mp hb
    obtain ⟨rest, hunion, rfl⟩ := Option.map_eq_some_iff.mp hrest
    have hcheck : checkinteger host i (some (.integer x)) = .ok x := rfl
    have hset : lib.cap_rights_is_set r x = some (decide (first ⊆ mem r)) := by
      rw [h.is_set]
      exact congrArg (Option.map fun b => decide (b ⊆ mem r)) hfirst
    rw [List.map_cons, areSet, hcheck]
    dsimp only
    rw [hset, Option.bind_some]
    by_cases hsubset : first ⊆ mem r
    · obtain ⟨answer, hanswer, hiff⟩ := ih (i + 1) hunion
      rw [if_pos (decide_eq_true hsubset)]
      exact ⟨answer, hanswer, by rw [hiff, Set.union_subset_iff, and_iff_right hsubset]⟩
    · rw [if_neg (by simpa using hsubset)]
      exact ⟨false, rfl, by simp [Set.union_subset_iff, hsubset]⟩

theorem checkrights_first {objects : List ρ} {u : Nat} {r : ρ} (hu : objects[u]? = some r)
    (args : List Value) : checkrights objects 1 (.userdata u :: args) = .ok (u, r) := by
  simp only [checkrights, Nat.sub_self, List.getElem?_cons_zero, hu]

/-- A method that changes its object, on integers: it aborts if one of them is no right. -/
theorem changeRights_integers {f : ρ → Int → Option ρ} {op : Set β → Set β → Set β}
    (hfold : ∀ (xs : List Int) r, (xs.foldlM f r).map mem = (union bits xs).map (op (mem r)))
    (start : ρ → ρ) (result : Nat → Value) {objects : List ρ} {u : Nat} {r : ρ}
    (hu : objects[u]? = some r) (xs : List Int) :
    (changeRights host f start result objects (.userdata u :: xs.map .integer)).means mem =
      (union bits xs).map fun b =>
        (.ok (result u), (objects.map mem).set u (op (mem (start r)) b)) := by
  have hset (r' : ρ) : (objects.set u r').map mem = (objects.map mem).set u (mem r') :=
    List.map_set
  rw [changeRights, checkrights_first hu]
  dsimp only
  rw [List.drop_one, List.tail_cons, forRights_integers, Outcome.means, Option.map_map,
    Option.map_map]
  -- The object is looked at as a set, and the loop does with it what is said of sets.
  have hmem : (xs.foldlM f (start r)).map (fun r' =>
      ((.ok (result u), (objects.set u r').map mem) : Except Raised Value × List (Set β))) =
        ((xs.foldlM f (start r)).map mem).map
          (fun s => (.ok (result u), (objects.map mem).set u s)) := by
    rw [Option.map_map]
    exact congrArg (Option.map · _) (funext fun r' => by rw [hset]; rfl)
  refine hmem.trans ?_
  rw [hfold, Option.map_map]
  rfl

end Loops

end Meaning

/-- **Objects with rights are sets.**  In every run of a script over any number of objects, with any
arguments, a library whose rights are sets gives the answers of the library that there is, aborts
where it does, and its objects are the sets that the others stand for.  A call with integers joins
all of them to the object, or takes all of them away, and aborts if one of them is no right, or it
asks for all of them; `init` does not give the object back when there are integers, but the last
of them. -/
theorem capability_rights {ρ β : Type*} (lib : Library ρ) (mem : ρ → Set β)
    (bits : Int → Option (Set β)) (h : Means lib mem (setLibrary bits)) (host : Host) :
    (∀ calls objects, run (setLibrary bits) host calls (objects.map mem) =
      ((run lib host calls objects).1, (run lib host calls objects).2.map (List.map mem))) ∧
    ∀ (objects : List ρ) (u : Nat) (r : ρ) (xs : List Int), objects[u]? = some r →
      (l_cap_rights_set lib host objects (.userdata u :: xs.map .integer)).means mem =
        (union bits xs).map (fun b =>
          (.ok (.userdata u), (objects.map mem).set u (mem r ∪ b))) ∧
      (l_cap_rights_clear lib host objects (.userdata u :: xs.map .integer)).means mem =
        (union bits xs).map (fun b =>
          (.ok (.userdata u), (objects.map mem).set u (mem r \ b))) ∧
      (l_cap_rights_init lib host objects (.userdata u :: xs.map .integer)).means mem =
        (union bits xs).map (fun b =>
          (.ok ((xs.map .integer).getLastD (.userdata u)), (objects.map mem).set u b)) ∧
      ∀ b, union bits xs = some b → ∃ answer : Bool,
        l_cap_rights_is_set lib host objects (.userdata u :: xs.map .integer) =
          some (.ok (.boolean answer), objects) ∧ (answer = true ↔ b ⊆ mem r) := by
  refine ⟨run_means h, fun objects u r xs hu => ⟨?_, ?_, ?_, fun b hb => ?_⟩⟩
  · exact changeRights_integers (foldlM_set h) id .userdata hu xs
  · exact changeRights_integers (foldlM_clear h) id .userdata hu xs
  · refine (changeRights_integers (foldlM_set h) (fun _ => lib.cap_rights_init)
      (fun u => (xs.map .integer).getLastD (.userdata u)) hu xs).trans ?_
    -- The loop of `init` starts with nothing.
    have hempty (b : Set β) : mem lib.cap_rights_init ∪ b = b := by
      rw [h.init]
      exact Set.empty_union b
    simp only [hempty]
  · obtain ⟨answer, hanswer, hiff⟩ := areSet_integers h r xs 2 hb
    refine ⟨answer, ?_, hiff⟩
    rw [l_cap_rights_is_set, checkrights_first hu]
    dsimp only
    rw [List.drop_one, List.tail_cons, hanswer]
    rfl

/-! ### A library of words -/

/-- What `CAPRIGHT` makes: the bits of a right and, above them, which of the two words of a
`cap_rights_t` they are in. -/
def CAPRIGHT (idx : Nat) (bit : Int) : Int := 2 ^ (57 + idx) + bit

/-- The bits that a right has in the two words, which are here one behind the other; 0 ends a list
of rights, and has none. -/
def rightBits (x : Int) : Option (BitVec 114) :=
  let right := BitVec.ofInt 64 x
  let bits := (right.extractLsb' 0 57).zeroExtend 114
  if right = 0 then some 0
  else if right.extractLsb' 57 7 = 1 then some bits
  else if right.extractLsb' 57 7 = 2 then some (bits <<< 57)
  else none

/-- The two words of a `cap_rights_t`, without their index and version. -/
def wordLibrary : Library (BitVec 114) where
  cap_rights_init := 0
  cap_rights_set r x := (rightBits x).map fun b => r ||| b
  cap_rights_clear r x := (rightBits x).map fun b => r &&& ~~~b
  cap_rights_is_set r x := (rightBits x).map fun b => decide (r &&& b = b)
  cap_rights_is_empty r := decide (r = 0)
  cap_rights_merge r r' := r ||| r'
  cap_rights_remove r r' := r &&& ~~~r'
  cap_rights_contains r r' := decide (r &&& r' = r')

section Words
variable {w : Nat}

/-- The bits that are set. -/
def wordBits (r : BitVec w) : Set Nat := {i | r.getLsbD i = true}

theorem wordBits_or (r r' : BitVec w) : wordBits (r ||| r') = wordBits r ∪ wordBits r' := by
  ext i
  simp [wordBits]

theorem wordBits_and_not (r r' : BitVec w) :
    wordBits (r &&& ~~~r') = wordBits r \ wordBits r' := by
  ext i
  have hlt : r.getLsbD i = true → i < w := BitVec.lt_of_getLsbD
  simp only [wordBits, Set.mem_ofPred_eq, Set.mem_sdiff, BitVec.getLsbD_and, BitVec.getLsbD_not,
    Bool.and_eq_true, decide_eq_true_eq, Bool.not_eq_true']
  constructor
  · rintro ⟨hr, -, hr'⟩
    exact ⟨hr, by simp [hr']⟩
  · rintro ⟨hr, hr'⟩
    -- A complement has bits in the word only, and so has `r`.
    exact ⟨hr, hlt hr, by simpa using hr'⟩

theorem and_eq_right_iff (r r' : BitVec w) : r &&& r' = r' ↔ wordBits r' ⊆ wordBits r := by
  constructor
  · intro h i hi
    have hand : (r &&& r').getLsbD i = true := by
      rw [h]
      exact hi
    rw [BitVec.getLsbD_and, Bool.and_eq_true] at hand
    exact hand.1
  · intro h
    refine BitVec.eq_of_getLsbD_eq fun i _ => ?_
    rw [BitVec.getLsbD_and]
    rcases Bool.eq_false_or_eq_true (r'.getLsbD i) with hi | hi
    · rw [hi, Bool.and_true]
      exact h hi
    · rw [hi, Bool.and_false]

theorem wordBits_eq_empty_iff (r : BitVec w) : r = 0#w ↔ wordBits r = ∅ := by
  constructor
  · rintro rfl
    ext i
    simp [wordBits]
  · intro h
    refine BitVec.eq_of_getLsbD_eq fun i _ => ?_
    rw [BitVec.getLsbD_zero]
    by_contra hi
    have hmem : i ∈ wordBits r := (Bool.not_eq_false _).mp hi
    rw [h] at hmem
    exact hmem

end Words

theorem wordLibrary_means :
    Means wordLibrary wordBits (setLibrary fun x => (rightBits x).map wordBits) where
  init := (wordBits_eq_empty_iff 0#114).mp rfl
  set r x := by
    simp only [wordLibrary, setLibrary, Option.map_map]
    exact congrArg (Option.map · _) (funext fun b => wordBits_or r b)
  clear r x := by
    simp only [wordLibrary, setLibrary, Option.map_map]
    exact congrArg (Option.map · _) (funext fun b => wordBits_and_not r b)
  is_set r x := by
    simp only [wordLibrary, setLibrary, Option.map_map]
    exact congrArg (Option.map · _) (funext fun b => decide_eq_decide.mpr (and_eq_right_iff r b))
  is_empty r := decide_eq_decide.mpr (wordBits_eq_empty_iff r)
  merge r r' := wordBits_or r r'
  remove r r' := wordBits_and_not r r'
  contains r r' := decide_eq_decide.mpr (and_eq_right_iff r r')

def CAP_READ : Int := CAPRIGHT 0 1
def CAP_WRITE : Int := CAPRIGHT 0 2
def CAP_SEEK_TELL : Int := CAPRIGHT 0 4
def CAP_EVENT : Int := CAPRIGHT 1 0x20

/-- Two objects are made with rights, joined, and asked; `init` gives its last right.  The 1 at the
end is no right. -/
def sampleCalls : List Call :=
  [⟨.new, [.integer CAP_READ]⟩, ⟨.new, [.integer CAP_WRITE, .integer CAP_EVENT]⟩,
    ⟨.merge, [.userdata 0, .userdata 1]⟩,
    ⟨.isSet, [.userdata 0, .integer CAP_READ, .integer CAP_SEEK_TELL]⟩,
    ⟨.contains, [.userdata 0, .userdata 1]⟩, ⟨.set, [.userdata 1, .integer CAP_SEEK_TELL, .nil]⟩,
    ⟨.init, [.userdata 0, .integer CAP_WRITE]⟩, ⟨.set, [.userdata 0, .integer 1]⟩,
    ⟨.isEmpty, [.userdata 0]⟩]

/-- The answers to them, up to the abort. -/
def sampleAnswers : List (Except Raised Value) :=
  [.ok (.userdata 0), .ok (.userdata 1), .ok (.userdata 0), .ok (.boolean false),
    .ok (.boolean true), .error (.typeerror 3 "number"), .ok (.integer CAP_WRITE)]

theorem capability_rights_sample :
    run (setLibrary fun x => (rightBits x).map wordBits) Host.plain sampleCalls [] =
      ((run wordLibrary Host.plain sampleCalls []).1,
        (run wordLibrary Host.plain sampleCalls []).2.map (List.map wordBits)) ∧
    run wordLibrary Host.plain sampleCalls [] = (sampleAnswers, none) :=
  ⟨(capability_rights wordLibrary wordBits _ wordLibrary_means Host.plain).1 sampleCalls [], by rfl⟩

end CapabilityRights
end FluaLibs
