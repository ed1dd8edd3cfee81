import FluaLibs.ListArguments

/-! # What functions with lists do

`listOf` says what a function that reads a list comes to, without memory: the library is given
what is in the list, and the arrays stay behind only if an element raises an error when it is
read.  This is so when the slots that Lua promises are enough for all elements and for the
results.  When they are not, and the list would be accepted, the function takes more than that.
-/
namespace FluaLibs
namespace ListArguments
open LuaArguments Held

section List
variable {α β : Type} {env : ListEnv} {r : Reading α} {base l rest : List Nat}

variable (env r) in
/-- What the loop reads from the element after `i` on; or the error, and whether the arrays are
left. -/
def elementsOf : Nat → Nat → Except (Raised × Bool) (List α)
  | 0, _ => .ok []
  | n + 1, i =>
    match env.geti r.table (i + 1) with
    | .error e => .error (e, true)
    | .ok v =>
      match r.accept v with
      | .error e => .error (e, false)
      | .ok a => (elementsOf n (i + 1)).map (a :: ·)

/-- Every element that is accepted has a place in its array. -/
def Reading.Fits (r : Reading α) : Prop :=
  ∀ done a, done.length < r.count → r.fits done a = true

/-- **The loop over a list**, with `i` elements read: `n` more are added in their order.  An
element that raises an error when it is read leaves the arrays, and one that is refused has freed
them. -/
theorem readList_spec {arrays : List Nat} (hl : l.Perm (arrays ++ rest)) (hfits : r.Fits)
    (n : Nat) : ∀ (i : Nat) (done : List α), done.length = i → i + n ≤ minstack →
      i + n ≤ r.count → Spec base l (readList env r arrays n i done)
        (fun as l' => l' = l ∧ ∃ new, elementsOf env r n i = .ok new ∧ as = done ++ new)
        (fun e l' => elementsOf env r n i = .error (e, true) ∧ l' = l ∨
          elementsOf env r n i = .error (e, false) ∧ l' = rest) := by
  induction n with
  | zero =>
    intro i done _ _ _
    exact Spec.pure ⟨rfl, [], rfl, (List.append_nil done).symm⟩
  | succ n ih =>
    intro i done hdone hroom hcount
    have hslot : decide (i + 1 ≤ minstack) = true := decide_eq_true (by omega)
    refine (Spec.demand hslot (Q := fun _ l' => l' = l) rfl).bind ?_
    rintro _ l rfl
    rcases hget : env.geti r.table (i + 1) with e | v
    · simp only [elementsOf, hget]
      exact Spec.raise (Or.inl ⟨rfl, rfl⟩)
    refine Spec.checked ?_
    rcases haccept : r.accept v with e | a
    · simp only [elementsOf, hget, haccept]
      refine Spec.bind (Spec.freeAll hl (Q := fun _ l => l = rest) rfl) ?_
      rintro _ _ rfl
      exact Spec.raise (Or.inr ⟨rfl, rfl⟩)
    · simp only [elementsOf, hget, haccept]
      refine (Spec.demand (hfits done a (by omega)) (Q := fun _ l' => l' = l) rfl).bind ?_
      rintro _ l rfl
      have hlen : (done ++ [a]).length = i + 1 := by rw [List.length_append, hdone]; rfl
      refine (ih (i + 1) (done ++ [a]) hlen (by omega) (by omega)).mono ?_ ?_
      · rintro as l' ⟨rfl, new, hnew, rfl⟩
        refine ⟨rfl, a :: new, by rw [hnew]; rfl, ?_⟩
        rw [List.append_assoc]
        rfl
      · rintro e l' (⟨he, rfl⟩ | ⟨he, rfl⟩)
        · exact Or.inl ⟨by rw [he]; rfl, rfl⟩
        · exact Or.inr ⟨by rw [he]; rfl, rfl⟩

/-! ### A list that is too long -/

/-- A loop that has gone wrong stays wrong. -/
theorem readList_sticky (arrays : List Nat) (n : Nat) : ∀ (i : Nat) (done : List α),
    Sticky (readList env r arrays n i done) := by
  induction n with
  | zero => exact fun i done => Sticky.pure done
  | succ n ih =>
    intro i done
    refine (Sticky.demand _).bind (fun _ => ?_)
    refine (Sticky.ofExcept _).bind (fun v => ?_)
    rcases r.accept v with e | a
    · exact (Sticky.freeAll arrays).bind (fun _ => Sticky.raise e)
    · exact (Sticky.demand _).bind (fun _ => ih (i + 1) (done ++ [a]))

/-- The loop comes to an element that there is no slot for. -/
theorem readList_faults (arrays : List Nat) (n : Nat) : ∀ (i : Nat) (done new : List α),
    elementsOf env r n i = .ok new → i ≤ minstack → minstack < i + n →
    ∀ l : List Nat, Faults base l (readList env r arrays n i done) := by
  induction n with
  | zero =>
    intro i done new _ hi hbig
    omega
  | succ n ih =>
    intro i done new hnew hi hbig l
    by_cases hslot : i + 1 ≤ minstack
    · refine Faults.right (Spec.demand (decide_eq_true hslot) (Q := fun _ l' => l' = l) rfl) ?_
      rintro _ l rfl
      rcases hget : env.geti r.table (i + 1) with e | v
      · simp only [elementsOf, hget] at hnew
        cases hnew
      refine Faults.checked ?_
      rcases haccept : r.accept v with e | a
      · simp only [elementsOf, hget, haccept] at hnew
        cases hnew
      simp only [elementsOf, hget, haccept] at hnew
      rcases hrest : elementsOf env r n (i + 1) with e | new'
      · rw [hrest] at hnew
        cases hnew
      -- Either there is no place in the array already, or there is no slot later.
      rcases Bool.eq_false_or_eq_true (r.fits done a) with hfits | hfits
      · refine Faults.right (Spec.demand hfits (Q := fun _ l' => l' = l) rfl) ?_
        rintro _ _ rfl
        exact ih (i + 1) (done ++ [a]) new' hrest hslot (by omega) _
      · exact (Faults.demand hfits).left (fun _ => readList_sticky arrays n _ _)
    · refine (Faults.demand (decide_eq_false hslot)).left (fun _ => ?_)
      refine (Sticky.ofExcept _).bind (fun v => ?_)
      rcases r.accept v with e | a
      · exact (Sticky.freeAll arrays).bind (fun _ => Sticky.raise e)
      · exact (Sticky.demand _).bind (fun _ => readList_sticky arrays n _ _)

/-! ### The whole of a list -/

variable (env r) in
/-- The elements of the whole list. -/
def elements : Except (Raised × Bool) (List α) := elementsOf env r r.count 0

/-- What comes of a list for which there is memory: an error leaves some arrays, or none. -/
def listOf (arrays : Nat) (x : Except (Raised × Bool) (List α)) (finish : List α → β) :
    Counted Raised β :=
  match x with
  | .ok as => (.ok (finish as), 0)
  | .error (e, true) => (.error e, arrays)
  | .error (e, false) => (.error e, 0)

/-- The slots that are needed. -/
def slotsOf (count : Nat) (x : Except (Raised × Bool) (List α)) (finish : List α → β)
    (slots : β → Nat) : Nat :=
  max count (match x with | .ok as => slots (finish as) | .error _ => 0)

/-- With room for the slots that are needed, the function does what it is to do; without, it goes
wrong, if it would have a result otherwise. -/
structure Sound (base : List Nat) (c : Code Raised β) (x : Counted Raised β) (slots : Nat) :
    Prop where
  meets : slots ≤ minstack → Meets base c x
  faults : ∀ b, x.1 = .ok b → minstack < slots → Faults base [] c

/-- Checks of the arguments come before the list. -/
theorem Sound.check {γ : Type} (y : Except Raised γ) {f : γ → Code Raised β}
    {g : γ → Counted Raised β} {slots : γ → Nat}
    (h : ∀ a, y = .ok a → Sound base (f a) (g a) (slots a)) :
    Sound base (Code.ofExcept y >>= f) (Counted.ofExcept y >>= g)
      (y.toOption.elim 0 slots) := by
  rcases y with e | a
  · refine ⟨fun _ => Spec.raise ⟨rfl, rfl⟩, fun b hb => ?_⟩
    cases hb
  · have hpure : (Counted.ofExcept (Except.ok a : Except Raised γ) >>= g) = g a :=
      Counted.pure_bind a g
    rw [hpure]
    exact ⟨fun hslots => Spec.checked ((h a rfl).meets hslots),
      fun b hb hslots => Faults.checked ((h a rfl).faults b hb hslots)⟩

/-- A function with arrays for a list, as long as the slots are enough for it. -/
theorem withArrays_spec {arrays : List Nat} {finish : List α → β} {slots : β → Nat}
    (hfits : r.count ≤ minstack → r.Fits)
    (hslots : slotsOf r.count (elements env r) finish slots ≤ minstack) :
    Spec base arrays (withArrays env r arrays finish slots)
      (fun b l => (listOf arrays.length (elements env r) finish).1 = .ok b ∧ l = [])
      (fun e l => (listOf arrays.length (elements env r) finish).1 = .error e ∧
        l.length = (listOf arrays.length (elements env r) finish).2) := by
  have hcount : r.count ≤ minstack := le_trans (le_max_left _ _) hslots
  have hl : arrays.Perm (arrays ++ []) := by rw [List.append_nil]
  refine Spec.bind ((readList_spec hl (hfits hcount) r.count 0 [] rfl (by omega) (by omega)).mono
    (fun _ _ h => h) ?_) ?_
  · rintro e l (⟨he, rfl⟩ | ⟨he, rfl⟩)
    · rw [elements, he]
      exact ⟨rfl, rfl⟩
    · rw [elements, he]
      exact ⟨rfl, rfl⟩
  rintro as arrays ⟨rfl, _, hread, rfl⟩
  have hfinish : slots (finish as) ≤ minstack := by
    simp only [slotsOf, elements, hread] at hslots
    exact le_trans (le_max_right _ _) hslots
  refine Spec.bind (Q := fun _ l => l = arrays) (Spec.touchAll (fun _ h => h) rfl) ?_
  rintro _ _ rfl
  refine Spec.bind (Q := fun _ l => l = []) (Spec.freeAll hl rfl) ?_
  rintro _ _ rfl
  refine Spec.bind (Q := fun _ l => l = []) (Spec.demand (decide_eq_true hfinish) rfl) ?_
  rintro _ _ rfl
  rw [elements, hread]
  exact Spec.pure ⟨rfl, rfl⟩

/-- The same function when they are not. -/
theorem withArrays_faults {arrays : List Nat} {finish : List α → β} {slots : β → Nat}
    (hfits : r.count ≤ minstack → r.Fits) {as : List α} (has : elements env r = .ok as)
    (hslots : minstack < slotsOf r.count (elements env r) finish slots) :
    Faults base arrays (withArrays env r arrays finish slots) := by
  simp only [slotsOf, has] at hslots
  rw [elements] at has
  by_cases hcount : r.count ≤ minstack
  · -- All elements are read, and the results do not fit.
    have hl : arrays.Perm (arrays ++ []) := by rw [List.append_nil]
    refine Faults.right (Q := fun bs l => bs = as ∧ l = arrays) ?_ ?_
    · refine (readList_spec hl (hfits hcount) r.count 0 [] rfl (by omega) (by omega)).mono ?_ ?_
      · rintro bs l ⟨rfl, _, hread, rfl⟩
        rw [hread] at has
        exact ⟨Except.ok.inj has, rfl⟩
      · intro e l he
        simp [has] at he
    rintro _ arrays ⟨rfl, rfl⟩
    refine Faults.right (Q := fun _ l => l = arrays) (Spec.touchAll (fun _ h => h) rfl) ?_
    rintro _ _ rfl
    refine Faults.right (Q := fun _ l => l = []) (Spec.freeAll hl rfl) ?_
    rintro _ _ rfl
    refine (Faults.demand (decide_eq_false ?_)).left (fun _ => Sticky.pure _)
    omega
  · refine Faults.left (readList_faults arrays r.count 0 [] as has (by decide) (by omega) _) ?_
    intro bs
    refine (Sticky.touchAll arrays).bind fun _ => (Sticky.freeAll arrays).bind fun _ => ?_
    exact (Sticky.demand _).bind fun _ => Sticky.pure _

/-- What a function with one array answers. -/
def withArrayOf (env : ListEnv) (r : Reading α) (name : String) (size : Nat)
    (finish : List α → β) : Counted Raised β :=
  if env.malloc 0 size = true then listOf 1 (elements env r) finish
  else Counted.raise (.fatal name ENOMEM)

/-- There is an answer only when all elements have been read. -/
theorem listOf_ok {arrays : Nat} {x : Except (Raised × Bool) (List α)} {finish : List α → β}
    {b : β} (h : (listOf arrays x finish).1 = .ok b) : ∃ as, x = .ok as := by
  rcases x with ⟨e, left⟩ | as
  · rcases left <;> cases h
  · exact ⟨as, rfl⟩

/-- **One array**: it is what is expected with enough slots, and takes too many otherwise. -/
theorem withArray_sound {name : String} {size : Nat} {finish : List α → β} {slots : β → Nat}
    (hfits : r.count ≤ minstack → r.Fits) :
    Sound base (withArray env r name size finish slots) (withArrayOf env r name size finish)
      (slotsOf r.count (elements env r) finish slots) := by
  by_cases hthere : env.malloc 0 size = true
  · rw [withArrayOf, if_pos hthere]
    have hmalloc {R : Raised → List Nat → Prop} : Spec base [] (Code.malloc (env.malloc 0 size))
        (fun p l => ∃ a, p = some a ∧ l = [a]) R :=
      Spec.malloc (fun _ a _ => ⟨a, rfl, rfl⟩) (by simp [hthere])
    refine ⟨fun hslots => hmalloc.bind ?_, fun b hb hslots => Faults.right hmalloc ?_⟩
    · rintro _ _ ⟨array, rfl, rfl⟩
      exact withArrays_spec hfits hslots
    · rintro _ _ ⟨array, rfl, rfl⟩
      obtain ⟨as, has⟩ := listOf_ok hb
      exact withArrays_faults hfits has hslots
  · rw [withArrayOf, if_neg hthere]
    refine ⟨fun _ => ?_, fun b hb => by cases hb⟩
    refine Spec.bind (Q := fun p l => p = none ∧ l = []) (Spec.malloc (by simp [hthere])
      (fun _ => ⟨rfl, rfl⟩)) ?_
    rintro _ _ ⟨rfl, rfl⟩
    exact Spec.raise ⟨rfl, rfl⟩

end List

/-! ## The functions -/

/-- In a product that does not overflow there is a place for every element. -/
theorem hasPlace_of_le {n element size d : Nat} (hsize : n * element ≤ size) (hd : d < n) :
    hasPlace size element d = true :=
  decide_eq_true (le_trans (Nat.mul_le_mul_right element hd) hsize)

theorem product_of_le {n element : Nat} (hn : n ≤ minstack) (he : element ≤ 8) :
    product n element = n * element := by
  have hle : n * element ≤ 20 * 8 := Nat.mul_le_mul hn he
  exact Nat.mod_eq_of_lt (by omega)

theorem sizeT_of_nonneg {i : Int} (h0 : 0 ≤ i) (hlt : i < 2 ^ 64) : (sizeT i : Int) = i := by
  rw [sizeT, Int.emod_eq_of_lt h0 hlt, Int.toNat_of_nonneg h0]

section Functions
variable (env : ListEnv) (args : Nat → Option Value) (base : List Nat)

/-- What a limit on commands or fields answers. -/
def limitStringsOf (api : Nat → List Bytes → Option Nat) : Counted Raised (Reply (List Bytes)) := do
  let (chan, t, n) ← Counted.ofExcept (channelArguments env args)
  let size := product n 8
  withArrayOf env (stringsReading t n size 8) "malloc" size
    (fun strings => ⟨strings, api chan strings⟩)

def limitStringsSlots (api : Nat → List Bytes → Option Nat) : Nat :=
  (channelArguments env args).toOption.elim 0 fun (chan, t, n) =>
    slotsOf n (elements env (stringsReading t n (product n 8) 8))
      (fun strings => (⟨strings, api chan strings⟩ : Reply (List Bytes))) (fun r => n + r.slots)

theorem limitStrings_sound (api : Nat → List Bytes → Option Nat) :
    Sound base (limitStrings env args api) (limitStringsOf env args api)
      (limitStringsSlots env args api) := by
  refine Sound.check (channelArguments env args) ?_
  rintro ⟨chan, t, n⟩ -
  refine withArray_sound (fun hn done _ hdone => ?_)
  exact hasPlace_of_le (product_of_le hn (by decide)).ge hdone

/-- What a limit on names and numbers answers, each kind in a list of its own. -/
def limitIdsOf (api : Nat → List Bytes → List Int → Option Nat) :
    Counted Raised (Reply (List Bytes × List Int)) := do
  let (chan, t, n) ← Counted.ofExcept (channelArguments env args)
  if env.malloc 0 (product n 8) = true ∧ env.malloc 1 (product n 4) = true then
    listOf 2 (elements env (idsReading t n (product n 8) (product n 4)))
      (fun ids => ⟨(names ids, numbers ids), api chan (names ids) (numbers ids)⟩)
  else Counted.raise (.fatal "malloc" ENOMEM)

def limitIdsSlots (api : Nat → List Bytes → List Int → Option Nat) : Nat :=
  (channelArguments env args).toOption.elim 0 fun (chan, t, n) =>
    slotsOf n (elements env (idsReading t n (product n 8) (product n 4)))
      (fun ids => (⟨(names ids, numbers ids), api chan (names ids) (numbers ids)⟩ :
        Reply (List Bytes × List Int))) (fun r => n + r.slots)

/-- Names and numbers together are as many as the elements. -/
theorem idsReading_fits {t n : Nat} (hn : n ≤ minstack) :
    (idsReading t n (product n 8) (product n 4)).Fits := by
  intro done a hdone
  rcases a with s | i
  · refine hasPlace_of_le (product_of_le hn (by decide)).ge ?_
    exact lt_of_le_of_lt (List.length_filterMap_le _ _) hdone
  · refine hasPlace_of_le (product_of_le hn (by decide)).ge ?_
    exact lt_of_le_of_lt (List.length_filterMap_le _ _) hdone

theorem limitIds_sound (api : Nat → List Bytes → List Int → Option Nat) :
    Sound base (limitIds env args api) (limitIdsOf env args api) (limitIdsSlots env args api) := by
  refine Sound.check (channelArguments env args) ?_
  rintro ⟨chan, t, n⟩ -
  dsimp only
  have hsome {there : Bool} {held : List Nat} (hthere : there = true)
      {R : Raised → List Nat → Prop} : Spec base held (Code.malloc there)
        (fun p l => ∃ a, p = some a ∧ l = a :: held) R :=
    Spec.malloc (fun _ a _ => ⟨a, rfl, rfl⟩) (by simp [hthere])
  have hnone {there : Bool} {held : List Nat} (hthere : there ≠ true)
      {R : Raised → List Nat → Prop} : Spec base held (Code.malloc there)
        (fun p l => p = none ∧ l = held) R :=
    Spec.malloc (fun h => absurd h hthere) (fun _ => ⟨rfl, rfl⟩)
  by_cases hname : env.malloc 0 (product n 8) = true
  · by_cases hid : env.malloc 1 (product n 4) = true
    · rw [if_pos ⟨hname, hid⟩]
      refine ⟨fun hslots => (hsome hname).bind ?_, fun b hb hslots => Faults.right (hsome hname) ?_⟩
      · rintro _ _ ⟨nameArray, rfl, rfl⟩
        refine (hsome hid).bind ?_
        rintro _ _ ⟨idArray, rfl, rfl⟩
        exact withArrays_spec idsReading_fits hslots
      · rintro _ _ ⟨nameArray, rfl, rfl⟩
        refine Faults.right (hsome hid) ?_
        rintro _ _ ⟨idArray, rfl, rfl⟩
        obtain ⟨as, has⟩ := listOf_ok hb
        exact withArrays_faults idsReading_fits has hslots
    · rw [if_neg (fun h => hid h.2)]
      refine ⟨fun _ => (hsome hname).bind ?_, fun b hb => by cases hb⟩
      rintro _ _ ⟨nameArray, rfl, rfl⟩
      refine (hnone hid).bind ?_
      rintro _ _ ⟨rfl, rfl⟩
      refine Spec.bind (Q := fun _ l => l = []) (Spec.free (List.Perm.refl _) rfl) ?_
      rintro _ _ rfl
      exact Spec.raise ⟨rfl, rfl⟩
  · rw [if_neg (fun h => hname h.1)]
    refine ⟨fun _ => (hnone hname).bind ?_, fun b hb => by cases hb⟩
    rintro _ _ ⟨rfl, rfl⟩
    exact Spec.raise ⟨rfl, rfl⟩

/-- What a limit on address families answers. -/
def limitFamiliesOf : Counted Raised (List Int) := do
  let _ ← Counted.ofExcept (checkcookie env args 1 "cap_net_limit_t *")
  let t ← Counted.ofExcept (checktable args 2)
  let len ← Counted.ofExcept (env.len t)
  let n := sizeT len
  let size := product n 4
  withArrayOf env (familiesReading env t n size) "malloc" size id

def limitFamiliesSlots : Nat :=
  (checkcookie env args 1 "cap_net_limit_t *").toOption.elim 0 fun _ =>
    (checktable args 2).toOption.elim 0 fun t => (env.len t).toOption.elim 0 fun len =>
      slotsOf (sizeT len) (elements env (familiesReading env t (sizeT len) (product (sizeT len) 4)))
        id (fun _ => 1)

theorem limitFamilies_sound :
    Sound base (limitFamilies env args) (limitFamiliesOf env args)
      (limitFamiliesSlots env args) := by
  refine Sound.check (checkcookie env args 1 "cap_net_limit_t *") (fun _ _ => ?_)
  refine Sound.check (checktable args 2) (fun t _ => ?_)
  refine Sound.check (env.len t) (fun len _ => ?_)
  refine withArray_sound (fun hn done _ hdone => ?_)
  exact hasPlace_of_le (product_of_le hn (by decide)).ge hdone

/-- What a function for file arguments answers, after its checks. -/
def openFilesOf (api : FileArguments → List (Option Bytes) → Except Nat Nat) (a : FileArguments) :
    Counted Raised (List (Option Bytes) × Except Nat Nat) := do
  let len ← Counted.ofExcept (env.len a.table)
  let argc := IntType.int.wrap len
  let size := sizeT (argc * 8)
  withArrayOf env (argvReading env a.table argc.toNat size) "malloc" size
    (fun argv => (argv, api a argv))

def openFilesSlots (api : FileArguments → List (Option Bytes) → Except Nat Nat)
    (a : FileArguments) : Nat :=
  (env.len a.table).toOption.elim 0 fun len =>
    let argc := IntType.int.wrap len
    slotsOf argc.toNat (elements env (argvReading env a.table argc.toNat (sizeT (argc * 8))))
      (fun argv => (argv, api a argv)) (fun r => argc.toNat + handleSlots r.2)

theorem openFiles_sound (api : FileArguments → List (Option Bytes) → Except Nat Nat)
    (a : FileArguments) :
    Sound base (openFiles env api a) (openFilesOf env api a) (openFilesSlots env api a) := by
  refine Sound.check (env.len a.table) (fun len _ => ?_)
  refine withArray_sound (fun hn done _ hdone => ?_)
  generalize IntType.int.wrap len = argc at hn hdone ⊢
  refine hasPlace_of_le (n := argc.toNat) ?_ hdone
  -- An `int` that counts an element is positive.
  have hargc : (argc.toNat : Int) = argc := by
    dsimp only [argvReading] at hdone
    omega
  have hsize : (sizeT (argc * 8) : Int) = argc * 8 := by
    refine sizeT_of_nonneg ?_ ?_
    · omega
    · dsimp only [argvReading, minstack] at hn
      omega
  omega

def fileargs_initOf (api : FileArguments → List (Option Bytes) → Except Nat Nat) :
    Counted Raised (List (Option Bytes) × Except Nat Nat) := do
  let a ← Counted.ofExcept (fileArguments env args none 1)
  openFilesOf env api a

def fileargs_initSlots (api : FileArguments → List (Option Bytes) → Except Nat Nat) : Nat :=
  (fileArguments env args none 1).toOption.elim 0 (openFilesSlots env api)

theorem fileargs_init_sound (api : FileArguments → List (Option Bytes) → Except Nat Nat) :
    Sound base (l_fileargs_init env args api) (fileargs_initOf env args api)
      (fileargs_initSlots env args api) :=
  Sound.check (fileArguments env args none 1) (fun a _ => openFiles_sound env base api a)

def fileargs_cinitOf (api : FileArguments → List (Option Bytes) → Except Nat Nat) :
    Counted Raised (List (Option Bytes) × Except Nat Nat) := do
  let chan ← Counted.ofExcept (checkcookie env args 1 "cap_channel_t *")
  let a ← Counted.ofExcept (fileArguments env args (some chan) 2)
  openFilesOf env api a

def fileargs_cinitSlots (api : FileArguments → List (Option Bytes) → Except Nat Nat) : Nat :=
  (checkcookie env args 1 "cap_channel_t *").toOption.elim 0 fun chan =>
    (fileArguments env args (some chan) 2).toOption.elim 0 (openFilesSlots env api)

theorem fileargs_cinit_sound (api : FileArguments → List (Option Bytes) → Except Nat Nat) :
    Sound base (l_fileargs_cinit env args api) (fileargs_cinitOf env args api)
      (fileargs_cinitSlots env args api) := by
  refine Sound.check (checkcookie env args 1 "cap_channel_t *") (fun chan _ => ?_)
  refine Sound.check (fileArguments env args (some chan) 2) (fun a _ => ?_)
  exact openFiles_sound env base api a

def nlist2Of (api : Nat → List Bytes → Option (List Symbol × Int)) : Counted Raised Symbols := do
  let kd ← Counted.ofExcept (checkcookie env args 1 "kvm_t *")
  let t ← Counted.ofExcept (checktable args 2)
  let len ← Counted.ofExcept (env.len t)
  let n := sizeT len
  let size := (n + 1) % 2 ^ 64 * env.nlistSize
  withArrayOf env (stringsReading t n size env.nlistSize) "calloc" size
    (fun names => found (api kd names))

def nlist2Slots (api : Nat → List Bytes → Option (List Symbol × Int)) : Nat :=
  (checkcookie env args 1 "kvm_t *").toOption.elim 0 fun kd =>
    (checktable args 2).toOption.elim 0 fun t => (env.len t).toOption.elim 0 fun len =>
      let n := sizeT len
      let size := (n + 1) % 2 ^ 64 * env.nlistSize
      slotsOf n (elements env (stringsReading t n size env.nlistSize))
        (fun names => found (api kd names)) (symbolSlots n)

theorem nlist2_sound (api : Nat → List Bytes → Option (List Symbol × Int)) :
    Sound base (l_kvm_nlist2 env args api) (nlist2Of env args api) (nlist2Slots env args api) := by
  refine Sound.check (checkcookie env args 1 "kvm_t *") (fun kd _ => ?_)
  refine Sound.check (checktable args 2) (fun t _ => ?_)
  refine Sound.check (env.len t) (fun len _ => ?_)
  refine withArray_sound (fun hn done _ hdone => ?_)
  dsimp only [stringsReading, minstack] at hn hdone
  have hsize : (sizeT len + 1) % 2 ^ 64 = sizeT len + 1 := Nat.mod_eq_of_lt (by omega)
  rw [hsize]
  exact hasPlace_of_le (Nat.mul_le_mul_right _ (Nat.le_succ _)) hdone

/-- **Functions with a list** give the library exactly what is in the list, and free the arrays
that they have made on every path but one: an element that raises an error when it is read leaves
them.  So it is when the elements and the results fit into the slots that Lua promises; when they
do not, a call that would have a result takes slots that it may not have. -/
theorem list_arguments :
    (∀ api, Sound base (limitStrings env args api) (limitStringsOf env args api)
      (limitStringsSlots env args api)) ∧
    (∀ api, Sound base (limitIds env args api) (limitIdsOf env args api)
      (limitIdsSlots env args api)) ∧
    Sound base (limitFamilies env args) (limitFamiliesOf env args) (limitFamiliesSlots env args) ∧
    (∀ api, Sound base (l_fileargs_init env args api) (fileargs_initOf env args api)
      (fileargs_initSlots env args api)) ∧
    (∀ api, Sound base (l_fileargs_cinit env args api) (fileargs_cinitOf env args api)
      (fileargs_cinitSlots env args api)) ∧
    ∀ api, Sound base (l_kvm_nlist2 env args api) (nlist2Of env args api)
      (nlist2Slots env args api) :=
  ⟨limitStrings_sound env args base, limitIds_sound env args base,
    limitFamilies_sound env args base, fileargs_init_sound env args base,
    fileargs_cinit_sound env args base, nlist2_sound env args base⟩

end Functions

/-- A channel, and lists of strings of any length. -/
def sampleEnv (n : Nat) : ListEnv where
  host := Host.plain
  len _ := .ok n
  geti _ _ := .ok (.string [97])
  cookie _ _ := some (.lightuserdata 5)
  isRights _ := false
  malloc _ _ := true
  nlistSize := 24

def sampleArgs : Nat → Option Value
  | 1 => some (.userdata 0)
  | 2 => some (.table 0)
  | _ => none

/-- Eighteen commands leave room for `true`, and not for an error. -/
example : ((limitStrings (sampleEnv 18) sampleArgs (fun _ _ => none)).run ⟨0, [], false⟩).2.fault =
      false ∧
    ((limitStrings (sampleEnv 18) sampleArgs (fun _ _ => some 1)).run ⟨0, [], false⟩).2.fault =
      true := by
  decide +kernel

end ListArguments
end FluaLibs
