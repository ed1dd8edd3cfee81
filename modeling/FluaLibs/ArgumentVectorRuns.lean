import FluaLibs.ArgumentVectors
import FluaLibs.ListArgumentRuns

/-! # What becomes of the vectors of a new program

`l_mac_execve` frees what it has made when the call returns and whenever it raises an error
itself.  What stays behind is due to Lua: an element that raises an error when it is read, and a
field whose key is a number, since the walk does not go on from a string that is no key.
-/
namespace FluaLibs
namespace ArgumentVectors
open LuaArguments Held ListArguments

/-! ## Walks -/

section Walks
variable {fs before behind : List (Value × Value)} {k v : Value}

theorem rest_nil : rest fs .nil = some fs := if_pos rfl

/-- What is behind a field, which is the only one with its key. -/
theorem rest_split (hnodup : (fs.map Prod.fst).Nodup) (hk : k ≠ .nil)
    (hfs : fs = before ++ (k, v) :: behind) : rest fs k = some behind := by
  have hmem : k ∈ fs.map Prod.fst := by
    rw [hfs, List.map_append, List.map_cons]
    exact List.mem_append_right _ (List.mem_cons_self ..)
  have hbefore : ∀ f ∈ before, decide (f.1 ≠ k) = true := by
    intro f hf
    rw [hfs, List.map_append, List.map_cons] at hnodup
    refine decide_eq_true (fun heq => ?_)
    have hne := (List.nodup_append.mp hnodup).2.2 f.1 (List.mem_map_of_mem hf) k
      (List.mem_cons_self ..)
    exact hne heq
  rw [rest, if_neg hk, if_pos hmem, hfs, List.dropWhile_append_of_pos hbefore]
  simp

theorem rest_of_not_mem (hk : k ≠ .nil) (hmem : k ∉ fs.map Prod.fst) : rest fs k = none := by
  rw [rest, if_neg hk, if_neg hmem]

theorem next_of_rest {key : Value} (h : rest fs key = some behind) :
    next fs key = .ok behind.head? := by
  rw [next, h]

theorem next_of_none {key : Value} (h : rest fs key = none) :
    next fs key = .error (.error "invalid key to 'next'") := by
  rw [next, h]

theorem Fields.split {table : Fields} (hfs : table.list = before ++ (k, v) :: behind) :
    rest table.list k = some behind := by
  refine rest_split table.nodup ?_ hfs
  refine table.ne_nil (k, v) ?_
  rw [hfs]
  exact List.mem_append_right _ (List.mem_cons_self ..)

theorem countFields_split (table : Fields) (behind : List (Value × Value)) :
    ∀ (before : List (Value × Value)) (key : Value) (envc : Nat),
      table.list = before ++ behind → rest table.list key = some behind →
      countFields table.list (behind.length + 1) key envc = .ok (envc + behind.length) := by
  induction behind with
  | nil =>
    intro before key envc _ hrest
    rw [countFields, next_of_rest hrest]
    rfl
  | cons f behind ih =>
    intro before key envc hfs hrest
    obtain ⟨k, v⟩ := f
    have hstep := ih (before ++ [(k, v)]) k (envc + 1) (by rw [hfs]; simp) (Fields.split hfs)
    rw [List.length_cons, countFields, next_of_rest hrest]
    show countFields table.list (behind.length + 1) k (envc + 1) = _
    rw [hstep]
    congr 1
    omega

/-- The first walk finds every field. -/
theorem countFields_eq (table : Fields) :
    countFields table.list (table.list.length + 1) .nil 0 = .ok table.list.length := by
  rw [countFields_split table table.list [] .nil 0 rfl rest_nil, Nat.zero_add]

end Walks

/-! ## The environment -/

section Execve
variable (env : VectorEnv) (args : Nat → Option Value) {base l : List Nat}

def isString : Value → Bool
  | .string _ => true
  | _ => false

/-- No number among the keys is also there as a string, and the fields can be counted in an
`int`. -/
structure Walkable (table : Fields) : Prop where
  separate : ∀ f ∈ table.list, isString f.1 = false → ∀ name, tolstring env.host f.1 = some name →
    .string name ∉ table.list.map Prod.fst
  short : table.list.length + 1 < 2 ^ 31

/-- The strings of the environment from the `i`-th on; or the error, and what it leaves: the walk
cannot go on behind a number. -/
def stringsOf : Nat → List (Value × Value) → Except (Raised × Nat) (List Bytes)
  | _, [] => .ok []
  | i, (k, v) :: fs =>
    match tolstring env.host k, tolstring env.host v with
    | some name, some value =>
      match env.asprintf i (pair name value) with
      | some error => .error (.fatal "asprintf" error, 0)
      | none =>
        if (isString k || fs.isEmpty) = true then
          (stringsOf (i + 1) fs).map (pair name value :: ·)
        else .error (.error "invalid key to 'next'", i + 3)
    | _, _ => .error (.argerror 4 "string conversion failed", 0)

/-- An environment that is a table. -/
def fieldsOf (table : Fields) : Except (Raised × Nat) (Option (List Bytes)) :=
  if env.malloc 1 ((table.list.length + 1) * 8) = true then (stringsOf env 0 table.list).map some
  else .error (.fatal "malloc" ENOMEM, 0)

/-- The environment, if it is not that of the program itself. -/
def environmentOf : Except (Raised × Nat) (Option (List Bytes)) :=
  match args 4 with
  | some (.table e) => fieldsOf env (env.fields e)
  | _ => .ok none

/-- A key stays on the stack. -/
def environmentSlots : Nat :=
  match args 4 with
  | some (.table _) => 1
  | _ => 0

/-- What belongs to an environment. -/
def owned (envv : Option (Nat × List Copy)) : List Nat :=
  envv.elim [] fun e => e.2.map Copy.address ++ [e.1]

def texts (envv : Option (Nat × List Copy)) : Option (List Bytes) :=
  envv.map fun e => e.2.map Copy.text

variable {env args}

theorem freeVectors_spec {envv : Option (Nat × List Copy)} {argv : Nat} {rest : List Nat}
    (hl : l.Perm (owned envv ++ argv :: rest)) {R : Raised → List Nat → Prop} :
    Spec base l (freeVectors envv argv) (fun _ l' => l' = rest) R := by
  rcases envv with _ | e
  · exact (Spec.free (List.Perm.refl _) rfl).perm hl
  · refine Spec.bind (Q := fun _ l' => l' = argv :: rest) (Spec.freeAll hl rfl) ?_
    rintro _ _ rfl
    exact Spec.free (List.Perm.refl _) rfl

theorem tolstring_string {v : Value} {s : Bytes} (h : tolstring env.host v = some s)
    (hv : isString v = true) : v = .string s := by
  cases v with
  | string s' =>
    cases h
    rfl
  | _ => cases hv

/-- The walk goes on from a key that was a string before, and it need not go on at the end. -/
theorem goes_on {table : Fields} {before behind : List (Value × Value)} {k v : Value} {name : Bytes}
    (hname : tolstring env.host k = some name) (hfs : table.list = before ++ (k, v) :: behind)
    (hgoes : (isString k || behind.isEmpty) = true) :
    behind = [] ∨ rest table.list (.string name) = some behind := by
  rcases Bool.or_eq_true_iff.mp hgoes with hk | hempty
  · rw [← tolstring_string hname hk]
    exact Or.inr (Fields.split hfs)
  · exact Or.inl (List.isEmpty_iff.mp hempty)

theorem Walkable.stops {table : Fields} (hwalk : Walkable env table)
    {before behind : List (Value × Value)} {k v : Value} {name : Bytes}
    (hname : tolstring env.host k = some name) (hfs : table.list = before ++ (k, v) :: behind)
    (hstops : (isString k || behind.isEmpty) = false) :
    rest table.list (.string name) = none := by
  refine rest_of_not_mem (by simp) (hwalk.separate (k, v) ?_ (Bool.or_eq_false_iff.mp hstops).1
    name hname)
  rw [hfs]
  exact List.mem_append_right _ (List.mem_cons_self ..)

/-- A string more. -/
theorem owned_snoc {argv envv string : Nat} {done : List Copy} {text : Bytes}
    (hl : l.Perm (owned (some (envv, done)) ++ [argv])) :
    (string :: l).Perm (owned (some (envv, done ++ [⟨string, text⟩])) ++ [argv]) := by
  refine (hl.cons string).trans ?_
  simp only [owned, Option.elim_some, List.map_append, List.map_cons, List.map_nil,
    List.append_assoc]
  exact List.perm_middle.symm

theorem owned_length {argv envv : Nat} {done : List Copy}
    (hl : l.Perm (owned (some (envv, done)) ++ [argv])) : l.length = done.length + 2 := by
  rw [hl.length_eq]
  simp [owned]

/-- The walk does not go on from a string that is no key. -/
theorem readEnvv_stuck {fs : List (Value × Value)} {argv envv n i : Nat} {key : Value}
    {done : List Copy} {Q : List Copy → List Nat → Prop} {R : Raised → List Nat → Prop}
    (hkey : rest fs key = none) (hR : R (.error "invalid key to 'next'") l) :
    Spec base l (readEnvv env fs argv envv (n + 1) i key done) Q R := by
  rw [readEnvv, next_of_none hkey]
  exact Spec.raise hR

/-- On the second walk the key on the stack leads to the fields that are left, if there are any. -/
theorem readEnvv_spec {table : Fields} (hwalk : Walkable env table) {argv envv : Nat}
    (behind : List (Value × Value)) : ∀ (before : List (Value × Value)) (i : Nat) (key : Value)
      (done : List Copy) (l : List Nat), table.list = before ++ behind →
      (behind = [] ∨ rest table.list key = some behind) → done.length = i →
      l.Perm (owned (some (envv, done)) ++ [argv]) →
      Spec base l (readEnvv env table.list argv envv behind.length i key done)
        (fun strings l' => l'.Perm (owned (some (envv, strings)) ++ [argv]) ∧
          ∃ new, stringsOf env i behind = .ok new ∧
            strings.map Copy.text = done.map Copy.text ++ new)
        (fun e l' => stringsOf env i behind = .error (e, l'.length)) := by
  induction behind with
  | nil =>
    intro before i key done l _ _ _ hl
    exact Spec.pure ⟨hl, [], rfl, (List.append_nil _).symm⟩
  | cons f behind ih =>
    intro before i key done l hfs hkey hdone hl
    obtain ⟨k, v⟩ := f
    have hrest : rest table.list key = some ((k, v) :: behind) := hkey.resolve_left (by simp)
    have hfree {e : Raised} {R : Raised → List Nat → Prop} (hR : R e []) :
        Spec base l (freeVectors (some (envv, done)) argv >>= fun _ => Code.raise e)
          (fun strings l' => l'.Perm (owned (some (envv, strings)) ++ [argv]) ∧
            ∃ new, stringsOf env i ((k, v) :: behind) = .ok new ∧
              strings.map Copy.text = done.map Copy.text ++ new) R := by
      refine (freeVectors_spec hl).bind ?_
      rintro _ _ rfl
      exact Spec.raise hR
    rw [List.length_cons, readEnvv, next_of_rest hrest]
    refine Spec.checked ?_
    dsimp only [List.head?_cons]
    rcases hname : tolstring env.host k with _ | name
    · exact hfree (by simp only [stringsOf, hname]; rfl)
    rcases hvalue : tolstring env.host v with _ | value
    · exact hfree (by simp only [stringsOf, hname, hvalue]; rfl)
    dsimp only
    rcases hasprintf : env.asprintf i (pair name value) with _ | error
    · refine Spec.bind (Q := fun p l' => ∃ a, p = some a ∧ l' = a :: l)
        (Spec.malloc (fun _ a _ => ⟨a, rfl, rfl⟩) (by simp)) ?_
      rintro _ _ ⟨string, rfl, rfl⟩
      have hmade : (string :: l).Perm
          (owned (some (envv, done ++ [⟨string, pair name value⟩])) ++ [argv]) := owned_snoc hl
      have hlen : (done ++ [(⟨string, pair name value⟩ : Copy)]).length = i + 1 := by
        rw [List.length_append, hdone]
        rfl
      have hnew : table.list = (before ++ [(k, v)]) ++ behind := by rw [hfs]; simp
      rcases Bool.eq_false_or_eq_true (isString k || behind.isEmpty) with hgoes | hstops
      · have hkey' : behind = [] ∨ rest table.list (.string name) = some behind :=
          goes_on hname hfs hgoes
        refine (ih _ (i + 1) _ _ _ hnew hkey' hlen hmade).mono ?_ ?_
        · rintro strings l' ⟨hl', new, hread, htexts⟩
          refine ⟨hl', pair name value :: new, ?_, ?_⟩
          · simp only [stringsOf, hname, hvalue, hasprintf, hgoes, if_true, hread]
            rfl
          · rw [htexts]
            simp
        · intro e l' he
          simp only [stringsOf, hname, hvalue, hasprintf, hgoes, if_true, he]
          rfl
      · -- The string in the place of the number is no key.
        have hnone := hwalk.stops hname hfs hstops
        rw [Bool.or_eq_false_iff] at hstops
        rcases behind with _ | ⟨g, behind⟩
        · cases hstops.2
        refine readEnvv_stuck hnone ?_
        have hheld : (string :: l).length = i + 3 := by
          rw [List.length_cons, owned_length hl, hdone]
        simp only [stringsOf, hname, hvalue, hasprintf, hstops.1, hheld]
        rfl
    · refine Spec.bind (Q := fun p l' => p = none ∧ l' = l)
        (Spec.malloc (by simp) (fun _ => ⟨rfl, rfl⟩)) ?_
      rintro _ _ ⟨rfl, rfl⟩
      refine hfree ?_
      simp only [stringsOf, hname, hvalue, hasprintf]
      rfl

/-- The slots of a walk. -/
def walkSlots (table : Fields) : Nat := if table.list.isEmpty then 1 else 2

theorem makeEnvv_spec {table : Fields} (hwalk : Walkable env table) {argv below : Nat}
    (hroom : below + walkSlots table ≤ minstack) :
    Spec base [argv] (makeEnvv env table.list argv below)
      (fun envv l => l.Perm (owned envv ++ [argv]) ∧ fieldsOf env table = .ok (texts envv))
      (fun e l => fieldsOf env table = .error (e, l.length)) := by
  refine (Spec.demand (decide_eq_true hroom) (Q := fun _ l => l = [argv]) rfl).bind ?_
  rintro _ _ rfl
  rw [writeEnvv, countFields_eq]
  refine Spec.checked ?_
  refine (Spec.demand (decide_eq_true hwalk.short) (Q := fun _ l => l = [argv]) rfl).bind ?_
  rintro _ _ rfl
  by_cases hthere : env.malloc 1 ((table.list.length + 1) * 8) = true
  · refine Spec.bind (Q := fun p l => ∃ a, p = some a ∧ l = [a, argv])
      (Spec.malloc (fun _ a _ => ⟨a, rfl, rfl⟩) (by simp [hthere])) ?_
    rintro _ _ ⟨envv, rfl, rfl⟩
    rw [fieldsOf, if_pos hthere]
    refine ((readEnvv_spec hwalk table.list [] 0 .nil [] [envv, argv] rfl (Or.inr rest_nil) rfl
      (List.Perm.refl _)).mono (fun _ _ h => h) ?_).bind ?_
    · intro e l he
      rw [he]
      rfl
    · rintro strings l ⟨hl, new, hread, htexts⟩
      refine Spec.pure ⟨hl, ?_⟩
      rw [hread, texts, Option.map_some, htexts]
      rfl
  · refine Spec.bind (Q := fun p l => p = none ∧ l = [argv])
      (Spec.malloc (by simp [hthere]) (fun _ => ⟨rfl, rfl⟩)) ?_
    rintro _ _ ⟨rfl, rfl⟩
    refine (Spec.free (List.Perm.refl _) (Q := fun _ l => l = []) rfl).bind ?_
    rintro _ _ rfl
    refine Spec.raise ?_
    rw [fieldsOf, if_neg hthere]
    rfl

/-- There is room for the walks, if there are any. -/
def WalkRoom (env : VectorEnv) (args : Nat → Option Value) (below : Nat) : Prop :=
  ∀ e, args 4 = some (.table e) → below + walkSlots (env.fields e) ≤ minstack

theorem getEnvv_spec (hwalk : ∀ e, args 4 = some (.table e) → Walkable env (env.fields e))
    {argv below : Nat} (hroom : WalkRoom env args below) :
    Spec base [argv] (getEnvv env args argv below)
      (fun r l => l.Perm (owned r.1 ++ [argv]) ∧ environmentOf env args = .ok (texts r.1) ∧
        r.2 = below + environmentSlots args)
      (fun e l => environmentOf env args = .error (e, l.length)) := by
  have hself {x : Option (Nat × List Copy)} (hx : x = none) :
      ([argv] : List Nat).Perm (owned x ++ [argv]) := by
    rw [hx]
    exact List.Perm.refl _
  simp only [getEnvv, environmentOf, environmentSlots]
  rcases h4 : args 4 with _ | v
  · exact Spec.pure ⟨hself rfl, rfl, rfl⟩
  cases v with
  | table e =>
    refine (makeEnvv_spec (hwalk e h4) (hroom e h4)).bind ?_
    rintro envv l ⟨hl, henv⟩
    exact Spec.pure ⟨hl, henv, rfl⟩
  | _ => exact Spec.pure ⟨hself rfl, rfl, rfl⟩

/-- Everything that the call reads is there. -/
theorem mem_of_perm {envv : Option (Nat × List Copy)} {array : Nat}
    (hl : l.Perm (owned envv ++ [array])) :
    ∀ a ∈ array :: (envv.elim [] fun e => e.1 :: e.2.map Copy.address), a ∈ l := by
  intro a ha
  refine hl.mem_iff.mpr ?_
  rcases envv with _ | e
  · exact ha
  · simp only [owned, Option.elim_some, List.mem_append, List.mem_cons] at ha ⊢
    tauto

theorem callExecve_spec {mac_execve : Execve → Nat} {label : Nat} {fname : Bytes} {array : Nat}
    {argv : List (Option Bytes)} {envv : Option (Nat × List Copy)} {slots : Nat}
    (hl : l.Perm (owned envv ++ [array])) (hslots : slots + 3 ≤ minstack)
    {R : Raised → List Nat → Prop} :
    Spec base l (callExecve mac_execve label fname (array, argv) envv slots)
      (fun r l' => r = (⟨fname, argv, texts envv, label⟩,
        mac_execve ⟨fname, argv, texts envv, label⟩) ∧ l' = []) R := by
  refine Spec.bind (Q := fun _ l' => l' = l) (Spec.touchAll (mem_of_perm hl) rfl) ?_
  rintro _ _ rfl
  refine (freeVectors_spec hl).bind ?_
  rintro _ _ rfl
  refine Spec.bind (Q := fun _ l' => l' = []) (Spec.demand (decide_eq_true hslots) rfl) ?_
  rintro _ _ rfl
  exact Spec.pure ⟨rfl, rfl⟩

/-! ### Too many arguments -/

theorem freeVectors_sticky (envv : Option (Nat × List Copy)) (argv : Nat) :
    Sticky (freeVectors envv argv) := by
  rcases envv with _ | e
  · exact Sticky.free argv
  · exact (Sticky.freeAll _).bind (fun _ => Sticky.free argv)

theorem readEnvv_sticky (fs : List (Value × Value)) (argv envv : Nat) (n : Nat) :
    ∀ (i : Nat) (key : Value) (done : List Copy),
      Sticky (readEnvv env fs argv envv n i key done) := by
  induction n with
  | zero => exact fun i key done => Sticky.pure done
  | succ n ih =>
    intro i key done
    have hstop (e : Raised) : Sticky (freeVectors (some (envv, done)) argv >>= fun _ =>
        (Code.raise e : Code Raised (List Copy))) :=
      (freeVectors_sticky _ _).bind (fun _ => Sticky.raise e)
    refine (Sticky.ofExcept _).bind (fun found => ?_)
    rcases found with _ | ⟨k, v⟩
    · exact (Sticky.demand false).bind (fun _ => Sticky.pure done)
    dsimp only
    rcases tolstring env.host k with _ | name
    · exact hstop _
    rcases tolstring env.host v with _ | value
    · exact hstop _
    refine (Sticky.malloc _).bind (fun p => ?_)
    rcases p with _ | string
    · exact hstop _
    · exact ih _ _ _

theorem writeEnvv_sticky (fs : List (Value × Value)) (argv : Nat) :
    Sticky (writeEnvv env fs argv) := by
  refine (Sticky.ofExcept _).bind fun envc => (Sticky.demand _).bind fun _ => ?_
  refine (Sticky.malloc _).bind (fun p => ?_)
  rcases p with _ | envv
  · exact (Sticky.free argv).bind (fun _ => Sticky.raise _)
  · exact (readEnvv_sticky fs argv envv envc 0 .nil []).bind (fun _ => Sticky.pure _)

theorem getEnvv_sticky (argv below : Nat) : Sticky (getEnvv env args argv below) := by
  simp only [getEnvv]
  rcases args 4 with _ | v
  · exact Sticky.pure _
  cases v with
  | table e =>
    refine Sticky.bind ?_ (fun _ => Sticky.pure _)
    exact (Sticky.demand _).bind (fun _ => writeEnvv_sticky _ argv)
  | _ => exact Sticky.pure _

theorem callExecve_sticky (mac_execve : Execve → Nat) (label : Nat) (fname : Bytes)
    (argv : Nat × List (Option Bytes)) (envv : Option (Nat × List Copy)) (slots : Nat) :
    Sticky (callExecve mac_execve label fname argv envv slots) :=
  (Sticky.touchAll _).bind fun _ => (freeVectors_sticky envv argv.1).bind fun _ =>
    (Sticky.demand _).bind fun _ => Sticky.pure _

theorem callExecve_faults {mac_execve : Execve → Nat} {label : Nat} {fname : Bytes} {array : Nat}
    {argv : List (Option Bytes)} {envv : Option (Nat × List Copy)} {slots : Nat}
    (hl : l.Perm (owned envv ++ [array])) (hslots : minstack < slots + 3) :
    Faults base l (callExecve mac_execve label fname (array, argv) envv slots) := by
  refine Faults.right (Q := fun _ l' => l' = l) (Spec.touchAll (mem_of_perm hl) rfl) ?_
  rintro _ _ rfl
  refine Faults.right (freeVectors_spec hl) ?_
  rintro _ _ rfl
  exact (Faults.demand (decide_eq_false (by omega))).left (fun _ => Sticky.pure _)

/-- There is no room for a walk. -/
theorem getEnvv_faults {argv below : Nat} (hroom : ¬ WalkRoom env args below) :
    Faults base l (getEnvv env args argv below) := by
  simp only [WalkRoom, not_forall, Nat.not_le] at hroom
  obtain ⟨e, h4, hslots⟩ := hroom
  simp only [getEnvv, h4]
  refine Faults.left ?_ (fun _ => Sticky.pure _)
  exact (Faults.demand (decide_eq_false (Nat.not_le.mpr hslots))).left
    (fun _ => writeEnvv_sticky _ argv)

/-! ## The whole of `l_mac_execve` -/

section Whole
variable (env args)

/-- What comes of the vectors when there is memory for that of the arguments. -/
def vectorsOf (mac_execve : Execve → Nat) (label : Nat) (fname : Bytes) (t argc size : Nat) :
    Counted Raised (Execve × Nat) :=
  match elements env.toListEnv (argvReading env.toListEnv t argc size) with
  | .error (e, left) => (.error e, if left = true then 1 else 0)
  | .ok argv =>
    match environmentOf env args with
    | .error (e, left) => (.error e, left)
    | .ok envv => (.ok (⟨fname, argv, envv, label⟩, mac_execve ⟨fname, argv, envv, label⟩), 0)

/-- What becomes of the call when the length of the list is known. -/
def argumentsOf (mac_execve : Execve → Nat) (label : Nat) (fname : Bytes) (t : Nat) (argc : Int) :
    Counted Raised (Execve × Nat) :=
  if env.malloc 0 (sizeT ((argc + 1) * 8)) = true then
    vectorsOf env args mac_execve label fname t argc.toNat (sizeT ((argc + 1) * 8))
  else Counted.raise (.fatal "malloc" ENOMEM)

def execveOf (mac_execve : Execve → Nat) : Counted Raised (Execve × Nat) := do
  let label ← Counted.ofExcept (checkcookie env.toListEnv args 1 "mac_t")
  let fname ← Counted.ofExcept (checklstring env.host 2 (args 2))
  let t ← Counted.ofExcept (checktable args 3)
  let len ← Counted.ofExcept (env.len t)
  argumentsOf env args mac_execve label (cstr fname) t (IntType.int.wrap len)

/-- The slots that are needed. -/
def execveSlots : Nat :=
  (checkcookie env.toListEnv args 1 "mac_t").toOption.elim 0 fun _ =>
    (checklstring env.host 2 (args 2)).toOption.elim 0 fun _ =>
      (checktable args 3).toOption.elim 0 fun t => (env.len t).toOption.elim 0 fun len =>
        (IntType.int.wrap len).toNat + environmentSlots args + 3

end Whole

theorem argvReading_fits {t : Nat} {argc : Int} (hargc : 0 ≤ argc) (hn : argc.toNat ≤ minstack) :
    (argvReading env.toListEnv t argc.toNat (sizeT ((argc + 1) * 8))).Fits := by
  intro done a hdone
  have hn' : argc.toNat ≤ 20 := hn
  have hcast : (argc.toNat : Int) = argc := Int.toNat_of_nonneg hargc
  have hsize : (sizeT ((argc + 1) * 8) : Int) = (argc + 1) * 8 :=
    sizeT_of_nonneg (by omega) (by omega)
  exact hasPlace_of_le (n := argc.toNat) (by omega) hdone

theorem environmentSlots_le (below : Nat) (hslots : below + environmentSlots args + 3 ≤ minstack) :
    WalkRoom env args below := by
  intro e h4
  rw [environmentSlots, h4] at hslots
  dsimp only at hslots
  rw [walkSlots]
  split
  · omega
  · omega

section Sound
variable (mac_execve : Execve → Nat) (label : Nat) (fname : Bytes) (t : Nat) {argc : Int}
  (array : Nat)

theorem execveArray_sticky (size : Nat) :
    Sticky (execveArray env args mac_execve label fname t argc size array) :=
  (readList_sticky [array] argc.toNat 0 []).bind fun _ => (Sticky.demand _).bind fun _ =>
    (getEnvv_sticky array argc.toNat).bind fun _ => callExecve_sticky mac_execve label fname _ _ _

theorem execveArray_spec (hargc : 0 ≤ argc)
    (hwalk : ∀ e, args 4 = some (.table e) → Walkable env (env.fields e))
    (hslots : argc.toNat + environmentSlots args + 3 ≤ minstack) :
    Spec base [array]
      (execveArray env args mac_execve label fname t argc (sizeT ((argc + 1) * 8)) array)
      (fun r l => (vectorsOf env args mac_execve label fname t argc.toNat
        (sizeT ((argc + 1) * 8))).1 = .ok r ∧ l = [])
      (fun e l => (vectorsOf env args mac_execve label fname t argc.toNat
          (sizeT ((argc + 1) * 8))).1 = .error e ∧
        l.length = (vectorsOf env args mac_execve label fname t argc.toNat
          (sizeT ((argc + 1) * 8))).2) := by
  have hn : argc.toNat ≤ minstack := by omega
  have hl : [array].Perm ([array] ++ []) := List.Perm.refl _
  refine Spec.bind ((readList_spec hl (argvReading_fits hargc hn) argc.toNat 0 [] rfl (by omega)
    (by simp [argvReading])).mono (fun _ _ h => h) ?_) ?_
  · rintro e l (⟨he, rfl⟩ | ⟨he, rfl⟩)
    · simp only [vectorsOf, elements, argvReading] at he ⊢
      rw [he]
      exact ⟨rfl, rfl⟩
    · simp only [vectorsOf, elements, argvReading] at he ⊢
      rw [he]
      exact ⟨rfl, rfl⟩
  rintro argv l ⟨rfl, _, hread, rfl⟩
  have helements : elements env.toListEnv
      (argvReading env.toListEnv t argc.toNat (sizeT ((argc + 1) * 8))) = .ok argv := hread
  rw [vectorsOf, helements]
  refine Spec.bind (Q := fun _ l => l = [array]) (Spec.demand (decide_eq_true hargc) rfl) ?_
  rintro _ _ rfl
  refine Spec.bind ((getEnvv_spec hwalk (environmentSlots_le argc.toNat hslots)).mono
    (fun _ _ h => h) ?_) ?_
  · intro e l he
    rw [he]
    exact ⟨rfl, rfl⟩
  rintro ⟨envv, slots⟩ l ⟨hl, henv, hbelow⟩
  dsimp only at hl henv hbelow
  refine (callExecve_spec hl (by omega)).mono ?_ (fun _ _ h => h)
  rintro _ _ ⟨rfl, rfl⟩
  rw [henv]
  exact ⟨rfl, rfl⟩

/-- A call that would return takes slots that it may not have. -/
theorem execveArray_faults (hargc : 0 ≤ argc)
    (hwalk : ∀ e, args 4 = some (.table e) → Walkable env (env.fields e)) {r : Execve × Nat}
    (hok : (vectorsOf env args mac_execve label fname t argc.toNat
      (sizeT ((argc + 1) * 8))).1 = .ok r)
    (hslots : minstack < argc.toNat + environmentSlots args + 3) :
    Faults base [array]
      (execveArray env args mac_execve label fname t argc (sizeT ((argc + 1) * 8)) array) := by
  rw [vectorsOf] at hok
  rcases helements : elements env.toListEnv
    (argvReading env.toListEnv t argc.toNat (sizeT ((argc + 1) * 8))) with ⟨e, left⟩ | new
  · rw [helements] at hok
    cases hok
  rw [helements] at hok
  rcases henv : environmentOf env args with ⟨e, left⟩ | texts
  · simp only [henv] at hok
    cases hok
  by_cases hn : argc.toNat ≤ minstack
  · have hl : [array].Perm ([array] ++ []) := List.Perm.refl _
    refine Faults.right (Q := fun _ l => l = [array]) ((readList_spec hl
      (argvReading_fits hargc hn) argc.toNat 0 [] rfl (by omega) (by simp [argvReading])).mono
      ?_ ?_) ?_
    · rintro _ _ ⟨rfl, -⟩
      rfl
    · intro e l he
      have hread : elementsOf env.toListEnv
        (argvReading env.toListEnv t argc.toNat (sizeT ((argc + 1) * 8))) argc.toNat 0 = .ok new :=
          helements
      simp [hread] at he
    rintro argv _ rfl
    refine Faults.right (Q := fun _ l => l = [array]) (Spec.demand (decide_eq_true hargc) rfl) ?_
    rintro _ _ rfl
    by_cases hroom : WalkRoom env args argc.toNat
    · refine Faults.right ((getEnvv_spec hwalk hroom).mono (fun _ _ h => h) ?_) ?_
      · intro e l he
        rw [henv] at he
        cases he
      · rintro ⟨envv, slots⟩ l ⟨hl, -, hbelow⟩
        dsimp only at hl hbelow
        exact callExecve_faults hl (by omega)
    · exact (getEnvv_faults hroom).left (fun _ => callExecve_sticky mac_execve label fname _ _ _)
  · have hread : Faults base [array] (readList env.toListEnv (argvReading env.toListEnv t
        argc.toNat (sizeT ((argc + 1) * 8))) [array] argc.toNat 0 []) :=
      readList_faults [array] argc.toNat 0 [] new helements (by decide) (by omega) [array]
    refine hread.left fun _ => (Sticky.demand _).bind fun _ => ?_
    exact (getEnvv_sticky array argc.toNat).bind fun _ =>
      callExecve_sticky mac_execve label fname _ _ _

theorem execveWith_sound (hargc : 0 ≤ argc)
    (hwalk : ∀ e, args 4 = some (.table e) → Walkable env (env.fields e)) :
    Sound base (execveWith env args mac_execve label fname t argc)
      (argumentsOf env args mac_execve label fname t argc)
      (argc.toNat + environmentSlots args + 3) := by
  rw [argumentsOf]
  by_cases hthere : env.malloc 0 (sizeT ((argc + 1) * 8)) = true
  · rw [if_pos hthere]
    have hmalloc {R : Raised → List Nat → Prop} : Spec base []
        (Code.malloc (env.malloc 0 (sizeT ((argc + 1) * 8))))
        (fun p l => ∃ a, p = some a ∧ l = [a]) R :=
      Spec.malloc (fun _ a _ => ⟨a, rfl, rfl⟩) (by simp [hthere])
    constructor
    · intro hslots
      have hlt : argc + 1 < 2 ^ 31 := by
        have hmin : argc.toNat + environmentSlots args + 3 ≤ 20 := hslots
        omega
      refine Spec.bind (Q := fun _ l => l = []) (Spec.demand (decide_eq_true hlt) rfl) ?_
      rintro _ _ rfl
      refine hmalloc.bind ?_
      rintro _ _ ⟨array, rfl, rfl⟩
      exact execveArray_spec mac_execve label fname t array hargc hwalk hslots
    · intro r hok hslots
      by_cases hlt : argc + 1 < 2 ^ 31
      · refine Faults.right (Q := fun _ l => l = []) (Spec.demand (decide_eq_true hlt) rfl) ?_
        rintro _ _ rfl
        refine Faults.right hmalloc ?_
        rintro _ _ ⟨array, rfl, rfl⟩
        exact execveArray_faults mac_execve label fname t array hargc hwalk hok hslots
      · refine (Faults.demand (decide_eq_false hlt)).left fun _ => ?_
        refine (Sticky.malloc _).bind fun p => ?_
        rcases p with _ | array
        · exact Sticky.raise _
        · exact execveArray_sticky mac_execve label fname t array _
  · rw [if_neg hthere]
    refine ⟨fun hslots => ?_, fun r hok => by cases hok⟩
    have hlt : argc + 1 < 2 ^ 31 := by
      have hmin : argc.toNat + environmentSlots args + 3 ≤ 20 := hslots
      omega
    refine Spec.bind (Q := fun _ l => l = []) (Spec.demand (decide_eq_true hlt) rfl) ?_
    rintro _ _ rfl
    refine Spec.bind (Q := fun p l => p = none ∧ l = []) (Spec.malloc (by simp [hthere])
      (fun _ => ⟨rfl, rfl⟩)) ?_
    rintro _ _ ⟨rfl, rfl⟩
    exact Spec.raise ⟨rfl, rfl⟩

/-- In front of the array. -/
theorem execveWith_faults (hargc : argc < 0)
    (hthere : env.malloc 0 (sizeT ((argc + 1) * 8)) = true) :
    Faults base [] (execveWith env args mac_execve label fname t argc) := by
  have hlt : argc + 1 < 2 ^ 31 := by omega
  refine Faults.right (Q := fun _ l => l = []) (Spec.demand (decide_eq_true hlt) rfl) ?_
  rintro _ _ rfl
  refine Faults.right (Q := fun p l => ∃ a, p = some a ∧ l = [a])
    (Spec.malloc (fun _ a _ => ⟨a, rfl, rfl⟩) (by simp [hthere])) ?_
  rintro _ _ ⟨array, rfl, rfl⟩
  have hzero : argc.toNat = 0 := Int.toNat_of_nonpos (by omega)
  show Faults base [array] (execveArray env args mac_execve label fname t argc _ array)
  rw [execveArray, hzero]
  refine Faults.right (Q := fun _ l => l = [array]) (Spec.pure rfl) ?_
  rintro _ _ rfl
  refine (Faults.demand (decide_eq_false (by omega))).left fun _ => ?_
  exact (getEnvv_sticky array 0).bind fun _ => callExecve_sticky mac_execve label fname _ _ _

end Sound

/-- **`mac.execve`** gives the kernel the strings of the elements of the list, and a string for
each field of the environment, and frees all it has made on every path but two: an element that
raises an error leaves the array of arguments, and a field with a number for its key, unless it is
the last one, leaves both arrays and all strings up to its own.  So it is when the arguments fit
into the slots that Lua promises; when they do not, a call that would return takes slots that it
may not have.  A length that is negative is not noticed. -/
theorem execve_vectors (env : VectorEnv) (args : Nat → Option Value) (base : List Nat)
    (mac_execve : Execve → Nat)
    (hwalk : ∀ e, args 4 = some (.table e) → Walkable env (env.fields e)) :
    ((∀ t len, checktable args 3 = .ok t → env.len t = .ok len → 0 ≤ IntType.int.wrap len) →
      Sound base (l_mac_execve env args mac_execve) (execveOf env args mac_execve)
        (execveSlots env args)) ∧
    ∀ label fname t len, checkcookie env.toListEnv args 1 "mac_t" = .ok label →
      checklstring env.host 2 (args 2) = .ok fname → checktable args 3 = .ok t →
      env.len t = .ok len → IntType.int.wrap len < 0 →
      env.malloc 0 (sizeT ((IntType.int.wrap len + 1) * 8)) = true →
      Faults base [] (l_mac_execve env args mac_execve) := by
  constructor
  · intro hlen
    refine Sound.check (checkcookie env.toListEnv args 1 "mac_t") (fun label _ => ?_)
    refine Sound.check (checklstring env.host 2 (args 2)) (fun fname _ => ?_)
    refine Sound.check (checktable args 3) (fun t ht => ?_)
    refine Sound.check (env.len t) (fun len hn => ?_)
    exact execveWith_sound mac_execve label (cstr fname) t (hlen t len ht hn) hwalk
  · intro label fname t len hlabel hfname ht hlen hargc hthere
    rw [l_mac_execve, hlabel]
    refine Faults.checked ?_
    rw [hfname]
    refine Faults.checked ?_
    rw [ht]
    refine Faults.checked ?_
    rw [hlen]
    exact Faults.checked (execveWith_faults mac_execve label (cstr fname) t hargc hthere)

/-- `A=b`, and a number at the end. -/
def sampleList : List (Value × Value) := [(.string [65], .string [98]), (.integer 7, .string [99])]

theorem sampleList_nodup : (sampleList.map Prod.fst).Nodup := by decide

theorem sampleList_ne_nil : ∀ f ∈ sampleList, f.1 ≠ .nil := by decide

def sampleFields : Fields := ⟨sampleList, sampleList_nodup, sampleList_ne_nil⟩

/-- The number comes first. -/
def reversedFields : Fields where
  list := sampleList.reverse
  nodup := by
    rw [List.map_reverse]
    exact List.nodup_reverse.mpr sampleList_nodup
  ne_nil f hf := sampleList_ne_nil f (List.mem_reverse.mp hf)

def sampleEnv : VectorEnv where
  host := Host.plain
  len _ := .ok 1
  geti _ _ := .ok (.string [108, 115])
  cookie _ _ := some (.lightuserdata 5)
  isRights _ := false
  malloc _ _ := true
  nlistSize := 24
  fields e := if e = 1 then sampleFields else reversedFields
  asprintf _ _ := none

/-- `label:execve("ls", {"ls"}, e)` -/
def sampleArgs (e : Nat) : Nat → Option Value
  | 1 => some (.userdata 0)
  | 2 => some (.string [108, 115])
  | 3 => some (.table 0)
  | 4 => some (.table e)
  | _ => none

theorem walkable_sampleFields : Walkable sampleEnv sampleFields := by
  refine ⟨?_, by decide⟩
  intro f hf hkey name hname
  simp only [sampleFields, sampleList, List.mem_cons, List.not_mem_nil, or_false] at hf
  rcases hf with rfl | rfl
  · cases hkey
  · cases hname
    decide

theorem execve_vectors_sample :
    Sound [] (l_mac_execve sampleEnv (sampleArgs 1) (fun _ => 2))
      (execveOf sampleEnv (sampleArgs 1) (fun _ => 2)) (execveSlots sampleEnv (sampleArgs 1)) ∧
    (execveOf sampleEnv (sampleArgs 1) (fun _ => 2)).1.toOption =
      some (⟨[108, 115], [some [108, 115]], some [[65, 61, 98], [55, 61, 99]], 5⟩, 2) ∧
    execveSlots sampleEnv (sampleArgs 1) = 5 := by
  have hwalk : ∀ e, sampleArgs 1 4 = some (.table e) → Walkable sampleEnv (sampleEnv.fields e) := by
    intro e he
    cases he
    exact walkable_sampleFields
  have hlen : ∀ t len, checktable (sampleArgs 1) 3 = .ok t → sampleEnv.len t = .ok len →
      0 ≤ IntType.int.wrap len := by
    intro t len _ hlen
    cases hlen
    decide
  exact ⟨(execve_vectors sampleEnv (sampleArgs 1) [] (fun _ => 2) hwalk).1 hlen, by decide +kernel,
    by decide +kernel⟩

/-- Both arrays and a string are left. -/
example : (execveOf sampleEnv (sampleArgs 2) (fun _ => 2)).2 = 3 ∧
    ((l_mac_execve sampleEnv (sampleArgs 2) (fun _ => 2)).run ⟨0, [], false⟩).2.used =
      [2, 1, 0] := by
  decide +kernel

end Execve

end ArgumentVectors
end FluaLibs
