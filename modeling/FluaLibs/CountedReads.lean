import FluaLibs.HeldMemory

/-! # Reading into new memory

What reads a value into memory of its own acquires piece after piece, and an error in the middle
leaves behind what has been acquired by then.  `Counted` is such a program without addresses: its
result, or the error, and a number of pieces.  `Acquires` says that a program on memory does what
the counted one says, that its result owns exactly the pieces that were acquired, and that this
is also what an error leaves.
-/
namespace FluaLibs
namespace Held

/-- A result or an error, and how many pieces have been acquired. -/
def Counted (ε α : Type) : Type := Except ε α × Nat

namespace Counted
variable {ε ι α β : Type}

def andThen (f : α → Counted ε β) : Counted ε α → Counted ε β
  | (.ok a, k) => ((f a).1, k + (f a).2)
  | (.error e, k) => (.error e, k)

instance : Monad (Counted ε) where
  pure a := (.ok a, 0)
  bind x f := andThen f x

/-- One piece. -/
def piece (a : α) : Counted ε α := (.ok a, 1)

def raise (e : ε) : Counted ε α := (.error e, 0)

def ofExcept (x : Except ε α) : Counted ε α := (x, 0)

def forEach (f : ι → Counted ε α) : List ι → Counted ε (List α)
  | [] => pure []
  | i :: is => do
    let a ← f i
    let as ← forEach f is
    pure (a :: as)

theorem pure_bind (a : α) (f : α → Counted ε β) : (pure a >>= f) = f a :=
  congrArg (Prod.mk (f a).1) (Nat.zero_add _)

theorem bind_eq_ok {x : Counted ε α} {f : α → Counted ε β} {b : β}
    (h : (x >>= f).1 = .ok b) : ∃ a, x.1 = .ok a ∧ (f a).1 = .ok b := by
  obtain ⟨r, k⟩ := x
  rcases r with e | a
  · cases h
  · exact ⟨a, rfl, h⟩

theorem forEach_length {f : ι → Counted ε α} {is : List ι} {as : List α}
    (h : (forEach f is).1 = .ok as) : as.length = is.length := by
  induction is generalizing as with
  | nil =>
    cases h
    rfl
  | cons i is ih =>
    obtain ⟨a, -, hrest⟩ := bind_eq_ok h
    obtain ⟨as', has, hcons⟩ := bind_eq_ok hrest
    cases hcons
    rw [List.length_cons, List.length_cons, ih has]

/-- What has been read was read for one of the indices. -/
theorem forEach_mem {f : ι → Counted ε α} {is : List ι} {as : List α}
    (h : (forEach f is).1 = .ok as) {a : α} (ha : a ∈ as) : ∃ i ∈ is, (f i).1 = .ok a := by
  induction is generalizing as with
  | nil =>
    cases h
    cases ha
  | cons i is ih =>
    obtain ⟨a', hi, hrest⟩ := bind_eq_ok h
    obtain ⟨as', has, hcons⟩ := bind_eq_ok hrest
    cases hcons
    rcases List.mem_cons.mp ha with rfl | hmem
    · exact ⟨i, List.mem_cons_self .., hi⟩
    · obtain ⟨j, hj, hf⟩ := ih has hmem
      exact ⟨j, List.mem_cons_of_mem i hj, hf⟩

/-- What is read is used, and no piece is left of it. -/
def used (x : Counted ε α) (f : α → Except ε β) : Counted ε β :=
  match x with
  | (.ok a, _) => (f a, 0)
  | (.error e, k) => (.error e, k)

end Counted

namespace Code
variable {ε ι α : Type}

def ofExcept (x : Except ε α) : Code ε α := fun m => (x, m)

def forEach (f : ι → Code ε α) : List ι → Code ε (List α)
  | [] => pure []
  | i :: is => do
    let a ← f i
    let as ← forEach f is
    pure (a :: as)

def forAll (f : ι → Code ε Unit) : List ι → Code ε Unit
  | [] => pure ()
  | i :: is => do
    f i
    forAll f is

def touchAll : List Nat → Code ε Unit
  | [] => pure ()
  | a :: as => do
    touch a
    touchAll as

end Code

section Rules
variable {ε ι α β α' β' : Type} {base had had' : List Nat} {c : Code ε α} {x : Counted ε α'}
  {own : α → List Nat} {view : α → α'} {own' : β → List Nat} {view' : β → β'}

/-- `c`, which starts with `had`, does what `x` says; its result owns `had` and what has been
acquired. -/
def Acquires (base had : List Nat) (own : α → List Nat) (view : α → α') (c : Code ε α)
    (x : Counted ε α') : Prop :=
  ∀ held : List Nat, Spec base (had ++ held) c
    (fun a l => x.1 = .ok (view a) ∧ (own a).length = had.length + x.2 ∧ l.Perm (own a ++ held))
    (fun e l => x.1 = .error e ∧ l.length = had.length + x.2 + held.length)

theorem Acquires.pure {a : α} (h : (own a).Perm had) :
    Acquires base had own view (Pure.pure a : Code ε α) (Pure.pure (view a)) :=
  fun held => Spec.pure ⟨rfl, h.length_eq, h.symm.append_right held⟩

theorem Acquires.raise (e : ε) :
    Acquires base had own view (Code.raise e) (Counted.raise e : Counted ε α') :=
  fun _ => Spec.raise ⟨rfl, List.length_append⟩

theorem Acquires.bind (h : Acquires base had own view c x) {f : α → Code ε β}
    {g : α' → Counted ε β'} (hf : ∀ a, Acquires base (own a) own' view' (f a) (g (view a))) :
    Acquires base had own' view' (c >>= f) (x >>= g) := by
  intro held
  obtain ⟨r, k⟩ := x
  refine ((h held).mono (fun _ _ h => h) ?_).bind ?_
  · rintro e l ⟨hr, hl⟩
    dsimp only at hr
    subst hr
    exact ⟨rfl, hl⟩
  · rintro a l ⟨hr, hlen, hl⟩
    dsimp only at hr hlen
    subst hr
    refine ((hf a held).perm hl).mono ?_ ?_
    · rintro b l' ⟨hb, hlen', hl'⟩
      refine ⟨hb, ?_, hl'⟩
      rw [hlen', hlen, Nat.add_assoc]
      rfl
    · rintro e l' ⟨he, hl'⟩
      refine ⟨he, ?_⟩
      rw [hl', hlen, Nat.add_assoc had.length]
      rfl

/-- The result is put together in another way. -/
theorem Acquires.map (h : Acquires base had own view c x) {f : α → β} {view' : β → α'}
    (hown : ∀ a, (own' (f a)).Perm (own a)) (hview : ∀ a, view' (f a) = view a) :
    Acquires base had own' view' (c >>= fun a => Pure.pure (f a)) x := by
  intro held
  refine (h held).bind ?_
  rintro a l ⟨hx, hlen, hl⟩
  refine Spec.pure ⟨?_, ?_, ?_⟩
  · rw [hview, hx]
  · rw [(hown a).length_eq, hlen]
  · exact hl.trans ((hown a).symm.append_right held)

/-- What is already there stays. -/
theorem Acquires.frame (h : Acquires base [] own view c x) (had : List Nat) :
    Acquires base had (fun a => own a ++ had) view c x := by
  intro held
  refine (h (had ++ held)).mono ?_ ?_
  · rintro a l ⟨hx, hlen, hl⟩
    refine ⟨hx, ?_, ?_⟩
    · rw [List.length_append, hlen, List.length_nil]
      omega
    · rwa [List.append_assoc]
  · rintro e l ⟨hx, hl⟩
    refine ⟨hx, ?_⟩
    rw [hl, List.length_append, List.length_nil]
    omega

theorem Acquires.ofExcept {y : Except ε α} (f : Except ε α')
    (hok : ∀ a, y = .ok a → f = .ok (view a)) (herror : ∀ e, y = .error e → f = .error e)
    (hown : ∀ a, (own a).Perm had) :
    Acquires base had own view (Code.ofExcept y) (Counted.ofExcept f) := by
  rcases hy : y with e | a
  · rw [show f = .error e from herror e hy]
    exact Acquires.raise e
  · rw [show f = .ok (view a) from hok a hy]
    exact Acquires.pure (hown a)

/-- One piece of memory, if there is any. -/
theorem Acquires.malloc {there : Bool} {f : Option Nat → Code ε β} {y : Counted ε β'}
    (hsome : there = true → ∃ z, y = (Counted.piece () >>= fun _ => z) ∧
      ∀ a, Acquires base (a :: had) own' view' (f (some a)) z)
    (hnone : there = false → Acquires base had own' view' (f none) y) :
    Acquires base had own' view' (Code.malloc there >>= f) y := by
  intro held
  rcases Bool.eq_false_or_eq_true there with hthere | hthere
  · obtain ⟨z, rfl, hz⟩ := hsome hthere
    refine Spec.bind (Q := fun p l => ∃ a, p = some a ∧ l = a :: (had ++ held))
      (Spec.malloc (fun _ a _ => ⟨a, rfl, rfl⟩) (by simp [hthere])) ?_
    rintro _ _ ⟨a, rfl, rfl⟩
    refine (hz a held).mono ?_ ?_
    · rintro b l ⟨hb, hlen, hl⟩
      refine ⟨hb, ?_, hl⟩
      show _ = had.length + (1 + z.2)
      rw [hlen, List.length_cons, Nat.add_assoc]
    · rintro e l ⟨he, hl⟩
      refine ⟨he, ?_⟩
      show _ = had.length + (1 + z.2) + held.length
      rw [hl, List.length_cons, Nat.add_assoc had.length]
  · refine Spec.bind (Q := fun p l => p = none ∧ l = had ++ held)
      (Spec.malloc (by simp [hthere]) (fun _ => ⟨rfl, rfl⟩)) ?_
    rintro _ _ ⟨rfl, rfl⟩
    exact hnone hthere held

/-- One reading after the other. -/
theorem Acquires.forEach {f : ι → Code ε α} {g : ι → Counted ε α'} {is : List ι}
    (h : ∀ i ∈ is, Acquires base [] own view (f i) (g i)) :
    Acquires base [] (fun as => as.flatMap own) (fun as => as.map view) (Code.forEach f is)
      (Counted.forEach g is) := by
  induction is with
  | nil => exact Acquires.pure (List.Perm.refl _)
  | cons i is ih =>
    have hrest := ih (fun j hj => h j (List.mem_cons_of_mem i hj))
    refine (h i (List.mem_cons_self ..)).bind (fun a => ?_)
    refine (hrest.frame (own a)).bind (fun as => ?_)
    exact Acquires.pure List.perm_append_comm

theorem Spec.ofExcept {y : Except ε α} {held : List Nat} {Q : α → List Nat → Prop}
    {R : ε → List Nat → Prop} (hok : ∀ a, y = .ok a → Q a held)
    (herror : ∀ e, y = .error e → R e held) : Spec base held (Code.ofExcept y) Q R := by
  rcases hy : y with e | a
  · exact Spec.raise (herror e hy)
  · exact Spec.pure (hok a hy)

/-- A check that goes well. -/
theorem Spec.checked {a : α} {f : α → Code ε β} {held : List Nat} {Q : β → List Nat → Prop}
    {R : ε → List Nat → Prop} (h : Spec base held (f a) Q R) :
    Spec base held (Code.ofExcept (.ok a) >>= f) Q R := h

theorem Faults.checked {a : α} {f : α → Code ε β} {held : List Nat}
    (h : Faults base held (f a)) : Faults base held (Code.ofExcept (.ok a) >>= f) := h

theorem Sticky.ofExcept (y : Except ε α) : Sticky (Code.ofExcept y) := fun _ hm => hm

theorem Sticky.touchAll (as : List Nat) : Sticky (Code.touchAll as : Code ε Unit) := by
  induction as with
  | nil => exact Sticky.pure ()
  | cons a as ih => exact (Sticky.touch a).bind (fun _ => ih)

theorem Spec.touchAll {as held : List Nat} (has : ∀ a ∈ as, a ∈ held)
    {Q : Unit → List Nat → Prop} {R : ε → List Nat → Prop} (h : Q () held) :
    Spec base held (Code.touchAll as : Code ε Unit) Q R := by
  induction as with
  | nil => exact Spec.pure h
  | cons a as ih =>
    refine (Spec.touch (has a (List.mem_cons_self ..)) (Q := fun _ l => l = held) rfl).bind ?_
    rintro _ _ rfl
    exact ih (fun b hb => has b (List.mem_cons_of_mem a hb))

/-- One thing after the other is freed. -/
theorem Spec.forAll {f : ι → Code ε Unit} (owned : ι → List Nat) {is : List ι}
    {held rest : List Nat} {Q : Unit → List Nat → Prop} {R : ε → List Nat → Prop}
    (hf : ∀ i ∈ is, ∀ l rest : List Nat, l.Perm (owned i ++ rest) →
      Spec base l (f i) (fun _ l' => l' = rest) R)
    (hp : held.Perm (is.flatMap owned ++ rest)) (h : Q () rest) :
    Spec base held (Code.forAll f is) Q R := by
  induction is generalizing held with
  | nil => exact (Spec.pure h).perm hp
  | cons i is ih =>
    rw [List.flatMap_cons, List.append_assoc] at hp
    refine (hf i (List.mem_cons_self ..) held _ hp).bind ?_
    rintro _ _ rfl
    exact ih (fun j hj => hf j (List.mem_cons_of_mem i hj)) (List.Perm.refl _)

/-- The program ends as `x` says, with nothing held if it has a result, and otherwise with what
`x` counts. -/
def Meets (base : List Nat) (c : Code ε α) (x : Counted ε α) : Prop :=
  Spec base [] c (fun a l => x.1 = .ok a ∧ l = []) (fun e l => x.1 = .error e ∧ l.length = x.2)

/-- What is read is used and freed. -/
theorem Acquires.meets (h : Acquires base [] own view c x) {f : α → Code ε β}
    {g : α' → Except ε β}
    (hf : ∀ a l, x.1 = .ok (view a) → l.Perm (own a) →
      Spec base l (f a) (fun b l' => g (view a) = .ok b ∧ l' = [])
        (fun e l' => g (view a) = .error e ∧ l' = [])) :
    Meets base (c >>= f) (x.used g) := by
  obtain ⟨r, k⟩ := x
  refine Spec.bind ((h []).mono (fun _ _ h => h) ?_) ?_
  · rintro e l ⟨hr, hl⟩
    dsimp only at hr
    subst hr
    refine ⟨rfl, ?_⟩
    rw [hl, List.length_nil, Nat.add_zero, Nat.zero_add]
    rfl
  · rintro a l ⟨hr, -, hl⟩
    rw [List.append_nil] at hl
    refine (hf a l hr hl).mono ?_ ?_
    · rintro b l' ⟨hb, hl'⟩
      dsimp only at hr
      subst hr
      exact ⟨hb, hl'⟩
    · rintro e l' ⟨he, rfl⟩
      dsimp only at hr
      subst hr
      exact ⟨he, rfl⟩

end Rules

end Held
end FluaLibs
