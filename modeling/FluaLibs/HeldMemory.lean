import Mathlib.Data.List.Perm.Subperm
import Mathlib.Data.List.Nodup

/-! # What a program holds

A program that allocates memory may be left in the middle: an error that is raised skips the
rest of it, and with it what would have freed the memory.  `Memory` is what is allocated, by
this program and by everybody else, and a program on it (`Code`) ends with a result or is left
with an error.

`Spec base held c Q R` says that `c`, started with `held` beside what others have (`base`),
frees nothing twice and uses nothing that is not allocated, that it ends with a result and
holdings that satisfy `Q`, or with an error and holdings that satisfy `R`, and that it never
touches what others have.
-/
namespace FluaLibs
namespace Held

/-- What is allocated.  `next` is a name that has not been given out; `fault` says that
something was freed or used that was not allocated. -/
structure Memory where
  next : Nat
  used : List Nat
  fault : Bool
  deriving DecidableEq

/-- A program that ends with a result, or is left with an error. -/
def Code (ε α : Type) : Type := Memory → Except ε α × Memory

namespace Code
variable {ε α β : Type}

def run (c : Code ε α) (m : Memory) : Except ε α × Memory := c m

/-- An error skips what comes after it. -/
def andThen (f : α → Code ε β) : Except ε α × Memory → Except ε β × Memory
  | (.ok a, m) => f a m
  | (.error e, m) => (.error e, m)

instance : Monad (Code ε) where
  pure a := fun m => (.ok a, m)
  bind c f := fun m => andThen f (c m)

/-- A piece of memory, if there is any. -/
def malloc (there : Bool) : Code ε (Option Nat) := fun m =>
  if there = true then
    (.ok (some m.next), { m with next := m.next + 1, used := m.next :: m.used })
  else (.ok none, m)

/-- Something that must be there is used. -/
def touch (a : Nat) : Code ε Unit := fun m =>
  (.ok (), if a ∈ m.used then m else { m with fault := true })

def free (a : Nat) : Code ε Unit := fun m =>
  (.ok (), if a ∈ m.used then { m with used := m.used.erase a } else { m with fault := true })

def freeAll : List Nat → Code ε Unit
  | [] => pure ()
  | a :: as => do
    free a
    freeAll as

def raise (e : ε) : Code ε α := fun m => (.error e, m)

/-- A pointer is followed that is `NULL`. -/
def crash (e : ε) : Code ε α := fun m => (.error e, { m with fault := true })

/-- Something that must be so, for what comes next to have a meaning. -/
def demand (p : Bool) : Code ε Unit := fun m =>
  (.ok (), if p = true then m else { m with fault := true })

end Code

/-- A string in memory. -/
structure Copy where
  address : Nat
  text : List UInt8

/-- The program has `held`, and the others have `base`. -/
structure Memory.Holds (base held : List Nat) (m : Memory) : Prop where
  fault : m.fault = false
  used : m.used.Perm (held ++ base)
  nodup : m.used.Nodup
  lt_next : ∀ a ∈ m.used, a < m.next

/-- What is left of a run. -/
inductive Left {ε α : Type} (base : List Nat) (Q : α → List Nat → Prop)
    (R : ε → List Nat → Prop) : Except ε α × Memory → Prop
  | result (a : α) (m : Memory) (held : List Nat) : m.Holds base held → Q a held →
      Left base Q R (.ok a, m)
  | error (e : ε) (m : Memory) (held : List Nat) : m.Holds base held → R e held →
      Left base Q R (.error e, m)

/-- **What a program does with memory.** -/
def Spec {ε α : Type} (base held : List Nat) (c : Code ε α) (Q : α → List Nat → Prop)
    (R : ε → List Nat → Prop) : Prop :=
  ∀ m : Memory, m.Holds base held → Left base Q R (c.run m)

section Rules
variable {ε α β : Type} {base held held' : List Nat} {c : Code ε α} {f : α → Code ε β}
  {Q Q' : α → List Nat → Prop} {R R' : ε → List Nat → Prop} {T : β → List Nat → Prop} {a : α}

theorem Memory.Holds.perm {m : Memory} (h : m.Holds base held) (hp : held.Perm held') :
    m.Holds base held' :=
  ⟨h.fault, h.used.trans (hp.append_right base), h.nodup, h.lt_next⟩

theorem Memory.Holds.mem {m : Memory} (h : m.Holds base held) {x : Nat} (hx : x ∈ held) :
    x ∈ m.used :=
  h.used.mem_iff.mpr (List.mem_append_left base hx)

/-! ### The structure of a program -/

theorem Spec.perm (h : Spec base held c Q R) (hp : held'.Perm held) : Spec base held' c Q R :=
  fun m hm => h m (hm.perm hp)

theorem Spec.mono (h : Spec base held c Q R) (hQ : ∀ a l, Q a l → Q' a l)
    (hR : ∀ e l, R e l → R' e l) : Spec base held c Q' R' := by
  intro m hm
  have hleft := h m hm
  generalize c.run m = x at hleft
  rcases hleft with ⟨a, m', l, hl, hq⟩ | ⟨e, m', l, hl, hr⟩
  · exact .result a m' l hl (hQ a l hq)
  · exact .error e m' l hl (hR e l hr)

theorem Spec.pure (h : Q a held) : Spec base held (Pure.pure a : Code ε α) Q R :=
  fun m hm => .result a m held hm h

theorem Spec.raise {e : ε} (h : R e held) : Spec base held (Code.raise e : Code ε α) Q R :=
  fun m hm => .error e m held hm h

/-- The rest of a program starts with what its beginning has left. -/
theorem Spec.bind (h : Spec base held c Q R) (hf : ∀ a l, Q a l → Spec base l (f a) T R) :
    Spec base held (c >>= f) T R := by
  intro m hm
  have hleft := h m hm
  show Left base T R (Code.andThen f (c.run m))
  generalize c.run m = x at hleft
  rcases hleft with ⟨a, m', l, hl, hq⟩ | ⟨e, m', l, hl, hr⟩
  · exact hf a l hq m' hl
  · exact .error e m' l hl hr

/-! ### The operations -/

theorem Spec.malloc {there : Bool} {Q : Option Nat → List Nat → Prop}
    (hsome : there = true → ∀ x, x ∉ held → Q (some x) (x :: held))
    (hnone : there = false → Q none held) :
    Spec base held (Code.malloc there : Code ε (Option Nat)) Q R := by
  intro m hm
  cases there with
  | false => exact .result none m held hm (hnone rfl)
  | true =>
    have hnew : m.next ∉ m.used := fun hmem => Nat.lt_irrefl _ (hm.lt_next _ hmem)
    refine .result (some m.next) _ (m.next :: held) ?_ (hsome rfl _ (fun hx => hnew (hm.mem hx)))
    refine ⟨hm.fault, hm.used.cons _, List.nodup_cons.mpr ⟨hnew, hm.nodup⟩, ?_⟩
    intro x hx
    rcases List.mem_cons.mp hx with rfl | hold
    · exact Nat.lt_succ_self _
    · exact Nat.lt_succ_of_lt (hm.lt_next x hold)

theorem Spec.touch {x : Nat} (hx : x ∈ held) {Q : Unit → List Nat → Prop} (h : Q () held) :
    Spec base held (Code.touch x : Code ε Unit) Q R := by
  intro m hm
  have hrun : (Code.touch x : Code ε Unit).run m = (.ok (), m) := by
    rw [Code.run, Code.touch, if_pos (hm.mem hx)]
  rw [hrun]
  exact .result () m held hm h

theorem Spec.free {x : Nat} (hp : held.Perm (x :: held')) {Q : Unit → List Nat → Prop}
    (h : Q () held') : Spec base held (Code.free x : Code ε Unit) Q R := by
  intro m hm
  have hmem : x ∈ m.used := hm.mem (hp.mem_iff.mpr (List.mem_cons_self ..))
  have hrun : (Code.free x : Code ε Unit).run m =
      (.ok (), { m with used := m.used.erase x }) := by
    rw [Code.run, Code.free, if_pos hmem]
  rw [hrun]
  refine .result () _ held' ⟨hm.fault, ?_, hm.nodup.erase x, ?_⟩ h
  · have herase := (hm.perm hp).used.erase x
    simpa using herase
  · exact fun y hy => hm.lt_next y (List.mem_of_mem_erase hy)

/-- Everything in a list is freed. -/
theorem Spec.freeAll {l : List Nat} (hp : held.Perm (l ++ held')) {Q : Unit → List Nat → Prop}
    (h : Q () held') : Spec base held (Code.freeAll l : Code ε Unit) Q R := by
  induction l generalizing held with
  | nil => exact (Spec.pure h).perm hp
  | cons x l ih =>
    rw [Code.freeAll]
    exact (Spec.free hp (Q := fun _ rest => rest = l ++ held') rfl).bind
      (fun _ rest hrest => ih (hrest ▸ List.Perm.refl _))

theorem Spec.demand {p : Bool} (hp : p = true) {Q : Unit → List Nat → Prop} (h : Q () held) :
    Spec base held (Code.demand p : Code ε Unit) Q R := by
  subst hp
  exact fun m hm => .result () m held hm h

/-! ### Faults -/

/-- The program has gone wrong at its end, whoever holds what. -/
def Faults (base held : List Nat) (c : Code ε α) : Prop :=
  ∀ m : Memory, m.Holds base held → (c.run m).2.fault = true

/-- What has gone wrong stays so. -/
def Sticky (c : Code ε α) : Prop := ∀ m : Memory, m.fault = true → (c.run m).2.fault = true

theorem Sticky.bind (hc : Sticky c) (hf : ∀ a, Sticky (f a)) : Sticky (c >>= f) := by
  intro m hm
  have hfault := hc m hm
  show (Code.andThen f (c.run m)).2.fault = true
  generalize c.run m = x at hfault
  obtain ⟨_ | a, m'⟩ := x
  · exact hfault
  · exact hf a m' hfault

theorem Sticky.pure (a : α) : Sticky (Pure.pure a : Code ε α) := fun _ hm => hm

theorem Sticky.raise (e : ε) : Sticky (Code.raise e : Code ε α) := fun _ hm => hm

theorem Sticky.malloc (there : Bool) : Sticky (Code.malloc there : Code ε (Option Nat)) := by
  intro m hm
  rw [Code.run, Code.malloc]
  split
  · exact hm
  · exact hm

theorem Sticky.touch (x : Nat) : Sticky (Code.touch x : Code ε Unit) := by
  intro m hm
  rw [Code.run, Code.touch]
  split
  · exact hm
  · rfl

theorem Sticky.free (x : Nat) : Sticky (Code.free x : Code ε Unit) := by
  intro m hm
  rw [Code.run, Code.free]
  split
  · exact hm
  · rfl

theorem Sticky.freeAll (l : List Nat) : Sticky (Code.freeAll l : Code ε Unit) := by
  induction l with
  | nil => exact Sticky.pure ()
  | cons x l ih => exact (Sticky.free x).bind (fun _ => ih)

theorem Sticky.demand (p : Bool) : Sticky (Code.demand p : Code ε Unit) := by
  intro m hm
  rw [Code.run, Code.demand]
  split
  · exact hm
  · rfl

/-- It goes wrong at the beginning. -/
theorem Faults.left (hc : Faults base held c) (hf : ∀ a, Sticky (f a)) :
    Faults base held (c >>= f) := by
  intro m hm
  have hfault := hc m hm
  show (Code.andThen f (c.run m)).2.fault = true
  generalize c.run m = x at hfault
  obtain ⟨_ | a, m'⟩ := x
  · exact hfault
  · exact hf a m' hfault

/-- It goes wrong after the beginning, which has a result. -/
theorem Faults.right (hc : Spec base held c Q (fun _ _ => False))
    (hf : ∀ a l, Q a l → Faults base l (f a)) : Faults base held (c >>= f) := by
  intro m hm
  have hleft := hc m hm
  show (Code.andThen f (c.run m)).2.fault = true
  generalize c.run m = x at hleft
  rcases hleft with ⟨a, m', l, hl, hq⟩ | ⟨e, m', l, -, hno⟩
  · exact hf a l hq m' hl
  · exact hno.elim

theorem Faults.demand {p : Bool} (hp : p = false) :
    Faults base held (Code.demand p : Code ε Unit) := by
  subst hp
  exact fun _ _ => rfl

end Rules

end Held
end FluaLibs
