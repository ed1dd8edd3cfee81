import FluaLibs.ListEntries
import FluaLibs.Ownership
import FluaLibs.Transition
import Mathlib.Data.List.Basic

/-! # Handles that are closed

A handle holds the name of an object, a number or an address, in a cell.  The names are given
out by someone else, and they are given out again once the object is gone; the rest of the
program has objects of its own.  `Family` is the code of one kind of handle: what closing one
does to its cell and to the object, what its finalizer does, and which name its methods hand
on.

`Sound` is what is wanted of a run: that a handle only ever uses and closes the object that it
was made for, that no object is closed twice, and that none is left behind when its handle is
collected.  `Family.Lawful` says what the code of a family has to do for that, and `Careful`
what everybody else has to.
-/
namespace FluaLibs
namespace Handles

/-- What a function gives its caller. -/
inductive Result where
  | success
  | nothing
  | failed (errno : Nat)
  | raised
  deriving DecidableEq

/-- How the release of an object ends: with an error perhaps, and then perhaps without one. -/
structure Answer where
  errno : Option Nat
  gone : Bool

/-- The object is gone. -/
def Answer.frees (a : Answer) : Bool := a.errno.isNone || a.gone

/-- What a function does: the cell afterwards, and the name that it has released. -/
structure Effect (Cell Name : Type) where
  cell : Cell
  releases : Option Name
  result : Result

/-- A kind of handle.  The functions that close one, and its finalizer, are told how the release
ends, if they make one. -/
structure Family (Cell Name : Type) where
  valid : Name → Bool
  new : Name → Cell
  /-- whether the program can have a handle made for a name that it has -/
  wraps : Bool
  held : Cell → Option Name
  closers : List (Option Nat → Cell → Effect Cell Name)
  gc : Option Nat → Cell → Effect Cell Name
  passes : Cell → Option Name
  /-- whether a handle is still open when it could not be closed -/
  keeps : Bool
  /-- whether the finalizer leaves nothing in the cell -/
  clears : Bool
  /-- whether the child of a fork gets a handle for a name that has not been set -/
  forks : Bool

variable {Cell Name : Type}

/-- What the functions have to do. -/
structure Family.Lawful (f : Family Cell Name) : Prop where
  held_new (n : Name) : f.valid n = true → f.held (f.new n) = some n
  close_releases (e : Option Nat) (c : Cell) (n : Name) : f.held c = some n →
    ∀ close ∈ f.closers, (close e c).releases = some n
  close_held (e : Option Nat) (c : Cell) (n : Name) : f.held c = some n →
    ∀ close ∈ f.closers,
      f.held (close e c).cell = if e.isSome = true ∧ f.keeps = true then some n else none
  close_closed (e : Option Nat) (c : Cell) : f.held c = none → ∀ close ∈ f.closers,
    f.held (close e c).cell = none ∧ ∀ n, (close e c).releases = some n → f.valid n = false
  gc_releases (e : Option Nat) (c : Cell) (n : Name) : f.held c = some n →
    (f.gc e c).releases = some n
  gc_clears (c : Cell) (n : Name) : f.clears = true → f.held c = some n →
    f.held (f.gc none c).cell = none
  gc_closed (e : Option Nat) (c : Cell) : f.held c = none →
    f.held (f.gc e c).cell = none ∧ ∀ n, (f.gc e c).releases = some n → f.valid n = false
  passes_held (c : Cell) (n : Name) : f.passes c = some n → f.valid n = true →
    f.held c = some n

/-! ## Runs -/

/-- A handle: its cell, the object that its name was given for, and whether it is no more. -/
structure Handle (Cell : Type) where
  cell : Cell
  made : Option Nat
  collected : Bool

/-- `closed` and `used` are the history: which handle, and the object that was behind its
name. -/
structure State (Cell Name : Type) where
  handles : List (Handle Cell)
  objects : Name → Option Nat
  outside : List Nat
  fresh : Nat
  closed : List (Nat × Option Nat)
  used : List (Nat × Option Nat)

inductive Event (Name : Type) where
  /-- a new object, and a handle for it -/
  | create (n : Name)
  /-- a handle for a name that the program has -/
  | wrap (n : Name)
  /-- one of the functions that close a handle -/
  | close (h k : Nat) (a : Answer)
  /-- a handle is collected -/
  | gc (h : Nat) (a : Answer)
  /-- the script calls the finalizer itself, and keeps the handle -/
  | call_gc (h : Nat) (a : Answer)
  /-- a handle in the child of a fork, which nobody has given a name -/
  | child (n : Name)
  | method (h : Nat)
  /-- the rest of the program opens an object -/
  | open_outside (n : Name)
  | close_outside (n : Name)

variable [DecidableEq Name] (f : Family Cell Name)

namespace State
variable (s : State Cell Name)

/-- Something is done to a name by a handle. -/
def touch (h : Nat) (n : Name) : State Cell Name :=
  { s with used := s.used ++ [(h, s.objects n)] }

/-- A name is released by a handle; what is no name is refused. -/
def release (h : Nat) (a : Answer) : Option Name → State Cell Name
  | none => s
  | some n =>
    if f.valid n = true then
      if a.frees = true then
        { s with
          objects := Function.update s.objects n none
          closed := s.closed ++ [(h, s.objects n)] }
      else s.touch h n
    else s

/-- A function has run that may release a name. -/
def run (h : Nat) (a : Answer) (x : Handle Cell) (e : Effect Cell Name) (collected : Bool) :
    State Cell Name :=
  { s.release f h a e.releases with
    handles := s.handles.set h { x with cell := e.cell, collected := collected } }

end State

def next (s : State Cell Name) : Event Name → State Cell Name
  | .create n =>
    { s with
      handles := s.handles ++ [⟨f.new n, some s.fresh, false⟩]
      objects := Function.update s.objects n (some s.fresh)
      fresh := s.fresh + 1 }
  | .wrap n =>
    { s with
      handles := s.handles ++ [⟨f.new n, s.objects n, false⟩]
      outside := s.outside.filter (fun o => some o ≠ s.objects n) }
  | .close h k a =>
    match s.handles[h]?, f.closers[k]? with
    | some x, some close => s.run f h a x (close a.errno x.cell) false
    | _, _ => s
  | .gc h a =>
    match s.handles[h]? with
    | some x => s.run f h a x (f.gc a.errno x.cell) true
    | none => s
  | .call_gc h a =>
    match s.handles[h]? with
    | some x => s.run f h a x (f.gc a.errno x.cell) false
    | none => s
  | .child n => { s with handles := s.handles ++ [⟨f.new n, none, false⟩] }
  | .method h =>
    match (s.handles[h]?).bind (fun x => f.passes x.cell) with
    | some n => if f.valid n = true then s.touch h n else s
    | none => s
  | .open_outside n =>
    { s with
      objects := Function.update s.objects n (some s.fresh)
      outside := s.outside ++ [s.fresh]
      fresh := s.fresh + 1 }
  | .close_outside n => { s with objects := Function.update s.objects n none }

/-- A name is given out when nothing has it; a handle is used until it is collected. -/
def Enabled (s : State Cell Name) : Event Name → Prop
  | .create n | .open_outside n => f.valid n = true ∧ s.objects n = none
  | .close h _ _ | .gc h _ | .call_gc h _ | .method h =>
    ((s.handles[h]?).any (fun x => !x.collected)) = true
  | .wrap _ => f.wraps = true
  | .child _ => f.forks = true
  | .close_outside _ => True

def system : System (State Cell Name) (Event Name) where
  init := ⟨[], fun _ => none, [], 0, [], []⟩
  Enabled := Enabled f
  decEnabled s e := by
    cases e with
    | create | open_outside => exact inferInstanceAs (Decidable (_ ∧ _))
    | close | gc | call_gc | method | wrap | child => exact inferInstanceAs (Decidable (_ = _))
    | close_outside => exact isTrue trivial
  next := next f

/-! ## What is wanted -/

/-- The object is there. -/
def Live (s : State Cell Name) (o : Nat) : Prop := ∃ n, s.objects n = some o

/-- The handle is in use and holds a name. -/
def Handle.Holds (x : Handle Cell) : Prop := x.collected = false ∧ (f.held x.cell).isSome = true

/-- Who is to close an object: a handle, or the rest of the program. -/
def Owns (s : State Cell Name) : Option Nat → Nat → Prop
  | some h, o => ∃ x, s.handles[h]? = some x ∧ x.Holds f ∧ x.made = some o
  | none, o => o ∈ s.outside ∧ Live s o

structure Sound (s : State Cell Name) : Prop where
  owned : OwnedOnce (Owns f s) (Live s)
  used_own : ∀ p ∈ s.used, ∃ x, s.handles[p.1]? = some x ∧ x.made ≠ none ∧ p.2 = x.made
  closed_own : ∀ p ∈ s.closed, ∃ x, s.handles[p.1]? = some x ∧ x.made ≠ none ∧ p.2 = x.made
  closed_once : (s.closed.map Prod.snd).Nodup
  collected_gone : ∀ (h : Nat) x o, s.handles[h]? = some x → x.collected = true →
    x.made = some o → ¬ Live s o

/-- The rest of the program gives a name away when it makes a handle of it, and closes only
what is its own; a release that fails leaves the object as the code takes it to be left, and one
for a handle that is collected does not fail and leave it.  A script that calls a finalizer does so
where the finalizer empties the cell, and succeeds; and the child of a fork is not looked at. -/
def Careful (s : State Cell Name) : Event Name → Prop
  | .wrap n | .close_outside n => ∃ o ∈ s.outside, s.objects n = some o
  | .close _ _ a => a.errno.isSome = true → a.gone = !f.keeps
  | .gc _ a => a.frees = true
  | .call_gc _ a => f.clears = true ∧ a.errno.isNone = true
  | .child _ => False
  | _ => True

instance (s : State Cell Name) (e : Event Name) : Decidable (Careful f s e) := by
  cases e with
  | wrap n | close_outside n => exact inferInstanceAs (Decidable (∃ o ∈ s.outside, _ = _))
  | close => exact inferInstanceAs (Decidable (_ → _))
  | gc => exact inferInstanceAs (Decidable (_ = _))
  | call_gc => exact inferInstanceAs (Decidable (_ ∧ _))
  | child => exact isFalse id
  | _ => exact isTrue trivial

/-! ## The invariant -/

/-- The handle was made for the object. -/
def MadeFor (s : State Cell Name) (i o : Nat) : Prop :=
  ∃ x, s.handles[i]? = some x ∧ x.made = some o

structure Inv (s : State Cell Name) : Prop where
  owned : OwnedOnce (Owns f s) (Live s)
  valid : ∀ n o, s.objects n = some o → f.valid n = true
  injective : ∀ n n' o, s.objects n = some o → s.objects n' = some o → n = n'
  fresh_live : ∀ o, Live s o → o < s.fresh
  fresh_outside : ∀ o ∈ s.outside, o < s.fresh
  fresh_made : ∀ i o, MadeFor s i o → o < s.fresh
  own : ∀ (h : Nat) x n, s.handles[h]? = some x → x.collected = false → f.held x.cell = some n →
    s.objects n = x.made ∧ x.made ≠ none
  finished : ∀ (h : Nat) x o, s.handles[h]? = some x → ¬ x.Holds f → x.made = some o → ¬ Live s o
  closed : ∀ p ∈ s.closed, ∃ o, MadeFor s p.1 o ∧ p.2 = some o ∧ ¬ Live s o
  once : (s.closed.map Prod.snd).Nodup
  used : ∀ p ∈ s.used, ∃ o, MadeFor s p.1 o ∧ p.2 = some o

theorem Inv.init : Inv f (system f).init where
  owned := by
    refine .empty ?_ ?_
    · rintro (_ | h) o ho
      · obtain ⟨hmem, -⟩ := ho
        cases hmem
      · obtain ⟨x, hx, -⟩ := ho
        cases hx
    · rintro o ⟨n, hn⟩
      cases hn
  valid n o ho := by cases ho
  injective n n' o ho _ := by cases ho
  fresh_live := by
    rintro o ⟨n, hn⟩
    cases hn
  fresh_outside o ho := by cases ho
  fresh_made := by
    rintro i o ⟨x, hx, -⟩
    cases hx
  own h x n hx := by cases hx
  finished h x o hx := by cases hx
  closed p hp := by cases hp
  once := List.nodup_nil
  used p hp := by cases hp

omit [DecidableEq Name] in
/-- What is wanted follows. -/
theorem Inv.sound {s : State Cell Name} (h : Inv f s) : Sound f s where
  owned := h.owned
  used_own p hp := by
    obtain ⟨o, ⟨x, hx, hmade⟩, ho⟩ := h.used p hp
    exact ⟨x, hx, by simp [hmade], by rw [ho, hmade]⟩
  closed_own p hp := by
    obtain ⟨o, ⟨x, hx, hmade⟩, ho, -⟩ := h.closed p hp
    exact ⟨x, hx, by simp [hmade], by rw [ho, hmade]⟩
  closed_once := h.once
  collected_gone i x o hx hcollected := by
    refine h.finished i x o hx ?_
    rintro ⟨hnot, -⟩
    rw [hcollected] at hnot
    cases hnot

section Steps
variable {f} {s : State Cell Name} (h : Inv f s)
include h

omit [DecidableEq Name] in
/-- A new name is not one that a handle has. -/
theorem Inv.ne_of_free {n n' : Name} {i : Nat} {x : Handle Cell} (hfree : s.objects n = none)
    (hx : s.handles[i]? = some x) (hcollected : x.collected = false)
    (hheld : f.held x.cell = some n') : n' ≠ n := by
  rintro rfl
  obtain ⟨hobject, hmade⟩ := h.own i x n' hx hcollected hheld
  rw [hfree] at hobject
  exact hmade hobject.symm

omit h in
/-- The objects when a name gets a new one. -/
theorem live_update_some {n : Name} {o : Nat} (hfree : s.objects n = none) {t : State Cell Name}
    (ht : t.objects = Function.update s.objects n (some o)) (o' : Nat) :
    Live t o' ↔ Live s o' ∨ o' = o := by
  constructor
  · rintro ⟨m, hm⟩
    rw [ht, Function.update_apply] at hm
    split at hm
    · exact Or.inr (Option.some.inj hm).symm
    · exact Or.inl ⟨m, hm⟩
  · rintro (⟨m, hm⟩ | rfl)
    · refine ⟨m, ?_⟩
      rw [ht, Function.update_of_ne]
      · exact hm
      · rintro rfl
        rw [hfree] at hm
        cases hm
    · exact ⟨n, by rw [ht, Function.update_self]⟩

/-- The objects when one is gone. -/
theorem Inv.live_update_none {n : Name} {o : Nat} (hn : s.objects n = some o)
    {t : State Cell Name} (ht : t.objects = Function.update s.objects n none) (o' : Nat) :
    Live t o' ↔ Live s o' ∧ o' ≠ o := by
  constructor
  · rintro ⟨m, hm⟩
    rw [ht, Function.update_apply] at hm
    split at hm
    · cases hm
    · next hne =>
      refine ⟨⟨m, hm⟩, ?_⟩
      rintro rfl
      exact hne (h.injective m n o' hm hn)
  · rintro ⟨⟨m, hm⟩, hne⟩
    refine ⟨m, ?_⟩
    rw [ht, Function.update_of_ne]
    · exact hm
    · rintro rfl
      exact hne (Option.some.inj (hm.symm.trans hn))

omit h

/-! ### A handle more -/

omit [DecidableEq Name] in
theorem madeFor_concat {t : State Cell Name} {y : Handle Cell} (ht : t.handles = s.handles ++ [y])
    {i o : Nat} : MadeFor t i o ↔ MadeFor s i o ∨ i = s.handles.length ∧ y.made = some o := by
  rw [MadeFor, MadeFor, ht]
  by_cases hi : i = s.handles.length
  · subst hi
    simp
  · rw [getElem?_concat_of_ne hi]
    simp [hi]

omit [DecidableEq Name] in
theorem owns_concat {t : State Cell Name} {y : Handle Cell} (ht : t.handles = s.handles ++ [y])
    {i o : Nat} : Owns f t (some i) o ↔
      Owns f s (some i) o ∨ i = s.handles.length ∧ y.Holds f ∧ y.made = some o := by
  rw [Owns, Owns, ht]
  by_cases hi : i = s.handles.length
  · subst hi
    simp
  · rw [getElem?_concat_of_ne hi]
    simp [hi]

/-! ### A handle that changes -/

omit [DecidableEq Name] in
theorem madeFor_set {t : State Cell Name} {i : Nat} {x y : Handle Cell}
    (hx : s.handles[i]? = some x) (ht : t.handles = s.handles.set i y) (hmade : y.made = x.made)
    {j o : Nat} : MadeFor t j o ↔ MadeFor s j o := by
  rw [MadeFor, MadeFor, ht]
  by_cases hj : i = j
  · subst hj
    rw [List.getElem?_set_self (List.getElem?_eq_some_iff.mp hx).1, hx]
    simp [hmade]
  · rw [List.getElem?_set_ne hj]

omit [DecidableEq Name] in
theorem owns_set {t : State Cell Name} {i : Nat} {x y : Handle Cell}
    (hx : s.handles[i]? = some x) (ht : t.handles = s.handles.set i y) {j o : Nat} :
    Owns f t (some j) o ↔ if j = i then y.Holds f ∧ y.made = some o else Owns f s (some j) o := by
  rw [Owns, ht]
  by_cases hj : j = i
  · subst hj
    rw [List.getElem?_set_self (List.getElem?_eq_some_iff.mp hx).1, if_pos rfl]
    simp
  · rw [List.getElem?_set_ne (Ne.symm hj), if_neg hj]
    rfl

/-! ### Each step -/

include h

/-- What is said of names, when one gets a new object. -/
theorem Inv.names_update_some {n : Name} (hvalid : f.valid n = true) (hfree : s.objects n = none)
    {t : State Cell Name} (ht : t.objects = Function.update s.objects n (some s.fresh)) :
    (∀ m o, t.objects m = some o → f.valid m = true) ∧
      ∀ m m' o, t.objects m = some o → t.objects m' = some o → m = m' := by
  have hcases (m : Name) (o : Nat) (hm : t.objects m = some o) :
      m = n ∧ o = s.fresh ∨ m ≠ n ∧ s.objects m = some o ∧ o < s.fresh := by
    rw [ht, Function.update_apply] at hm
    split at hm
    · next heq => exact Or.inl ⟨heq, (Option.some.inj hm).symm⟩
    · next hne => exact Or.inr ⟨hne, hm, h.fresh_live o ⟨m, hm⟩⟩
  constructor
  · intro m o hm
    rcases hcases m o hm with ⟨rfl, -⟩ | ⟨-, hold, -⟩
    · exact hvalid
    · exact h.valid m o hold
  · intro m m' o hm hm'
    rcases hcases m o hm with ⟨rfl, hnew⟩ | ⟨-, hold, hlt⟩ <;>
      rcases hcases m' o hm' with ⟨rfl, hnew'⟩ | ⟨-, hold', hlt'⟩
    · rfl
    · omega
    · omega
    · exact h.injective m m' o hold hold'

omit h in
/-- An object that is not there does not come back with a new one. -/
theorem not_live_update_some {n : Name} (hfree : s.objects n = none) {t : State Cell Name}
    (ht : t.objects = Function.update s.objects n (some s.fresh)) {o : Nat} (hlt : o < s.fresh)
    (hgone : ¬ Live s o) : ¬ Live t o := by
  rw [live_update_some hfree ht]
  rintro (hlive | rfl)
  · exact hgone hlive
  · exact absurd hlt (Nat.lt_irrefl _)

/-- The next object is newer than those that are there. -/
theorem Inv.lt_of_live_update_some {n : Name} (hfree : s.objects n = none)
    {t : State Cell Name} (ht : t.objects = Function.update s.objects n (some s.fresh)) {o : Nat}
    (ho : Live t o) : o < s.fresh + 1 := by
  rcases (live_update_some hfree ht o).mp ho with hold | rfl
  · exact Nat.lt_succ_of_lt (h.fresh_live o hold)
  · exact Nat.lt_succ_self _

omit [DecidableEq Name] in
/-- What was closed was closed by its own handle, also later: a handle keeps what it was made for,
and no object comes back. -/
theorem Inv.closed_mono {t : State Cell Name} (hmade : ∀ {i o}, MadeFor s i o → MadeFor t i o)
    (hgone : ∀ {o}, o < s.fresh → ¬ Live s o → ¬ Live t o) :
    ∀ p ∈ s.closed, ∃ o, MadeFor t p.1 o ∧ p.2 = some o ∧ ¬ Live t o := by
  intro p hp
  obtain ⟨o, ho, heq, hnot⟩ := h.closed p hp
  exact ⟨o, hmade ho, heq, hgone (h.fresh_made p.1 o ho) hnot⟩

omit [DecidableEq Name] in
theorem Inv.used_mono {t : State Cell Name} (hmade : ∀ {i o}, MadeFor s i o → MadeFor t i o) :
    ∀ p ∈ s.used, ∃ o, MadeFor t p.1 o ∧ p.2 = some o := by
  intro p hp
  obtain ⟨o, ho, heq⟩ := h.used p hp
  exact ⟨o, hmade ho, heq⟩

theorem Inv.create (hf : f.Lawful) {n : Name} (hvalid : f.valid n = true)
    (hfree : s.objects n = none) : Inv f (next f s (.create n)) := by
  have hlive := live_update_some (s := s) hfree (t := next f s (.create n)) rfl
  have hmade {i o : Nat} := madeFor_concat (s := s) (t := next f s (.create n)) (i := i) (o := o)
    rfl
  have howns {i o : Nat} := owns_concat (f := f) (s := s) (t := next f s (.create n)) (i := i)
    (o := o) rfl
  have hnames := h.names_update_some hvalid hfree (t := next f s (.create n)) rfl
  have hnew := hf.held_new n hvalid
  constructor
  · refine h.owned.acquire (some s.handles.length) (· = s.fresh) ?_ ?_ hlive
    · rintro o rfl hfresh
      exact absurd (h.fresh_live _ hfresh) (Nat.lt_irrefl _)
    · rintro (_ | i) o
      · constructor
        · rintro ⟨hmem, hl⟩
          rcases (hlive o).mp hl with hold | rfl
          · exact Or.inl ⟨hmem, hold⟩
          · exact absurd (h.fresh_outside _ hmem) (Nat.lt_irrefl _)
        · rintro (⟨hmem, hold⟩ | ⟨hcontra, -⟩)
          · exact ⟨hmem, (hlive o).mpr (Or.inl hold)⟩
          · cases hcontra
      · rw [howns]
        simp [Handle.Holds, hnew, eq_comm]
  · exact hnames.1
  · exact hnames.2
  · exact fun o ho => h.lt_of_live_update_some hfree rfl ho
  · exact fun o ho => Nat.lt_succ_of_lt (h.fresh_outside o ho)
  · intro i o ho
    rcases hmade.mp ho with hold | ⟨-, hsame⟩
    · exact Nat.lt_succ_of_lt (h.fresh_made i o hold)
    · obtain rfl := Option.some.inj hsame
      exact Nat.lt_succ_self _
  · intro i x m hx hcollected hheld
    rcases getElem?_concat_cases hx with hold | rfl
    · have hne := h.ne_of_free hfree hold hcollected hheld
      simpa [next, hne] using h.own i x m hold hcollected hheld
    · obtain rfl := Option.some.inj (hheld.symm.trans hnew)
      simp [next]
  · intro i x o hx hnot hsame
    rcases getElem?_concat_cases hx with hold | rfl
    · exact not_live_update_some hfree rfl (h.fresh_made i o ⟨x, hold, hsame⟩)
        (h.finished i x o hold hnot hsame)
    · exact absurd ⟨rfl, by rw [hnew]; rfl⟩ hnot
  · exact h.closed_mono (fun ho => hmade.mpr (Or.inl ho)) (not_live_update_some hfree rfl)
  · exact h.once
  · exact h.used_mono (fun ho => hmade.mpr (Or.inl ho))

theorem Inv.open_outside {n : Name} (hvalid : f.valid n = true) (hfree : s.objects n = none) :
    Inv f (next f s (.open_outside n)) := by
  have hlive := live_update_some (s := s) hfree (t := next f s (.open_outside n)) rfl
  have hnames := h.names_update_some hvalid hfree (t := next f s (.open_outside n)) rfl
  constructor
  · refine h.owned.acquire none (· = s.fresh) ?_ ?_ hlive
    · rintro o rfl hfresh
      exact absurd (h.fresh_live _ hfresh) (Nat.lt_irrefl _)
    · rintro (_ | i) o
      · constructor
        · rintro ⟨hmem, hl⟩
          rcases (hlive o).mp hl with hold | rfl
          · rcases List.mem_append.mp hmem with hmem | hmem
            · exact Or.inl ⟨hmem, hold⟩
            · exact Or.inr ⟨rfl, List.mem_singleton.mp hmem⟩
          · exact Or.inr ⟨rfl, rfl⟩
        · rintro (⟨hmem, hold⟩ | ⟨-, rfl⟩)
          · exact ⟨List.mem_append_left _ hmem, (hlive o).mpr (Or.inl hold)⟩
          · exact ⟨List.mem_append_right _ (List.mem_singleton_self _), (hlive _).mpr (Or.inr rfl)⟩
      · simp [Owns, next]
  · exact hnames.1
  · exact hnames.2
  · exact fun o ho => h.lt_of_live_update_some hfree rfl ho
  · intro o ho
    rcases List.mem_append.mp ho with hold | hnew
    · exact Nat.lt_succ_of_lt (h.fresh_outside o hold)
    · obtain rfl := List.mem_singleton.mp hnew
      exact Nat.lt_succ_self _
  · exact fun i o ho => Nat.lt_succ_of_lt (h.fresh_made i o ho)
  · intro i x m hx hcollected hheld
    have hne := h.ne_of_free hfree hx hcollected hheld
    simpa [next, hne] using h.own i x m hx hcollected hheld
  · intro i x o hx hnot hsame
    exact not_live_update_some hfree rfl (h.fresh_made i o ⟨x, hx, hsame⟩)
      (h.finished i x o hx hnot hsame)
  · exact h.closed_mono id (not_live_update_some hfree rfl)
  · exact h.once
  · exact h.used

/-- A name that the rest of the program gives away. -/
theorem Inv.wrap (hf : f.Lawful) {n : Name} {o : Nat} (ho : o ∈ s.outside)
    (hn : s.objects n = some o) : Inv f (next f s (.wrap n)) := by
  have hmade {i o : Nat} := madeFor_concat (s := s) (t := next f s (.wrap n)) (i := i) (o := o)
    rfl
  have howns {i o : Nat} := owns_concat (f := f) (s := s) (t := next f s (.wrap n)) (i := i)
    (o := o) rfl
  have hnew := hf.held_new n (h.valid n o hn)
  have houtside (o' : Nat) : o' ∈ (next f s (.wrap n)).outside ↔ o' ∈ s.outside ∧ o' ≠ o := by
    simp [next, hn]
  have hown : Owns f s none o := ⟨ho, n, hn⟩
  constructor
  · refine h.owned.transfer none (some s.handles.length) o hown ?_ ?_ (fun _ => Iff.rfl)
    · rintro (_ | i)
      · constructor
        · rintro ⟨hmem, -⟩
          exact absurd rfl ((houtside o).mp hmem).2
        · intro hcontra
          cases hcontra
      · rw [howns]
        constructor
        · rintro (hold | ⟨rfl, -, -⟩)
          · exact absurd (h.owned.unique _ _ o hold hown) (by simp)
          · rfl
        · intro heq
          exact Or.inr ⟨Option.some.inj heq, ⟨rfl, by rw [hnew]; rfl⟩, hn⟩
    · rintro (_ | i) o' hne
      · exact ⟨fun ⟨hmem, hl⟩ => ⟨((houtside o').mp hmem).1, hl⟩,
          fun ⟨hmem, hl⟩ => ⟨(houtside o').mpr ⟨hmem, hne⟩, hl⟩⟩
      · rw [howns]
        constructor
        · rintro (hold | ⟨-, -, hsame⟩)
          · exact hold
          · exact absurd (Option.some.inj (hsame.symm.trans hn)) hne
        · exact Or.inl
  · exact h.valid
  · exact h.injective
  · exact h.fresh_live
  · exact fun o' ho' => h.fresh_outside o' ((houtside o').mp ho').1
  · intro i o' ho'
    rcases hmade.mp ho' with hold | ⟨-, hsame⟩
    · exact h.fresh_made i o' hold
    · exact h.fresh_live o' ⟨n, hsame⟩
  · intro i x m hx hcollected hheld
    rcases getElem?_concat_cases hx with hold | rfl
    · exact h.own i x m hold hcollected hheld
    · obtain rfl := Option.some.inj (hheld.symm.trans hnew)
      exact ⟨rfl, by simp [hn]⟩
  · intro i x o' hx hnot hsame
    rcases getElem?_concat_cases hx with hold | rfl
    · exact h.finished i x o' hold hnot hsame
    · exact absurd ⟨rfl, by rw [hnew]; rfl⟩ hnot
  · exact h.closed_mono (fun ho' => hmade.mpr (Or.inl ho')) (fun _ hgone => hgone)
  · exact h.once
  · exact h.used_mono (fun ho' => hmade.mpr (Or.inl ho'))

/-- What has been said of names, when one has lost its object. -/
theorem Inv.names_update_none {n : Name} {t : State Cell Name}
    (ht : t.objects = Function.update s.objects n none) :
    (∀ m o, t.objects m = some o → f.valid m = true) ∧
      ∀ m m' o, t.objects m = some o → t.objects m' = some o → m = m' := by
  have hold (m : Name) (o : Nat) (hm : t.objects m = some o) : s.objects m = some o := by
    rw [ht, Function.update_apply] at hm
    split at hm
    · cases hm
    · exact hm
  exact ⟨fun m o hm => h.valid m o (hold m o hm),
    fun m m' o hm hm' => h.injective m m' o (hold m o hm) (hold m' o hm')⟩

theorem Inv.close_outside {n : Name} {o : Nat} (ho : o ∈ s.outside) (hn : s.objects n = some o) :
    Inv f (next f s (.close_outside n)) := by
  have hlive := h.live_update_none hn (t := next f s (.close_outside n)) rfl
  have hnames := h.names_update_none (n := n) (t := next f s (.close_outside n)) rfl
  have hown : Owns f s none o := ⟨ho, n, hn⟩
  constructor
  · refine h.owned.release (· = o) ?_ hlive
    rintro (_ | i) o'
    · rw [Owns, Owns, hlive, and_assoc]
      rfl
    · constructor
      · intro hold
        have hold' : Owns f s (some i) o' := hold
        refine ⟨hold, ?_⟩
        rintro rfl
        exact absurd (h.owned.unique _ _ _ hold' hown) (by simp)
      · exact fun hold => hold.1
  · exact hnames.1
  · exact hnames.2
  · exact fun o' ho' => h.fresh_live o' ((hlive o').mp ho').1
  · exact h.fresh_outside
  · exact h.fresh_made
  · intro i x m hx hcollected hheld
    obtain ⟨hobject, hsome⟩ := h.own i x m hx hcollected hheld
    have hne : m ≠ n := by
      rintro rfl
      have hholds : Owns f s (some i) o :=
        ⟨x, hx, ⟨hcollected, by rw [hheld]; rfl⟩, by rw [← hobject, hn]⟩
      exact absurd (h.owned.unique _ _ _ hholds hown) (by simp)
    simpa [next, hne] using ⟨hobject, hsome⟩
  · intro i x o' hx hnot hsame hl
    exact h.finished i x o' hx hnot hsame ((hlive o').mp hl).1
  · exact h.closed_mono id (fun _ hgone hl => hgone ((hlive _).mp hl).1)
  · exact h.once
  · exact h.used

omit [DecidableEq Name] in
/-- The name that a handle holds has the object that the handle was made for. -/
theorem Inv.object {i : Nat} {x : Handle Cell} {n : Name} (hx : s.handles[i]? = some x)
    (hcollected : x.collected = false) (hheld : f.held x.cell = some n) :
    ∃ o, x.made = some o ∧ s.objects n = some o := by
  obtain ⟨hobject, hsome⟩ := h.own i x n hx hcollected hheld
  obtain ⟨o, ho⟩ := Option.ne_none_iff_exists'.mp hsome
  exact ⟨o, ho, hobject.trans ho⟩

omit [DecidableEq Name] in
/-- A handle uses its own object. -/
theorem Inv.touch {i : Nat} {x : Handle Cell} {n : Name} (hx : s.handles[i]? = some x)
    (hcollected : x.collected = false) (hheld : f.held x.cell = some n) : Inv f (s.touch i n) := by
  obtain ⟨o, hmade, hobject⟩ := h.object hx hcollected hheld
  refine ⟨h.owned, h.valid, h.injective, h.fresh_live, h.fresh_outside, h.fresh_made, h.own,
    h.finished, h.closed, h.once, ?_⟩
  intro p hp
  rcases List.mem_append.mp hp with hold | hnew
  · exact h.used p hold
  · obtain rfl := List.mem_singleton.mp hnew
    exact ⟨o, ⟨x, hx, hmade⟩, hobject⟩

omit [DecidableEq Name] in
/-- A handle changes that stays open, or that was closed already. -/
theorem Inv.set {i : Nat} {x y : Handle Cell} (hx : s.handles[i]? = some x)
    (hmade : y.made = x.made)
    (hheld : y.collected = x.collected ∧ f.held y.cell = f.held x.cell ∨
      ¬ x.Holds f ∧ ¬ y.Holds f) :
    Inv f { s with handles := s.handles.set i y } := by
  have hsame {j o : Nat} := madeFor_set (o := o) (j := j)
    (t := { s with handles := s.handles.set i y }) hx rfl hmade
  have hholds : y.Holds f ↔ x.Holds f := by
    rcases hheld with ⟨hcollected, hcell⟩ | ⟨hnot, hnot'⟩
    · rw [Handle.Holds, Handle.Holds, hcollected, hcell]
    · exact ⟨fun hy => absurd hy hnot', fun hx => absurd hx hnot⟩
  constructor
  · refine h.owned.congr ?_ (fun _ => Iff.rfl)
    rintro (_ | j) o
    · exact Iff.rfl
    · rw [owns_set (t := { s with handles := s.handles.set i y }) hx rfl]
      split
      · next heq =>
        subst heq
        rw [Owns, hx, hholds, hmade]
        simp
      · exact Iff.rfl
  · exact h.valid
  · exact h.injective
  · exact h.fresh_live
  · exact h.fresh_outside
  · exact fun j o hj => h.fresh_made j o (hsame.mp hj)
  · intro j z m hz hcollected hm
    rcases getElem?_set_cases hz with ⟨rfl, rfl⟩ | ⟨-, hold⟩
    · rw [hmade]
      have hopen : x.Holds f := hholds.mp ⟨hcollected, by rw [hm]; rfl⟩
      rcases hheld with ⟨-, hcell⟩ | ⟨hnot, -⟩
      · exact h.own j x m hx hopen.1 (hcell.symm.trans hm)
      · exact absurd hopen hnot
    · exact h.own j z m hold hcollected hm
  · intro j z o hz hnot hzo
    rcases getElem?_set_cases hz with ⟨rfl, rfl⟩ | ⟨-, hold⟩
    · exact h.finished j x o hx (fun hopen => hnot (hholds.mpr hopen)) (hmade.symm.trans hzo)
    · exact h.finished j z o hold hnot hzo
  · exact h.closed_mono hsame.mpr (fun _ hgone => hgone)
  · exact h.once
  · exact h.used_mono hsame.mpr

/-- A handle closes its object, and lets it go. -/
theorem Inv.closes {i : Nat} {x y : Handle Cell} {n : Name} (hx : s.handles[i]? = some x)
    (hcollected : x.collected = false) (hheld : f.held x.cell = some n) (hmade : y.made = x.made)
    (hlets : ¬ y.Holds f) :
    Inv f { s with
      objects := Function.update s.objects n none
      closed := s.closed ++ [(i, s.objects n)]
      handles := s.handles.set i y } := by
  obtain ⟨o, ho, hobject⟩ := h.object hx hcollected hheld
  set t : State Cell Name := { s with
    objects := Function.update s.objects n none
    closed := s.closed ++ [(i, s.objects n)]
    handles := s.handles.set i y } with ht
  have hlive := h.live_update_none hobject (t := t) rfl
  have hnames := h.names_update_none (n := n) (t := t) rfl
  have hsame {j o : Nat} := madeFor_set (o := o) (j := j) (t := t) hx rfl hmade
  have hown : Owns f s (some i) o := ⟨x, hx, ⟨hcollected, by rw [hheld]; rfl⟩, ho⟩
  constructor
  · refine h.owned.release (· = o) ?_ hlive
    rintro (_ | j) o'
    · rw [Owns, Owns, hlive, and_assoc]
    · rw [owns_set (t := t) hx rfl]
      split
      · next heq =>
        subst heq
        constructor
        · exact fun hy => absurd hy.1 hlets
        · rintro ⟨⟨z, hz, -, hzo⟩, hne⟩
          obtain rfl := Option.some.inj (hx.symm.trans hz)
          exact absurd (Option.some.inj (hzo.symm.trans ho)) hne
      · next hne =>
        constructor
        · intro hold
          refine ⟨hold, ?_⟩
          rintro rfl
          exact hne (Option.some.inj (h.owned.unique _ _ _ hold hown))
        · exact fun hold => hold.1
  · exact hnames.1
  · exact hnames.2
  · exact fun o' ho' => h.fresh_live o' ((hlive o').mp ho').1
  · exact h.fresh_outside
  · exact fun j o' hj => h.fresh_made j o' (hsame.mp hj)
  · intro j z m hz hopen hm
    rcases getElem?_set_cases hz with ⟨rfl, rfl⟩ | ⟨hne, hold⟩
    · exact absurd ⟨hopen, by rw [hm]; rfl⟩ hlets
    · obtain ⟨o', ho', hobject'⟩ := h.object hold hopen hm
      have hmn : m ≠ n := by
        rintro rfl
        obtain rfl := Option.some.inj (hobject'.symm.trans hobject)
        have hown' : Owns f s (some j) o' := ⟨z, hold, ⟨hopen, by rw [hm]; rfl⟩, ho'⟩
        exact hne (Option.some.inj (h.owned.unique _ _ _ hown' hown))
      rw [ht]
      simp [hmn, hobject', ho']
  · intro j z o' hz hnot hzo hl
    obtain ⟨hold', hne'⟩ := (hlive o').mp hl
    rcases getElem?_set_cases hz with ⟨rfl, rfl⟩ | ⟨-, hold⟩
    · exact hne' (Option.some.inj ((hzo.symm.trans hmade).trans ho))
    · exact h.finished j z o' hold hnot hzo hold'
  · intro p hp
    rcases List.mem_append.mp hp with hold | hnew
    · exact h.closed_mono hsame.mpr (fun _ hgone hl => hgone ((hlive _).mp hl).1) p hold
    · obtain rfl := List.mem_singleton.mp hnew
      exact ⟨o, hsame.mpr ⟨x, hx, ho⟩, hobject, fun hl => ((hlive o).mp hl).2 rfl⟩
  · rw [ht]
    simp only [List.map_append, List.map_cons, List.map_nil]
    refine List.nodup_append.mpr ⟨h.once, ?_, ?_⟩
    · exact List.nodup_cons.mpr ⟨List.not_mem_nil, List.nodup_nil⟩
    intro z hz z' hz' heq
    obtain ⟨p, hp, rfl⟩ := List.mem_map.mp hz
    obtain ⟨o', -, hp', hgone⟩ := h.closed p hp
    rw [heq, List.mem_singleton.mp hz'] at hp'
    exact hgone ⟨n, hp'⟩
  · exact h.used_mono hsame.mpr

/-- **A function that may close a handle has run.**  If the handle was open, its name was
released, and it has let it go or the object is still there; and if it was closed, nothing was
released. -/
theorem Inv.run {i : Nat} {x : Handle Cell} {a : Answer} {e : Effect Cell Name} {c : Bool}
    (hx : s.handles[i]? = some x) (hcollected : x.collected = false)
    (hopen : ∀ n, f.held x.cell = some n → e.releases = some n ∧
      (a.frees = true ∧ (c = true ∨ f.held e.cell = none) ∨
        a.frees = false ∧ c = false ∧ f.held e.cell = some n))
    (hclosed : f.held x.cell = none → (∀ n, e.releases = some n → f.valid n = false) ∧
      (c = true ∨ f.held e.cell = none)) : Inv f (s.run f i a x e c) := by
  have hlets (hgone : c = true ∨ f.held e.cell = none) :
      ¬ ({ x with cell := e.cell, collected := c } : Handle Cell).Holds f := by
    rintro ⟨hc, hheld⟩
    rcases hgone with hgone | hgone
    · exact absurd (hgone.symm.trans hc) (by decide)
    · simp [hgone] at hheld
  cases hheld : f.held x.cell with
  | none =>
    obtain ⟨hinvalid, hgone⟩ := hclosed hheld
    have hrelease : s.release f i a e.releases = s := by
      cases hr : e.releases with
      | none => rfl
      | some n => simp [State.release, hinvalid n hr]
    rw [State.run, hrelease]
    exact h.set (y := { x with cell := e.cell, collected := c }) hx rfl
      (Or.inr ⟨fun hholds => by simp [Handle.Holds, hheld] at hholds, hlets hgone⟩)
  | some n =>
    obtain ⟨hr, hcases⟩ := hopen n hheld
    obtain ⟨o, -, hobject⟩ := h.object hx hcollected hheld
    have hvalid := h.valid n o hobject
    rcases hcases with ⟨hfrees, hgone⟩ | ⟨hfrees, rfl, hkept⟩
    · have hrun := h.closes (y := { x with cell := e.cell, collected := c }) hx hcollected hheld rfl
        (hlets hgone)
      simpa [State.run, State.release, hr, hvalid, hfrees] using hrun
    · have htouch := h.touch hx hcollected hheld
      have hrun := htouch.set (y := { x with cell := e.cell, collected := false }) hx rfl
        (Or.inl ⟨hcollected.symm, hkept.trans hheld.symm⟩)
      simpa [State.run, State.release, State.touch, hr, hvalid, hfrees] using hrun

omit h [DecidableEq Name] in
/-- The handle of a step has not been collected. -/
theorem exists_handle {i : Nat}
    (he : ((s.handles[i]?).any (fun x : Handle Cell => !x.collected)) = true) :
    ∃ x, s.handles[i]? = some x ∧ x.collected = false := by
  obtain ⟨x, hx, hcollected⟩ := (Option.any_eq_true _ _).mp he
  exact ⟨x, hx, (Bool.not_eq_true' _).mp hcollected⟩

theorem Inv.close (hf : f.Lawful) {i k : Nat} {a : Answer}
    (hfails : a.errno.isSome = true → a.gone = !f.keeps) (he : Enabled f s (.close i k a)) :
    Inv f (next f s (.close i k a)) := by
  obtain ⟨x, hx, hcollected⟩ := exists_handle he
  cases hk : f.closers[k]? with
  | none =>
    simp only [Handles.next, hx, hk]
    exact h
  | some close =>
    have hmem := List.mem_of_getElem? hk
    simp only [Handles.next, hx, hk]
    refine h.run hx hcollected ?_ ?_
    · intro n hheld
      refine ⟨hf.close_releases _ _ _ hheld close hmem, ?_⟩
      have hcell := hf.close_held a.errno x.cell n hheld close hmem
      cases herrno : a.errno with
      | none => simp_all [Answer.frees]
      | some errno =>
        simp only [herrno, Option.isSome_some, true_and, forall_const] at hcell hfails
        -- a family that keeps its name has to find the object there, and one that does not, gone
        cases hkeeps : f.keeps <;> simp_all [Answer.frees]
    · intro hheld
      obtain ⟨hcell, hinvalid⟩ := hf.close_closed a.errno x.cell hheld close hmem
      exact ⟨hinvalid, Or.inr hcell⟩

/-- A handle is collected, whatever its finalizer leaves in the cell. -/
theorem Inv.gc (hf : f.Lawful) {i : Nat} {a : Answer} (hfrees : a.frees = true)
    (he : Enabled f s (.gc i a)) : Inv f (next f s (.gc i a)) := by
  obtain ⟨x, hx, hcollected⟩ := exists_handle he
  simp only [Handles.next, hx]
  refine h.run hx hcollected ?_ ?_
  · exact fun n hheld => ⟨hf.gc_releases _ _ _ hheld, Or.inl ⟨hfrees, Or.inl rfl⟩⟩
  · exact fun hheld => ⟨(hf.gc_closed a.errno x.cell hheld).2, Or.inl rfl⟩

/-- The handle of a finalizer that the script calls stays, so the cell has to be emptied. -/
theorem Inv.call_gc (hf : f.Lawful) {i : Nat} {a : Answer} (hclears : f.clears = true)
    (hsucceeds : a.errno.isNone = true) (he : Enabled f s (.call_gc i a)) :
    Inv f (next f s (.call_gc i a)) := by
  obtain ⟨x, hx, hcollected⟩ := exists_handle he
  simp only [Handles.next, hx]
  refine h.run hx hcollected ?_ ?_
  · intro n hheld
    have herrno : a.errno = none := Option.isNone_iff_eq_none.mp hsucceeds
    have hfrees : a.frees = true := by rw [Answer.frees, hsucceeds, Bool.true_or]
    refine ⟨hf.gc_releases _ _ _ hheld, Or.inl ⟨hfrees, Or.inr ?_⟩⟩
    rw [herrno]
    exact hf.gc_clears x.cell n hclears hheld
  · intro hheld
    obtain ⟨hcell, hinvalid⟩ := hf.gc_closed a.errno x.cell hheld
    exact ⟨hinvalid, Or.inr hcell⟩

theorem Inv.method (hf : f.Lawful) {i : Nat} (he : Enabled f s (.method i)) :
    Inv f (next f s (.method i)) := by
  obtain ⟨x, hx, hcollected⟩ := exists_handle he
  simp only [Handles.next, hx, Option.bind_some]
  cases hpasses : f.passes x.cell with
  | none => exact h
  | some n =>
    dsimp only
    split
    · next hvalid => exact h.touch hx hcollected (hf.passes_held x.cell n hpasses hvalid)
    · exact h

/-- **Every step keeps the invariant**, when everybody else is careful. -/
theorem Inv.next (hf : f.Lawful) {e : Event Name} (hok : Careful f s e) (he : Enabled f s e) :
    Inv f (next f s e) := by
  cases e with
  | create n => exact h.create hf he.1 he.2
  | open_outside n => exact h.open_outside he.1 he.2
  | wrap n =>
    obtain ⟨o, ho, hn⟩ := hok
    exact h.wrap hf ho hn
  | close_outside n =>
    obtain ⟨o, ho, hn⟩ := hok
    exact h.close_outside ho hn
  | close i k a => exact h.close hf hok he
  | gc i a => exact h.gc hf hok he
  | call_gc i a => exact h.call_gc hf hok.1 hok.2 he
  | child n => exact absurd hok id
  | method i => exact h.method hf he

end Steps

/-- **Handles are sound**: every handle uses and closes only its own object, each object is
closed once, and none is left behind. -/
theorem sound_of_careful {f : Family Cell Name} (hf : f.Lawful) {s : State Cell Name}
    (h : (system f).ReachableBy (Careful f) s) : Sound f s :=
  (h.invariant (Inv.init f) (fun _ _ hs hok he => hs.next hf hok he)).sound

end Handles
end FluaLibs
