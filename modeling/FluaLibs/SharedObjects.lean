import FluaLibs.RefCount
import FluaLibs.Transition
import Mathlib.Logic.Function.Basic

/-! # Objects shared between Lua states

Thread handles, mutexes, condition variables and the other objects of the
`pthread` module live outside the Lua states.  A userdata holds a pointer to one,
its cookie, which may be passed to another Lua state and made into another userdata
there (`retain`).  The object counts its userdata; the `__gc` of the last one
destroys and frees it.

All kinds have the same `retain` and `__gc`, up to the functions that destroy the
object (`Kind.destroyers`).  A `retain` counts first and makes its userdata later,
so that the count is the number of live userdata and of `retain` calls between the
two.
-/
namespace FluaLibs
namespace Shared
open Refcount

/-- The kinds of shared objects. -/
inductive Kind where
  | thread
  | once
  | mutex
  | cond
  | rwlock
  | key
  | barrier
  | rendezvous
  deriving DecidableEq, Repr

/-- What the `__gc` of the last userdata calls before `free`. -/
def Kind.destroyers : Kind → List String
  | thread => []
  | once => []
  | mutex => ["pthread_mutex_destroy"]
  | cond => ["pthread_cond_destroy"]
  | rwlock => ["pthread_rwlock_destroy"]
  | key => ["pthread_key_delete"]
  | barrier => ["pthread_barrier_destroy"]
  | rendezvous => ["pthread_cond_destroy", "pthread_mutex_destroy"]

/-- An object: its count, the `retain` calls that have counted but not made their userdata,
the destroying functions called for it, how often it was freed, and whether it was
used after that. -/
structure Object where
  kind : Kind
  refs : Refcount
  retaining : Nat
  destroys : List String
  freed : Nat
  misused : Bool
  deriving DecidableEq

/-- What has become of a userdata: its `__gc` has not run, was the last and is about to
call the destroying functions, or is over. -/
inductive Phase where
  | live
  | disposing (rest : List String)
  | collected
  deriving DecidableEq, Repr

def Phase.isDisposing : Phase → Bool
  | disposing _ => true
  | _ => false

@[simp] theorem isDisposing_live : Phase.live.isDisposing = false := rfl
@[simp] theorem isDisposing_collected : Phase.collected.isDisposing = false := rfl

@[simp] theorem isDisposing_disposing (rest : List String) :
    (Phase.disposing rest).isDisposing = true := rfl

structure Userdata where
  object : Nat
  phase : Phase
  deriving DecidableEq, Repr

/-- The objects made so far are those below `count`. -/
structure State where
  count : Nat
  objects : Nat → Object
  userdata : List Userdata

/-- The atomic actions, of any thread.  `u` is a userdata and `o` an object. -/
inductive Event where
  | new (kind : Kind)
  | retain (u : Nat)
  | retainNew (o : Nat)
  | use (u : Nat)
  | gc (u : Nat)
  | destroy (u : Nat)
  | free (u : Nat)
  deriving DecidableEq, Repr

namespace State
variable (s : State)

/-- The number of live userdata of an object. -/
def live (o : Nat) : Nat := s.userdata.countP (fun x => x.object = o ∧ x.phase = .live)

/-- The number of userdata of an object whose `__gc` is disposing of it. -/
def disposing (o : Nat) : Nat :=
  s.userdata.countP (fun x => x.object = o ∧ x.phase.isDisposing = true)

/-- The userdata, and the calls that will make one. -/
def holders (o : Nat) : Nat := s.live o + (s.objects o).retaining

def setObject (o : Nat) (x : Object) : State :=
  { s with objects := Function.update s.objects o x }

/-- An object is used. -/
def touch (o : Nat) : State :=
  s.setObject o
    { s.objects o with
      misused := (s.objects o).misused || decide (0 < (s.objects o).freed) }

def setPhase (u : Nat) (x : Userdata) (phase : Phase) : State :=
  { s with userdata := s.userdata.set u { x with phase := phase } }

/-- `l_pthread_*_new`: the count starts at 1, and the userdata is made. -/
def new (kind : Kind) : State where
  count := s.count + 1
  objects := Function.update s.objects s.count ⟨kind, init 1, 0, [], 0, false⟩
  userdata := s.userdata ++ [⟨s.count, .live⟩]

/-- `l_pthread_*_retain`, up to `refcount_retain`. -/
def retain (x : Userdata) : State :=
  let s' := s.touch x.object
  let obj := s'.objects x.object
  s'.setObject x.object { obj with refs := obj.refs.retain, retaining := obj.retaining + 1 }

/-- The rest of it: the userdata is made. -/
def retainNew (o : Nat) : State :=
  { s.setObject o { s.objects o with retaining := (s.objects o).retaining - 1 } with
    userdata := s.userdata ++ [⟨o, .live⟩] }

/-- `l_pthread_*_gc`, up to `refcount_release`. -/
def gc (u : Nat) (x : Userdata) : State :=
  let s' := s.touch x.object
  let obj := s'.objects x.object
  let s'' := s'.setObject x.object { obj with refs := obj.refs.release.2 }
  s''.setPhase u x (if obj.refs.release.1 then .disposing obj.kind.destroyers else .collected)

/-- The next destroying function is called. -/
def destroy (u : Nat) (x : Userdata) : State :=
  match x.phase with
  | .disposing (f :: rest) =>
    let s' := s.touch x.object
    let obj := s'.objects x.object
    (s'.setObject x.object { obj with destroys := obj.destroys ++ [f] }).setPhase u x
      (.disposing rest)
  | _ => s

/-- The object is freed. -/
def free (u : Nat) (x : Userdata) : State :=
  let s' := s.touch x.object
  let obj := s'.objects x.object
  (s'.setObject x.object { obj with freed := obj.freed + 1 }).setPhase u x .collected

end State

/-- What each action needs.  A cookie is passed to `retain` while its userdata is alive;
an address space of 2^64 bytes has no room for 2^64 userdata and calls. -/
def Enabled (s : State) : Event → Prop
  | .new _ => True
  | .retain u => ∃ x ∈ s.userdata[u]?, x.phase = .live ∧ s.holders x.object + 1 < 2 ^ 64
  | .retainNew o => o < s.count ∧ 0 < (s.objects o).retaining
  | .use u | .gc u => ∃ x ∈ s.userdata[u]?, x.phase = .live
  | .destroy u => ∃ x ∈ s.userdata[u]?, x.phase.isDisposing = true ∧ x.phase ≠ .disposing []
  | .free u => ∃ x ∈ s.userdata[u]?, x.phase = .disposing []

/-- What each action does. -/
def next (s : State) : Event → State
  | .new kind => s.new kind
  | .retain u => s.userdata[u]?.elim s s.retain
  | .retainNew o => s.retainNew o
  | .use u => s.userdata[u]?.elim s (fun x => s.touch x.object)
  | .gc u => s.userdata[u]?.elim s (s.gc u)
  | .destroy u => s.userdata[u]?.elim s (s.destroy u)
  | .free u => s.userdata[u]?.elim s (s.free u)

/-- Any number of objects, shared by any number of Lua states. -/
def system : System State Event where
  init := ⟨0, fun _ => ⟨.thread, 0, 0, [], 0, false⟩, []⟩
  Enabled := Enabled
  decEnabled s e := by
    cases e with
    | new => exact isTrue trivial
    | retainNew => exact inferInstanceAs (Decidable (_ ∧ _))
    | _ => exact inferInstanceAs (Decidable (∃ x ∈ s.userdata[_]?, _))
  next := next

/-! ## The accounting -/

/-- The count of an object is exact, and what is disposed of was counted down to zero. -/
structure ObjectOk (s : State) (o : Nat) : Prop where
  counts : Counts (s.objects o).refs (s.holders o)
  once : s.disposing o + (s.objects o).freed = if s.holders o = 0 then 1 else 0
  intact : 0 < s.holders o → (s.objects o).destroys = []
  rest : ∀ x ∈ s.userdata, x.object = o → ∀ rest, x.phase = .disposing rest →
    (s.objects o).destroys ++ rest = (s.objects o).kind.destroyers
  destroyed : (s.objects o).freed = 1 → (s.objects o).destroys = (s.objects o).kind.destroyers
  unused : (s.objects o).misused = false

structure Accounted (s : State) : Prop where
  objects : ∀ o < s.count, ObjectOk s o
  userdata : ∀ x ∈ s.userdata, x.object < s.count

namespace State
variable (s : State) (o : Nat)

@[simp] theorem setObject_objects_self (x : Object) : (s.setObject o x).objects o = x := by
  simp [setObject]

@[simp] theorem setObject_objects_of_ne (x : Object) {o' : Nat} (h : o' ≠ o) :
    (s.setObject o x).objects o' = s.objects o' := by
  simp [setObject, h]

@[simp] theorem setObject_userdata (x : Object) : (s.setObject o x).userdata = s.userdata := rfl
@[simp] theorem setObject_count (x : Object) : (s.setObject o x).count = s.count := rfl
@[simp] theorem setObject_live (x : Object) (o' : Nat) :
    (s.setObject o x).live o' = s.live o' := rfl

@[simp] theorem setObject_disposing (x : Object) (o' : Nat) :
    (s.setObject o x).disposing o' = s.disposing o' := rfl

@[simp] theorem setPhase_objects (u : Nat) (x : Userdata) (phase : Phase) :
    (s.setPhase u x phase).objects = s.objects := rfl

@[simp] theorem setPhase_count (u : Nat) (x : Userdata) (phase : Phase) :
    (s.setPhase u x phase).count = s.count := rfl

/-- An object that has not been freed can be used. -/
theorem touch_of_not_freed (hfreed : (s.objects o).freed = 0) : s.touch o = s := by
  have hsame : ((s.objects o).misused || decide (0 < (s.objects o).freed)) =
      (s.objects o).misused := by
    simp [hfreed]
  rw [touch, hsame]
  simp [setObject]

/-- The live userdata, after one of them has changed. -/
theorem setPhase_live {u : Nat} {x : Userdata} (h : s.userdata[u]? = some x) (phase : Phase) :
    (s.setPhase u x phase).live o + (if x.object = o ∧ x.phase = .live then 1 else 0) =
      s.live o + (if x.object = o ∧ phase = .live then 1 else 0) := by
  have hcount := countP_set_add (fun x => decide (x.object = o ∧ x.phase = .live))
    (y := { x with phase := phase }) h
  simpa [live, setPhase] using hcount

theorem setPhase_disposing {u : Nat} {x : Userdata} (h : s.userdata[u]? = some x) (phase : Phase) :
    (s.setPhase u x phase).disposing o +
        (if x.object = o ∧ x.phase.isDisposing = true then 1 else 0) =
      s.disposing o + (if x.object = o ∧ phase.isDisposing = true then 1 else 0) := by
  have hcount := countP_set_add (fun x => decide (x.object = o ∧ x.phase.isDisposing = true))
    (y := { x with phase := phase }) h
  simpa [disposing, setPhase] using hcount

theorem live_pos {x : Userdata} (h : x ∈ s.userdata) (hlive : x.phase = .live) :
    0 < s.live x.object :=
  List.countP_pos_iff.mpr ⟨x, h, by simp [hlive]⟩

theorem disposing_pos {x : Userdata} (h : x ∈ s.userdata)
    (hdisposing : x.phase.isDisposing = true) : 0 < s.disposing x.object :=
  List.countP_pos_iff.mpr ⟨x, h, by simp [hdisposing]⟩

/-- Two userdata that dispose of the same object count twice. -/
theorem disposing_two {u j : Nat} {x y : Userdata} (hu : s.userdata[u]? = some x)
    (hj : s.userdata[j]? = some y) (hne : j ≠ u) (hobject : y.object = x.object)
    (hx : x.phase.isDisposing = true) (hy : y.phase.isDisposing = true) :
    2 ≤ s.disposing x.object := by
  have hcount := s.setPhase_disposing x.object hu .collected
  have hmem : y ∈ (s.setPhase u x .collected).userdata := by
    refine List.mem_of_getElem? (i := j) ?_
    rw [setPhase, List.getElem?_set_ne hne.symm, hj]
  have hpos := (s.setPhase u x .collected).disposing_pos hmem hy
  rw [hobject] at hpos
  simp [hx] at hcount
  omega

/-- What is in the list of userdata after one of them has changed. -/
theorem mem_setPhase {u : Nat} {x y : Userdata} {phase : Phase}
    (hy : y ∈ (s.setPhase u x phase).userdata) :
    y = { x with phase := phase } ∨ ∃ j ≠ u, s.userdata[j]? = some y := by
  obtain ⟨j, hj⟩ := List.mem_iff_getElem?.mp hy
  exact (getElem?_set_cases hj).imp And.right (fun h => ⟨j, h⟩)

end State

section Steps
variable {s : State} (h : Accounted s)
include h

/-- The object of a userdata that is live, or disposing of it, has not been freed. -/
theorem Accounted.not_freed {x : Userdata} (hx : x ∈ s.userdata)
    (hphase : x.phase = .live ∨ x.phase.isDisposing = true) : (s.objects x.object).freed = 0 := by
  have hok := h.objects _ (h.userdata x hx)
  have honce := hok.once
  rcases hphase with hlive | hdisposing
  · have hpos := s.live_pos hx hlive
    have hne : s.holders x.object ≠ 0 := by
      unfold State.holders
      omega
    rw [if_neg hne] at honce
    omega
  · have hpos := s.disposing_pos hx hdisposing
    split at honce <;> omega

/-- The object of a userdata that disposes of it is not held any more, and nobody else disposes
of it. -/
theorem Accounted.disposing_alone {x : Userdata} (hx : x ∈ s.userdata)
    (hdisposing : x.phase.isDisposing = true) :
    s.holders x.object = 0 ∧ s.disposing x.object = 1 ∧ (s.objects x.object).freed = 0 := by
  have honce := (h.objects _ (h.userdata x hx)).once
  have hpos := s.disposing_pos hx hdisposing
  have hzero : s.holders x.object = 0 := by
    by_contra hne
    rw [if_neg hne] at honce
    omega
  rw [if_pos hzero] at honce
  exact ⟨hzero, by omega, by omega⟩

/-- What happens to one object and its userdata leaves the others accounted for. -/
theorem Accounted.update {s' : State} {o : Nat} (hcount : s'.count = s.count)
    (hobjects : ∀ o' ≠ o, s'.objects o' = s.objects o')
    (hlive : ∀ o' ≠ o, s'.live o' = s.live o')
    (hdisposing : ∀ o' ≠ o, s'.disposing o' = s.disposing o')
    (huserdata : ∀ x ∈ s'.userdata, x.object = o ∨ x ∈ s.userdata)
    (ho : o < s.count) (hself : ObjectOk s' o) : Accounted s' where
  objects o' ho' := by
    by_cases heq : o' = o
    · rw [heq]
      exact hself
    · have hold := h.objects o' (hcount ▸ ho')
      have hholders : s'.holders o' = s.holders o' := by
        unfold State.holders
        rw [hlive o' heq, hobjects o' heq]
      constructor
      · rw [hobjects o' heq, hholders]
        exact hold.counts
      · rw [hobjects o' heq, hholders, hdisposing o' heq]
        exact hold.once
      · rw [hobjects o' heq, hholders]
        exact hold.intact
      · intro x hx hxo
        rw [hobjects o' heq]
        rcases huserdata x hx with hnew | hx'
        · exact absurd (hxo.symm.trans hnew) heq
        · exact hold.rest x hx' hxo
      · rw [hobjects o' heq]
        exact hold.destroyed
      · rw [hobjects o' heq]
        exact hold.unused
  userdata x hx := by
    rw [hcount]
    rcases huserdata x hx with hnew | hx'
    · rw [hnew]
      exact ho
    · exact h.userdata x hx'

/-- A number that has not been given to an object has no userdata. -/
theorem Accounted.no_userdata {o : Nat} (ho : s.count ≤ o) : s.live o = 0 ∧ s.disposing o = 0 := by
  have hnone : ∀ x ∈ s.userdata, x.object ≠ o := by
    intro x hx
    have := h.userdata x hx
    omega
  constructor
  · exact List.countP_eq_zero.mpr (fun x hx => by simp [hnone x hx])
  · exact List.countP_eq_zero.mpr (fun x hx => by simp [hnone x hx])

theorem Accounted.new (kind : Kind) : Accounted (s.new kind) where
  objects o ho := by
    obtain ⟨hlive, hdisposing⟩ := h.no_userdata (Nat.le_refl s.count)
    by_cases heq : o = s.count
    · subst heq
      have hlive' : (s.new kind).live s.count = 1 := by
        have : (s.new kind).live s.count = s.live s.count + 1 := by
          simp [State.live, State.new, List.countP_append]
        omega
      have hdisposing' : (s.new kind).disposing s.count = 0 := by
        have : (s.new kind).disposing s.count = s.disposing s.count := by
          simp [State.disposing, State.new, List.countP_append, Phase.isDisposing]
        omega
      have hobject : (s.new kind).objects s.count = ⟨kind, init 1, 0, [], 0, false⟩ := by
        simp [State.new]
      have hholders : (s.new kind).holders s.count = 1 := by
        simp [State.holders, hlive', hobject]
      constructor
      · rw [hobject, hholders]
        exact counts_init
      · rw [hobject, hholders, hdisposing']
        rfl
      · intro _
        rw [hobject]
      · intro x hx hxo rest hphase
        rcases List.mem_append.mp hx with hx | hx
        · have := h.userdata x hx
          omega
        · rw [List.mem_singleton.mp hx] at hphase
          cases hphase
      · intro hfreed
        rw [hobject] at hfreed
        cases hfreed
      · rw [hobject]
    · have hlt : o < s.count := by
        have : o < s.count + 1 := ho
        omega
      have hold := h.objects o hlt
      have hobject : (s.new kind).objects o = s.objects o := by simp [State.new, heq]
      have hlive' : (s.new kind).live o = s.live o := by
        simp [State.live, State.new, List.countP_append, Ne.symm heq]
      have hdisposing' : (s.new kind).disposing o = s.disposing o := by
        simp [State.disposing, State.new, List.countP_append, Phase.isDisposing]
      have hholders : (s.new kind).holders o = s.holders o := by
        rw [State.holders, State.holders, hlive', hobject]
      constructor
      · rw [hobject, hholders]
        exact hold.counts
      · rw [hobject, hholders, hdisposing']
        exact hold.once
      · rw [hobject, hholders]
        exact hold.intact
      · intro x hx hxo rest hphase
        rw [hobject]
        rcases List.mem_append.mp hx with hx | hx
        · exact hold.rest x hx hxo rest hphase
        · rw [List.mem_singleton.mp hx] at hphase
          cases hphase
      · rw [hobject]
        exact hold.destroyed
      · rw [hobject]
        exact hold.unused
  userdata x hx := by
    change x.object < s.count + 1
    rcases List.mem_append.mp hx with hx | hx
    · have := h.userdata x hx
      omega
    · rw [List.mem_singleton.mp hx]
      exact Nat.lt_succ_self _

theorem Accounted.retain {x : Userdata} (hx : x ∈ s.userdata) (hlive : x.phase = .live)
    (hroom : s.holders x.object + 1 < 2 ^ 64) : Accounted (s.retain x) := by
  have hold := h.objects _ (h.userdata x hx)
  have hfreed := h.not_freed hx (Or.inl hlive)
  have hpos := s.live_pos hx hlive
  have hholders : (s.retain x).holders x.object = s.holders x.object + 1 := by
    simp only [State.holders, State.retain, s.touch_of_not_freed _ hfreed,
      State.setObject_objects_self, State.setObject_live]
    omega
  have hne : s.holders x.object ≠ 0 := by
    unfold State.holders
    omega
  have honce := hold.once
  rw [if_neg hne] at honce
  simp only [State.retain, s.touch_of_not_freed _ hfreed] at hholders ⊢
  refine h.update rfl (fun o ho => by simp [ho]) (fun _ _ => rfl) (fun _ _ => rfl)
    (fun _ hy => Or.inr hy) (h.userdata x hx) ?_
  constructor
  · rw [hholders, State.setObject_objects_self]
    exact hold.counts.retain hroom
  · rw [hholders, State.setObject_objects_self, if_neg (Nat.succ_ne_zero _)]
    exact honce
  · intro _
    rw [State.setObject_objects_self]
    exact hold.intact (by omega)
  · rw [State.setObject_objects_self]
    exact hold.rest
  · rw [State.setObject_objects_self]
    exact hold.destroyed
  · rw [State.setObject_objects_self]
    exact hold.unused

theorem Accounted.retainNew {o : Nat} (ho : o < s.count) (hpos : 0 < (s.objects o).retaining) :
    Accounted (s.retainNew o) := by
  have hold := h.objects o ho
  have hlive : ∀ o', (s.retainNew o).live o' = s.live o' + if o' = o then 1 else 0 := by
    intro o'
    by_cases heq : o' = o
    · simp [State.live, State.retainNew, List.countP_append, heq]
    · simp [State.live, State.retainNew, List.countP_append, heq, Ne.symm heq]
  have hdisposing : ∀ o', (s.retainNew o).disposing o' = s.disposing o' := by
    intro o'
    simp [State.disposing, State.retainNew, List.countP_append, Phase.isDisposing]
  have hobject : (s.retainNew o).objects o =
      { s.objects o with retaining := (s.objects o).retaining - 1 } := by
    simp [State.retainNew, State.setObject]
  have hholders : (s.retainNew o).holders o = s.holders o := by
    rw [State.holders, hlive, hobject, State.holders]
    simp only [ite_true]
    omega
  refine h.update rfl (fun o' ho' => by simp [State.retainNew, State.setObject, ho'])
    (fun o' ho' => by rw [hlive, if_neg ho', Nat.add_zero]) (fun o' _ => hdisposing o') ?_ ho ?_
  · intro x hx
    rcases List.mem_append.mp hx with hx | hx
    · exact Or.inr hx
    · rw [List.mem_singleton.mp hx]
      exact Or.inl rfl
  · constructor
    · rw [hholders, hobject]
      exact hold.counts
    · rw [hholders, hobject, hdisposing]
      exact hold.once
    · rw [hholders, hobject]
      exact hold.intact
    · intro x hx hxo rest hphase
      rw [hobject]
      rcases List.mem_append.mp hx with hx | hx
      · exact hold.rest x hx hxo rest hphase
      · rw [List.mem_singleton.mp hx] at hphase
        cases hphase
    · rw [hobject]
      exact hold.destroyed
    · rw [hobject]
      exact hold.unused

/-- A step that changes one userdata and its object. -/
theorem Accounted.updatePhase {u : Nat} {x : Userdata} {phase : Phase} {obj : Object}
    (hu : s.userdata[u]? = some x)
    (hself : ObjectOk ((s.setObject x.object obj).setPhase u x phase) x.object) :
    Accounted ((s.setObject x.object obj).setPhase u x phase) := by
  have hu' : (s.setObject x.object obj).userdata[u]? = some x := hu
  have hx := List.mem_of_getElem? hu
  refine h.update rfl (fun o ho => by simp [ho]) ?_ ?_ ?_ (h.userdata x hx) hself
  · intro o ho
    have hcount := (s.setObject x.object obj).setPhase_live o hu' phase
    simpa [Ne.symm ho] using hcount
  · intro o ho
    have hcount := (s.setObject x.object obj).setPhase_disposing o hu' phase
    simpa [Ne.symm ho] using hcount
  · intro y hy
    rcases State.mem_setPhase _ hy with rfl | ⟨j, _, hj⟩
    · exact Or.inl rfl
    · exact Or.inr (List.mem_of_getElem? hj)

theorem Accounted.gc {u : Nat} {x : Userdata} (hu : s.userdata[u]? = some x)
    (hlive : x.phase = .live) : Accounted (s.gc u x) := by
  have hx := List.mem_of_getElem? hu
  have hold := h.objects _ (h.userdata x hx)
  have hfreed := h.not_freed hx (Or.inl hlive)
  have hpos := s.live_pos hx hlive
  obtain ⟨n, hn⟩ : ∃ n, s.holders x.object = n + 1 := by
    refine Nat.exists_eq_succ_of_ne_zero ?_
    unfold State.holders
    omega
  obtain ⟨hcounts, hlast⟩ := (hn ▸ hold.counts).release
  have honce := hold.once
  rw [hn, if_neg (Nat.succ_ne_zero n)] at honce
  have hintact := hold.intact (by omega)
  simp only [State.gc, s.touch_of_not_freed _ hfreed]
  refine h.updatePhase hu ?_
  generalize hs' : s.setObject x.object
    { s.objects x.object with refs := (s.objects x.object).refs.release.2 } = s'
  have hu' : s'.userdata[u]? = some x := by rw [← hs']; exact hu
  have hobject : s'.objects x.object =
      { s.objects x.object with refs := (s.objects x.object).refs.release.2 } := by
    rw [← hs', State.setObject_objects_self]
  -- what remains is the same for the last userdata and for the others
  have general : ∀ phase : Phase, phase ≠ .live → (phase.isDisposing = true ↔ n = 0) →
      (∀ rest, phase = .disposing rest → rest = (s.objects x.object).kind.destroyers) →
      ObjectOk (s'.setPhase u x phase) x.object := by
    intro phase hdead hdisposing hrest
    have hcountLive := s'.setPhase_live x.object hu' phase
    have hcountDisposing := s'.setPhase_disposing x.object hu' phase
    have hlive' : s'.live x.object = s.live x.object := by rw [← hs']; rfl
    have hdisposing' : s'.disposing x.object = s.disposing x.object := by rw [← hs']; rfl
    simp [hlive, hdead, hlive'] at hcountLive
    simp [hlive, hdisposing'] at hcountDisposing
    have hholders : (s'.setPhase u x phase).holders x.object = n := by
      simp only [State.holders, State.setPhase_objects, hobject] at hn ⊢
      omega
    constructor
    · rw [hholders, State.setPhase_objects, hobject]
      exact hcounts
    · rw [hholders, State.setPhase_objects, hobject]
      by_cases hzero : n = 0
      · simp only [hdisposing.mpr hzero, ite_true] at hcountDisposing
        simp only [hzero, ite_true]
        omega
      · have hfalse : phase.isDisposing = false := by
          simpa using fun htrue => hzero (hdisposing.mp htrue)
        simp only [hfalse, Bool.false_eq_true, ite_false] at hcountDisposing
        simp only [hzero, ite_false]
        omega
    · intro _
      rw [State.setPhase_objects, hobject]
      exact hintact
    · intro y hy hyo rest hphase
      rw [State.setPhase_objects, hobject]
      rcases State.mem_setPhase _ hy with rfl | ⟨j, _, hj⟩
      · rw [hrest rest hphase, hintact, List.nil_append]
      · have hj' : y ∈ s.userdata := by
          rw [← hs'] at hj
          exact List.mem_of_getElem? hj
        exact hold.rest y hj' hyo rest hphase
    · intro hone
      rw [State.setPhase_objects, hobject, hfreed] at hone
      cases hone
    · rw [State.setPhase_objects, hobject]
      exact hold.unused
  by_cases hzero : n = 0
  · rw [if_pos (hlast.mpr hzero)]
    refine general _ (by simp) (by simpa using hzero) ?_
    intro rest heq
    exact (Phase.disposing.inj heq).symm
  · rw [if_neg (fun htrue => hzero (hlast.mp htrue))]
    refine general _ (by simp) (by simpa using hzero) ?_
    intro rest heq
    cases heq

theorem Accounted.destroy {u : Nat} {x : Userdata} {f : String} {rest : List String}
    (hu : s.userdata[u]? = some x) (hphase : x.phase = .disposing (f :: rest)) :
    Accounted (s.destroy u x) := by
  have hx := List.mem_of_getElem? hu
  have hold := h.objects _ (h.userdata x hx)
  have hdisposing : x.phase.isDisposing = true := by rw [hphase]; rfl
  obtain ⟨hzero, hone, hfreed⟩ := h.disposing_alone hx hdisposing
  simp only [State.destroy, hphase, s.touch_of_not_freed _ hfreed]
  refine h.updatePhase hu ?_
  generalize hs' : s.setObject x.object
    { s.objects x.object with destroys := (s.objects x.object).destroys ++ [f] } = s'
  have hu' : s'.userdata[u]? = some x := by rw [← hs']; exact hu
  have hobject : s'.objects x.object =
      { s.objects x.object with destroys := (s.objects x.object).destroys ++ [f] } := by
    rw [← hs', State.setObject_objects_self]
  have hcountLive := s'.setPhase_live x.object hu' (.disposing rest)
  have hcountDisposing := s'.setPhase_disposing x.object hu' (.disposing rest)
  have hlive' : s'.live x.object = s.live x.object := by rw [← hs']; rfl
  have hdisposing' : s'.disposing x.object = s.disposing x.object := by rw [← hs']; rfl
  simp [hphase, hlive'] at hcountLive
  simp [hphase, hdisposing'] at hcountDisposing
  have hholders : (s'.setPhase u x (.disposing rest)).holders x.object = s.holders x.object := by
    simp only [State.holders, State.setPhase_objects, hobject, hcountLive]
  constructor
  · rw [hholders, State.setPhase_objects, hobject]
    exact hold.counts
  · rw [hholders, State.setPhase_objects, hobject, hcountDisposing]
    exact hold.once
  · intro hsome
    rw [hholders, hzero] at hsome
    cases hsome
  · intro y hy hyo rest' hrest'
    rw [State.setPhase_objects, hobject]
    rcases State.mem_setPhase _ hy with rfl | ⟨j, hne, hj⟩
    · obtain rfl := Phase.disposing.inj hrest'
      have := hold.rest x hx rfl _ hphase
      simpa using this
    · have hj' : s.userdata[j]? = some y := by rwa [← hs'] at hj
      have htwo := s.disposing_two hu hj' hne hyo hdisposing (by rw [hrest']; rfl)
      omega
  · intro hfreed'
    rw [State.setPhase_objects, hobject, hfreed] at hfreed'
    cases hfreed'
  · rw [State.setPhase_objects, hobject]
    exact hold.unused

theorem Accounted.free {u : Nat} {x : Userdata} (hu : s.userdata[u]? = some x)
    (hphase : x.phase = .disposing []) : Accounted (s.free u x) := by
  have hx := List.mem_of_getElem? hu
  have hold := h.objects _ (h.userdata x hx)
  have hdisposing : x.phase.isDisposing = true := by rw [hphase]; rfl
  obtain ⟨hzero, hone, hfreed⟩ := h.disposing_alone hx hdisposing
  simp only [State.free, s.touch_of_not_freed _ hfreed]
  refine h.updatePhase hu ?_
  generalize hs' : s.setObject x.object
    { s.objects x.object with freed := (s.objects x.object).freed + 1 } = s'
  have hu' : s'.userdata[u]? = some x := by rw [← hs']; exact hu
  have hobject : s'.objects x.object =
      { s.objects x.object with freed := (s.objects x.object).freed + 1 } := by
    rw [← hs', State.setObject_objects_self]
  have hcountLive := s'.setPhase_live x.object hu' .collected
  have hcountDisposing := s'.setPhase_disposing x.object hu' .collected
  have hlive' : s'.live x.object = s.live x.object := by rw [← hs']; rfl
  have hdisposing' : s'.disposing x.object = s.disposing x.object := by rw [← hs']; rfl
  simp [hphase, hlive'] at hcountLive
  simp [hphase, hdisposing'] at hcountDisposing
  have hholders : (s'.setPhase u x .collected).holders x.object = s.holders x.object := by
    simp only [State.holders, State.setPhase_objects, hobject, hcountLive]
  constructor
  · rw [hholders, State.setPhase_objects, hobject]
    exact hold.counts
  · rw [hholders, State.setPhase_objects, hobject, if_pos hzero]
    simp only
    omega
  · intro hsome
    rw [hholders, hzero] at hsome
    cases hsome
  · intro y hy hyo rest' hrest'
    have hpos' := State.disposing_pos _ hy (by rw [hrest']; rfl)
    rw [hyo] at hpos'
    omega
  · intro _
    rw [State.setPhase_objects, hobject]
    have := hold.rest x hx rfl _ hphase
    simpa using this
  · rw [State.setPhase_objects, hobject]
    exact hold.unused

end Steps

theorem Accounted.next {s : State} (h : Accounted s) (e : Event) (he : Enabled s e) :
    Accounted (next s e) := by
  cases e with
  | new kind => exact h.new kind
  | retain u =>
    obtain ⟨x, hu, hlive, hroom⟩ := he
    simp only [Shared.next, Option.mem_def.mp hu, Option.elim]
    exact h.retain (List.mem_of_getElem? hu) hlive hroom
  | retainNew o => exact h.retainNew he.1 he.2
  | use u =>
    obtain ⟨x, hu, hlive⟩ := he
    simp only [Shared.next, Option.mem_def.mp hu, Option.elim]
    rw [s.touch_of_not_freed _ (h.not_freed (List.mem_of_getElem? hu) (Or.inl hlive))]
    exact h
  | gc u =>
    obtain ⟨x, hu, hlive⟩ := he
    simp only [Shared.next, Option.mem_def.mp hu, Option.elim]
    exact h.gc hu hlive
  | destroy u =>
    obtain ⟨x, hu, hdisposing, hmore⟩ := he
    simp only [Shared.next, Option.mem_def.mp hu, Option.elim]
    cases hphase : x.phase with
    | disposing rest =>
      cases rest with
      | nil => exact absurd hphase hmore
      | cons f rest => exact h.destroy hu hphase
    | _ =>
      rw [hphase] at hdisposing
      cases hdisposing
  | free u =>
    obtain ⟨x, hu, hphase⟩ := he
    simp only [Shared.next, Option.mem_def.mp hu, Option.elim]
    exact h.free hu hphase

theorem accounted_init : Accounted system.init where
  objects o ho := absurd ho (Nat.not_lt_zero o)
  userdata x hx := by cases hx

theorem reachable_accounted {s : State} (h : system.Reachable s) : Accounted s :=
  h.invariant accounted_init (fun _ e hs _ he => hs.next e he)

/-- The count of every object is the number of its live userdata and of the calls of
`retain` that have counted but not made theirs.  Once that is zero, one `__gc` is
destroying the object or it has been destroyed and freed, each once; as long as it is
not, neither has begun.  No freed object has been used. -/
structure RefsExact (s : State) : Prop where
  count : ∀ o < s.count, (s.objects o).refs.toNat = s.live o + (s.objects o).retaining
  zero : ∀ o < s.count, (s.objects o).refs = 0 → s.disposing o + (s.objects o).freed = 1
  nonzero : ∀ o < s.count, (s.objects o).refs ≠ 0 →
    s.disposing o = 0 ∧ (s.objects o).freed = 0 ∧ (s.objects o).destroys = []
  freed : ∀ o < s.count, (s.objects o).freed ≤ 1 ∧
    ((s.objects o).freed = 1 → (s.objects o).destroys = (s.objects o).kind.destroyers)
  unused : ∀ o < s.count, (s.objects o).misused = false

/-- **Reference counts are exact**, in every run. -/
theorem refs_exact (s : State) (h : system.Reachable s) : RefsExact s := by
  have hacc := reachable_accounted h
  have hzero_iff : ∀ o < s.count, ((s.objects o).refs = 0 ↔ s.holders o = 0) :=
    fun o ho => (hacc.objects o ho).counts.eq_zero_iff
  constructor
  · intro o ho
    exact (hacc.objects o ho).counts
  · intro o ho hrefs
    have honce := (hacc.objects o ho).once
    rwa [if_pos ((hzero_iff o ho).mp hrefs)] at honce
  · intro o ho hrefs
    have hne : s.holders o ≠ 0 := fun hzero => hrefs ((hzero_iff o ho).mpr hzero)
    have honce := (hacc.objects o ho).once
    rw [if_neg hne] at honce
    exact ⟨by omega, by omega, (hacc.objects o ho).intact (Nat.pos_of_ne_zero hne)⟩
  · intro o ho
    have honce := (hacc.objects o ho).once
    refine ⟨?_, (hacc.objects o ho).destroyed⟩
    split at honce <;> omega
  · intro o ho
    exact (hacc.objects o ho).unused

/-- A rendezvous is shared between two Lua states, and both let go of it. -/
def shareEvents : List Event :=
  [.new .rendezvous, .retain 0, .gc 0, .retainNew 0, .use 1, .gc 1, .destroy 1, .destroy 1, .free 1]

theorem refs_exact_share :
    ∃ s, system.run shareEvents = some s ∧ (s.objects 0).freed = 1 ∧ RefsExact s := by
  have hrun : (system.run shareEvents).map (fun s => (s.objects 0).freed) = some 1 := by decide
  obtain ⟨s, hs, hfreed⟩ := Option.map_eq_some_iff.mp hrun
  exact ⟨s, hs, hfreed, refs_exact s (System.run_reachable hs)⟩

end Shared
end FluaLibs
