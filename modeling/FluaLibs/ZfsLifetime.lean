import FluaLibs.ZfsHandles

/-! # How long a libzfs handle lives

Every handle keeps a pointer to the libzfs handle it was opened from, and its methods use
it.  Lua does not know: `new` records no reference, so the libzfs handle may be finished,
by the program or by the collector, while handles from it are in use.

As long as a libzfs handle is finished only when no userdata and no iteration has a handle
from it any more, no method runs on a handle whose libzfs handle is gone.
-/
namespace FluaLibs
namespace Libzfs

namespace State
variable (s : State)

/-- The libzfs handle has been made and not finished. -/
def LibAlive (l : Nat) : Prop := s.libs[l]? = some 0

/-- The handle has been opened from a libzfs handle that has not been finished. -/
def HandleAlive (p : Nat) : Prop := ∃ l, s.handleLib p = some l ∧ s.LibAlive l

/-- What an iteration runs on is alive. -/
def TargetAlive : Target → Prop
  | .lib l => s.LibAlive l
  | .handle p => s.HandleAlive p

/-- No userdata has a handle that was opened from `l`, and no iteration runs on one, or on `l`
itself, or has been given one. -/
def Unneeded (l : Nat) : Prop :=
  (∀ u < s.userdata.length, ∀ p ∈ s.handleOf u, s.handleLib p ≠ some l) ∧
    ∀ f ∈ s.frames, s.targetLib f.target ≠ some l ∧
      ∀ p ∈ f.iteration.lends, s.handleLib p ≠ some l

instance (l : Nat) : Decidable (s.Unneeded l) :=
  inferInstanceAs (Decidable ((∀ u < _, ∀ p ∈ s.handleOf u, _) ∧ _))

end State

/-- A libzfs handle is finished, or its userdata collected, only when it is not needed. -/
def FinishedLast (s : State) : Event → Prop
  | .fini u | .collect u => ∀ l ∈ s.libOf u, s.Unneeded l
  | _ => True

instance (s : State) : (e : Event) → Decidable (FinishedLast s e)
  | .fini u | .collect u => inferInstanceAs (Decidable (∀ l ∈ s.libOf u, s.Unneeded l))
  | .init | .openHandle _ _ _ | .handle_dup _ _ | .method _ | .iter _ _ | .foreach_mountpoint _ _
  | .send _ | .deliver _ | .lend _ | .ret | .finish _ | .close _ | .refresh _ _ _ _ | .alloc _ _
  | .borrow _ _ | .callGc _ => instDecidableTrue

/-! ## What is alive -/

/-- Whatever a userdata holds, or an iteration runs on or has been given, is alive, and no
method has found its libzfs handle finished. -/
structure LibsKept (s : State) : Prop where
  libs : ∀ u l, s.objectOf u = some (.lib l) → s.LibAlive l
  unique : ∀ u v l, s.objectOf u = some (.lib l) → s.objectOf v = some (.lib l) → u = v
  handles : ∀ u p, s.objectOf u = some (.handle p) → s.HandleAlive p
  targets : ∀ f ∈ s.frames, s.TargetAlive f.target
  lends : ∀ f ∈ s.frames, ∀ p ∈ f.iteration.lends, s.HandleAlive p
  uses : ∀ u ∈ s.uses, u.finished = false

/-- There is nothing to keep at first. -/
theorem libsKept_init : LibsKept system.init where
  libs _ _ h := by cases h
  unique _ _ _ h := by cases h
  handles _ _ h := by cases h
  targets _ hf := nomatch hf
  lends _ hf := nomatch hf
  uses _ hu := nomatch hu

namespace State
variable {s : State}

/-- The methods of a live handle find its libzfs handle. -/
theorem HandleAlive.not_finished {p : Nat} (h : s.HandleAlive p) : ¬ s.HandleFinished p := by
  obtain ⟨l, hl, halive⟩ := h
  rintro ⟨l', hl', hfinished⟩
  obtain rfl := Option.some.inj (hl.symm.trans hl')
  apply hfinished
  rw [show s.libs[l]? = some 0 from halive]
  rfl

/-- A step that ends nothing ends no target. -/
theorem TargetAlive.mono {t : State} {x : Target} (h : s.TargetAlive x)
    (hlibs : ∀ l, s.LibAlive l → t.LibAlive l) (hhandles : ∀ p, s.HandleAlive p → t.HandleAlive p) :
    t.TargetAlive x := by
  cases x with
  | lib l => exact hlibs l h
  | handle p => exact hhandles p h

/-- A new handle leaves the others where they were. -/
theorem handleLib_concat {h : Handle} {p l : Nat} (hp : s.handleLib p = some l) :
    (s.handles ++ [h])[p]?.map Handle.lib = some l := by
  obtain ⟨d, hd, hl⟩ := Option.map_eq_some_iff.mp hp
  rw [List.getElem?_append_left (List.getElem?_eq_some_iff.mp hd).1, hd]
  exact congrArg some hl

/-- A change of a handle leaves it to its libzfs handle. -/
theorem handleLib_modify {f : Handle → Handle} (hf : ∀ h, (f h).lib = h.lib) (p q : Nat) :
    (s.handles.modify p f)[q]?.map Handle.lib = s.handleLib q := by
  rw [handleLib, List.getElem?_modify]
  cases s.handles[q]? with
  | none => rfl
  | some d => by_cases hq : p = q <;> simp [hq, hf]

/-- A new libzfs handle ends none. -/
theorem LibAlive.concat {l : Nat} (h : s.LibAlive l) : (s.libs ++ [0])[l]? = some 0 := by
  rw [List.getElem?_append_left (List.getElem?_eq_some_iff.mp h).1]
  exact h

/-- The state in which `libzfs_fini` has been called on `l` once more. -/
def finishLib (s : State) (l : Nat) : State := { s with libs := s.libs.modify l (· + 1) }

/-- A libzfs handle is finished that is another one. -/
theorem LibAlive.finishLib {l l' : Nat} (hne : l' ≠ l) (h : s.LibAlive l') :
    (s.finishLib l).LibAlive l' := by
  show (s.libs.modify l (· + 1))[l']? = some 0
  rw [List.getElem?_modify, show s.libs[l']? = some 0 from h]
  simp [Ne.symm hne]

/-- A libzfs handle is finished that is not the one of this handle. -/
theorem HandleAlive.finishLib {p l : Nat} (hne : s.handleLib p ≠ some l) (h : s.HandleAlive p) :
    (s.finishLib l).HandleAlive p := by
  obtain ⟨l', hl', halive⟩ := h
  refine ⟨l', hl', halive.finishLib ?_⟩
  rintro rfl
  exact hne hl'

/-- The libzfs handle of the target is another one than the one that is finished. -/
theorem TargetAlive.finishLib {t : Target} {l : Nat} (hne : s.targetLib t ≠ some l)
    (h : s.TargetAlive t) : (s.finishLib l).TargetAlive t := by
  cases t with
  | lib l' => exact LibAlive.finishLib (fun hl' => hne (congrArg some hl')) h
  | handle p => exact HandleAlive.finishLib hne h

theorem objectOf_lt {u : Nat} {x : Object} (h : s.objectOf u = some x) : u < s.userdata.length := by
  obtain ⟨d, hd, _⟩ := Option.bind_eq_some_iff.mp h
  exact (List.getElem?_eq_some_iff.mp hd).1

theorem overwrite_libs (o : Option Nat) : (s.overwrite o).libs = s.libs := by
  cases o <;> rfl

theorem overwrite_handles (o : Option Nat) : (s.overwrite o).handles = s.handles := by
  cases o <;> rfl

theorem libAlive_overwrite {o : Option Nat} {l : Nat} :
    (s.overwrite o).LibAlive l ↔ s.LibAlive l := by
  rw [LibAlive, LibAlive, overwrite_libs]

theorem handleAlive_overwrite {o : Option Nat} {p : Nat} :
    (s.overwrite o).HandleAlive p ↔ s.HandleAlive p := by
  simp only [HandleAlive, handleLib, overwrite_handles, libAlive_overwrite]

/-- What an overwritten cookie pointed to is held no more. -/
theorem objectOf_overwrite {o : Option Nat} {v : Nat} {x : Object}
    (h : (s.overwrite o).objectOf v = some x) : s.objectOf v = some x := by
  cases o with
  | none => exact h
  | some u =>
    have hmodify : (s.overwrite (some u)).objectOf v = if v = u then none else s.objectOf v :=
      bind_modify_none (fun d => by cases d with | mk m c b => cases m <;> rfl) u v
    rw [hmodify] at h
    split at h
    · cases h
    · exact h

theorem targetAlive_lib {t : Target} {l : Nat} (h : s.TargetAlive t)
    (hl : s.targetLib t = some l) : s.LibAlive l := by
  cases t with
  | lib l' => exact Option.some.inj hl ▸ h
  | handle p =>
    obtain ⟨l', hl', halive⟩ := h
    obtain rfl := Option.some.inj (hl'.symm.trans hl)
    exact halive

end State

namespace LibsKept
variable {s : State} (h : LibsKept s)
include h

/-- What was alive is so still, and nothing is held or run on that was not before. -/
theorem of_alive {t : State} (hlibs : ∀ l, s.LibAlive l → t.LibAlive l)
    (hhandles : ∀ p, s.HandleAlive p → t.HandleAlive p)
    (hobjects : ∀ u x, t.objectOf u = some x → s.objectOf u = some x)
    (hframes : t.frames = s.frames) (huses : t.uses = s.uses) : LibsKept t where
  libs u l hu := hlibs l (h.libs u l (hobjects u _ hu))
  unique u v l hu hv := h.unique u v l (hobjects u _ hu) (hobjects v _ hv)
  handles u p hu := hhandles p (h.handles u p (hobjects u _ hu))
  targets f hf := by
    rw [hframes] at hf
    exact (h.targets f hf).mono hlibs hhandles
  lends f hf p hp := by
    rw [hframes] at hf
    exact hhandles p (h.lends f hf p hp)
  uses := huses ▸ h.uses

/-- The iterations change, and run on what is alive. -/
theorem setFrames {frames : List Frame} (htargets : ∀ f ∈ frames, s.TargetAlive f.target)
    (hlends : ∀ f ∈ frames, ∀ p ∈ f.iteration.lends, s.HandleAlive p) :
    LibsKept (s.setFrames frames) :=
  ⟨h.libs, h.unique, h.handles, htargets, hlends, h.uses⟩

/-- The innermost call goes on, or returns. -/
theorem setHead {f : Frame} {fs : List Frame} (hs : s.frames = f :: fs) (current : Option Nat) :
    LibsKept (s.setFrames ({ f with current := current } :: fs)) := by
  obtain ⟨htarget, htargets⟩ := List.forall_mem_cons.mp (hs ▸ h.targets)
  obtain ⟨hlend, hlends⟩ := List.forall_mem_cons.mp (hs ▸ h.lends)
  exact h.setFrames (List.forall_mem_cons.mpr ⟨htarget, htargets⟩)
    (List.forall_mem_cons.mpr ⟨hlend, hlends⟩)

/-- The innermost iteration is over. -/
theorem setTail {f : Frame} {fs : List Frame} (hs : s.frames = f :: fs) :
    LibsKept (s.setFrames fs) :=
  h.setFrames (List.forall_mem_cons.mp (hs ▸ h.targets)).2
    (List.forall_mem_cons.mp (hs ▸ h.lends)).2

/-- An iteration begins. -/
theorem call {u : Nat} {t : Target} {iteration : Iteration} (ht : s.TargetAlive t)
    (hlends : ∀ p ∈ iteration.lends, s.HandleAlive p) : LibsKept (s.call u t iteration) :=
  h.setFrames (List.forall_mem_cons.mpr ⟨ht, h.targets⟩)
    (List.forall_mem_cons.mpr ⟨hlends, h.lends⟩)

/-- A method uses a handle. -/
theorem use {p : Nat} (hp : s.HandleAlive p) : LibsKept (s.use p) where
  libs := h.libs
  unique := h.unique
  handles := h.handles
  targets := h.targets
  lends := h.lends
  uses u hu := by
    rcases List.mem_append.mp hu with hu | hu
    · exact h.uses u hu
    · rw [List.mem_singleton.mp hu]
      simp [hp.not_finished]

omit h in
theorem useAll {s : State} (h : LibsKept s) {ps : List Nat} (hps : ∀ p ∈ ps, s.HandleAlive p) :
    LibsKept (s.useAll ps) := by
  induction ps generalizing s with
  | nil => exact h
  | cons p ps ih =>
    obtain ⟨hp, hrest⟩ := List.forall_mem_cons.mp hps
    exact ih (h.use hp) hrest

/-- The library works on the target of an iteration. -/
theorem useTarget {t : Target} (ht : s.TargetAlive t) : LibsKept (s.useTarget t) := by
  cases t with
  | lib l => exact h
  | handle p => exact h.use ht

/-- A userdata gets a pointer to something that is alive, and to a libzfs handle only as its first
owner. -/
theorem new {p : Nat} {m : Metatable} {x : Object}
    (hm : (⟨m, .pointer p, false⟩ : Userdata).object = some x)
    (hlib : ∀ l, x = .lib l → s.LibAlive l ∧ ∀ u, s.objectOf u ≠ some (.lib l))
    (hhandle : ∀ q, x = .handle q → s.HandleAlive q) : LibsKept (s.new p m) where
  libs u l hu := by
    rcases (State.objectOf_new_iff hm u _).mp hu with hu | ⟨_, hx⟩
    · exact h.libs u l hu
    · exact (hlib l hx.symm).1
  unique u v l hu hv := by
    rcases (State.objectOf_new_iff hm u _).mp hu with hu | ⟨rfl, hx⟩ <;>
      rcases (State.objectOf_new_iff hm v _).mp hv with hv | ⟨rfl, hx'⟩
    · exact h.unique u v l hu hv
    · exact absurd hu ((hlib l hx'.symm).2 u)
    · exact absurd hv ((hlib l hx.symm).2 v)
    · rfl
  handles u q hu := by
    rcases (State.objectOf_new_iff hm u _).mp hu with hu | ⟨_, hx⟩
    · exact h.handles u q hu
    · exact hhandle q hx.symm
  targets := h.targets
  lends := h.lends
  uses := h.uses

/-- A userdata for an nvlist. -/
theorem newList (n : Nat) : LibsKept (s.new n .nvlist) :=
  h.new rfl (fun _ hx => by cases hx) (fun _ hx => by cases hx)

omit h in
/-- Userdata for nvlists hold no handle. -/
theorem newLists {s : State} (h : LibsKept s) (ns : List Nat) :
    LibsKept (ns.foldl (fun s n => s.new n .nvlist) s) := by
  induction ns generalizing s with
  | nil => exact h
  | cons n ns ih => exact ih (h.newList n)

/-- A new handle, from a libzfs handle that is alive. -/
theorem construct {l : Nat} (hl : s.LibAlive l) (kind : Kind) (config : List Tree) :
    LibsKept (s.construct kind l config) := by
  have hhandles : LibsKept { s with
      handles := s.handles ++ [⟨kind, l, (s.heap.plantTrees config).1, 0⟩]
      heap := (s.heap.plantTrees config).2 } := by
    refine h.of_alive (fun _ hl => hl) ?_ (fun _ _ hu => hu) rfl rfl
    rintro p ⟨l', hl', halive⟩
    exact ⟨l', State.handleLib_concat hl', halive⟩
  refine hhandles.new (State.object_kind kind s.handles.length) (fun _ hx => by cases hx) ?_
  rintro q ⟨⟩
  refine ⟨l, ?_, hl⟩
  rw [State.handleLib, List.getElem?_concat_length]
  rfl

theorem setcookieNull (u : Nat) : LibsKept (s.setcookieNull u) :=
  h.of_alive (fun _ hl => hl) (fun _ hp => hp)
    (fun _ x hv => ((State.objectOf_setcookieNull_iff x).mp hv).1) rfl rfl

/-- A handle that is closed keeps its libzfs handle. -/
theorem closeHandle (p : Nat) : LibsKept (s.closeHandle p) := by
  refine h.of_alive (fun _ hl => hl) ?_ (fun _ _ hu => hu) rfl rfl
  rintro q ⟨l, hl, halive⟩
  have hsame := State.handleLib_modify (s := s)
    (f := fun d => { d with closes := d.closes + 1 }) (fun _ => rfl) p q
  exact ⟨l, hsame.trans hl, halive⟩

/-- So does one that is refreshed. -/
theorem refreshHandle (p : Nat) (keep : List Nat) (config : List Tree) :
    LibsKept (s.refreshHandle p keep config) := by
  refine h.of_alive (fun _ hl => hl) ?_ (fun _ _ hu => hu) rfl rfl
  rintro q ⟨l, hl, halive⟩
  have hsame := State.handleLib_modify (s := s) (f := fun d => { d with
    config := d.config.filter (· ∈ keep) ++ (s.heap.plantTrees config).1 }) (fun _ => rfl) p q
  exact ⟨l, hsame.trans hl, halive⟩

theorem gc (u : Nat) : LibsKept (s.gc u) := by
  refine keeps_of_some h (fun n _ => ?_)
  have hheap : LibsKept { s with heap := s.heap.destroy n } :=
    h.of_alive (fun _ hl => hl) (fun _ hp => hp) (fun _ _ hu => hu) rfl rfl
  exact hheap.setcookieNull u

/-- A handle that a userdata holds is alive. -/
theorem alive_of_handleOf {u p : Nat} (hu : s.handleOf u = some p) : s.HandleAlive p :=
  h.handles u p (State.handleOf_eq_some.mp hu)

theorem close (u : Nat) : LibsKept (s.close u) := by
  refine keeps_of_some h (fun p hp => ?_)
  exact ((h.use (h.alive_of_handleOf hp)).closeHandle p).setcookieNull u

/-- Nothing that is held or run on needs the libzfs handle that is finished. -/
theorem fini {u : Nat} (hu : ∀ l ∈ s.libOf u, s.Unneeded l) : LibsKept (s.fini u) := by
  refine keeps_of_some h (fun l hl => ?_)
  obtain ⟨huserdata, hframes⟩ := hu l hl
  have hlib := State.libOf_eq_some.mp hl
  have hobjects : ∀ v x, ((s.finishLib l).setcookieNull u).objectOf v = some x →
      s.objectOf v = some x ∧ v ≠ u :=
    fun v x => (State.objectOf_setcookieNull_iff (s := s.finishLib l) x).mp
  refine ⟨fun v l' hv => ?_, fun v w l' hv hw => ?_, fun v p hv => ?_, fun f hf => ?_,
    fun f hf p hp => ?_, h.uses⟩
  · -- a libzfs handle has one userdata
    obtain ⟨hheld, hvu⟩ := hobjects v _ hv
    refine State.LibAlive.finishLib ?_ (h.libs v l' hheld)
    rintro rfl
    exact hvu (h.unique v u l' hheld hlib)
  · exact h.unique v w l' (hobjects v _ hv).1 (hobjects w _ hw).1
  · obtain ⟨hheld, _⟩ := hobjects v _ hv
    have hne := huserdata v (State.objectOf_lt hheld) p (State.handleOf_eq_some.mpr hheld)
    exact State.HandleAlive.finishLib hne (h.handles v p hheld)
  · exact State.TargetAlive.finishLib (hframes f hf).1 (h.targets f hf)
  · exact State.HandleAlive.finishLib ((hframes f hf).2 p hp) (h.lends f hf p hp)

/-- **`fini`** ends only what nothing else needs. -/
theorem release {u : Nat} (hu : ∀ l ∈ s.libOf u, s.Unneeded l) : LibsKept (s.release u) := by
  rw [State.release_eq]
  split
  · exact h.fini hu
  · exact h.close u
  · exact h.gc u
  · exact h

theorem collected {u : Nat} (hu : ∀ l ∈ s.libOf u, s.Unneeded l) :
    LibsKept { s.release u with
      userdata := (s.release u).userdata.modify u (fun d => { d with collected := true }) } := by
  refine (h.release hu).of_alive (fun _ hl => hl) (fun _ hp => hp) (fun v x hv => ?_) rfl rfl
  exact (State.objectOf_collected (s.release u)).symm.trans hv

/-- A userdata that has lost its pointer holds nothing. -/
theorem overwrite (o : Option Nat) : LibsKept (s.overwrite o) := by
  apply h.of_alive
  · exact fun _ => State.libAlive_overwrite.mpr
  · exact fun _ => State.handleAlive_overwrite.mpr
  · exact fun _ _ => State.objectOf_overwrite
  · cases o <;> rfl
  · cases o <;> rfl

/-- A libzfs handle that a userdata holds is alive. -/
theorem alive_of_libOf {u l : Nat} (hu : s.libOf u = some l) : s.LibAlive l :=
  h.libs u l (State.libOf_eq_some.mp hu)

theorem alive_of_filterMap (us : List Nat) : ∀ p ∈ us.filterMap s.handleOf, s.HandleAlive p := by
  intro p hp
  obtain ⟨u, _, hu⟩ := List.mem_filterMap.mp hp
  exact h.alive_of_handleOf hu

/-- **A step** that finishes only what is not needed keeps all that is in use alive. -/
theorem next (e : Event) (hok : FinishedLast s e) : LibsKept (Libzfs.next s e) := by
  cases e with
  | init =>
    have hlibs : LibsKept { s with libs := s.libs ++ [0] } := by
      refine h.of_alive (fun l hl => State.LibAlive.concat hl) ?_ (fun _ _ hu => hu) rfl rfl
      rintro p ⟨l, hl, halive⟩
      exact ⟨l, hl, State.LibAlive.concat halive⟩
    refine hlibs.new rfl ?_ (fun _ hx => by cases hx)
    rintro l ⟨⟩
    -- no userdata has the new libzfs handle yet, or it would be one that is there
    refine ⟨List.getElem?_concat_length, fun u hu => ?_⟩
    have halive := h.libs u _ hu
    rw [State.LibAlive, List.getElem?_eq_none (Nat.le_refl _)] at halive
    cases halive
  | fini u => exact h.fini hok
  | openHandle u kind config =>
    exact keeps_of_some h (fun l hl => h.construct (h.alive_of_libOf hl) ..)
  | handle_dup u config =>
    simp only [Libzfs.next]
    split
    · exact h
    rename_i p hp
    split
    · rename_i l hl
      have halive := h.alive_of_handleOf hp
      exact (h.use halive).construct (State.targetAlive_lib (t := .handle p) halive hl) ..
    · exact h
  | method us => exact h.useAll (h.alive_of_filterMap us)
  | iter u kind =>
    simp only [Libzfs.next]
    split
    · rename_i l hl
      exact h.call (h.alive_of_libOf hl) (fun p hp => by cases hp)
    · rename_i p _ hp
      have halive := h.alive_of_handleOf hp
      exact (h.use halive).call halive (fun p hp => by cases hp)
    · exact h
  | foreach_mountpoint u us =>
    refine keeps_of_some h (fun l hl => (h.overwrite us.getLast?).call ?_ ?_)
    · exact State.libAlive_overwrite.mpr (h.alive_of_libOf hl)
    · exact fun p hp => State.handleAlive_overwrite.mpr (h.alive_of_filterMap us p hp)
  | send u =>
    refine keeps_of_some h (fun p hp => ?_)
    have halive := h.alive_of_handleOf hp
    exact (h.use halive).call halive (fun p hp => by cases hp)
  | deliver config =>
    refine keeps_of_cons h (fun f fs hframes => ?_)
    split
    · rename_i kind l hkind hl
      have htarget := h.targets f (hframes ▸ List.mem_cons_self ..)
      have hsame := State.sameObjects_useTarget (s := s) f.target
      -- what is delivered belongs to the libzfs handle of what the iteration runs on
      have halive : (s.useTarget f.target).LibAlive l := by
        rw [State.LibAlive, hsame.libs]
        exact State.targetAlive_lib htarget hl
      exact ((h.useTarget htarget).construct halive kind config).setHead
        (hsame.frames.trans hframes) _
    · exact h
  | lend i =>
    refine keeps_of_cons h (fun f fs hframes => ?_)
    refine keeps_of_some h (fun p hp => ?_)
    have hmem : f ∈ s.frames := hframes ▸ List.mem_cons_self ..
    have halive := h.lends f hmem p (List.mem_of_getElem? hp)
    have hnew : LibsKept (s.new p .zfs_handle) := by
      refine h.new rfl (fun _ hx => by cases hx) ?_
      rintro q ⟨⟩
      exact halive
    exact hnew.setHead hframes _
  | ret =>
    refine keeps_of_cons h (fun f fs hframes => ?_)
    split
    · exact (h.setHead hframes none).closeHandle _
    · exact h.setHead hframes none
  | finish failed =>
    refine keeps_of_cons h (fun f fs hframes => ?_)
    split
    · exact h.setTail hframes
    · have htarget := h.targets f (hframes ▸ List.mem_cons_self ..)
      have hsame := State.sameObjects_useTarget (s := s) f.target
      exact (h.useTarget htarget).setTail (hsame.frames.trans hframes)
  | close u => exact h.close u
  | refresh u source keep config =>
    refine keeps_of_some h (fun p hp => (h.useAll ?_).refreshHandle ..)
    refine List.forall_mem_cons.mpr ⟨h.alive_of_handleOf hp, fun q hq => ?_⟩
    obtain ⟨v, _, hv⟩ := Option.bind_eq_some_iff.mp (Option.mem_toList.mp hq)
    exact h.alive_of_handleOf hv
  | alloc us tree =>
    have huse := h.useAll (h.alive_of_filterMap us)
    have hheap : LibsKept { s.useAll (us.filterMap s.handleOf) with
        heap := s.heap.plantTree tree } :=
      huse.of_alive (fun _ hl => hl) (fun _ hp => hp) (fun _ _ hu => hu) rfl rfl
    exact hheap.newList _
  | borrow u ns =>
    exact keeps_of_some h (fun p hp => (h.use (h.alive_of_handleOf hp)).newLists ns)
  | callGc u => exact h.gc u
  | collect u => exact h.collected hok

end LibsKept

/-! ## No method after libzfs_fini -/

/-- No method has run on a handle whose libzfs handle had been finished. -/
def NotOutlived (s : State) : Prop := ∀ u ∈ s.uses, u.finished = false

instance (s : State) : Decidable (NotOutlived s) := inferInstanceAs (Decidable (∀ u ∈ s.uses, _))

/-- **No handle outlives its libzfs handle** in a run in which a libzfs handle is finished, by
the program or the collector, only when nothing needs it. -/
theorem handles_not_outlive (s : State) (h : system.ReachableBy FinishedLast s) :
    NotOutlived s := by
  have hkept : LibsKept s := h.invariant libsKept_init (fun _ e hs hok _ => hs.next e hok)
  exact hkept.uses

/-- An iteration over a dataset; all that it has made is collected before the libzfs handle. -/
def finishedLastEvents : List Event :=
  [.init, .openHandle 0 .zfs [], .iter 1 .zfs, .deliver [], .ret, .finish false, .method [1, 2],
    .close 2, .collect 1, .collect 2, .collect 0]

theorem handles_not_outlive_iter : ∃ s, system.run finishedLastEvents = some s ∧
    s.libs = [1] ∧ s.uses.length = 7 ∧ NotOutlived s := by
  have hrun : ((system.restrict FinishedLast (fun _ _ => inferInstance)).run
      finishedLastEvents).map (fun s => (s.libs, s.uses.length)) = some ([1], 7) := by
    decide +kernel
  obtain ⟨s, hs, hlibs⟩ := Option.map_eq_some_iff.mp hrun
  obtain ⟨hlibs, huses⟩ := Prod.mk.inj hlibs
  exact ⟨s, System.run_of_restrict hs, hlibs, huses,
    handles_not_outlive s (System.run_restrict hs)⟩

/-- The collector takes the libzfs handle of a dataset that is still in use. -/
theorem not_handles_not_outlive : ¬ ∀ s, system.Reachable s → NotOutlived s := by
  intro h
  have hrun : (system.run [.init, .openHandle 0 .zfs [], .collect 0, .method [1]]).map
      (fun s => decide (NotOutlived s)) = some false := by decide
  obtain ⟨s, hs, hout⟩ := Option.map_eq_some_iff.mp hrun
  exact of_decide_eq_false hout (h s (System.run_reachable hs))

end Libzfs
end FluaLibs
