import FluaLibs.ZfsHandles

/-! # Who closes a handle of libzfs

The trampolines of the iterators make a userdata for every handle they are given.  Where
the library hands the handle over that userdata owns it.  Where it only lends it,
`foreach_mountpoint` and the filter of `send`, there is a second owner, and the handle is
closed twice; and `foreach_mountpoint` writes its table of handles over the cookie of the
last one.

As long as no handle is lent, exactly the open handles have a userdata, and each has one
(`Kept`).  Then every handle is closed once, and no method finds a closed one unless a
callback closes what the iteration runs on.
-/
namespace FluaLibs
namespace Libzfs

/-! ## The conditions -/

/-- No handle is lent: `foreach_mountpoint` has an empty array, and no filter is called. -/
def NoneLent (s : State) : Event → Prop
  | .foreach_mountpoint _ us => us = []
  | .deliver _ => ∀ f ∈ s.frames.head?, f.iteration ≠ .filter
  | _ => True

instance (s : State) : (e : Event) → Decidable (NoneLent s e)
  | .foreach_mountpoint _ us => inferInstanceAs (Decidable (us = []))
  | .deliver _ => inferInstanceAs (Decidable (∀ f ∈ s.frames.head?, f.iteration ≠ .filter))
  | .init | .fini _ | .openHandle _ _ _ | .handle_dup _ _ | .method _ | .iter _ _ | .send _
  | .lend _ | .ret | .finish _ | .close _ | .refresh _ _ _ _ | .alloc _ _ | .borrow _ _
  | .callGc _ | .collect _ => instDecidableTrue

/-- No handle is lent, and none is closed while an iteration runs on it. -/
def Careful (s : State) : Event → Prop
  | .close u => ∀ p ∈ s.handleOf u, ∀ f ∈ s.frames, f.target ≠ .handle p
  | e => NoneLent s e

instance (s : State) : (e : Event) → Decidable (Careful s e)
  | .close u => inferInstanceAs
    (Decidable (∀ p ∈ s.handleOf u, ∀ f ∈ s.frames, f.target ≠ .handle p))
  | .init | .fini _ | .openHandle _ _ _ | .handle_dup _ _ | .method _ | .iter _ _
  | .foreach_mountpoint _ _ | .send _ | .deliver _ | .lend _ | .ret | .finish _ | .refresh _ _ _ _
  | .alloc _ _ | .borrow _ _ | .callGc _ | .collect _ => by
    unfold Careful
    infer_instance

theorem Careful.noneLent {s : State} {e : Event} (h : Careful s e) : NoneLent s e := by
  cases e with
  | close u => trivial
  | _ => exact h

/-! ## Handles and their userdata -/

/-- The iteration has not lent a handle, and will not. -/
def Frame.Owning (f : Frame) : Prop :=
  match f.iteration with
  | .transfer _ => True
  | .foreach_mountpoint ps => ps = []
  | .filter => f.current = none

/-- A finalized userdata holds nothing, and no cookie has been overwritten. -/
def Userdata.Intact (d : Userdata) : Prop :=
  d.cookie ≠ .table ∧ (d.collected = true → d.cookie = .null)

/-- Exactly the open handles have a userdata, and each has one. -/
structure Kept (s : State) : Prop where
  handles : OwnedOnce (fun u p => s.objectOf u = some (.handle p)) s.Open
  once : ∀ h ∈ s.handles, h.closes ≤ 1
  intact : ∀ d ∈ s.userdata, d.Intact
  frames : ∀ f ∈ s.frames, f.Owning

theorem kept_init : Kept system.init where
  handles := by
    refine OwnedOnce.empty (fun u p h => ?_) (fun p h => ?_)
    · cases h
    · cases h
  once _ hh := nomatch hh
  intact _ hd := nomatch hd
  frames _ hf := nomatch hf

namespace Kept
variable {s : State} (h : Kept s)
include h

/-- Nothing of this is about the nvlists, the libzfs handles or what is recorded. -/
theorem of_same {t : State} (hhandles : t.handles = s.handles) (huserdata : t.userdata = s.userdata)
    (hframes : ∀ f ∈ t.frames, f.Owning) : Kept t where
  handles := by
    refine h.handles.congr (fun u p => ?_) (fun p => ?_)
    · rw [State.objectOf, State.objectOf, huserdata]
    · rw [State.Open, State.Open, hhandles]
  once := hhandles ▸ h.once
  intact := huserdata ▸ h.intact
  frames := hframes

theorem of_sameObjects {t : State} (hst : s.SameObjects t) : Kept t :=
  h.of_same hst.handles hst.userdata (hst.frames ▸ h.frames)

theorem use (p : Nat) : Kept (s.use p) := h.of_sameObjects (State.sameObjects_use p)

theorem useAll (ps : List Nat) : Kept (s.useAll ps) :=
  h.of_sameObjects (State.sameObjects_useAll ps)

theorem useTarget (t : Target) : Kept (s.useTarget t) :=
  h.of_sameObjects (State.sameObjects_useTarget t)

theorem intact_new (p : Nat) (m : Metatable) :
    ∀ d ∈ s.userdata ++ [⟨m, .pointer p, false⟩], d.Intact := by
  refine List.forall_mem_append.mpr ⟨h.intact, List.forall_mem_singleton.mpr ⟨?_, ?_⟩⟩
  · intro hc
    cases hc
  · intro hc
    cases hc

/-- A userdata for something else than a handle. -/
theorem new {p : Nat} {m : Metatable} {x : Object}
    (hm : (⟨m, .pointer p, false⟩ : Userdata).object = some x) (hx : ∀ q, x ≠ .handle q) :
    Kept (s.new p m) where
  handles := by
    refine h.handles.congr (fun u q => ?_) (fun _ => Iff.rfl)
    rw [State.objectOf_new_iff hm]
    simp [(hx q).symm]
  once := h.once
  intact := h.intact_new _ _
  frames := h.frames

omit h in
theorem newLists {s : State} (h : Kept s) (ns : List Nat) :
    Kept (ns.foldl (fun s n => s.new n .nvlist) s) := by
  induction ns generalizing s with
  | nil => exact h
  | cons n ns ih =>
    have hnew : Kept (s.new n .nvlist) := h.new rfl (fun q hq => by cases hq)
    exact ih hnew

/-- A new handle with its userdata. -/
theorem construct (kind : Kind) (l : Nat) (config : List Tree) :
    Kept (s.construct kind l config) where
  handles := by
    refine h.handles.acquire s.userdata.length (· = s.handles.length) ?_ (fun u p => ?_)
      (fun p => State.open_construct)
    · rintro p rfl hopen
      exact Nat.lt_irrefl _ hopen.lt
    · have hnew := State.objectOf_new_iff (s := { s with
          handles := s.handles ++ [⟨kind, l, (s.heap.plantTrees config).1, 0⟩]
          heap := (s.heap.plantTrees config).2 }) (State.object_kind kind s.handles.length) u
          (.handle p)
      rw [Object.handle.injEq] at hnew
      exact hnew
  once d hd := by
    rcases List.mem_append.mp hd with hd | hd
    · exact h.once d hd
    · rw [List.mem_singleton.mp hd]
      exact Nat.zero_le _
  intact := h.intact_new _ _
  frames := h.frames

theorem intact_setcookieNull (u : Nat) : ∀ d ∈ (s.setcookieNull u).userdata, d.Intact := by
  apply forall_mem_modify h.intact
  intro d _
  exact ⟨by simp, fun _ => rfl⟩

/-- A userdata that holds no handle lets go of what it holds. -/
theorem setcookieNull {u : Nat} (hu : ∀ p, s.objectOf u ≠ some (.handle p)) :
    Kept (s.setcookieNull u) where
  handles := by
    refine h.handles.congr (fun v p => ?_) (fun _ => Iff.rfl)
    rw [State.objectOf_setcookieNull_iff]
    constructor
    · exact And.left
    · rintro hv
      refine ⟨hv, ?_⟩
      rintro rfl
      exact hu p hv
  once := h.once
  intact := h.intact_setcookieNull u
  frames := h.frames

theorem fini (u : Nat) : Kept (s.fini u) := by
  refine keeps_of_some h (fun l hl => ?_)
  have hlib := State.libOf_eq_some.mp hl
  have hlibs : Kept { s with libs := s.libs.modify l (· + 1) } := h.of_same rfl rfl h.frames
  refine hlibs.setcookieNull (fun p hp => ?_)
  exact absurd (hlib.symm.trans hp) (by simp)

theorem gc (u : Nat) : Kept (s.gc u) := by
  refine keeps_of_some h (fun n hn => ?_)
  have hnvlist := State.nvlistOf_eq_some.mp hn
  have hheap : Kept { s with heap := s.heap.destroy n } := h.of_same rfl rfl h.frames
  refine hheap.setcookieNull (fun p hp => ?_)
  exact absurd (hnvlist.symm.trans hp) (by simp)

/-- The userdata closes its handle and lets go of it. -/
theorem closed {u p : Nat} (hu : s.objectOf u = some (.handle p)) :
    Kept ((s.closeHandle p).setcookieNull u) where
  handles := by
    refine h.handles.release (· = p) (fun v q => ?_) (fun q => State.open_closeHandle)
    rw [State.objectOf_setcookieNull_iff]
    refine and_congr_right (fun hv => ?_)
    -- the userdata of `p` is `u`, and `u` holds nothing else
    constructor
    · rintro hne rfl
      exact hne (h.handles.unique v u q hv hu)
    · rintro hne rfl
      have hsame : some (Object.handle q) = some (.handle p) := hv.symm.trans hu
      exact hne (Object.handle.inj (Option.some.inj hsame))
  once := by
    have hopen : s.Open p := h.handles.live u p hu
    refine forall_mem_modify h.once (fun d hd => ?_)
    rw [State.Open, hd, Option.map_some, Option.some.injEq] at hopen
    exact Nat.le_of_eq (congrArg (· + 1) hopen)
  intact := h.intact_setcookieNull u
  frames := h.frames

theorem close (u : Nat) : Kept (s.close u) :=
  keeps_of_some h (fun p hp => (h.use p).closed (State.handleOf_eq_some.mp hp))

theorem refreshHandle (p : Nat) (keep : List Nat) (config : List Tree) :
    Kept (s.refreshHandle p keep config) where
  handles := h.handles.congr (fun _ _ => Iff.rfl) (fun _ => State.open_refreshHandle)
  once := forall_mem_modify h.once (fun d hd => h.once d (List.mem_of_getElem? hd))
  intact := h.intact
  frames := h.frames

theorem setFrames {frames : List Frame} (hframes : ∀ f ∈ frames, f.Owning) :
    Kept (s.setFrames frames) := h.of_same rfl rfl hframes

theorem release (u : Nat) : Kept (s.release u) := ((h.fini u).close u).gc u

/-- What a finalized userdata held has been released. -/
theorem collected (u : Nat) : Kept { s.release u with
    userdata := (s.release u).userdata.modify u (fun d => { d with collected := true }) } where
  handles := by
    refine (h.release u).handles.congr (fun v p => ?_) (fun _ => Iff.rfl)
    rw [State.objectOf_collected]
  once := (h.release u).once
  intact := by
    refine forall_mem_modify (h.release u).intact (fun d hd => ?_)
    obtain ⟨htable, hcookie⟩ := (h.release u).intact d (List.mem_of_getElem? hd)
    have hnone : d.object = none := by
      have hself := State.objectOf_release_self (s := s) (u := u)
      rwa [State.objectOf, hd] at hself
    refine ⟨htable, fun _ => ?_⟩
    obtain ⟨m, c, b⟩ := d
    cases c with
    | null => rfl
    | pointer p => cases m <;> cases hnone
    | table => exact absurd rfl htable
  frames := (h.release u).frames

theorem next (e : Event) (hok : NoneLent s e) : Kept (Libzfs.next s e) := by
  cases e with
  | init =>
    have hlibs : Kept { s with libs := s.libs ++ [0] } := h.of_same rfl rfl h.frames
    exact hlibs.new rfl (fun q hq => by cases hq)
  | fini u => exact h.fini u
  | openHandle u kind config =>
    exact keeps_of_some h (fun _ _ => h.construct ..)
  | handle_dup u config =>
    simp only [Libzfs.next]
    split
    · exact h
    split
    · exact (h.use _).construct ..
    · exact h
  | method us => exact h.of_sameObjects (State.sameObjects_useAll _)
  | iter u kind =>
    simp only [Libzfs.next]
    split
    · exact h.setFrames (List.forall_mem_cons.mpr ⟨trivial, h.frames⟩)
    · exact (h.use _).setFrames (List.forall_mem_cons.mpr ⟨trivial, h.frames⟩)
    · exact h
  | foreach_mountpoint u us =>
    obtain rfl : us = [] := hok
    refine keeps_of_some h (fun _ _ => ?_)
    exact h.setFrames (List.forall_mem_cons.mpr ⟨rfl, h.frames⟩)
  | send u =>
    refine keeps_of_some h (fun p _ => ?_)
    exact (h.use p).setFrames (List.forall_mem_cons.mpr ⟨rfl, h.frames⟩)
  | deliver config =>
    refine keeps_of_cons h (fun f fs hframes => ?_)
    split
    · rename_i kind l hkind hl
      refine ((h.useTarget f.target).construct kind l config).setFrames ?_
      obtain ⟨hf, hfs⟩ := List.forall_mem_cons.mp (hframes ▸ h.frames)
      refine List.forall_mem_cons.mpr ⟨?_, hfs⟩
      -- a frame of the filter would not own what it is given
      have hfilter : f.iteration ≠ .filter := hok f (by rw [hframes]; rfl)
      cases hiter : f.iteration with
      | transfer k => simp only [Frame.Owning]
      | foreach_mountpoint ps => simp [hiter, Iteration.delivers] at hkind
      | filter => exact absurd hiter hfilter
    · exact h
  | lend i =>
    refine keeps_of_cons h (fun f fs hframes => ?_)
    have hf := (List.forall_mem_cons.mp (hframes ▸ h.frames)).1
    -- only `foreach_mountpoint` lends, and its array is empty
    have hnone : f.iteration.lends = [] := by
      unfold Frame.Owning at hf
      cases hiter : f.iteration with
      | foreach_mountpoint ps => simpa [hiter, Iteration.lends] using hf
      | _ => rfl
    rw [hnone]
    exact h
  | ret =>
    refine keeps_of_cons h (fun f fs hframes => ?_)
    obtain ⟨hf, hfs⟩ := List.forall_mem_cons.mp (hframes ▸ h.frames)
    have hcurrent : Frame.Owning { f with current := none } := by
      unfold Frame.Owning at hf ⊢
      dsimp only
      split <;> simp_all
    have hset : Kept (s.setFrames ({ f with current := none } :: fs)) :=
      h.setFrames (List.forall_mem_cons.mpr ⟨hcurrent, hfs⟩)
    split
    · rename_i p hiter hp
      simp [Frame.Owning, hiter, hp] at hf
    · exact hset
  | finish failed =>
    refine keeps_of_cons h (fun f fs hframes => ?_)
    have hfs := (List.forall_mem_cons.mp (hframes ▸ h.frames)).2
    split
    · exact h.setFrames hfs
    · exact (h.useTarget _).setFrames hfs
  | close u => exact h.close u
  | refresh u source keep config =>
    exact keeps_of_some h (fun _ _ => (h.useAll _).refreshHandle ..)
  | alloc us tree =>
    have huse := h.useAll (us.filterMap s.handleOf)
    have hheap : Kept { s.useAll (us.filterMap s.handleOf) with heap := s.heap.plantTree tree } :=
      huse.of_same rfl rfl huse.frames
    exact hheap.new rfl (fun q hq => by cases hq)
  | borrow u ns =>
    exact keeps_of_some h (fun p _ => (h.use p).newLists ns)
  | callGc u => exact h.gc u
  | collect u => exact h.collected u

end Kept

theorem reachable_kept {s : State} (h : system.ReachableBy NoneLent s) : Kept s :=
  h.invariant kept_init (fun _ e hs hok _ => hs.next e hok)

/-! ## Uses of closed handles -/

/-- What an iteration runs on is held by the userdata that it was called on, and no method has
found its handle closed. -/
structure Unclosed (s : State) : Prop where
  frames : ∀ f ∈ s.frames, ∀ p, f.target = .handle p → s.objectOf f.self = some (.handle p)
  uses : ∀ u ∈ s.uses, u.closed = false

theorem unclosed_init : Unclosed system.init where
  frames _ hf := nomatch hf
  uses _ hu := nomatch hu

namespace Unclosed
variable {s : State} (h : Unclosed s)
include h

/-- The userdata on which iterations run hold what they held. -/
theorem of_objects {t : State} (huses : t.uses = s.uses) (hframes : t.frames = s.frames)
    (hobjects : ∀ f ∈ s.frames, ∀ p, f.target = .handle p →
      s.objectOf f.self = some (.handle p) → t.objectOf f.self = some (.handle p)) :
    Unclosed t where
  frames f hf p hp := by
    rw [hframes] at hf
    exact hobjects f hf p hp (h.frames f hf p hp)
  uses := huses ▸ h.uses

theorem of_userdata {t : State} (huses : t.uses = s.uses) (hframes : t.frames = s.frames)
    (huserdata : t.userdata = s.userdata) : Unclosed t := by
  refine h.of_objects huses hframes (fun f _ p _ hself => ?_)
  rwa [State.objectOf, huserdata]

theorem setFrames {frames : List Frame} (hframes : ∀ f ∈ frames, ∀ p, f.target = .handle p →
    s.objectOf f.self = some (.handle p)) : Unclosed (s.setFrames frames) :=
  ⟨hframes, h.uses⟩

/-- The innermost call goes on. -/
theorem setHead {f : Frame} {fs : List Frame} (hs : s.frames = f :: fs) (current : Option Nat) :
    Unclosed (s.setFrames ({ f with current := current } :: fs)) := by
  obtain ⟨hf, hfs⟩ := List.forall_mem_cons.mp (hs ▸ h.frames)
  exact h.setFrames (List.forall_mem_cons.mpr ⟨hf, hfs⟩)

theorem use {p : Nat} (hp : s.Open p) : Unclosed (s.use p) where
  frames := h.frames
  uses u hu := by
    rcases List.mem_append.mp hu with hu | hu
    · exact h.uses u hu
    · rw [List.mem_singleton.mp hu]
      simp [hp]

omit h in
theorem useAll {s : State} (h : Unclosed s) {ps : List Nat} (hps : ∀ p ∈ ps, s.Open p) :
    Unclosed (s.useAll ps) := by
  induction ps generalizing s with
  | nil => exact h
  | cons p ps ih =>
    obtain ⟨hp, hrest⟩ := List.forall_mem_cons.mp hps
    exact ih (h.use hp) hrest

theorem useTarget (hkept : Kept s) {f : Frame} (hf : f ∈ s.frames) :
    Unclosed (s.useTarget f.target) := by
  cases htarget : f.target with
  | lib l => exact h
  | handle p => exact h.use (hkept.handles.live _ p (h.frames f hf p htarget))

theorem new (p : Nat) (m : Metatable) : Unclosed (s.new p m) := by
  refine h.of_objects rfl rfl (fun f _ q _ hself => ?_)
  have hlt : f.self ≠ s.userdata.length := by
    intro hlength
    rw [hlength, State.objectOf_length] at hself
    cases hself
  rw [State.objectOf_new, if_neg hlt]
  exact hself

omit h in
theorem newLists {s : State} (h : Unclosed s) (ns : List Nat) :
    Unclosed (ns.foldl (fun s n => s.new n .nvlist) s) := by
  induction ns generalizing s with
  | nil => exact h
  | cons n ns ih => exact ih (h.new n .nvlist)

theorem construct (kind : Kind) (l : Nat) (config : List Tree) :
    Unclosed (s.construct kind l config) := by
  have hhandles : Unclosed { s with
      handles := s.handles ++ [⟨kind, l, (s.heap.plantTrees config).1, 0⟩]
      heap := (s.heap.plantTrees config).2 } := h.of_userdata rfl rfl rfl
  exact hhandles.new ..

/-- A userdata on which no iteration over a handle runs lets go of what it holds. -/
theorem setcookieNull {u : Nat}
    (hu : ∀ f ∈ s.frames, ∀ p, f.target = .handle p → f.self ≠ u) :
    Unclosed (s.setcookieNull u) := by
  refine h.of_objects rfl rfl (fun f hf p hp hself => ?_)
  exact (State.objectOf_setcookieNull_iff _).mpr ⟨hself, hu f hf p hp⟩

/-- No iteration over a handle runs on a userdata of something else. -/
theorem self_ne {u : Nat} {x : Object} (hu : s.objectOf u = some x)
    (hx : ∀ f ∈ s.frames, ∀ p, f.target = .handle p → x ≠ .handle p) :
    ∀ f ∈ s.frames, ∀ p, f.target = .handle p → f.self ≠ u := by
  rintro f hf p hp rfl
  exact hx f hf p hp (Option.some.inj (hu.symm.trans (h.frames f hf p hp)))

theorem fini (u : Nat) : Unclosed (s.fini u) := by
  refine keeps_of_some h (fun l hl => ?_)
  have hself := h.self_ne (State.libOf_eq_some.mp hl) (fun _ _ p _ hx => by cases hx)
  have hlibs : Unclosed { s with libs := s.libs.modify l (· + 1) } := h.of_userdata rfl rfl rfl
  exact hlibs.setcookieNull hself

theorem gc (u : Nat) : Unclosed (s.gc u) := by
  refine keeps_of_some h (fun n hn => ?_)
  have hself := h.self_ne (State.nvlistOf_eq_some.mp hn) (fun _ _ p _ hx => by cases hx)
  have hheap : Unclosed { s with heap := s.heap.destroy n } := h.of_userdata rfl rfl rfl
  exact hheap.setcookieNull hself

theorem close (hkept : Kept s) {u : Nat}
    (hu : ∀ f ∈ s.frames, ∀ p, f.target = .handle p → f.self ≠ u) : Unclosed (s.close u) := by
  refine keeps_of_some h (fun p hp => ?_)
  have hopen := hkept.handles.live u p (State.handleOf_eq_some.mp hp)
  have hclose : Unclosed ((s.use p).closeHandle p) := (h.use hopen).of_userdata rfl rfl rfl
  exact hclose.setcookieNull hu

theorem release (hkept : Kept s) {u : Nat} (hu : ∀ f ∈ s.frames, f.self ≠ u) :
    Unclosed (s.release u) := by
  rw [State.release_eq]
  split
  · exact h.fini u
  · exact h.close hkept (fun f hf _ _ => hu f hf)
  · exact h.gc u
  · exact h

theorem refreshHandle (p : Nat) (keep : List Nat) (config : List Tree) :
    Unclosed (s.refreshHandle p keep config) := h.of_userdata rfl rfl rfl

end Unclosed

/-- A handle that a userdata holds is open. -/
theorem Kept.open_of_handleOf {s : State} (h : Kept s) {u p : Nat} (hu : s.handleOf u = some p) :
    s.Open p := h.handles.live u p (State.handleOf_eq_some.mp hu)

theorem Unclosed.next {s : State} (h : Unclosed s) (hkept : Kept s) (e : Event)
    (hok : Careful s e) (he : Enabled s e) : Unclosed (Libzfs.next s e) := by
  have hopen : ∀ us : List Nat, ∀ p ∈ us.filterMap s.handleOf, s.Open p := by
    intro us p hp
    obtain ⟨u, _, hu⟩ := List.mem_filterMap.mp hp
    exact hkept.open_of_handleOf hu
  cases e with
  | init =>
    have hlibs : Unclosed { s with libs := s.libs ++ [0] } := h.of_userdata rfl rfl rfl
    exact hlibs.new ..
  | fini u => exact h.fini u
  | openHandle u kind config =>
    exact keeps_of_some h (fun _ _ => h.construct ..)
  | handle_dup u config =>
    simp only [Libzfs.next]
    split
    · exact h
    rename_i p hp
    split
    · exact (h.use (hkept.open_of_handleOf hp)).construct ..
    · exact h
  | method us => exact h.useAll (hopen us)
  | iter u kind =>
    simp only [Libzfs.next]
    split
    · exact h.setFrames (List.forall_mem_cons.mpr ⟨(fun p hp => by cases hp), h.frames⟩)
    · rename_i p _ hp
      refine (h.use (hkept.open_of_handleOf hp)).setFrames ?_
      refine List.forall_mem_cons.mpr ⟨?_, h.frames⟩
      rintro q ⟨⟩
      exact State.handleOf_eq_some.mp hp
    · exact h
  | foreach_mountpoint u us =>
    obtain rfl : us = [] := hok
    refine keeps_of_some h (fun _ _ => ?_)
    exact h.setFrames (List.forall_mem_cons.mpr ⟨(fun p hp => by cases hp), h.frames⟩)
  | send u =>
    refine keeps_of_some h (fun p hp => ?_)
    refine (h.use (hkept.open_of_handleOf hp)).setFrames ?_
    refine List.forall_mem_cons.mpr ⟨?_, h.frames⟩
    rintro q ⟨⟩
    exact State.handleOf_eq_some.mp hp
  | deliver config =>
    refine keeps_of_cons h (fun f fs hframes => ?_)
    split
    · have htarget := h.useTarget hkept (hframes ▸ List.mem_cons_self .. : f ∈ s.frames)
      have hsame := (State.sameObjects_useTarget (s := s) f.target).frames
      exact (htarget.construct ..).setHead (hsame.trans hframes) _
    · exact h
  | lend i =>
    refine keeps_of_cons h (fun f fs hframes => ?_)
    exact keeps_of_some h (fun _ _ => (h.new ..).setHead hframes _)
  | ret =>
    refine keeps_of_cons h (fun f fs hframes => ?_)
    split
    · exact (h.setHead hframes none).of_userdata rfl rfl rfl
    · exact h.setHead hframes none
  | finish failed =>
    refine keeps_of_cons h (fun f fs hframes => ?_)
    have hfs := (List.forall_mem_cons.mp (hframes ▸ h.frames)).2
    split
    · exact h.setFrames hfs
    · have htarget := h.useTarget hkept (hframes ▸ List.mem_cons_self .. : f ∈ s.frames)
      have hsame := State.sameObjects_useTarget (s := s) f.target
      refine htarget.setFrames (fun g hg p hp => ?_)
      rw [State.objectOf, hsame.userdata]
      exact hfs g hg p hp
  | close u =>
    refine h.close hkept ?_
    -- an iteration that runs on the handle is what a careful program waits for
    rintro f hf p hp rfl
    exact hok p (State.handleOf_eq_some.mpr (h.frames f hf p hp)) f hf hp
  | refresh u source keep config =>
    refine keeps_of_some h (fun p hp => (h.useAll ?_).refreshHandle ..)
    refine List.forall_mem_cons.mpr ⟨hkept.open_of_handleOf hp, fun q hq => ?_⟩
    obtain ⟨v, _, hv⟩ := Option.bind_eq_some_iff.mp (Option.mem_toList.mp hq)
    exact hkept.open_of_handleOf hv
  | alloc us tree =>
    have huse := h.useAll (hopen us)
    have hheap : Unclosed { s.useAll (us.filterMap s.handleOf) with
        heap := s.heap.plantTree tree } := huse.of_userdata rfl rfl rfl
    exact hheap.new ..
  | borrow u ns =>
    exact keeps_of_some h (fun p hp => (h.use (hkept.open_of_handleOf hp)).newLists ns)
  | callGc u => exact h.gc u
  | collect u =>
    have hrelease := h.release hkept he.2
    exact hrelease.of_objects rfl rfl
      (fun f _ p _ hself => (State.objectOf_collected (s.release u)).trans hself)

/-! ## Every handle is closed once -/

/-- No handle has been closed twice, and none is left open when all userdata have been
finalized; no method has found its handle closed, and the userdata keep their cookies. -/
structure ClosedOnce (s : State) : Prop where
  once : ∀ h ∈ s.handles, h.closes ≤ 1
  all : (∀ d ∈ s.userdata, d.collected = true) → ∀ h ∈ s.handles, h.closes = 1
  uses : ∀ u ∈ s.uses, u.closed = false
  intact : ∀ d ∈ s.userdata, d.cookie ≠ .table

/-- When all userdata have been finalized, nothing holds a handle. -/
theorem Kept.not_holds {s : State} (h : Kept s) (hall : ∀ d ∈ s.userdata, d.collected = true)
    (u : Nat) : s.objectOf u = none := by
  unfold State.objectOf
  cases hd : s.userdata[u]? with
  | none => rfl
  | some d =>
    have hmem := List.mem_of_getElem? hd
    have hnull := (h.intact d hmem).2 (hall d hmem)
    obtain ⟨m, c, b⟩ := d
    obtain rfl : c = .null := hnull
    cases m <;> rfl

theorem Kept.closedOnce {s : State} (h : Kept s) (hunclosed : Unclosed s) : ClosedOnce s where
  once := h.once
  all hall d hd := by
    have hnone : ∀ u p, s.objectOf u ≠ some (.handle p) := by
      intro u p hu
      rw [h.not_holds hall u] at hu
      cases hu
    obtain ⟨p, hp⟩ := List.mem_iff_getElem?.mp hd
    have hclosed := h.handles.not_live hnone p
    rw [State.Open, hp, Option.map_some, Option.some.injEq] at hclosed
    have honce := h.once d hd
    omega
  uses := hunclosed.uses
  intact d hd := (h.intact d hd).1

/-- **Every handle is closed once** in a run in which none is lent and no callback closes what
its iteration runs on. -/
theorem handles_closed_once (s : State) (h : system.ReachableBy Careful s) : ClosedOnce s := by
  have hkept : ∀ s, system.ReachableBy Careful s → Kept s :=
    fun _ hs => reachable_kept (hs.mono (fun _ _ hok => hok.noneLent))
  have hunclosed : Unclosed s := h.invariant_under hkept unclosed_init
    (fun _ e hkept hs hok he => hs.next hkept e hok he)
  exact (hkept s h).closedOnce hunclosed

/-- An iteration whose callback keeps the handle it gets. -/
def keptEvents : List Event :=
  [.init, .openHandle 0 .zfs [], .iter 1 .zfs, .deliver [], .ret, .finish false, .handle_dup 2 [],
    .close 2, .collect 1, .collect 2, .collect 3, .collect 0]

theorem handles_closed_once_iter : ∃ s, system.run keptEvents = some s ∧
    (∀ d ∈ s.userdata, d.collected = true) ∧ ClosedOnce s := by
  have hrun : ((system.restrict Careful (fun _ _ => inferInstance)).run keptEvents).map
      (fun s => s.userdata.all (fun d => d.collected)) = some true := by decide +kernel
  obtain ⟨s, hs, hall⟩ := Option.map_eq_some_iff.mp hrun
  refine ⟨s, System.run_of_restrict hs, ?_, handles_closed_once s (System.run_restrict hs)⟩
  exact fun d hd => List.all_eq_true.mp hall d hd

/-- The last handle of the array of `foreach_mountpoint` loses its cookie. -/
theorem not_handles_closed_once : ¬ ∀ s, system.Reachable s → ClosedOnce s := by
  intro h
  have hrun : (system.run [.init, .openHandle 0 .zfs [], .foreach_mountpoint 0 [1]]).map
      (fun s => s.userdata[1]?.map Userdata.cookie) = some (some .table) := by decide
  obtain ⟨s, hs, hcookie⟩ := Option.map_eq_some_iff.mp hrun
  obtain ⟨d, hd, htable⟩ := Option.map_eq_some_iff.mp hcookie
  exact (h s (System.run_reachable hs)).intact d (List.mem_of_getElem? hd) htable

end Libzfs
end FluaLibs
