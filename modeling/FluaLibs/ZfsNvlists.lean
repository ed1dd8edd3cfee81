import FluaLibs.ZfsOwnership
import Mathlib.Tactic.Tauto

/-! # Who frees an nvlist of libzfs

Every nvlist that a method returns is pushed by `pushnvlist`, and the userdata frees it.
That is right for the lists which libzfs allocates, or of which the binding makes a copy.
The lists that `get_config`, `get_features`, the `find_vdev` methods and `get_clones_nvl`
return belong to the handle, which frees them as well.

As long as no such list is returned, every list that is not inside another has one owner:
a userdata, or the open handle whose configuration it is (`ListsOwned`).
-/
namespace FluaLibs
namespace Libzfs

/-- What can own an nvlist. -/
inductive Owner where
  | userdata (u : Nat)
  | handle (p : Nat)

/-- A userdata owns the list it holds, an open handle those of its configuration. -/
def State.Owns (s : State) : Owner → Nat → Prop
  | .userdata u, n => s.objectOf u = some (.nvlist n)
  | .handle p, n => s.Open p ∧ n ∈ s.configOf p

/-- No list of a configuration is returned, and no handle is lent. -/
def NoneBorrowed (s : State) : Event → Prop
  | .borrow _ ns => ns = []
  | e => NoneLent s e

instance (s : State) : (e : Event) → Decidable (NoneBorrowed s e)
  | .borrow _ ns => inferInstanceAs (Decidable (ns = []))
  | .init | .fini _ | .openHandle _ _ _ | .handle_dup _ _ | .method _ | .iter _ _
  | .foreach_mountpoint _ _ | .send _ | .deliver _ | .lend _ | .ret | .finish _ | .close _
  | .refresh _ _ _ _ | .alloc _ _ | .callGc _ | .collect _ => by
    unfold NoneBorrowed
    infer_instance

theorem NoneBorrowed.noneLent {s : State} {e : Event} (h : NoneBorrowed s e) : NoneLent s e := by
  cases e with
  | borrow u ns => trivial
  | _ => exact h

/-! ## Lists and their owners -/

/-- The lists that are not inside another have one owner each. -/
structure ListsOwned (s : State) : Prop where
  heap : s.heap.WellFormed
  lists : OwnedOnce s.Owns s.heap.Root
  nodup : ∀ h ∈ s.handles, h.config.Nodup

theorem listsOwned_init : ListsOwned system.init where
  heap := Forest.wellFormed_nil
  lists := by
    refine OwnedOnce.empty (fun o n h => ?_) (fun n h => ?_)
    · cases o with
      | userdata u => cases h
      | handle p => cases h.1
    · exact absurd h.1.1 (Nat.not_lt_zero _)
  nodup _ hh := nomatch hh

namespace State
variable {s : State}

theorem configOf_eq {p : Nat} {d : Handle} (hd : s.handles[p]? = some d) :
    s.configOf p = d.config := by
  rw [configOf, hd]
  rfl

theorem configOf_construct {kind : Kind} {l p : Nat} {config : List Tree} :
    (s.construct kind l config).configOf p =
      if p = s.handles.length then (s.heap.plantTrees config).1 else s.configOf p := by
  have hhandles : (s.construct kind l config).handles =
      s.handles ++ [⟨kind, l, (s.heap.plantTrees config).1, 0⟩] := rfl
  unfold configOf
  rw [hhandles]
  by_cases hp : p = s.handles.length
  · simp [hp]
  · rw [if_neg hp, getElem?_concat_of_ne hp]

theorem configOf_closeHandle {p q : Nat} : (s.closeHandle p).configOf q = s.configOf q := by
  have hhandles : (s.closeHandle p).handles =
      s.handles.modify p (fun h => { h with closes := h.closes + 1 }) := rfl
  unfold configOf
  rw [hhandles, List.getElem?_modify]
  cases s.handles[q]? with
  | none => rfl
  | some d => by_cases hq : p = q <;> simp [hq]

theorem configOf_refreshHandle {p q : Nat} {keep : List Nat} {config : List Tree}
    (hp : p < s.handles.length) : (s.refreshHandle p keep config).configOf q =
      if q = p then (s.configOf p).filter (· ∈ keep) ++ (s.heap.plantTrees config).1
      else s.configOf q := by
  have hhandles : (s.refreshHandle p keep config).handles = s.handles.modify p (fun h =>
      { h with config := h.config.filter (· ∈ keep) ++ (s.heap.plantTrees config).1 }) := rfl
  unfold configOf
  rw [hhandles, List.getElem?_modify]
  by_cases hq : q = p
  · subst hq
    rw [List.getElem?_eq_getElem hp]
    simp
  · rw [if_neg hq]
    cases s.handles[q]? with
    | none => rfl
    | some d => simp [Ne.symm hq]

end State

namespace ListsOwned
variable {s : State} (h : ListsOwned s)
include h

/-- Nothing of this is about the libzfs handles, the calls or what is recorded. -/
theorem of_same {t : State} (hheap : t.heap = s.heap) (hhandles : t.handles = s.handles)
    (hobjects : ∀ u n, t.objectOf u = some (.nvlist n) ↔ s.objectOf u = some (.nvlist n)) :
    ListsOwned t where
  heap := hheap ▸ h.heap
  lists := by
    refine h.lists.congr (fun o n => ?_) (fun n => by rw [hheap])
    cases o with
    | userdata u => exact hobjects u n
    | handle p => rw [State.Owns, State.Owns, State.Open, State.Open, State.configOf,
        State.configOf, hhandles]
  nodup := hhandles ▸ h.nodup

theorem of_sameObjects {t : State} (hst : s.SameObjects t) : ListsOwned t :=
  h.of_same hst.heap hst.handles (fun u n => by rw [State.objectOf, State.objectOf, hst.userdata])

/-- A userdata for something else than an nvlist. -/
theorem new {p : Nat} {m : Metatable} {x : Object}
    (hm : (⟨m, .pointer p, false⟩ : Userdata).object = some x) (hx : ∀ n, x ≠ .nvlist n) :
    ListsOwned (s.new p m) := by
  refine h.of_same rfl rfl (fun u n => ?_)
  rw [State.objectOf_new_iff hm]
  simp [(hx n).symm]

/-- A userdata that holds no nvlist lets go of what it holds. -/
theorem setcookieNull {u : Nat} (hu : ∀ n, s.objectOf u ≠ some (.nvlist n)) :
    ListsOwned (s.setcookieNull u) := by
  refine h.of_same rfl rfl (fun v n => ?_)
  rw [State.objectOf_setcookieNull_iff]
  constructor
  · exact And.left
  · intro hv
    refine ⟨hv, ?_⟩
    rintro rfl
    exact hu n hv

/-- A new handle owns the lists of its configuration. -/
theorem construct (kind : Kind) (l : Nat) (config : List Tree) :
    ListsOwned (s.construct kind l config) where
  heap := (h.heap.plantTrees config).wellFormed
  lists := by
    have hplanted := h.heap.plantTrees config
    refine h.lists.acquire (.handle s.handles.length) (· ∈ (s.heap.plantTrees config).1)
      (fun n hn => hplanted.not_root hn) (fun o n => ?_) (fun n => hplanted.root n)
    cases o with
    | userdata u =>
      have hnew := State.objectOf_new_iff (s := { s with
        handles := s.handles ++ [⟨kind, l, (s.heap.plantTrees config).1, 0⟩]
        heap := (s.heap.plantTrees config).2 }) (State.object_kind kind s.handles.length) u
        (.nvlist n)
      simp only [reduceCtorEq, and_false, or_false, false_and] at hnew ⊢
      exact hnew
    | handle p =>
      simp only [State.Owns, State.open_construct, State.configOf_construct, Owner.handle.injEq]
      by_cases hp : p = s.handles.length
      · have hnot : ¬ s.Open p := fun hopen => Nat.lt_irrefl _ (hp ▸ hopen.lt)
        simp [hp, hp ▸ hnot]
      · simp [hp]
  nodup d hd := by
    rcases List.mem_append.mp hd with hd | hd
    · exact h.nodup d hd
    · rw [List.mem_singleton.mp hd]
      exact (h.heap.plantTrees config).nodup

/-- A method returns a list that has been allocated for it. -/
theorem alloc (tree : Tree) :
    ListsOwned (State.new { s with heap := s.heap.plantTree tree } s.heap.length .nvlist) where
  heap := h.heap.plantTree tree
  lists := by
    refine h.lists.acquire (.userdata s.userdata.length) (· = s.heap.length) ?_ (fun o n => ?_)
      (fun n => Forest.root_plantTree_iff h.heap tree n)
    · rintro n rfl hroot
      exact Nat.lt_irrefl _ hroot.1.1
    cases o with
    | userdata u =>
      have hnew := State.objectOf_new_iff (s := { s with heap := s.heap.plantTree tree })
        (m := .nvlist) (p := s.heap.length) rfl u (.nvlist n)
      rw [Object.nvlist.injEq] at hnew
      rw [Owner.userdata.injEq]
      exact hnew
    | handle p =>
      simp only [reduceCtorEq, false_and, or_false]
      exact Iff.rfl
  nodup := h.nodup

/-- A userdata frees its list. -/
theorem gc (u : Nat) : ListsOwned (s.gc u) := by
  refine keeps_of_some h (fun n hn => ?_)
  have hu := State.nvlistOf_eq_some.mp hn
  have howns : s.Owns (.userdata u) n := hu
  have hroot : s.heap.Root n := h.lists.live _ n howns
  refine ⟨h.heap.destroy hroot, ?_, h.nodup⟩
  refine h.lists.release (· = n) (fun o m => ?_) (fun m => Forest.root_destroy_iff)
  cases o with
  | userdata v =>
    have hset := State.objectOf_setcookieNull_iff (s := { s with heap := s.heap.destroy n })
      (u := u) (v := v) (.nvlist m)
    refine hset.trans (and_congr_right (fun hv => ?_))
    constructor
    · rintro hne rfl
      exact hne (Owner.userdata.inj (h.lists.unique (.userdata v) (.userdata u) m hv hu))
    · rintro hne rfl
      exact hne (Object.nvlist.inj (Option.some.inj (Eq.trans hv.symm hu)))
  | handle p =>
    constructor
    · intro hp
      refine ⟨hp, ?_⟩
      rintro rfl
      exact absurd (h.lists.unique (.handle p) (.userdata u) m hp howns) (by simp)
    · exact And.left

theorem configOf_nodup (p : Nat) : (s.configOf p).Nodup := by
  unfold State.configOf
  cases hd : s.handles[p]? with
  | none => exact List.nodup_nil
  | some d => exact h.nodup d (List.mem_of_getElem? hd)

/-- What an open handle owns nothing else owns. -/
theorem not_mem_configOf {p n : Nat} (hp : s.Open p) {o : Owner} (ho : s.Owns o n)
    (hne : o ≠ .handle p) : n ∉ s.configOf p :=
  fun hn => hne (h.lists.unique o (.handle p) n ho ⟨hp, hn⟩)

/-- The lists of the configuration are freed with the handle. -/
theorem closed {u p : Nat} (hp : s.Open p) (hu : s.objectOf u = some (.handle p)) :
    ListsOwned ((s.closeHandle p).setcookieNull u) where
  heap := h.heap.destroyAll (h.configOf_nodup p) (fun n hn => h.lists.live (.handle p) n ⟨hp, hn⟩)
  lists := by
    refine h.lists.release (· ∈ s.configOf p) (fun o n => ?_)
      (fun n => Forest.root_destroyAll_iff (s.configOf p))
    cases o with
    | userdata v =>
      have hset := State.objectOf_setcookieNull_iff (s := s.closeHandle p) (u := u) (v := v)
        (.nvlist n)
      refine hset.trans (and_congr_right (fun hv => ?_))
      have hnot : n ∉ s.configOf p := h.not_mem_configOf hp (o := .userdata v) hv (by simp)
      refine iff_of_true ?_ hnot
      rintro rfl
      cases Eq.trans hv.symm hu
    | handle q =>
      have hconfig : ((s.closeHandle p).setcookieNull u).configOf q = s.configOf q :=
        State.configOf_closeHandle
      have hopen : ((s.closeHandle p).setcookieNull u).Open q ↔ s.Open q ∧ q ≠ p :=
        State.open_closeHandle
      simp only [State.Owns, hconfig, hopen]
      constructor
      · rintro ⟨⟨hq, hne⟩, hn⟩
        exact ⟨⟨hq, hn⟩, h.not_mem_configOf hp (o := .handle q) ⟨hq, hn⟩ (by simpa using hne)⟩
      · rintro ⟨⟨hq, hn⟩, hnot⟩
        refine ⟨⟨hq, ?_⟩, hn⟩
        rintro rfl
        exact hnot hn
  nodup := forall_mem_modify h.nodup (fun d hd => h.nodup d (List.mem_of_getElem? hd))

theorem use (p : Nat) : ListsOwned (s.use p) := h.of_sameObjects (State.sameObjects_use p)

theorem useAll (ps : List Nat) : ListsOwned (s.useAll ps) :=
  h.of_sameObjects (State.sameObjects_useAll ps)

theorem useTarget (t : Target) : ListsOwned (s.useTarget t) :=
  h.of_sameObjects (State.sameObjects_useTarget t)

theorem setFrames (frames : List Frame) : ListsOwned (s.setFrames frames) :=
  h.of_same rfl rfl (fun _ _ => Iff.rfl)

theorem fini (u : Nat) : ListsOwned (s.fini u) := by
  refine keeps_of_some h (fun l hl => ?_)
  have hlib := State.libOf_eq_some.mp hl
  have hlibs : ListsOwned { s with libs := s.libs.modify l (· + 1) } :=
    h.of_same rfl rfl (fun _ _ => Iff.rfl)
  refine hlibs.setcookieNull (fun n hn => ?_)
  cases Eq.trans hlib.symm hn

theorem close (hkept : Kept s) (u : Nat) : ListsOwned (s.close u) := by
  refine keeps_of_some h (fun p hp => ?_)
  exact (h.use p).closed (hkept.open_of_handleOf hp) (State.handleOf_eq_some.mp hp)

theorem release (hkept : Kept s) (u : Nat) : ListsOwned (s.release u) := by
  rw [State.release_eq]
  split
  · exact h.fini u
  · exact h.close hkept u
  · exact h.gc u
  · exact h

/-- First the new configuration is read, then the lists it replaces are freed. -/
theorem refreshHandle {p : Nat} (hp : s.Open p) (keep : List Nat) (config : List Tree) :
    ListsOwned (s.refreshHandle p keep config) := by
  have hplanted := h.heap.plantTrees config
  have hdropped : ∀ n ∈ (s.configOf p).filter (· ∉ keep), n ∈ s.configOf p :=
    fun n hn => (List.mem_filter.mp hn).1
  have hroots : ∀ n ∈ (s.configOf p).filter (· ∉ keep), s.heap.Root n :=
    fun n hn => h.lists.live (.handle p) n ⟨hp, hdropped n hn⟩
  have hacquired := h.lists.acquire (.handle p) (· ∈ (s.heap.plantTrees config).1)
    (fun n hn => hplanted.not_root hn) (fun _ _ => Iff.rfl) (fun n => hplanted.root n)
  refine ⟨?_, ?_, ?_⟩
  · exact hplanted.wellFormed.destroyAll ((h.configOf_nodup p).filter _)
      (fun n hn => (hplanted.root n).mpr (Or.inl (hroots n hn)))
  · refine hacquired.release (· ∈ (s.configOf p).filter (· ∉ keep)) (fun o n => ?_)
      (fun n => Forest.root_destroyAll_iff _)
    cases o with
    | userdata v =>
      have hsame : (s.refreshHandle p keep config).Owns (.userdata v) n ↔
        s.Owns (.userdata v) n := Iff.rfl
      rw [hsame]
      simp only [reduceCtorEq, false_and, or_false]
      refine (and_iff_left_of_imp (fun hv hn => ?_)).symm
      exact h.not_mem_configOf hp hv (by simp) (hdropped n hn)
    | handle q =>
      simp only [State.Owns, State.open_refreshHandle, State.configOf_refreshHandle hp.lt,
        Owner.handle.injEq]
      by_cases hq : q = p
      · subst hq
        have hnew : n ∈ (s.heap.plantTrees config).1 → n ∉ (s.configOf q).filter (· ∉ keep) :=
          fun hn hdrop => hplanted.not_root hn (hroots n hdrop)
        simp only [ite_true, List.mem_append, List.mem_filter, decide_eq_true_eq] at hnew ⊢
        tauto
      · simp only [hq, ite_false, false_and, or_false]
        refine (and_iff_left_of_imp (fun hown hn => ?_)).symm
        exact h.not_mem_configOf hp (o := .handle q) hown (by simpa using hq) (hdropped n hn)
  · refine forall_mem_modify h.nodup (fun d hd => ?_)
    have hnodup := h.nodup d (List.mem_of_getElem? hd)
    refine List.nodup_append.mpr ⟨hnodup.filter _, hplanted.nodup, ?_⟩
    rintro n hn m hm rfl
    have hmem : n ∈ s.configOf p := by
      rw [State.configOf_eq hd]
      exact (List.mem_filter.mp hn).1
    exact hplanted.not_root hm (h.lists.live (.handle p) n ⟨hp, hmem⟩)

theorem next (hkept : Kept s) (e : Event) (hok : NoneBorrowed s e) :
    ListsOwned (Libzfs.next s e) := by
  cases e with
  | init =>
    have hlibs : ListsOwned { s with libs := s.libs ++ [0] } :=
      h.of_same rfl rfl (fun _ _ => Iff.rfl)
    exact hlibs.new rfl (fun n hn => by cases hn)
  | fini u => exact h.fini u
  | openHandle u kind config =>
    exact keeps_of_some h (fun _ _ => h.construct ..)
  | handle_dup u config =>
    simp only [Libzfs.next]
    split
    · exact h
    split
    · exact (h.use _).construct ..
    · exact h
  | method us => exact h.useAll _
  | iter u kind =>
    simp only [Libzfs.next]
    split
    · exact h.setFrames _
    · exact (h.use _).setFrames _
    · exact h
  | foreach_mountpoint u us =>
    obtain rfl : us = [] := hok
    exact keeps_of_some h (fun _ _ => h.setFrames _)
  | send u =>
    exact keeps_of_some h (fun p _ => (h.use p).setFrames _)
  | deliver config =>
    refine keeps_of_cons h (fun f fs _ => ?_)
    split
    · exact ((h.useTarget _).construct ..).setFrames _
    · exact h
  | lend i =>
    refine keeps_of_cons h (fun f fs _ => keeps_of_some h (fun p _ => ?_))
    exact (h.new rfl (fun n hn => by cases hn)).setFrames _
  | ret =>
    refine keeps_of_cons h (fun f fs hframes => ?_)
    have hf := (List.forall_mem_cons.mp (hframes ▸ hkept.frames)).1
    split
    · rename_i p hiter hp
      simp [Frame.Owning, hiter, hp] at hf
    · exact h.setFrames _
  | finish failed =>
    refine keeps_of_cons h (fun f fs _ => ?_)
    split
    · exact h.setFrames _
    · exact (h.useTarget _).setFrames _
  | close u => exact h.close hkept u
  | refresh u source keep config =>
    refine keeps_of_some h (fun p hp => ?_)
    have hopen := (hkept.useAll (p :: (source.bind s.handleOf).toList)).open_of_handleOf
      (u := u) (p := p)
    refine (h.useAll _).refreshHandle (hopen ?_) keep config
    have hsame := State.sameObjects_useAll (s := s) (p :: (source.bind s.handleOf).toList)
    rw [State.handleOf, State.objectOf, hsame.userdata]
    exact hp
  | alloc us tree =>
    have hsame := State.sameObjects_useAll (s := s) (us.filterMap s.handleOf)
    have halloc := (h.useAll (us.filterMap s.handleOf)).alloc tree
    rw [hsame.heap] at halloc
    exact halloc
  | borrow u ns =>
    obtain rfl : ns = [] := hok
    exact keeps_of_some h (fun p _ => h.use p)
  | callGc u => exact h.gc u
  | collect u =>
    refine (h.release hkept u).of_same rfl rfl (fun v n => ?_)
    rw [← State.objectOf_collected (u := u) (s.release u)]
    rfl

end ListsOwned

/-! ## Every nvlist has one owner -/

/-- No list is freed twice, and none is left when all userdata have been finalized; a userdata
holds a list that has not been freed, and no other userdata or open handle has that list. -/
structure OneOwner (s : State) : Prop where
  once : ∀ n, s.heap.freed n ≤ 1
  all : (∀ d ∈ s.userdata, d.collected = true) → ∀ n < s.heap.length, s.heap.freed n = 1
  live : ∀ u n, s.objectOf u = some (.nvlist n) → s.heap.Live n
  owner : ∀ u n, s.objectOf u = some (.nvlist n) → ∀ o, s.Owns o n → o = .userdata u

theorem ListsOwned.oneOwner {s : State} (h : ListsOwned s) (hkept : Kept s) : OneOwner s where
  once := h.heap.once
  all hall n hn := by
    have hnone : ∀ o m, ¬ s.Owns o m := by
      intro o m ho
      cases o with
      | userdata u =>
        rw [State.Owns, hkept.not_holds hall u] at ho
        cases ho
      | handle p =>
        obtain ⟨u, hu⟩ := hkept.handles.owned p ho.1
        rw [hkept.not_holds hall u] at hu
        cases hu
    have hdead : ¬ s.heap.Live n := by
      intro hlive
      obtain ⟨r, hr, _⟩ := h.heap.exists_root hlive
      exact h.lists.not_live hnone r hr
    have honce := h.heap.once n
    have hfreed : s.heap.freed n ≠ 0 := fun hzero => hdead ⟨hn, hzero⟩
    omega
  live u n hu := (h.lists.live (.userdata u) n hu).1
  owner u n hu o ho := h.lists.unique o (.userdata u) n ho hu

/-- **Every nvlist has one owner** in a run in which no list of a configuration is returned. -/
theorem zfs_nvlists_owned (s : State) (h : system.ReachableBy NoneBorrowed s) : OneOwner s := by
  have hkept : ∀ s, system.ReachableBy NoneBorrowed s → Kept s :=
    fun _ hs => reachable_kept (hs.mono (fun _ _ hok => hok.noneLent))
  have hlists : ListsOwned s := h.invariant_under hkept listsOwned_init
    (fun _ e hkept hs hok _ => hs.next hkept e hok)
  exact hlists.oneOwner (hkept s h)

/-- A pool is refreshed and closed while lists that were allocated for it stay. -/
def allocatedEvents : List Event :=
  [.init, .openHandle 0 .zpool [((), [(0, ())])], .alloc [1] ((), [(0, ()), (1, ())]),
    .refresh 1 none [0] [((), [])], .refresh 1 none [2] [((), [])], .alloc [0] ((), []),
    .close 1, .callGc 2, .collect 3, .collect 1, .collect 2, .collect 0]

theorem zfs_nvlists_owned_refresh : ∃ s, system.run allocatedEvents = some s ∧
    (∀ d ∈ s.userdata, d.collected = true) ∧ OneOwner s := by
  have hrun : ((system.restrict NoneBorrowed (fun _ _ => inferInstance)).run
      allocatedEvents).map (fun s => s.userdata.all (fun d => d.collected)) = some true := by
    decide +kernel
  obtain ⟨s, hs, hall⟩ := Option.map_eq_some_iff.mp hrun
  refine ⟨s, System.run_of_restrict hs, ?_, zfs_nvlists_owned s (System.run_restrict hs)⟩
  exact fun d hd => List.all_eq_true.mp hall d hd

/-- The configuration of a pool is freed with the handle, while a userdata holds it. -/
theorem not_zfs_nvlists_owned : ¬ ∀ s, system.Reachable s → OneOwner s := by
  intro h
  have hrun : (system.run [.init, .openHandle 0 .zpool [((), [])], .borrow 1 [0], .close 1]).map
      (fun s => (s.objectOf 2, s.heap.freed 0)) = some (some (.nvlist 0), 1) := by decide
  obtain ⟨s, hs, hfacts⟩ := Option.map_eq_some_iff.mp hrun
  obtain ⟨hobject, hfreed⟩ := Prod.mk.inj hfacts
  have hlive := (h s (System.run_reachable hs)).live 2 0 hobject
  rw [hlive.2] at hfreed
  cases hfreed

end Libzfs
end FluaLibs
