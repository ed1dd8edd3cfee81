import FluaLibs.NvLists
import FluaLibs.RefCount
import Mathlib.Logic.Relation

/-! # What keeps the lists of libnv

A `const nvlist_t` or an `nvlist_t cookie` points into a list that some `nvlist_t` owns.
What keeps that list is the chain of references that starts at the borrowing userdata: when
it leads to the owner, the owner is not collected while the borrower is there.

The invariant says that it does.  It is kept when lists are allocated, copied, put into and
taken out of one another, freed, and when userdata are made, cleared and collected, each
under its own condition.
-/
namespace FluaLibs
namespace Nv

namespace State
variable (s : State)

/-- `u` is the `nvlist_t` of the list `n`. -/
def Owns (u n : Nat) : Prop := s.pointer u = some (.nvlist, n)

/-- `b` points at `x`, which it does not own. -/
def Borrows (b x : Nat) : Prop := ∃ kind, kind ≠ .nvlist ∧ s.pointer b = some (kind, x)

/-- The userdata has not been collected. -/
def Alive (u : Nat) : Prop := ∃ d ∈ s.userdata[u]?, d.collected = false

/-- The references of `u` lead to `v`. -/
def Holds : Nat → Nat → Prop := Relation.ReflTransGen (fun u v => s.ref u = some v)

/-- The references of `u` lead to the owner of `r`. -/
def Anchored (u r : Nat) : Prop := ∃ o, s.Holds u o ∧ s.Owns o r

/-- Nothing that is borrowed is `n` or lies inside it. -/
def Unborrowed (n : Nat) : Prop :=
  ∀ d ∈ s.userdata, d.kind ≠ .nvlist → d.collected = false → ∀ x ∈ d.cookie,
    ¬ s.heap.Inside n x

instance (n : Nat) : Decidable (s.Unborrowed n) :=
  inferInstanceAs (Decidable (∀ _ ∈ _, _ → _ → ∀ _ ∈ _, ¬ _))

end State

/-! ## The checks -/

section Checks
variable {s : State}

theorem State.pointer_eq_some {u : Nat} {kind : Kind} {n : Nat} :
    s.pointer u = some (kind, n) ↔ ∃ d, s.userdata[u]? = some d ∧ d.collected = false ∧
      d.kind = kind ∧ d.cookie = some n := by
  unfold State.pointer
  cases s.userdata[u]? with
  | none => simp
  | some d =>
    cases hcollected : d.collected with
    | true => simp [hcollected]
    | false => simp [hcollected, and_comm]

theorem State.checkcookie_eq_some {kind : Kind} {u n : Nat} :
    s.checkcookie kind u = some n ↔ s.pointer u = some (kind, n) := by
  unfold State.checkcookie
  cases s.pointer u with
  | none => simp
  | some kn =>
    obtain ⟨kind', m⟩ := kn
    by_cases hkind : kind' = kind <;> simp [hkind]

/-- What `checknvlist` accepts owns its list. -/
theorem State.owns_of_checknvlist {u n : Nat} (h : s.checknvlist u = some n) : s.Owns u n :=
  State.checkcookie_eq_some.mp (Option.eq_some_of_filter_eq_some h)

/-- What is accepted as a list or a constant one owns or borrows it. -/
theorem State.of_checkself {u n : Nat} (h : s.checkself u = some n) :
    s.Owns u n ∨ s.Borrows u n := by
  have hor := Option.eq_some_of_filter_eq_some h
  rcases Option.or_eq_some_iff.mp hor with hown | ⟨_, hconst⟩
  · exact Or.inl (State.checkcookie_eq_some.mp hown)
  · exact Or.inr ⟨.const_nvlist, by decide, State.checkcookie_eq_some.mp hconst⟩

theorem State.borrows_of_cookie {k p : Nat} (h : s.checkcookie .cnvlist k = some p) :
    s.Borrows k p :=
  ⟨.cnvlist, by decide, State.checkcookie_eq_some.mp h⟩

theorem State.borrows_of_cookietype {k p : Nat} {type : NvType}
    (h : s.checkcookietype k type = some p) : s.Borrows k p :=
  State.borrows_of_cookie (Option.eq_some_of_filter_eq_some h)

theorem State.alive_of_pointer {u n : Nat} {kind : Kind} (h : s.pointer u = some (kind, n)) :
    s.Alive u := by
  obtain ⟨d, hd, hcollected, _⟩ := State.pointer_eq_some.mp h
  exact ⟨d, hd, hcollected⟩

/-- A userdata owns one list. -/
theorem State.Owns.list_unique {u n m : Nat} (hn : s.Owns u n) (hm : s.Owns u m) : n = m := by
  have heq := hn.symm.trans hm
  simp only [Option.some.injEq, Prod.mk.injEq, true_and] at heq
  exact heq

/-- What borrows owns nothing. -/
theorem State.not_owns_of_borrows {u n m : Nat} (h : s.Borrows u n) : ¬ s.Owns u m := by
  intro hown
  obtain ⟨kind, hkind, hpointer⟩ := h
  have heq := hpointer.symm.trans hown
  simp only [Option.some.injEq, Prod.mk.injEq] at heq
  exact hkind heq.1

theorem State.Unborrowed.not_inside {n b x : Nat} (h : s.Unborrowed n) (hb : s.Borrows b x) :
    ¬ s.heap.Inside n x := by
  obtain ⟨kind, hkind, hpointer⟩ := hb
  obtain ⟨d, hd, hcollected, rfl, hcookie⟩ := State.pointer_eq_some.mp hpointer
  exact h d (List.mem_of_getElem? hd) hkind hcollected x hcookie

/-- A cookie points at its own pair, so no pair is freed or taken through one unless the
step disregards what is borrowed. -/
theorem not_unborrowed_of_cookietype {k p : Nat} {type : NvType}
    (hk : s.checkcookietype k type = some p) : ¬ s.Unborrowed p :=
  fun h => h.not_inside (State.borrows_of_cookietype hk) (Or.inl rfl)

end Checks

/-! ## The invariant -/

/-- The owners own roots of the heap, each root at most once, and refer to nothing; a
userdata that is there refers to one that is there; and the references of a borrowing
userdata lead to the owner of the list that its pointer lies in. -/
structure Sound (s : State) : Prop where
  heap : s.heap.WellFormed
  owner : ∀ u n, s.Owns u n → s.heap.Root n
  distinct : ∀ u v n, s.Owns u n → s.Owns v n → u = v
  ownerRef : ∀ u n, s.Owns u n → s.ref u = none
  refs : ∀ u v, s.Alive u → s.ref u = some v → s.Alive v
  borrowed : ∀ b x, s.Borrows b x → ∃ r, s.Anchored b r ∧ s.heap.Inside r x

/-- No userdata owns the list. -/
def State.Unowned (s : State) (n : Nat) : Prop := ∀ u, ¬ s.Owns u n

/-- Nothing is owned or borrowed at first. -/
theorem sound_init : Sound system.init where
  heap := Forest.wellFormed_nil
  owner _ _ hu := nomatch hu
  distinct _ _ _ hu := nomatch hu
  ownerRef _ _ hu := nomatch hu
  refs _ _ hu := by
    obtain ⟨d, hd, _⟩ := hu
    cases hd
  borrowed _ _ hb := by
    obtain ⟨_, _, hpointer⟩ := hb
    cases hpointer

section Reading
variable {s : State} (h : Sound s)
include h

/-- **What is borrowed is alive**: it lies inside a list that its reference keeps. -/
theorem Sound.live {b x : Nat} (hb : s.Borrows b x) : s.heap.Live x := by
  obtain ⟨r, ⟨o, _, ho⟩, hin⟩ := h.borrowed b x hb
  exact h.heap.live_of_inside (h.owner o r ho).1 hin

/-- The list that a method receives lies in a list whose owner the receiver holds. -/
theorem Sound.any {u n : Nat} (hu : s.checkself u = some n) :
    s.Alive u ∧ ∃ r, s.Anchored u r ∧ s.heap.Inside r n := by
  rcases State.of_checkself hu with hown | hborrow
  · exact ⟨State.alive_of_pointer hown, n, ⟨u, .refl, hown⟩, Or.inl rfl⟩
  · obtain ⟨_, _, hpointer⟩ := id hborrow
    exact ⟨State.alive_of_pointer hpointer, h.borrowed u n hborrow⟩

theorem Sound.root_of_anchored {u r : Nat} (hu : s.Anchored u r) : s.heap.Root r := by
  obtain ⟨o, _, ho⟩ := hu
  exact h.owner o r ho

/-- A borrowing userdata refers to one that leads to the same owner. -/
theorem Sound.behind {b x : Nat} (hb : s.Borrows b x) :
    ∃ v r, s.ref b = some v ∧ s.Alive v ∧ s.Anchored v r ∧ s.heap.Inside r x := by
  obtain ⟨r, ⟨o, hholds, ho⟩, hin⟩ := h.borrowed b x hb
  rcases Relation.ReflTransGen.cases_head hholds with rfl | ⟨v, hv, hrest⟩
  · exact absurd ho (State.not_owns_of_borrows hb)
  · obtain ⟨_, _, hpointer⟩ := hb
    exact ⟨v, r, hv, h.refs b v (State.alive_of_pointer hpointer) hv, ⟨o, hrest, ho⟩, hin⟩

/-- What lies inside a list that nobody owns is not borrowed. -/
theorem Sound.not_inside_unowned {b x c : Nat} (hb : s.Borrows b x) (hc : s.heap.up c = [])
    (hfree : s.Unowned c) : ¬ s.heap.Inside c x := by
  intro hin
  obtain ⟨r, hr, hrx⟩ := h.borrowed b x hb
  obtain ⟨o, _, ho⟩ := id hr
  have heq := h.heap.root_unique hc (h.root_of_anchored hr).2 hin hrx
  exact hfree o (heq ▸ ho)

end Reading

/-! ## Steps of the heap -/

section HeapSteps
variable {s : State} (h : Sound s)
include h

/-- The heap changes, and every owner still has a root and every borrower its chain. -/
theorem Sound.withHeap {g : Heap} (hg : g.WellFormed) (hroot : ∀ u n, s.Owns u n → g.Root n)
    (hup : ∀ b x, s.Borrows b x → g.up x = s.heap.up x) : Sound (s.withHeap g) :=
  { h with
    heap := hg
    owner := hroot
    borrowed := fun b x hb => by
      obtain ⟨r, hr, hin⟩ := h.borrowed b x hb
      refine ⟨r, hr, ?_⟩
      show r = x ∨ r ∈ g.up x
      rw [hup b x hb]
      exact hin }

/-- New objects inside old ones change nothing for what is there. -/
theorem Sound.grow {g : Heap} (hg : g.WellFormed) (hgrows : Forest.Grows s.heap g) :
    Sound (s.withHeap g) :=
  h.withHeap hg (fun u n hu => (hgrows.root_iff n).mpr (h.owner u n hu))
    (fun _ x hb => hgrows.up x (h.live hb).1)

theorem Sound.update (n : Nat) (c : Object → Object) :
    Sound (s.withHeap (s.heap.update n c)) :=
  h.withHeap (h.heap.update n c) (fun u m hu => Forest.root_update_iff.mpr (h.owner u m hu))
    (fun _ x _ => s.heap.up_update n x c)

theorem Sound.plant (object : Object) : Sound (s.withHeap (s.heap.plant object)) :=
  h.withHeap (h.heap.plant object)
    (fun u n hu => (Forest.root_plant_iff object n).mpr (Or.inl (h.owner u n hu)))
    (fun _ x _ => Forest.up_plant object x)

/-- A list is freed that no userdata owns. -/
theorem Sound.destroy {n : Nat} (hn : s.heap.Root n) (hfree : s.Unowned n) :
    Sound (s.withHeap (s.heap.destroy n)) := by
  refine h.withHeap (h.heap.destroy hn) (fun u m hu => ?_) (fun _ x _ => s.heap.up_destroy n x)
  refine Forest.root_destroy_iff.mpr ⟨h.owner u m hu, ?_⟩
  rintro rfl
  exact hfree u hu

/-- An object is taken out that nothing points at or into. -/
theorem Sound.detach {c : Nat} (hc : s.heap.Live c) (hborrow : s.Unborrowed c) :
    Sound (s.withHeap (s.heap.detach c)) :=
  h.withHeap (h.heap.detach c)
    (fun u n hu => (Forest.root_detach_iff hc).mpr (Or.inl (h.owner u n hu)))
    (fun _ _ hb => s.heap.up_detach_of_not_inside (hborrow.not_inside hb))

/-- An object is taken out and freed that nothing points at or into. -/
theorem Sound.remove {p : Nat} (hp : s.heap.Live p) (hup : s.heap.up p ≠ [])
    (hborrow : s.Unborrowed p) : Sound (s.withHeap (s.heap.remove p)) := by
  refine h.withHeap (h.heap.remove hp) (fun u n hu => ?_)
    (fun _ _ hb => Forest.up_remove_of_not_inside (hborrow.not_inside hb))
  refine (Forest.root_remove_iff hp).mpr ⟨h.owner u n hu, ?_⟩
  rintro rfl
  exact hup (h.owner u n hu).2

/-- A list that no userdata owns is put into a live one. -/
theorem Sound.attach {p c : Nat} (hc : s.heap.Root c) (hfree : s.Unowned c)
    (hp : s.heap.Live p) (hpc : ¬ s.heap.Inside c p) :
    Sound (s.withHeap (s.heap.attach p c)) := by
  refine h.withHeap (h.heap.attach hc hp hpc) (fun u n hu => ?_) (fun _ _ hb => ?_)
  · refine Forest.root_attach_iff.mpr ⟨h.owner u n hu, ?_⟩
    rintro rfl
    exact hfree u hu
  · exact s.heap.up_attach_of_not_inside (h.not_inside_unowned hb hc.2 hfree)

end HeapSteps

/-! ## Steps of the userdata -/

section Effects
variable (s : State)

theorem State.lt_of_getElem? {u : Nat} {d : Userdata} (hd : s.userdata[u]? = some d) :
    u ≠ s.userdata.length := by
  rintro rfl
  rw [List.getElem?_eq_none (Nat.le_refl _)] at hd
  cases hd

theorem State.getElem?_push {d : Userdata} {u : Nat} (hu : u ≠ s.userdata.length) :
    (s.push d).userdata[u]? = s.userdata[u]? :=
  getElem?_concat_of_ne hu

theorem State.getElem?_push_self (d : Userdata) :
    (s.push d).userdata[s.userdata.length]? = some d :=
  List.getElem?_concat_length

/-- A new userdata leaves the pointers of the others. -/
theorem State.pointer_push_of_some {d : Userdata} {u : Nat} {kn : Kind × Nat}
    (hu : s.pointer u = some kn) : (s.push d).pointer u = some kn := by
  obtain ⟨e, he, _⟩ := Option.bind_eq_some_iff.mp hu
  unfold State.pointer at hu ⊢
  rw [s.getElem?_push (s.lt_of_getElem? he)]
  exact hu

theorem State.pointer_push {d : Userdata} {u n : Nat} {kind : Kind}
    (hu : (s.push d).pointer u = some (kind, n)) :
    s.pointer u = some (kind, n) ∨
      u = s.userdata.length ∧ d.kind = kind ∧ d.cookie = some n := by
  by_cases hlength : u = s.userdata.length
  · obtain ⟨e, he, _, hkind, hcookie⟩ := State.pointer_eq_some.mp hu
    rw [hlength, s.getElem?_push_self] at he
    obtain rfl := Option.some.inj he
    exact Or.inr ⟨hlength, hkind, hcookie⟩
  · unfold State.pointer at hu ⊢
    rw [s.getElem?_push hlength] at hu
    exact Or.inl hu

theorem State.ref_push_of_some {d : Userdata} {u v : Nat} (hu : s.ref u = some v) :
    (s.push d).ref u = some v := by
  obtain ⟨e, he, _⟩ := Option.bind_eq_some_iff.mp hu
  unfold State.ref at hu ⊢
  rw [s.getElem?_push (s.lt_of_getElem? he)]
  exact hu

theorem State.alive_push_of_alive {d : Userdata} {u : Nat} (hu : s.Alive u) :
    (s.push d).Alive u := by
  obtain ⟨e, he, hcollected⟩ := hu
  refine ⟨e, ?_, hcollected⟩
  rw [s.getElem?_push (s.lt_of_getElem? he)]
  exact he

theorem State.Holds.push {s : State} {d : Userdata} {u v : Nat} (h : s.Holds u v) :
    (s.push d).Holds u v := by
  induction h with
  | refl => exact .refl
  | tail _ hvw ih => exact .tail ih (s.ref_push_of_some hvw)

theorem State.Anchored.push {s : State} {d : Userdata} {u r : Nat} (h : s.Anchored u r) :
    (s.push d).Anchored u r := by
  obtain ⟨o, hholds, ho⟩ := h
  exact ⟨o, hholds.push, s.pointer_push_of_some ho⟩

theorem State.pointer_clear (u v : Nat) :
    (s.clear u).pointer v = if v = u then none else s.pointer v := by
  apply bind_modify_none
  intro d
  cases d.collected <;> rfl

theorem State.ref_clear (u v : Nat) : (s.clear u).ref v = s.ref v := by
  apply bind_modify_same
  exact fun _ => rfl

theorem State.pointer_release (u v : Nat) :
    (s.release u).pointer v = if v = u then none else s.pointer v := by
  apply bind_modify_none
  exact fun _ => rfl

theorem State.ref_release (u v : Nat) : (s.release u).ref v = s.ref v := by
  apply bind_modify_same
  exact fun _ => rfl

theorem State.pointer_setref (k u v : Nat) : (s.setref k u).pointer v = s.pointer v := by
  apply bind_modify_same
  exact fun _ => rfl

theorem State.ref_setref_of_ne {k u v : Nat} (hv : v ≠ k) : (s.setref k u).ref v = s.ref v := by
  unfold State.ref State.setref
  rw [List.getElem?_modify]
  cases s.userdata[v]? <;> simp [Ne.symm hv]

theorem State.ref_setref_self {k u : Nat} (hk : s.Alive k) :
    (s.setref k u).ref k = some u := by
  obtain ⟨d, hd, _⟩ := hk
  unfold State.ref State.setref
  rw [List.getElem?_modify, Option.mem_def.mp hd]
  simp

theorem State.alive_clear (u v : Nat) : (s.clear u).Alive v ↔ s.Alive v := by
  unfold State.Alive State.clear
  rw [List.getElem?_modify]
  cases s.userdata[v]? with
  | none => rfl
  | some d => by_cases huv : u = v <;> simp [huv]

theorem State.alive_release (u v : Nat) : (s.release u).Alive v ↔ s.Alive v ∧ v ≠ u := by
  unfold State.Alive State.release
  rw [List.getElem?_modify]
  cases s.userdata[v]? with
  | none => simp
  | some d =>
    by_cases huv : u = v
    · simp [huv]
    · simp [huv, Ne.symm huv]

theorem State.alive_setref (k u v : Nat) : (s.setref k u).Alive v ↔ s.Alive v := by
  unfold State.Alive State.setref
  rw [List.getElem?_modify]
  cases s.userdata[v]? with
  | none => rfl
  | some d => by_cases hkv : k = v <;> simp [hkv]

/-- After the pointer of `u` has gone, the others are what they were. -/
theorem State.pointer_of_gone {s s' : State} {u v : Nat} {kn : Kind × Nat}
    (hgone : ∀ v, s'.pointer v = if v = u then none else s.pointer v)
    (hv : s'.pointer v = some kn) : v ≠ u ∧ s.pointer v = some kn := by
  rw [hgone] at hv
  split at hv
  · cases hv
  · exact ⟨‹_›, hv⟩

end Effects

section UserdataSteps
variable {s : State} (h : Sound s)
include h

/-- A new userdata: an owner of a list that nobody owns, or one that refers to a userdata
whose references lead to the owner. -/
theorem Sound.push {d : Userdata} (href : ∀ v ∈ d.ref, s.Alive v)
    (hown : d.kind = .nvlist → d.ref = none ∧
      ∀ n ∈ d.cookie, s.heap.Root n ∧ s.Unowned n)
    (hborrow : d.kind ≠ .nvlist → ∀ x ∈ d.cookie, ∃ v r, d.ref = some v ∧
      s.Anchored v r ∧ s.heap.Inside r x) : Sound (s.push d) where
  heap := h.heap
  owner u n hu := by
    rcases s.pointer_push hu with hold | ⟨_, hkind, hcookie⟩
    · exact h.owner u n hold
    · exact ((hown hkind).2 n hcookie).1
  distinct u v n hu hv := by
    rcases s.pointer_push hu with hu | ⟨hulength, hkind, hcookie⟩ <;>
      rcases s.pointer_push hv with hv | ⟨hvlength, hkind', hcookie'⟩
    · exact h.distinct u v n hu hv
    · exact absurd hu (((hown hkind').2 n hcookie').2 u)
    · exact absurd hv (((hown hkind).2 n hcookie).2 v)
    · exact hulength.trans hvlength.symm
  ownerRef u n hu := by
    rcases s.pointer_push hu with hold | ⟨rfl, hkind, _⟩
    · obtain ⟨e, he, _⟩ := State.pointer_eq_some.mp hold
      rw [State.ref, s.getElem?_push (s.lt_of_getElem? he)]
      exact h.ownerRef u n hold
    · rw [State.ref, s.getElem?_push_self]
      exact (hown hkind).1
  refs u v hu hv := by
    by_cases hlength : u = s.userdata.length
    · rw [State.ref, hlength, s.getElem?_push_self] at hv
      exact s.alive_push_of_alive (href v hv)
    · rw [State.Alive, s.getElem?_push hlength] at hu
      rw [State.ref, s.getElem?_push hlength] at hv
      exact s.alive_push_of_alive (h.refs u v hu hv)
  borrowed b x hb := by
    obtain ⟨kind, hkind, hpointer⟩ := hb
    rcases s.pointer_push hpointer with hold | ⟨rfl, rfl, hcookie⟩
    · obtain ⟨r, hr, hin⟩ := h.borrowed b x ⟨kind, hkind, hold⟩
      exact ⟨r, hr.push, hin⟩
    · obtain ⟨v, r, hv, ⟨o, hholds, ho⟩, hin⟩ := hborrow hkind x hcookie
      refine ⟨r, ⟨o, ?_, s.pointer_push_of_some ho⟩, hin⟩
      refine Relation.ReflTransGen.head ?_ hholds.push
      rw [State.ref, s.getElem?_push_self]
      exact hv

/-- A userdata is made for a list that none owns. -/
theorem Sound.new {n : Nat} (hn : s.heap.Root n) (hfree : s.Unowned n) :
    Sound (s.new (some n) .nvlist) := by
  refine h.push (fun _ hv => nomatch hv) (fun _ => ⟨rfl, fun m hm => ?_⟩)
    (fun hkind => absurd rfl hkind)
  obtain rfl := Option.some.inj hm
  exact ⟨hn, hfree⟩

/-- A cookie that is not set. -/
theorem Sound.newNull : Sound (s.new none .cnvlist) :=
  h.push (fun _ hv => nomatch hv) (fun hkind => nomatch hkind) (fun _ _ hx => nomatch hx)

/-- A userdata is made for a pointer into what its reference keeps. -/
theorem Sound.newref {v r x : Nat} (kind : Kind) (hkind : kind ≠ .nvlist) (hv : s.Alive v)
    (hr : s.Anchored v r) (hin : s.heap.Inside r x) :
    Sound (s.newref (some v) x kind) := by
  refine h.push (fun w hw => ?_) (fun hown => absurd hown hkind) (fun _ y hy => ?_)
  · obtain rfl := Option.some.inj hw
    exact hv
  · obtain rfl := Option.some.inj hy
    exact ⟨v, r, rfl, hr, hin⟩

/-- A userdata that is there refers only to ones that are there. -/
theorem Sound.alive_of_holds {b v : Nat} (hb : s.Alive b) (hv : s.Holds b v) : s.Alive v := by
  induction hv with
  | refl => exact hb
  | tail _ hvw ih => exact h.refs _ _ ih hvw

/-- The pointer of `u` goes while the references stay, when no other userdata borrows from
the list of `u` and leads to it. -/
theorem Sound.forget {s' : State} {u : Nat} (hheap : s'.heap = s.heap)
    (hgone : ∀ v, s'.pointer v = if v = u then none else s.pointer v)
    (href : ∀ v, s'.ref v = s.ref v)
    (halive : ∀ v w, s'.Alive v → s.ref v = some w → s'.Alive w)
    (hkept : ∀ b x r, b ≠ u → s.Borrows b x → s.Holds b u → s.Owns u r →
      ¬ s.heap.Inside r x) : Sound s' := by
  have hold : ∀ {v : Nat} {kn : Kind × Nat}, s'.pointer v = some kn →
      v ≠ u ∧ s.pointer v = some kn := fun hv => State.pointer_of_gone hgone hv
  have hrefs : (fun v w => s'.ref v = some w) = fun v w => s.ref v = some w := by
    funext v w
    rw [href]
  refine ⟨?_, fun v m hv => ?_, fun v w m hv hw => ?_, fun v m hv => ?_, fun v w hv hw => ?_,
    fun b x hb => ?_⟩
  · rw [hheap]
    exact h.heap
  · rw [hheap]
    exact h.owner v m (hold hv).2
  · exact h.distinct v w m (hold hv).2 (hold hw).2
  · rw [href]
    exact h.ownerRef v m (hold hv).2
  · rw [href] at hw
    exact halive v w hv hw
  · obtain ⟨kind, hkind, hpointer⟩ := hb
    obtain ⟨hne, hpointer⟩ := hold hpointer
    have hb : s.Borrows b x := ⟨kind, hkind, hpointer⟩
    obtain ⟨r, ⟨o, hholds, ho⟩, hin⟩ := h.borrowed b x hb
    rw [hheap]
    refine ⟨r, ⟨o, ?_, ?_⟩, hin⟩
    · rw [State.Holds, hrefs]
      exact hholds
    · -- the references of the borrower lead to another owner
      show s'.pointer o = _
      rw [hgone, if_neg]
      · exact ho
      · rintro rfl
        exact hkept b x r hne hb hholds ho hin

/-- The cookie of an owner is cleared when nothing inside its list is borrowed. -/
theorem Sound.clear {u n : Nat} (hu : s.Owns u n) (hborrow : s.Unborrowed n) :
    Sound (s.clear u) := by
  refine h.forget rfl (s.pointer_clear u) (s.ref_clear u) (fun v w hv hw => ?_)
    (fun b x r _ hb _ ho => ?_)
  · rw [s.alive_clear] at hv ⊢
    exact h.refs v w hv hw
  · obtain rfl := ho.list_unique hu
    exact hborrow.not_inside hb

/-- The collector takes a userdata that no other refers to. -/
theorem Sound.release {u : Nat}
    (hunref : ∀ d ∈ s.userdata, d.collected = false → d.ref ≠ some u) :
    Sound (s.release u) := by
  have hunref' : ∀ v, s.Alive v → s.ref v ≠ some u := by
    rintro v ⟨d, hd, hcollected⟩ hv
    rw [State.ref, Option.mem_def.mp hd] at hv
    exact hunref d (List.mem_of_getElem? hd) hcollected hv
  refine h.forget rfl (s.pointer_release u) (s.ref_release u) (fun v w hv hw => ?_)
    (fun b x _ hne hb hholds _ => ?_)
  · rw [s.alive_release] at hv ⊢
    refine ⟨h.refs v w hv.1 hw, ?_⟩
    rintro rfl
    exact hunref' v hv.1 hw
  · -- the last reference on the way to `u` would be one to the collected userdata
    obtain ⟨_, _, hpointer⟩ := hb
    rcases Relation.ReflTransGen.cases_tail hholds with hbu | ⟨w, hbw, hwu⟩
    · exact absurd hbu.symm hne
    · exact absurd hwu (hunref' w (h.alive_of_holds (State.alive_of_pointer hpointer) hbw))

end UserdataSteps

/-! ### `next` with a cookie -/

section Setref
variable {s : State} {k u : Nat}

/-- References that do not lead to `k` stay. -/
theorem State.Holds.setref_of_not {v o : Nat} (h : s.Holds v o) (hk : ¬ s.Holds v k) :
    (s.setref k u).Holds v o := by
  induction h using Relation.ReflTransGen.head_induction_on with
  | refl => exact .refl
  | head hvw hwo ih =>
    rename_i v w
    refine Relation.ReflTransGen.head ?_ (ih (fun hwk => hk (.head hvw hwk)))
    rw [s.ref_setref_of_ne]
    · exact hvw
    · rintro rfl
      exact hk .refl

/-- Other references stay, or go through `k`. -/
theorem State.Holds.setref {v o : Nat} (h : s.Holds v o) :
    (s.setref k u).Holds v o ∨ (s.setref k u).Holds v k ∧ s.Holds k o := by
  induction h using Relation.ReflTransGen.head_induction_on with
  | refl => exact Or.inl .refl
  | head hvw hwo ih =>
    rename_i v w
    by_cases hvk : v = k
    · subst hvk
      exact Or.inr ⟨.refl, .head hvw hwo⟩
    have hstep : (s.setref k u).ref v = some w := (s.ref_setref_of_ne hvk).trans hvw
    rcases ih with hold | ⟨hthrough, hko⟩
    · exact Or.inl (.head hstep hold)
    · exact Or.inr ⟨.head hstep hthrough, hko⟩

/-- The owner that the references lead to is one. -/
theorem Sound.owner_unique (h : Sound s) {v o o' r r' : Nat} (hv : s.Holds v o)
    (ho : s.Owns o r) (hv' : s.Holds v o') (ho' : s.Owns o' r') : o = o' := by
  induction hv using Relation.ReflTransGen.head_induction_on with
  | refl =>
    rcases Relation.ReflTransGen.cases_head hv' with heq | ⟨w, hw, _⟩
    · exact heq
    · rw [h.ownerRef o r ho] at hw
      cases hw
  | head hvw _ ih =>
    rcases Relation.ReflTransGen.cases_head hv' with rfl | ⟨w, hw, hrest⟩
    · rw [h.ownerRef _ r' ho'] at hvw
      cases hvw
    · obtain rfl := Option.some.inj (hvw.symm.trans hw)
      exact ih hrest

/-- The cookie `k` is to refer to the userdata `u` of the list that its pair lies in. -/
theorem Sound.setref (h : Sound s) {n p : Nat} (hk : s.checkcookie .cnvlist k = some p)
    (hu : s.checkself u = some n) (hp : s.heap.parent p = some n)
    (hacyclic : ¬ s.Holds u k) : Sound (s.setref k u) := by
  have hpointer : ∀ v, (s.setref k u).pointer v = s.pointer v := s.pointer_setref k u
  have hkborrows := State.borrows_of_cookie hk
  obtain ⟨hualive, r, ⟨o, huo, ho⟩, hrn⟩ := h.any hu
  have huo' : (s.setref k u).Holds u o := huo.setref_of_not hacyclic
  have hkalive : s.Alive k := State.alive_of_pointer (State.checkcookie_eq_some.mp hk)
  have hku : (s.setref k u).ref k = some u := s.ref_setref_self hkalive
  -- what `k` pointed into is what `u` points into
  have hsame : ∀ o' r', s.Holds k o' → s.Owns o' r' → r' = r ∧ o' = o := by
    intro o' r' hko' ho'
    obtain ⟨r₁, ⟨o₁, hko₁, ho₁⟩, hin⟩ := h.borrowed k p hkborrows
    obtain rfl := h.owner_unique hko₁ ho₁ hko' ho'
    obtain rfl := ho₁.list_unique ho'
    have hrp : s.heap.Inside r p :=
      h.heap.inside_trans hrn (Or.inr (s.heap.mem_up_of_parent hp))
    have hr := h.heap.root_unique (h.owner o₁ r₁ ho₁).2 (h.owner o r ho).2 hin hrp
    subst hr
    exact ⟨rfl, h.distinct o₁ o r₁ ho₁ ho⟩
  refine ⟨h.heap, fun v m hv => h.owner v m ((hpointer v).symm.trans hv),
    fun v w m hv hw => h.distinct v w m ((hpointer v).symm.trans hv) ((hpointer w).symm.trans hw),
    fun v m hv => ?_, fun v w hv hw => ?_, fun b x hb => ?_⟩
  · have hown : s.Owns v m := (hpointer v).symm.trans hv
    rw [s.ref_setref_of_ne]
    · exact h.ownerRef v m hown
    · rintro rfl
      exact State.not_owns_of_borrows hkborrows hown
  · rw [s.alive_setref] at hv ⊢
    by_cases hvk : v = k
    · rw [hvk, hku] at hw
      obtain rfl := Option.some.inj hw
      exact hualive
    · rw [s.ref_setref_of_ne hvk] at hw
      exact h.refs v w hv hw
  · have hb : s.Borrows b x := by
      obtain ⟨kind, hkind, hbx⟩ := hb
      exact ⟨kind, hkind, (hpointer b).symm.trans hbx⟩
    obtain ⟨r', ⟨o', hbo, ho'⟩, hin⟩ := h.borrowed b x hb
    rcases hbo.setref (u := u) (k := k) with hold | ⟨hthrough, hko⟩
    · exact ⟨r', ⟨o', hold, (hpointer o').trans ho'⟩, hin⟩
    · obtain ⟨rfl, rfl⟩ := hsame o' r' hko ho'
      exact ⟨r', ⟨o', hthrough.trans (.head hku huo'), (hpointer o').trans ho'⟩, hin⟩

end Setref

end Nv
end FluaLibs
