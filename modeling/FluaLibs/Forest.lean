import FluaLibs.ListEntries

/-! # Forests of heap objects

Objects of a heap that contain one another.  Each object has the chain of the objects around
it, from the inside out, and the number of times it has been freed; an object is freed with
everything inside it.  An object can be taken out of what contains it, together with what is
inside it, and a root can be put into another object.

A forest is well formed when the chains fit together, when nothing is freed twice, and when
an object has been freed exactly when what contains it has.
-/
namespace FluaLibs

/-- An object: what it holds, the objects around it, and how often it has been freed. -/
structure Node (α : Type) where
  content : α
  up : List Nat
  freed : Nat
  deriving DecidableEq

/-- The objects that have been allocated, in that order. -/
abbrev Forest (α : Type) := List (Node α)

namespace Forest
variable {α : Type}

section Definitions
variable (f : Forest α)

/-- The chain of an object; what has not been allocated has none. -/
def up (m : Nat) : List Nat := (f[m]?.map Node.up).getD []

/-- How often an object has been freed. -/
def freed (m : Nat) : Nat := (f[m]?.map Node.freed).getD 0

/-- What an object holds, if it has been allocated. -/
def content (m : Nat) : Option α := f[m]?.map Node.content

/-- The object that contains `m` directly. -/
def parent (m : Nat) : Option Nat := (f.up m).head?

/-- `m` is `n`, or lies inside it. -/
def Inside (n m : Nat) : Prop := n = m ∨ n ∈ f.up m

/-- An object that has been allocated and not freed. -/
def Live (m : Nat) : Prop := m < f.length ∧ f.freed m = 0

/-- An object that has not been freed and that nothing contains. -/
def Root (m : Nat) : Prop := f.Live m ∧ f.up m = []

instance (n m : Nat) : Decidable (f.Inside n m) := inferInstanceAs (Decidable (_ ∨ _))
instance (m : Nat) : Decidable (f.Live m) := inferInstanceAs (Decidable (_ ∧ _))
instance (m : Nat) : Decidable (f.Root m) := inferInstanceAs (Decidable (_ ∧ _))

/-- The outermost object around `m`, or `m` itself. -/
def top (m : Nat) : Nat := (f.up m).getLastD m

/-- What `n` contains directly, in the order of allocation. -/
def children (n : Nat) : List Nat :=
  (List.range f.length).filter (fun m => f.parent m = some n)

/-- What lies inside `n`, from the outside in. -/
def inner (n : Nat) : List Nat :=
  (List.range f.length).flatMap (fun depth =>
    (List.range f.length).filter (fun m => n ∈ f.up m ∧ (f.up m).length = depth))

/-- What lies inside `n`, each object with the place of its container in the list of `n`
and what precedes it. -/
def contents (n : Nat) : List (Nat × α) :=
  (f.inner n).filterMap (fun m => f[m]?.map (fun node =>
    ((n :: f.inner n).idxOf (node.up.headD n), node.content)))

/-- Allocate an object with a chain. -/
def push (c : α) (up : List Nat) : Forest α := f ++ [⟨c, up, 0⟩]

/-- Allocate a root. -/
def plant (c : α) : Forest α := f.push c []

/-- Allocate an object inside `p`. -/
def graft (p : Nat) (c : α) : Forest α := f.push c (p :: f.up p)

/-- Free `n` and all that is inside it. -/
def destroy (n : Nat) : Forest α :=
  f.mapIdx (fun m node =>
    if n = m ∨ n ∈ node.up then { node with freed := node.freed + 1 } else node)

/-- Take `c`, with all that is inside it, out of what contains it. -/
def detach (c : Nat) : Forest α :=
  f.mapIdx (fun m node => { node with
    up := if m = c then []
      else if c ∈ node.up then node.up.takeWhile (· ≠ c) ++ [c]
      else node.up })

/-- Put the root `c` into `p`. -/
def attach (p c : Nat) : Forest α :=
  f.mapIdx (fun m node => { node with
    up := if m = c ∨ c ∈ node.up then node.up ++ p :: f.up p else node.up })

/-- Free `p` alone, out of what contains it. -/
def remove (p : Nat) : Forest α := (f.detach p).destroy p

/-- Change what `n` holds. -/
def update (n : Nat) (c : α → α) : Forest α :=
  f.mapIdx (fun m node => if m = n then { node with content := c node.content } else node)

end Definitions

/-- Allocate objects inside one another: each with the place of its container among `ids`
and the objects allocated before it. -/
def graftAll (f : Forest α) (dst : Nat) (ids : List Nat) : List (Nat × α) → Forest α
  | [] => f
  | (i, c) :: items =>
    (f.graft (ids[i]?.getD dst) c).graftAll dst (ids ++ [f.length]) items

/-- Allocate a copy of what is listed, inside `dst`. -/
def embed (f : Forest α) (dst : Nat) (items : List (Nat × α)) : Forest α :=
  f.graftAll dst [dst] items

/-- Allocate an object inside `p`, and what is listed inside that object. -/
def graftTree (p : Nat) (f : Forest α) (tree : α × List (Nat × α)) : Forest α :=
  (f.graft p tree.1).embed f.length tree.2

/-- Allocate a root, and what is listed inside it. -/
def plantTree (f : Forest α) (tree : α × List (Nat × α)) : Forest α :=
  (f.plant tree.1).embed f.length tree.2

/-- Allocate several roots, each with what is listed inside it: the roots, and the forest. -/
def plantTrees (f : Forest α) : List (α × List (Nat × α)) → List Nat × Forest α
  | [] => ([], f)
  | tree :: trees =>
    (f.length :: ((f.plantTree tree).plantTrees trees).1, ((f.plantTree tree).plantTrees trees).2)

/-- Free several roots. -/
def destroyAll (f : Forest α) (ns : List Nat) : Forest α := ns.foldl Forest.destroy f

/-! ## What the operations change -/

section Effects
variable (f : Forest α)

/-- What has not been allocated has no chain. -/
theorem up_of_le {m : Nat} (hm : f.length ≤ m) : f.up m = [] := by
  rw [up, List.getElem?_eq_none hm]
  rfl

theorem freed_of_le {m : Nat} (hm : f.length ≤ m) : f.freed m = 0 := by
  rw [freed, List.getElem?_eq_none hm]
  rfl

theorem lt_of_mem_up {m p : Nat} (h : p ∈ f.up m) : m < f.length := by
  by_contra hm
  rw [f.up_of_le (Nat.le_of_not_lt hm)] at h
  cases h

theorem parent_eq_some {m p : Nat} : f.parent m = some p ↔ ∃ rest, f.up m = p :: rest := by
  unfold parent
  cases f.up m with
  | nil => simp
  | cons q rest => simp

theorem mem_up_of_parent {m p : Nat} (h : f.parent m = some p) : p ∈ f.up m := by
  obtain ⟨rest, hup⟩ := f.parent_eq_some.mp h
  rw [hup]
  exact List.mem_cons_self ..

/-- The children of `n` are those it is the container of. -/
theorem mem_children {n m : Nat} : m ∈ f.children n ↔ f.parent m = some n := by
  simp only [children, List.mem_filter, List.mem_range, decide_eq_true_eq,
    and_iff_right_iff_imp]
  exact fun h => f.lt_of_mem_up (f.mem_up_of_parent h)

@[simp] theorem length_push (c : α) (u : List Nat) : (f.push c u).length = f.length + 1 := by
  simp [push]

theorem up_push_self (c : α) (u : List Nat) : (f.push c u).up f.length = u := by
  simp [up, push]

theorem getElem?_push_of_ne {m : Nat} (c : α) (u : List Nat) (hm : m ≠ f.length) :
    (f.push c u)[m]? = f[m]? :=
  getElem?_concat_of_ne hm

theorem up_push_of_ne {m : Nat} (c : α) (u : List Nat) (hm : m ≠ f.length) :
    (f.push c u).up m = f.up m := by
  rw [up, f.getElem?_push_of_ne c u hm, up]

@[simp] theorem freed_push (c : α) (u : List Nat) (m : Nat) :
    (f.push c u).freed m = f.freed m := by
  by_cases hm : m = f.length
  · rw [hm, f.freed_of_le (Nat.le_refl _)]
    simp [freed, push]
  · rw [freed, f.getElem?_push_of_ne c u hm, freed]

@[simp] theorem length_destroy (n : Nat) : (f.destroy n).length = f.length := by
  simp [destroy]

@[simp] theorem up_destroy (n m : Nat) : (f.destroy n).up m = f.up m := by
  unfold up destroy
  rw [List.getElem?_mapIdx]
  cases f[m]? with
  | none => rfl
  | some node => by_cases h : n = m ∨ n ∈ node.up <;> simp [h]

/-- An object is freed with everything that is inside it. -/
theorem freed_destroy_of_inside {n m : Nat} (hm : m < f.length) (h : f.Inside n m) :
    (f.destroy n).freed m = f.freed m + 1 := by
  unfold Inside up at h
  unfold freed destroy
  rw [List.getElem?_mapIdx]
  rw [List.getElem?_eq_getElem hm] at h ⊢
  exact congrArg Node.freed (if_pos h)

/-- What is not inside `n` is not freed with it. -/
theorem freed_destroy_of_not_inside {n m : Nat} (h : ¬ f.Inside n m) :
    (f.destroy n).freed m = f.freed m := by
  unfold Inside up at h
  unfold freed destroy
  rw [List.getElem?_mapIdx]
  cases hnode : f[m]? with
  | none => rfl
  | some node =>
    rw [hnode] at h
    exact congrArg Node.freed (if_neg h)

@[simp] theorem content_destroy (n m : Nat) : (f.destroy n).content m = f.content m := by
  unfold content destroy
  rw [List.getElem?_mapIdx]
  cases f[m]? with
  | none => rfl
  | some node => by_cases h : n = m ∨ n ∈ node.up <;> simp [h]

@[simp] theorem length_detach (c : Nat) : (f.detach c).length = f.length := by
  simp [detach]

@[simp] theorem freed_detach (c m : Nat) : (f.detach c).freed m = f.freed m := by
  unfold freed detach
  rw [List.getElem?_mapIdx]
  cases f[m]? <;> rfl

@[simp] theorem content_detach (c m : Nat) : (f.detach c).content m = f.content m := by
  unfold content detach
  rw [List.getElem?_mapIdx]
  cases f[m]? <;> rfl

/-- What is inside `c` keeps its chain up to `c`. -/
theorem up_detach (c m : Nat) : (f.detach c).up m = if m = c then []
    else if c ∈ f.up m then (f.up m).takeWhile (· ≠ c) ++ [c] else f.up m := by
  unfold up detach
  rw [List.getElem?_mapIdx]
  cases f[m]? with
  | none => simp
  | some node => rfl

@[simp] theorem up_detach_self (c : Nat) : (f.detach c).up c = [] := by
  rw [up_detach, if_pos rfl]

theorem up_detach_of_not_inside {c m : Nat} (h : ¬ f.Inside c m) :
    (f.detach c).up m = f.up m := by
  rw [up_detach, if_neg (fun he => h (Or.inl he.symm)), if_neg (fun hc => h (Or.inr hc))]

theorem mem_up_of_mem_detach {c m p : Nat} (h : p ∈ (f.detach c).up m) : p ∈ f.up m := by
  rw [up_detach] at h
  split at h
  · cases h
  split at h
  · rename_i hc
    rcases List.mem_append.mp h with h | h
    · exact (List.takeWhile_sublist _).subset h
    · exact List.mem_singleton.mp h ▸ hc
  · exact h

/-- What was inside `c` stays inside it. -/
theorem inside_detach_self {c m : Nat} : (f.detach c).Inside c m ↔ f.Inside c m := by
  constructor
  · exact fun h => h.imp id f.mem_up_of_mem_detach
  · intro h
    by_cases hm : c = m
    · exact Or.inl hm
    · refine Or.inr ?_
      rw [up_detach, if_neg (Ne.symm hm), if_pos (h.resolve_left hm)]
      exact List.mem_append_right _ (List.mem_singleton_self c)

@[simp] theorem length_attach (p c : Nat) : (f.attach p c).length = f.length := by
  simp [attach]

@[simp] theorem freed_attach (p c m : Nat) : (f.attach p c).freed m = f.freed m := by
  unfold freed attach
  rw [List.getElem?_mapIdx]
  cases f[m]? <;> rfl

/-- What is inside `c` gets the chain of its new container. -/
theorem up_attach_of_inside {p c m : Nat} (hm : m < f.length) (h : f.Inside c m) :
    (f.attach p c).up m = f.up m ++ p :: f.up p := by
  unfold Inside at h
  rw [up, attach, List.getElem?_mapIdx, List.getElem?_eq_getElem hm]
  have hup : f.up m = f[m].up := by
    rw [up, List.getElem?_eq_getElem hm]
    rfl
  rw [hup] at h ⊢
  exact if_pos (h.imp Eq.symm id)

theorem up_attach_of_not_inside {p c m : Nat} (h : ¬ f.Inside c m) :
    (f.attach p c).up m = f.up m := by
  unfold Inside up at h
  unfold up attach
  rw [List.getElem?_mapIdx]
  cases hnode : f[m]? with
  | none => rfl
  | some node =>
    rw [hnode] at h
    exact if_neg (fun hc => h (hc.imp Eq.symm id))

@[simp] theorem length_update (n : Nat) (c : α → α) : (f.update n c).length = f.length := by
  simp [update]

@[simp] theorem up_update (n m : Nat) (c : α → α) : (f.update n c).up m = f.up m := by
  unfold up update
  rw [List.getElem?_mapIdx]
  cases f[m]? with
  | none => rfl
  | some node => by_cases h : m = n <;> simp [h]

@[simp] theorem freed_update (n m : Nat) (c : α → α) : (f.update n c).freed m = f.freed m := by
  unfold freed update
  rw [List.getElem?_mapIdx]
  cases f[m]? with
  | none => rfl
  | some node => by_cases h : m = n <;> simp [h]

end Effects

/-! ## Well-formed forests -/

/-- The chains fit together, nothing is freed twice, and an object has been freed exactly
when what contains it has. -/
structure WellFormed (f : Forest α) : Prop where
  up : ∀ m p rest, f.up m = p :: rest → p < f.length ∧ f.up p = rest
  freed : ∀ m, ∀ p ∈ f.up m, f.freed m = f.freed p
  once : ∀ m, f.freed m ≤ 1

theorem wellFormed_nil : WellFormed ([] : Forest α) where
  up m p rest h := by
    rw [up_of_le _ (Nat.zero_le m)] at h
    cases h
  freed m p hp := by
    rw [up_of_le _ (Nat.zero_le m)] at hp
    cases hp
  once m := by
    rw [freed_of_le _ (Nat.zero_le m)]
    exact Nat.zero_le 1

namespace WellFormed
variable {f : Forest α} (h : f.WellFormed)
include h

/-- The chain of an object goes on with the chain of each object on it. -/
theorem up_eq_append {m p : Nat} (hp : p ∈ f.up m) : ∃ s, f.up m = s ++ p :: f.up p := by
  generalize hchain : f.up m = chain at hp
  induction chain generalizing m with
  | nil => cases hp
  | cons q rest ih =>
    have hq := (h.up m q rest hchain).2
    rcases List.mem_cons.mp hp with rfl | hp
    · exact ⟨[], by rw [hq]; rfl⟩
    · obtain ⟨s, hs⟩ := ih hq hp
      exact ⟨q :: s, by rw [hs]; rfl⟩

/-- What lies around a container lies around what it contains. -/
theorem mem_trans {m p q : Nat} (hp : p ∈ f.up m) (hq : q ∈ f.up p) : q ∈ f.up m := by
  obtain ⟨s, hs⟩ := h.up_eq_append hp
  rw [hs]
  exact List.mem_append_right _ (List.mem_cons_of_mem _ hq)

theorem lt_of_mem {m p : Nat} (hp : p ∈ f.up m) : p < f.length := by
  generalize hchain : f.up m = chain at hp
  induction chain generalizing m with
  | nil => cases hp
  | cons q rest ih =>
    rcases List.mem_cons.mp hp with rfl | hp
    · exact (h.up m p rest hchain).1
    · exact ih (h.up m q rest hchain).2 hp

/-- Nothing lies inside itself. -/
theorem not_mem_self (m : Nat) : m ∉ f.up m := by
  intro hm
  obtain ⟨s, hs⟩ := h.up_eq_append hm
  have hlength := congrArg List.length hs
  rw [List.length_append, List.length_cons] at hlength
  omega

/-- Being inside is transitive. -/
theorem inside_trans {a b c : Nat} (hab : f.Inside a b) (hbc : f.Inside b c) :
    f.Inside a c := by
  rcases hbc with rfl | hbc
  · exact hab
  · rcases hab with rfl | hab
    · exact Or.inr hbc
    · exact Or.inr (h.mem_trans hbc hab)

/-- Of two objects around a third, one lies inside the other. -/
theorem inside_or_inside {a b m : Nat} (ha : f.Inside a m) (hb : f.Inside b m) :
    f.Inside a b ∨ f.Inside b a := by
  rcases ha with rfl | ha
  · exact Or.inr hb
  rcases hb with rfl | hb
  · exact Or.inl (Or.inr ha)
  generalize hchain : f.up m = chain at ha hb
  induction chain generalizing m with
  | nil => cases ha
  | cons q rest ih =>
    have hq := (h.up m q rest hchain).2
    -- whichever comes first on the chain is the inner one
    rcases List.mem_cons.mp ha with rfl | harest
    · right
      exact (List.mem_cons.mp hb).imp id (fun hb => hq ▸ hb)
    rcases List.mem_cons.mp hb with rfl | hbrest
    · exact Or.inl (Or.inr (hq ▸ harest))
    · exact ih hq harest hbrest

/-- What is inside an object has been freed as often as the object. -/
theorem freed_eq_of_inside {a m : Nat} (ha : f.Inside a m) : f.freed m = f.freed a := by
  rcases ha with rfl | ha
  · rfl
  · exact h.freed m a ha

/-- An object lies inside one root only. -/
theorem root_unique {r r' m : Nat} (hr : f.up r = []) (hr' : f.up r' = [])
    (hm : f.Inside r m) (hm' : f.Inside r' m) : r = r' := by
  rcases h.inside_or_inside hm hm' with hi | hi
  · rcases hi with rfl | hi
    · rfl
    · rw [hr'] at hi
      cases hi
  · rcases hi with rfl | hi
    · rfl
    · rw [hr] at hi
      cases hi

/-- Nothing is around the outermost object. -/
theorem top_spec (m : Nat) : f.up (f.top m) = [] ∧ f.Inside (f.top m) m := by
  unfold top
  generalize hchain : f.up m = chain
  induction chain generalizing m with
  | nil => exact ⟨hchain, Or.inl rfl⟩
  | cons q rest ih =>
    obtain ⟨hroot, hin⟩ := ih q (h.up m q rest hchain).2
    rw [List.getLastD_cons]
    refine ⟨hroot, h.inside_trans hin (Or.inr ?_)⟩
    rw [hchain]
    exact List.mem_cons_self ..

/-- A root is the outermost object around everything inside it. -/
theorem top_eq {r m : Nat} (hr : f.up r = []) (hm : f.Inside r m) : f.top m = r :=
  h.root_unique (h.top_spec m).1 hr (h.top_spec m).2 hm

/-- Every object that has not been freed lies inside a root. -/
theorem exists_root {m : Nat} (hm : f.Live m) : ∃ r, f.Root r ∧ f.Inside r m := by
  obtain ⟨hr, hin⟩ := h.top_spec m
  have hlt : f.top m < f.length := by
    rcases hin with hin | hin
    · exact hin.symm ▸ hm.1
    · exact h.lt_of_mem hin
  exact ⟨f.top m, ⟨⟨hlt, (h.freed_eq_of_inside hin).symm.trans hm.2⟩, hr⟩, hin⟩

/-- What is inside a live object is alive. -/
theorem live_of_inside {r m : Nat} (hr : f.Live r) (hm : f.Inside r m) : f.Live m := by
  refine ⟨?_, (h.freed_eq_of_inside hm).trans hr.2⟩
  rcases hm with rfl | hm
  · exact hr.1
  · exact f.lt_of_mem_up hm

/-- What is around a live object is alive. -/
theorem live_of_inside' {r m : Nat} (hm : f.Live m) (hr : f.Inside r m) : f.Live r := by
  refine ⟨?_, (h.freed_eq_of_inside hr).symm.trans hm.2⟩
  rcases hr with rfl | hr
  · exact hm.1
  · exact h.lt_of_mem hr

/-! ### The operations keep forests well formed -/

/-- An object may be allocated inside a live one, with its chain. -/
theorem push {c : α} {u : List Nat}
    (hu : ∀ p rest, u = p :: rest → f.Live p ∧ f.up p = rest) : (f.push c u).WellFormed where
  up m p rest hup := by
    have hlt : p < f.length ∧ f.up p = rest := by
      by_cases hm : m = f.length
      · rw [hm, up_push_self] at hup
        exact ⟨(hu p rest hup).1.1, (hu p rest hup).2⟩
      · rw [f.up_push_of_ne c u hm] at hup
        exact h.up m p rest hup
    refine ⟨?_, ?_⟩
    · rw [length_push]
      exact Nat.lt_succ_of_lt hlt.1
    · rw [f.up_push_of_ne c u (Nat.ne_of_lt hlt.1)]
      exact hlt.2
  freed m p hp := by
    rw [freed_push, freed_push]
    by_cases hm : m = f.length
    · rw [hm, up_push_self] at hp
      rw [hm, f.freed_of_le (Nat.le_refl _)]
      cases u with
      | nil => cases hp
      | cons q rest =>
        -- everything above the new object lies around its container
        obtain ⟨hlive, hrest⟩ := hu q rest rfl
        have hin : f.Inside p q := by
          rcases List.mem_cons.mp hp with rfl | hp
          · exact Or.inl rfl
          · exact Or.inr (hrest ▸ hp)
        exact hlive.2.symm.trans (h.freed_eq_of_inside hin)
    · rw [f.up_push_of_ne c u hm] at hp
      exact h.freed m p hp
  once m := by
    rw [freed_push]
    exact h.once m

/-- Nothing is around a new root. -/
theorem plant (c : α) : (f.plant c).WellFormed :=
  h.push (fun _ _ hu => nomatch hu)

theorem graft {p : Nat} (hp : f.Live p) (c : α) : (f.graft p c).WellFormed := by
  refine h.push (fun q rest hu => ?_)
  obtain ⟨rfl, rfl⟩ := List.cons.inj hu
  exact ⟨hp, rfl⟩

/-- What contains an object inside the root `n` is inside `n` as well. -/
theorem inside_root_iff {n m p : Nat} (hn : f.up n = []) (hp : p ∈ f.up m) :
    f.Inside n p ↔ f.Inside n m := by
  constructor
  · exact fun hin => h.inside_trans hin (Or.inr hp)
  · intro hin
    rcases h.inside_or_inside hin (Or.inr hp) with hnp | hpn
    · exact hnp
    · rcases hpn with rfl | hpn
      · exact Or.inl rfl
      · rw [hn] at hpn
        cases hpn

/-- **A root is freed** with all that is inside it, once. -/
theorem destroy {n : Nat} (hn : f.Root n) : (f.destroy n).WellFormed where
  up m p rest hup := by
    rw [up_destroy] at hup
    rw [length_destroy, up_destroy]
    exact h.up m p rest hup
  freed m p hp := by
    rw [up_destroy] at hp
    have hiff := h.inside_root_iff hn.2 hp
    by_cases hin : f.Inside n m
    · rw [f.freed_destroy_of_inside (f.lt_of_mem_up hp) hin,
        f.freed_destroy_of_inside (h.lt_of_mem hp) (hiff.mpr hin), h.freed m p hp]
    · rw [f.freed_destroy_of_not_inside hin,
        f.freed_destroy_of_not_inside (fun hc => hin (hiff.mp hc)), h.freed m p hp]
  once m := by
    by_cases hin : f.Inside n m
    · have hlive := h.live_of_inside hn.1 hin
      have hfreed := f.freed_destroy_of_inside hlive.1 hin
      rw [hlive.2] at hfreed
      exact Nat.le_of_eq hfreed
    · rw [f.freed_destroy_of_not_inside hin]
      exact h.once m

/-- **An object is taken out** and becomes a root. -/
theorem detach (c : Nat) : (f.detach c).WellFormed where
  up m p rest hup := by
    rw [length_detach]
    by_cases hmc : m = c
    · rw [hmc, up_detach_self] at hup
      cases hup
    rw [up_detach, if_neg hmc] at hup
    by_cases hc : c ∈ f.up m
    · rw [if_pos hc] at hup
      cases hchain : f.up m with
      | nil => rw [hchain] at hc; cases hc
      | cons q chain =>
        obtain ⟨hq, hqup⟩ := h.up m q chain hchain
        rw [hchain] at hup hc
        by_cases hqc : q = c
        · -- the container itself is taken out
          subst hqc
          simp only [List.takeWhile_cons, ne_eq, not_true_eq_false, decide_false,
            Bool.false_eq_true, ↓reduceIte, List.nil_append, List.cons.injEq] at hup
          obtain ⟨rfl, rfl⟩ := hup
          exact ⟨hq, up_detach_self f q⟩
        · simp only [List.takeWhile_cons, ne_eq, hqc, not_false_eq_true, decide_true,
            ↓reduceIte, List.cons_append, List.cons.injEq] at hup
          obtain ⟨rfl, rfl⟩ := hup
          refine ⟨hq, ?_⟩
          have hcq : c ∈ f.up q := by
            rw [hqup]
            exact (List.mem_cons.mp hc).resolve_left (Ne.symm hqc)
          rw [up_detach, if_neg hqc, if_pos hcq, hqup]
    · rw [if_neg hc] at hup
      obtain ⟨hp, hpup⟩ := h.up m p rest hup
      refine ⟨hp, ?_⟩
      rw [f.up_detach_of_not_inside, hpup]
      intro hin
      exact hc (by rw [hup]; exact List.mem_cons.mpr (hin.imp id (fun hin => hpup ▸ hin)))
  freed m p hp := by
    rw [freed_detach, freed_detach]
    exact h.freed m p (f.mem_up_of_mem_detach hp)
  once m := by
    rw [freed_detach]
    exact h.once m

/-- **A root is put into an object** that is not inside it. -/
theorem attach {p c : Nat} (hc : f.Root c) (hp : f.Live p) (hpc : ¬ f.Inside c p) :
    (f.attach p c).WellFormed where
  up m q rest hup := by
    rw [length_attach]
    by_cases hin : f.Inside c m
    · have hm : m < f.length := (h.live_of_inside hc.1 hin).1
      rw [f.up_attach_of_inside hm hin] at hup
      cases hchain : f.up m with
      | nil =>
        rw [hchain] at hup
        obtain ⟨rfl, rfl⟩ := List.cons.inj hup
        exact ⟨hp.1, f.up_attach_of_not_inside hpc⟩
      | cons x chain =>
        rw [hchain] at hup
        obtain ⟨rfl, rfl⟩ := List.cons.inj hup
        obtain ⟨hx, hxup⟩ := h.up m x chain hchain
        have hxm : x ∈ f.up m := by
          rw [hchain]
          exact List.mem_cons_self ..
        refine ⟨hx, ?_⟩
        rw [f.up_attach_of_inside hx ((h.inside_root_iff hc.2 hxm).mpr hin), hxup]
        rfl
    · rw [f.up_attach_of_not_inside hin] at hup
      obtain ⟨hq, hqup⟩ := h.up m q rest hup
      have hqm : q ∈ f.up m := by
        rw [hup]
        exact List.mem_cons_self ..
      refine ⟨hq, ?_⟩
      rw [f.up_attach_of_not_inside (fun hcq => hin (h.inside_trans hcq (Or.inr hqm))), hqup]
  freed m q hq := by
    rw [freed_attach, freed_attach]
    by_cases hin : f.Inside c m
    · have hm := h.live_of_inside hc.1 hin
      rw [f.up_attach_of_inside hm.1 hin] at hq
      rcases List.mem_append.mp hq with hq | hq
      · exact h.freed m q hq
      · have hin' : f.Inside q p := (List.mem_cons.mp hq)
        rw [hm.2, ← h.freed_eq_of_inside hin', hp.2]
    · rw [f.up_attach_of_not_inside hin] at hq
      exact h.freed m q hq
  once m := by
    rw [freed_attach]
    exact h.once m

theorem update (n : Nat) (c : α → α) : (f.update n c).WellFormed where
  up m p rest hup := by
    rw [up_update] at hup
    rw [length_update, up_update]
    exact h.up m p rest hup
  freed m p hp := by
    rw [up_update] at hp
    rw [freed_update, freed_update]
    exact h.freed m p hp
  once m := by
    rw [freed_update]
    exact h.once m

end WellFormed

/-! ## Growing: new objects inside old ones -/

/-- `g` has the objects of `f` as they were, and new ones inside others. -/
structure Grows (f g : Forest α) : Prop where
  length : f.length ≤ g.length
  up : ∀ m, m < f.length → g.up m = f.up m
  content : ∀ m, m < f.length → g.content m = f.content m
  freed : ∀ m, g.freed m = f.freed m
  fresh : ∀ m, f.length ≤ m → m < g.length → g.up m ≠ []

namespace Grows
variable {f g k : Forest α}

theorem refl (f : Forest α) : Grows f f where
  length := Nat.le_refl _
  up _ _ := rfl
  content _ _ := rfl
  freed _ := rfl
  fresh _ hle hlt := absurd hlt (Nat.not_lt.mpr hle)

/-- Growth adds up. -/
theorem trans (hfg : Grows f g) (hgk : Grows g k) : Grows f k where
  length := Nat.le_trans hfg.length hgk.length
  up m hm := (hgk.up m (Nat.lt_of_lt_of_le hm hfg.length)).trans (hfg.up m hm)
  content m hm := (hgk.content m (Nat.lt_of_lt_of_le hm hfg.length)).trans (hfg.content m hm)
  freed m := (hgk.freed m).trans (hfg.freed m)
  fresh m hle hlt := by
    by_cases hm : m < g.length
    · rw [hgk.up m hm]
      exact hfg.fresh m hle hm
    · exact hgk.fresh m (Nat.le_of_not_lt hm) hlt

/-- A new object inside another one. -/
theorem graft (f : Forest α) (p : Nat) (c : α) : Grows f (f.graft p c) where
  length := by
    rw [Forest.graft, length_push]
    exact Nat.le_succ _
  up m hm := f.up_push_of_ne c _ (Nat.ne_of_lt hm)
  content m hm := by
    unfold Forest.content Forest.graft
    rw [f.getElem?_push_of_ne c _ (Nat.ne_of_lt hm)]
  freed m := f.freed_push c _ m
  fresh m hle hlt := by
    rw [Forest.graft, length_push] at hlt
    obtain rfl := Nat.le_antisymm hle (Nat.le_of_lt_succ hlt)
    rw [Forest.graft, up_push_self]
    exact List.cons_ne_nil _ _

section
variable (h : Grows f g)
include h

/-- What was alive is alive. -/
theorem live {m : Nat} (hm : f.Live m) : g.Live m :=
  ⟨Nat.lt_of_lt_of_le hm.1 h.length, (h.freed m).trans hm.2⟩

/-- What was inside something is inside it, and nothing else is. -/
theorem inside_iff {n m : Nat} (hm : m < f.length) : g.Inside n m ↔ f.Inside n m := by
  rw [Inside, h.up m hm, Inside]

/-- No root is new or gone. -/
theorem root_iff (m : Nat) : g.Root m ↔ f.Root m := by
  constructor
  · intro hm
    by_cases hlt : m < f.length
    · exact ⟨⟨hlt, (h.freed m).symm.trans hm.1.2⟩, (h.up m hlt).symm.trans hm.2⟩
    · exact absurd hm.2 (h.fresh m (Nat.le_of_not_lt hlt) hm.1.1)
  · exact fun hm => ⟨h.live hm.1, (h.up m hm.1.1).trans hm.2⟩

end
end Grows

section Building
variable {f : Forest α}

theorem live_graft (p : Nat) (c : α) : (f.graft p c).Live f.length := by
  refine ⟨?_, ?_⟩
  · rw [graft, length_push]
    exact Nat.lt_succ_self _
  · rw [graft, freed_push]
    exact f.freed_of_le (Nat.le_refl _)

/-- The objects of a list are allocated one inside another. -/
theorem WellFormed.graftAll (h : f.WellFormed) {dst : Nat} {ids : List Nat}
    (items : List (Nat × α)) (hdst : f.Live dst) (hids : ∀ i ∈ ids, f.Live i) :
    (f.graftAll dst ids items).WellFormed ∧ Grows f (f.graftAll dst ids items) := by
  induction items generalizing f ids with
  | nil => exact ⟨h, Grows.refl f⟩
  | cons item items ih =>
    obtain ⟨i, c⟩ := item
    have hp : f.Live (ids[i]?.getD dst) := by
      cases hi : ids[i]? with
      | none => exact hdst
      | some p => exact hids p (List.mem_of_getElem? hi)
    have hgrows := Grows.graft f (ids[i]?.getD dst) c
    have hlive : ∀ j ∈ ids ++ [f.length], (f.graft (ids[i]?.getD dst) c).Live j := by
      intro j hj
      rcases List.mem_append.mp hj with hj | hj
      · exact hgrows.live (hids j hj)
      · rw [List.mem_singleton.mp hj]
        exact live_graft _ c
    have hrest := ih (h.graft hp c) (hgrows.live hdst) hlive
    exact ⟨hrest.1, hgrows.trans hrest.2⟩

/-- A copy is allocated inside a live object. -/
theorem WellFormed.embed (h : f.WellFormed) {dst : Nat} (hdst : f.Live dst)
    (items : List (Nat × α)) :
    (f.embed dst items).WellFormed ∧ Grows f (f.embed dst items) := by
  refine h.graftAll items hdst (fun i hi => ?_)
  rw [List.mem_singleton.mp hi]
  exact hdst

theorem WellFormed.graftTree (h : f.WellFormed) {p : Nat} (hp : f.Live p)
    (tree : α × List (Nat × α)) :
    (f.graftTree p tree).WellFormed ∧ Grows f (f.graftTree p tree) := by
  have hembed := (h.graft hp tree.1).embed (live_graft p tree.1) tree.2
  exact ⟨hembed.1, (Grows.graft f p tree.1).trans hembed.2⟩

theorem WellFormed.graftTrees (h : f.WellFormed) {p : Nat} (hp : f.Live p)
    (trees : List (α × List (Nat × α))) :
    (trees.foldl (Forest.graftTree p) f).WellFormed ∧
      Grows f (trees.foldl (Forest.graftTree p) f) := by
  induction trees generalizing f with
  | nil => exact ⟨h, Grows.refl f⟩
  | cons tree trees ih =>
    have hfirst := h.graftTree hp tree
    have hrest := ih hfirst.1 (hfirst.2.live hp)
    exact ⟨hrest.1, hfirst.2.trans hrest.2⟩

end Building

/-! ## Which objects live, and which are roots -/

section Roots
variable {f : Forest α}

theorem live_plant_iff (c : α) (m : Nat) : (f.plant c).Live m ↔ f.Live m ∨ m = f.length := by
  unfold Live plant
  rw [length_push, freed_push]
  constructor
  · rintro ⟨hlt, hfreed⟩
    rcases Nat.lt_or_eq_of_le (Nat.le_of_lt_succ hlt) with hlt | rfl
    · exact Or.inl ⟨hlt, hfreed⟩
    · exact Or.inr rfl
  · rintro (⟨hlt, hfreed⟩ | rfl)
    · exact ⟨Nat.lt_succ_of_lt hlt, hfreed⟩
    · exact ⟨Nat.lt_succ_self _, f.freed_of_le (Nat.le_refl _)⟩

theorem up_plant (c : α) (m : Nat) : (f.plant c).up m = f.up m := by
  by_cases hm : m = f.length
  · rw [hm, plant, up_push_self, f.up_of_le (Nat.le_refl _)]
  · exact f.up_push_of_ne c [] hm

/-- There is one more root. -/
theorem root_plant_iff (c : α) (m : Nat) : (f.plant c).Root m ↔ f.Root m ∨ m = f.length := by
  unfold Root
  rw [live_plant_iff, up_plant]
  constructor
  · rintro ⟨hlive | hm, hup⟩
    · exact Or.inl ⟨hlive, hup⟩
    · exact Or.inr hm
  · rintro (⟨hlive, hup⟩ | rfl)
    · exact ⟨Or.inl hlive, hup⟩
    · exact ⟨Or.inr rfl, f.up_of_le (Nat.le_refl _)⟩

/-- What is inside `n` is not alive any more. -/
theorem live_destroy_iff {n m : Nat} : (f.destroy n).Live m ↔ f.Live m ∧ ¬ f.Inside n m := by
  unfold Live
  rw [length_destroy]
  by_cases hin : f.Inside n m
  · constructor
    · rintro ⟨hlt, hfreed⟩
      rw [f.freed_destroy_of_inside hlt hin] at hfreed
      cases hfreed
    · exact fun hm => absurd hin hm.2
  · rw [f.freed_destroy_of_not_inside hin]
    exact ⟨fun hm => ⟨hm, hin⟩, And.left⟩

/-- There is one root less. -/
theorem root_destroy_iff {n m : Nat} : (f.destroy n).Root m ↔ f.Root m ∧ m ≠ n := by
  unfold Root
  rw [live_destroy_iff, up_destroy]
  constructor
  · rintro ⟨⟨hlive, hin⟩, hup⟩
    exact ⟨⟨hlive, hup⟩, fun he => hin (Or.inl he.symm)⟩
  · rintro ⟨⟨hlive, hup⟩, hne⟩
    refine ⟨⟨hlive, fun hin => ?_⟩, hup⟩
    rcases hin with rfl | hin
    · exact hne rfl
    · rw [hup] at hin
      cases hin

@[simp] theorem live_detach_iff {c m : Nat} : (f.detach c).Live m ↔ f.Live m := by
  unfold Live
  rw [length_detach, freed_detach]

/-- What has been taken out is a root too. -/
theorem root_detach_iff {c m : Nat} (hc : f.Live c) :
    (f.detach c).Root m ↔ f.Root m ∨ m = c := by
  unfold Root
  rw [live_detach_iff, up_detach]
  by_cases hm : m = c
  · rw [if_pos hm]
    exact ⟨fun _ => Or.inr hm, fun _ => ⟨hm ▸ hc, rfl⟩⟩
  · rw [if_neg hm]
    by_cases hcm : c ∈ f.up m
    · rw [if_pos hcm]
      constructor
      · exact fun h => absurd h.2 (List.append_ne_nil_of_right_ne_nil _ (List.cons_ne_nil _ _))
      · rintro (h | h)
        · rw [h.2] at hcm
          cases hcm
        · exact absurd h hm
    · rw [if_neg hcm]
      exact ⟨Or.inl, fun h => h.resolve_right hm⟩

@[simp] theorem live_attach_iff {p c m : Nat} : (f.attach p c).Live m ↔ f.Live m := by
  unfold Live
  rw [length_attach, freed_attach]

/-- What has been put into something is a root no more. -/
theorem root_attach_iff {p c m : Nat} :
    (f.attach p c).Root m ↔ f.Root m ∧ m ≠ c := by
  unfold Root
  rw [live_attach_iff]
  by_cases hin : f.Inside c m
  · constructor
    · rintro ⟨hlive, hup⟩
      rw [f.up_attach_of_inside hlive.1 hin] at hup
      exact absurd hup (List.append_ne_nil_of_right_ne_nil _ (List.cons_ne_nil _ _))
    · rintro ⟨⟨_, hup⟩, hne⟩
      rcases hin with rfl | hin
      · exact absurd rfl hne
      · rw [hup] at hin
        cases hin
  · rw [f.up_attach_of_not_inside hin]
    exact ⟨fun h => ⟨h, fun he => hin (Or.inl he.symm)⟩, And.left⟩

@[simp] theorem live_update_iff {n m : Nat} {c : α → α} : (f.update n c).Live m ↔ f.Live m := by
  unfold Live
  rw [length_update, freed_update]

@[simp] theorem root_update_iff {n m : Nat} {c : α → α} :
    (f.update n c).Root m ↔ f.Root m := by
  unfold Root
  rw [live_update_iff, up_update]

@[simp] theorem length_remove (p : Nat) : (f.remove p).length = f.length := by
  rw [remove, length_destroy, length_detach]

theorem live_remove_iff {p m : Nat} : (f.remove p).Live m ↔ f.Live m ∧ ¬ f.Inside p m := by
  rw [remove, live_destroy_iff, live_detach_iff, inside_detach_self]

theorem up_remove_of_not_inside {p m : Nat} (hm : ¬ f.Inside p m) :
    (f.remove p).up m = f.up m := by
  rw [remove, up_destroy, f.up_detach_of_not_inside hm]

theorem root_remove_iff {p m : Nat} (hp : f.Live p) :
    (f.remove p).Root m ↔ f.Root m ∧ m ≠ p := by
  rw [remove, root_destroy_iff, root_detach_iff hp]
  constructor
  · rintro ⟨hm | hm, hne⟩
    · exact ⟨hm, hne⟩
    · exact absurd hm hne
  · exact fun hm => ⟨Or.inl hm.1, hm.2⟩

theorem WellFormed.remove (h : f.WellFormed) {p : Nat} (hp : f.Live p) :
    (f.remove p).WellFormed := by
  refine (h.detach p).destroy ?_
  exact (root_detach_iff hp).mpr (Or.inr rfl)

theorem content_remove (p m : Nat) : (f.remove p).content m = f.content m := by
  rw [remove, content_destroy, content_detach]

end Roots

/-! ## Several roots -/

section Several
variable {f : Forest α}

theorem length_plantTree (h : f.WellFormed) (tree : α × List (Nat × α)) :
    f.length < (f.plantTree tree).length := by
  have hroot : (f.plant tree.1).Live f.length := (live_plant_iff tree.1 _).mpr (Or.inr rfl)
  have hgrows := ((h.plant tree.1).embed hroot tree.2).2.length
  have hplant : (f.plant tree.1).length = f.length + 1 := by rw [plant, length_push]
  unfold plantTree
  omega

theorem WellFormed.plantTree (h : f.WellFormed) (tree : α × List (Nat × α)) :
    (f.plantTree tree).WellFormed := by
  have hroot : (f.plant tree.1).Live f.length := (live_plant_iff tree.1 _).mpr (Or.inr rfl)
  exact ((h.plant tree.1).embed hroot tree.2).1

/-- Of a list that is allocated only the first is a root. -/
theorem root_plantTree_iff (h : f.WellFormed) (tree : α × List (Nat × α)) (m : Nat) :
    (f.plantTree tree).Root m ↔ f.Root m ∨ m = f.length := by
  have hroot : (f.plant tree.1).Live f.length := (live_plant_iff tree.1 _).mpr (Or.inr rfl)
  rw [Forest.plantTree, ((h.plant tree.1).embed hroot tree.2).2.root_iff, root_plant_iff]

/-- The new roots are the ones that are listed. -/
structure Planted (f : Forest α) (ns : List Nat) (g : Forest α) : Prop where
  wellFormed : g.WellFormed
  length : f.length ≤ g.length
  root : ∀ m, g.Root m ↔ f.Root m ∨ m ∈ ns
  fresh : ∀ n ∈ ns, f.length ≤ n
  nodup : ns.Nodup

/-- **Several lists**: their roots are new, and no two are the same. -/
theorem WellFormed.plantTrees (h : f.WellFormed) (trees : List (α × List (Nat × α))) :
    Planted f (f.plantTrees trees).1 (f.plantTrees trees).2 := by
  induction trees generalizing f with
  | nil =>
    exact ⟨h, Nat.le_refl _, fun m => ⟨Or.inl, fun hm => hm.resolve_right (fun hc => nomatch hc)⟩,
      (fun _ hn => nomatch hn), List.nodup_nil⟩
  | cons tree trees ih =>
    have hrest := ih (h.plantTree tree)
    have hlength := length_plantTree h tree
    have hfresh : ∀ n ∈ ((f.plantTree tree).plantTrees trees).1, f.length < n :=
      fun n hn => Nat.lt_of_lt_of_le hlength (hrest.fresh n hn)
    refine ⟨hrest.wellFormed, Nat.le_trans (Nat.le_of_lt hlength) hrest.length, fun m => ?_,
      fun n hn => ?_, ?_⟩
    · rw [Forest.plantTrees, hrest.root, root_plantTree_iff h, List.mem_cons, or_assoc]
    · rcases List.mem_cons.mp hn with rfl | hn
      · exact Nat.le_refl _
      · exact Nat.le_of_lt (hfresh n hn)
    · exact List.nodup_cons.mpr ⟨fun hmem => Nat.lt_irrefl _ (hfresh _ hmem), hrest.nodup⟩

theorem Planted.not_root {ns : List Nat} {g : Forest α} (h : Planted f ns g) {n : Nat}
    (hn : n ∈ ns) : ¬ f.Root n :=
  fun hroot => absurd hroot.1.1 (Nat.not_lt.mpr (h.fresh n hn))

/-- Several roots are freed. -/
theorem root_destroyAll_iff (ns : List Nat) {m : Nat} :
    (f.destroyAll ns).Root m ↔ f.Root m ∧ m ∉ ns := by
  induction ns generalizing f with
  | nil => exact ⟨fun hm => ⟨hm, fun hc => nomatch hc⟩, And.left⟩
  | cons n ns ih =>
    have hrest : (f.destroyAll (n :: ns)).Root m ↔ (f.destroy n).Root m ∧ m ∉ ns := ih
    rw [hrest, root_destroy_iff, List.mem_cons, not_or, and_assoc]

/-- Each of them is freed once, when they differ. -/
theorem WellFormed.destroyAll (h : f.WellFormed) {ns : List Nat} (hnodup : ns.Nodup)
    (hroots : ∀ n ∈ ns, f.Root n) : (f.destroyAll ns).WellFormed := by
  induction ns generalizing f with
  | nil => exact h
  | cons n ns ih =>
    obtain ⟨hn, hns⟩ := List.nodup_cons.mp hnodup
    obtain ⟨hroot, hrest⟩ := List.forall_mem_cons.mp hroots
    have hothers : ∀ m ∈ ns, (f.destroy n).Root m := by
      intro m hm
      refine root_destroy_iff.mpr ⟨hrest m hm, ?_⟩
      rintro rfl
      exact hn hm
    exact ih (h.destroy hroot) hns hothers

end Several

/-! ## Freeing several objects of one container -/

/-- `g` is `f` after the objects `ps`, none of them a root, have been freed. -/
structure Pruned (f : Forest α) (ps : List Nat) (g : Forest α) : Prop where
  wellFormed : g.WellFormed
  length : g.length = f.length
  content : ∀ m, g.content m = f.content m
  live : ∀ m, g.Live m ↔ f.Live m ∧ ∀ p ∈ ps, ¬ f.Inside p m
  up : ∀ m, (∀ p ∈ ps, ¬ f.Inside p m) → g.up m = f.up m
  root : ∀ m, g.Root m ↔ f.Root m

/-- Objects of one container do not lie inside each other. -/
theorem WellFormed.not_inside_of_parent {f : Forest α} (h : f.WellFormed) {n p q : Nat}
    (hp : f.parent p = some n) (hq : f.parent q = some n) (hne : p ≠ q) :
    ¬ f.Inside p q := by
  obtain ⟨rest, hup⟩ := f.parent_eq_some.mp hq
  have hrest := (h.up q n rest hup).2
  have hnp := f.mem_up_of_parent hp
  rintro (he | hin)
  · exact hne he
  rw [hup] at hin
  rcases List.mem_cons.mp hin with rfl | hin
  · exact h.not_mem_self p hnp
  · exact h.not_mem_self n (h.mem_trans (hrest ▸ hin) hnp)

theorem WellFormed.pruned {f : Forest α} (h : f.WellFormed) {n : Nat} {ps : List Nat}
    (hnodup : ps.Nodup) (hps : ∀ p ∈ ps, f.Live p ∧ f.parent p = some n) :
    Pruned f ps (ps.foldl Forest.remove f) := by
  induction ps generalizing f with
  | nil =>
    exact ⟨h, rfl, fun _ => rfl, fun m => ⟨fun hm => ⟨hm, fun _ hp => nomatch hp⟩, And.left⟩,
      fun _ _ => rfl, fun _ => Iff.rfl⟩
  | cons p ps ih =>
    obtain ⟨hp, hparent⟩ := hps p (List.mem_cons_self ..)
    have hapart : ∀ q ∈ ps, ¬ f.Inside p q := by
      intro q hq
      refine h.not_inside_of_parent hparent (hps q (List.mem_cons_of_mem _ hq)).2 ?_
      rintro rfl
      exact (List.nodup_cons.mp hnodup).1 hq
    -- the others are still there, and around the same objects
    have hothers : ∀ q ∈ ps, (f.remove p).Live q ∧ (f.remove p).parent q = some n := by
      intro q hq
      obtain ⟨hlive, hqparent⟩ := hps q (List.mem_cons_of_mem _ hq)
      refine ⟨live_remove_iff.mpr ⟨hlive, hapart q hq⟩, ?_⟩
      rw [parent, up_remove_of_not_inside (hapart q hq)]
      exact hqparent
    have hinside : ∀ q m, ¬ f.Inside p m → ((f.remove p).Inside q m ↔ f.Inside q m) := by
      intro q m hm
      rw [Inside, up_remove_of_not_inside hm, Inside]
    have hrest := ih (h.remove hp) (List.nodup_cons.mp hnodup).2 hothers
    refine ⟨hrest.wellFormed, hrest.length.trans (length_remove p),
      fun m => (hrest.content m).trans (content_remove p m), fun m => ?_, fun m hm => ?_,
      fun m => ?_⟩
    · rw [List.foldl_cons, hrest.live, live_remove_iff, List.forall_mem_cons, and_assoc]
      refine and_congr_right (fun _ => and_congr_right (fun hpm => ?_))
      exact forall₂_congr (fun q _ => not_congr (hinside q m hpm))
    · obtain ⟨hpm, hm⟩ := List.forall_mem_cons.mp hm
      rw [List.foldl_cons, hrest.up m (fun q hq => mt (hinside q m hpm).mp (hm q hq)),
        up_remove_of_not_inside hpm]
    · rw [List.foldl_cons, hrest.root, root_remove_iff hp]
      refine ⟨And.left, fun hm => ⟨hm, ?_⟩⟩
      rintro rfl
      obtain ⟨rest, hup⟩ := f.parent_eq_some.mp hparent
      rw [hm.2] at hup
      cases hup
end Forest
end FluaLibs
