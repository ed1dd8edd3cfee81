import FluaLibs.NvReferences

/-! # Borrowed pointers of libnv

The collector does no harm to what is borrowed, in any order.  What does is a default of
`get_nvlist` that is kept by its own owner only, an entry that is freed, taken or given away
while a userdata points into it, a `__gc` called by hand, and a `next` that makes a cycle of
references.
-/
namespace FluaLibs
namespace Nv

/-! ## The condition -/

/-- The lists that `move_nvlist_array` takes over: those of the userdata before the first
one that is no `nvlist_t` or occurs a second time. -/
def State.movable (s : State) (seen : List Nat) : List Nat → List Nat
  | [] => []
  | v :: vs =>
    if v ∈ seen then []
    else match s.checknvlist v with
      | none => []
      | some n => n :: s.movable (v :: seen) vs

/-- The step respects what is borrowed: `get_nvlist` yields a default only when it lies in
the same outermost list as the receiver; nothing is freed, taken or given away that a
userdata points at or into; `__gc` is not called on a list; and `next` stores in a cookie no
userdata whose references lead to the cookie. -/
def Respectful (s : State) : Event → Prop
  | .xfer u _ => ∀ nvl ∈ s.checknvlist u, s.Unborrowed nvl
  | .move_nvlist u _ v => s.checknvlist u ≠ none →
    ∀ value ∈ s.checknvlist v, s.Unborrowed value
  | .move_nvlist_array u _ vs => s.checknvlist u ≠ none →
    ∀ value ∈ s.movable [] vs, s.Unborrowed value
  | .get_nvlist u name (some d) => ∀ nvl ∈ s.checkself u,
    s.heap.find nvl name (some .NVLIST) = none →
      ∀ defval ∈ s.checkanynvlist d, s.heap.top defval = s.heap.top nvl
  | .take u name type => ∀ nvl ∈ s.checknvlist u,
    ∀ p ∈ s.heap.find nvl name (some (.plain type)), s.Unborrowed p
  | .take_nvlist u name default => default.map s.checkanynvlist ≠ some none →
    ∀ nvl ∈ s.checknvlist u, ∀ p ∈ s.heap.find nvl name (some .NVLIST), s.Unborrowed p
  | .take_nvlist_array u name => ∀ nvl ∈ s.checknvlist u,
    ∀ p ∈ s.heap.find nvl name (some .NVLIST_ARRAY), s.Unborrowed p
  | .free u name type => ∀ nvl ∈ s.checkcookie .nvlist u,
    ∀ p ∈ s.heap.find nvl name type, s.Unborrowed p
  | .next u (some k) => ∀ nvl ∈ s.checkself u, ∀ p ∈ s.checkcookie .cnvlist k,
    after (s.heap.children nvl) p ≠ none → ¬ s.Holds u k
  | .cnvlist_take_nvlist k => ∀ p ∈ s.checkcookietype k .NVLIST, s.Unborrowed p
  | .cnvlist_take_nvlist_array k => ∀ p ∈ s.checkcookietype k .NVLIST_ARRAY, s.Unborrowed p
  | .cnvlist_free k type => ∀ p ∈ s.checkcookietype k type, s.Unborrowed p
  | .callGc u => s.checkcookie .nvlist u = none
  | _ => True

/-- Whether references lead from one userdata to another is not computed; the rest is. -/
noncomputable instance (s : State) : (e : Event) → Decidable (Respectful s e)
  | .xfer _ _ | .move_nvlist _ _ _ | .move_nvlist_array _ _ _ | .get_nvlist _ _ (some _)
  | .take _ _ _ | .take_nvlist _ _ _ | .take_nvlist_array _ _ | .free _ _ _
  | .cnvlist_take_nvlist _ | .cnvlist_take_nvlist_array _ | .cnvlist_free _ _ | .callGc _ => by
    unfold Respectful
    infer_instance
  | .next _ (some _) => Classical.propDecidable _
  | .create _ | .unpack _ _ | .clone _ | .set_error _ | .add _ _ _ | .add_nvlist _ _ _
  | .add_nvlist_array _ _ _ | .append_nvlist_array _ _ _ | .get_nvlist _ _ none
  | .get_nvlist_array _ _ | .next _ none | .get_parent _ | .get_array_next _ | .get_pararr _
  | .cnvlist_get_nvlist _ | .cnvlist_get_nvlist_array _ | .collect _ => instDecidableTrue

/-! ## What the operations are made of -/

theorem mem_values {h : Heap} {p c : Nat} : c ∈ h.values p ↔ h.parent c = some p := by
  rw [Heap.values, List.mem_insertionSort, Forest.mem_children]

theorem values_nodup (h : Heap) (p : Nat) : (h.values p).Nodup :=
  (List.perm_insertionSort _ _).nodup_iff.mpr (List.nodup_range.filter _)

theorem parent_of_find {h : Heap} {n p : Nat} {name : String} {type : Option NvType}
    (hp : h.find n name type = some p) : h.parent p = some n := by
  cases type with
  | none => exact h.mem_children.mp (List.mem_of_find?_eq_some hp)
  | some type => exact h.mem_children.mp (List.mem_of_find?_eq_some hp)

theorem up_ne_nil_of_parent {h : Heap} {p n : Nat} (hp : h.parent p = some n) :
    h.up p ≠ [] := by
  intro hnil
  have hmem := h.mem_up_of_parent hp
  rw [hnil] at hmem
  cases hmem

theorem mem_of_after {xs : List Nat} {x y : Nat} (h : after xs x = some y) : y ∈ xs := by
  have hmem := List.mem_of_mem_tail (List.mem_of_mem_head? h)
  exact (List.dropWhile_sublist _).subset hmem

theorem State.unborrowed_iff {s : State} {n : Nat} :
    s.Unborrowed n ↔ ∀ b x, s.Borrows b x → ¬ s.heap.Inside n x := by
  constructor
  · exact fun h b x hb => h.not_inside hb
  · intro h d hd hkind hcollected x hx
    obtain ⟨b, hb⟩ := List.mem_iff_getElem?.mp hd
    exact h b x ⟨d.kind, hkind, State.pointer_eq_some.mpr ⟨d, hb, hcollected, rfl, hx⟩⟩

/-- What lies inside something that is not borrowed is not borrowed. -/
theorem State.Unborrowed.inside {s : State} (hw : s.heap.WellFormed) {p c : Nat}
    (h : s.Unborrowed p) (hc : s.heap.Inside p c) : s.Unborrowed c :=
  State.unborrowed_iff.mpr
    (fun _ _ hb hin => h.not_inside hb (hw.inside_trans hc hin))

section Composites
variable {s : State}

theorem Sound.inside_parent (h : Sound s) {r p m : Nat} (hp : s.heap.parent m = some p)
    (hr : s.heap.Inside r p) : s.heap.Inside r m :=
  h.heap.inside_trans hr (Or.inr (s.heap.mem_up_of_parent hp))

theorem Sound.newTree (h : Sound s) (tree : Object × List (Nat × Object)) :
    Sound (s.newTree tree) := by
  have hplant := h.plant tree.1
  have hroot : (s.heap.plant tree.1).Root s.heap.length :=
    (Forest.root_plant_iff tree.1 _).mpr (Or.inr rfl)
  have hembed := hplant.heap.embed hroot.1 tree.2
  refine (hplant.grow hembed.1 hembed.2).new ((hembed.2.root_iff _).mpr hroot) (fun u hu => ?_)
  exact absurd (h.owner u _ hu).1.1 (Nat.lt_irrefl _)

theorem Sound.add_nvpair (h : Sound s) {n : Nat} (hn : s.heap.Live n) (name : String)
    (type : NvType) (trees : List (Object × List (Nat × Object))) :
    Sound (s.withHeap (s.heap.add_nvpair n name type trees)) := by
  unfold Heap.add_nvpair
  split
  · have hgraft := h.heap.graft hn (.nvpair name type)
    have htrees := hgraft.graftTrees (Forest.live_graft n _) trees
    exact h.grow htrees.1 ((Forest.Grows.graft s.heap n _).trans htrees.2)
  · exact h.update n Object.setError

/-- `const nvlist_t` userdata, for lists inside the one that `u` leads to. -/
theorem Sound.newrefAll (h : Sound s) {u r : Nat} (hu : s.Alive u) (hr : s.Anchored u r)
    {ns : List Nat} (hns : ∀ n ∈ ns, s.heap.Inside r n) : Sound (s.newrefAll u ns) := by
  induction ns generalizing s with
  | nil => exact h
  | cons n ns ih =>
    have hfirst := h.newref .const_nvlist (by decide) hu hr
      (hns n (List.mem_cons_self ..))
    exact ih hfirst (s.alive_push_of_alive hu) hr.push
      (fun m hm => hns m (List.mem_cons_of_mem _ hm))

/-- The lists of a pair that `u` leads to. -/
theorem Sound.newrefValues (h : Sound s) {u r p : Nat} (hu : s.Alive u) (hr : s.Anchored u r)
    (hp : s.heap.Inside r p) {ns : List Nat} (hns : ∀ n ∈ ns, n ∈ s.heap.values p) :
    Sound (s.newrefAll u ns) :=
  h.newrefAll hu hr (fun n hn => h.inside_parent (mem_values.mp (hns n hn)) hp)

/-- Owners of lists that nobody owns. -/
theorem Sound.newAll (h : Sound s) {ns : List Nat} (hnodup : ns.Nodup)
    (hns : ∀ n ∈ ns, s.heap.Root n ∧ s.Unowned n) : Sound (s.newAll ns) := by
  induction ns generalizing s with
  | nil => exact h
  | cons n ns ih =>
    obtain ⟨hroot, hfree⟩ := hns n (List.mem_cons_self ..)
    obtain ⟨hn, hnodup⟩ := List.nodup_cons.mp hnodup
    refine ih (h.new hroot hfree) hnodup (fun m hm => ?_)
    obtain ⟨hmroot, hmfree⟩ := hns m (List.mem_cons_of_mem _ hm)
    refine ⟨hmroot, fun u hu => ?_⟩
    rcases s.pointer_push hu with hold | ⟨_, _, hcookie⟩
    · exact hmfree u hold
    · obtain rfl := Option.some.inj hcookie
      exact hn hm

/-- A list that lies in a pair is borrowed by its userdata `u`, so the reference of `u`
leads to the owner of what is around the list, as `u` does. -/
theorem Sound.around (h : Sound s) {u n p : Nat} (hu : s.checkself u = some n)
    (hp : s.heap.parent n = some p) :
    ∃ v r, s.ref u = some v ∧ s.Alive v ∧ s.Anchored v r ∧ s.Alive u ∧ s.Anchored u r ∧
      s.heap.Inside r p := by
  have hpn := s.heap.mem_up_of_parent hp
  have hborrows : s.Borrows u n :=
    (State.of_checkself hu).resolve_left
      (fun hown => up_ne_nil_of_parent hp (h.owner u n hown).2)
  obtain ⟨v, r, hv, hvalive, hvr, hrn⟩ := h.behind hborrows
  obtain ⟨hualive, r', hr', hrn'⟩ := h.any hu
  obtain rfl := h.heap.root_unique (h.root_of_anchored hvr).2 (h.root_of_anchored hr').2 hrn hrn'
  have hrp : s.heap.Inside r p :=
    (h.heap.inside_root_iff (h.root_of_anchored hvr).2 hpn).mpr hrn
  exact ⟨v, r, hv, hvalive, hvr, hualive, hr', hrp⟩

theorem Sound.get_parent (h : Sound s) {u n : Nat} (hu : s.checkself u = some n) :
    Sound (s.get_parent u n) := by
  unfold State.get_parent
  cases hparent : s.heap.get_parent n with
  | none => exact h
  | some around =>
    obtain ⟨parent, p⟩ := around
    obtain ⟨p', hp, hmap⟩ := Option.bind_eq_some_iff.mp hparent
    obtain ⟨parent', hpp, heq⟩ := Option.map_eq_some_iff.mp hmap
    obtain ⟨rfl, rfl⟩ := Prod.mk.inj heq
    obtain ⟨v, r, hv, hvalive, hvr, hualive, hr, hrp⟩ := h.around hu hp
    have hrparent : s.heap.Inside r parent' :=
      (h.heap.inside_root_iff (h.root_of_anchored hr).2 (s.heap.mem_up_of_parent hpp)).mpr hrp
    show Sound ((s.newref (s.ref u) parent' .const_nvlist).newref (some u) p' .cnvlist)
    rw [hv]
    -- the parent is kept by the reference of `u`, the cookie by `u` itself
    have hfirst := h.newref .const_nvlist (by decide) hvalive hvr hrparent
    exact hfirst.newref .cnvlist (by decide) (s.alive_push_of_alive hualive) hr.push hrp

theorem Sound.get_array_next (h : Sound s) {u n : Nat} (hu : s.checkself u = some n)
    {s' : State} (hs' : s.get_array_next u n = some s') : Sound s' := by
  obtain ⟨m, hm, rfl⟩ := Option.map_eq_some_iff.mp hs'
  obtain ⟨p, hp, hafter⟩ := Option.bind_eq_some_iff.mp hm
  obtain ⟨v, r, hv, hvalive, hvr, _, _, hrp⟩ := h.around hu hp
  rw [hv]
  exact h.newref .const_nvlist (by decide) hvalive hvr
    (h.inside_parent (mem_values.mp (mem_of_after hafter)) hrp)

end Composites

/-! ### Taking -/

/-- The lists of a pair that nothing borrows are taken out of it one after another. -/
theorem Sound.detachAll {s : State} (h : Sound s) {p : Nat} {cs : List Nat}
    (hnodup : cs.Nodup) (hp : s.heap.Live p) (hup : s.heap.up p ≠ [])
    (hborrow : s.Unborrowed p) (hcs : ∀ c ∈ cs, s.heap.parent c = some p) :
    Sound (s.withHeap (cs.foldl Forest.detach s.heap)) ∧
      (cs.foldl Forest.detach s.heap).Live p ∧ (cs.foldl Forest.detach s.heap).up p ≠ [] ∧
      (s.withHeap (cs.foldl Forest.detach s.heap)).Unborrowed p ∧
      (∀ c ∈ cs, (cs.foldl Forest.detach s.heap).Root c) ∧
      ∀ m, s.heap.Root m → (cs.foldl Forest.detach s.heap).Root m := by
  induction cs generalizing s with
  | nil => exact ⟨h, hp, hup, hborrow, (fun _ hc => nomatch hc), fun _ hm => hm⟩
  | cons c cs ih =>
    obtain ⟨hcnot, hnodup⟩ := List.nodup_cons.mp hnodup
    have hparent := hcs c (List.mem_cons_self ..)
    have hpc := s.heap.mem_up_of_parent hparent
    have hc : s.heap.Live c := h.heap.live_of_inside hp (Or.inr hpc)
    have hnotin : ¬ s.heap.Inside c p := by
      rintro (rfl | hcp)
      · exact h.heap.not_mem_self c hpc
      · exact h.heap.not_mem_self c (h.heap.mem_trans hpc hcp)
    have hdetach := h.detach hc (hborrow.inside h.heap (Or.inr hpc))
    -- the pair stays in its list, and the other lists stay in the pair
    have hrest := ih hdetach hnodup (Forest.live_detach_iff.mpr hp)
      (by
        show (s.heap.detach c).up p ≠ []
        rw [s.heap.up_detach_of_not_inside hnotin]
        exact hup)
      (State.unborrowed_iff.mpr (fun b x hb hin =>
        hborrow.not_inside hb (hin.imp id s.heap.mem_up_of_mem_detach)))
      (fun d hd => by
        have hdparent := hcs d (List.mem_cons_of_mem _ hd)
        have hne : c ≠ d := fun heq => hcnot (heq ▸ hd)
        show (s.heap.detach c).parent d = some p
        rw [Forest.parent, s.heap.up_detach_of_not_inside
          (h.heap.not_inside_of_parent hparent hdparent hne)]
        exact hdparent)
    obtain ⟨hsound, hlive, hup', hborrow', hroots, hkept⟩ := hrest
    refine ⟨hsound, hlive, hup', hborrow', ?_, fun m hm => ?_⟩
    · refine List.forall_mem_cons.mpr ⟨?_, hroots⟩
      exact hkept c ((Forest.root_detach_iff hc).mpr (Or.inr rfl))
    · exact hkept m ((Forest.root_detach_iff hc).mpr (Or.inl hm))

/-- What a pair holds is taken, and wrapped in userdata that own it. -/
theorem Sound.take {s : State} (h : Sound s) {n p : Nat} (hn : s.heap.Live n)
    (hparent : s.heap.parent p = some n) (hborrow : s.Unborrowed p) :
    Sound ((s.withHeap (s.heap.take_nvpair p)).newAll (s.heap.values p)) := by
  have hp : s.heap.Live p := h.heap.live_of_inside hn (Or.inr (s.heap.mem_up_of_parent hparent))
  obtain ⟨hsound, hlive, hup, hborrow', hroots, _⟩ :=
    h.detachAll (values_nodup s.heap p) hp (up_ne_nil_of_parent hparent) hborrow
      (fun c hc => mem_values.mp hc)
  refine (hsound.remove hlive hup hborrow').newAll (values_nodup s.heap p) (fun c hc => ?_)
  have hcparent := mem_values.mp hc
  refine ⟨(Forest.root_remove_iff hlive).mpr ⟨hroots c hc, ?_⟩, fun u hu => ?_⟩
  · rintro rfl
    exact h.heap.not_mem_self c (s.heap.mem_up_of_parent hcparent)
  · -- an owner's list is a root, and so is not in the pair
    exact up_ne_nil_of_parent hcparent (h.owner u c hu).2

/-- A pair that nothing borrows is freed. -/
theorem Sound.free {s : State} (h : Sound s) {n p : Nat} (hn : s.heap.Live n)
    (hparent : s.heap.parent p = some n) (hborrow : s.Unborrowed p) :
    Sound (s.withHeap (s.heap.remove p)) := by
  have hlive := h.heap.live_of_inside hn (Or.inr (s.heap.mem_up_of_parent hparent))
  exact h.remove hlive (up_ne_nil_of_parent hparent) hborrow

/-! ### Moving -/

theorem Sound.destroyAll {s : State} (h : Sound s) {cs : List Nat} (hnodup : cs.Nodup)
    (hcs : ∀ c ∈ cs, s.heap.Root c ∧ s.Unowned c) :
    Sound (s.withHeap (cs.foldl Forest.destroy s.heap)) := by
  induction cs generalizing s with
  | nil => exact h
  | cons c cs ih =>
    obtain ⟨hcnot, hnodup⟩ := List.nodup_cons.mp hnodup
    obtain ⟨hroot, hfree⟩ := hcs c (List.mem_cons_self ..)
    refine ih (h.destroy hroot hfree) hnodup (fun d hd => ?_)
    obtain ⟨hdroot, hdfree⟩ := hcs d (List.mem_cons_of_mem _ hd)
    exact ⟨Forest.root_destroy_iff.mpr ⟨hdroot, fun heq => hcnot (heq ▸ hd)⟩, hdfree⟩

/-- Lists that nobody owns are put into the pair `p` of the list `n`, each at its place. -/
theorem Sound.attachAll {s : State} (h : Sound s) {n p : Nat} (hn : s.heap.Root n)
    (hp : s.heap.Live p) (hnp : s.heap.Inside n p) {lists : List (Nat × Nat)}
    (hnodup : (lists.map Prod.fst).Nodup)
    (hlists : ∀ c ∈ lists.map Prod.fst, s.heap.Root c ∧ s.Unowned c) :
    Sound (s.withHeap (lists.foldl (fun h' list =>
      if list.1 = n then h'
      else (h'.attach p list.1).update list.1 (Object.setIndex list.2)) s.heap)) := by
  induction lists generalizing s with
  | nil => exact h
  | cons list lists ih =>
    obtain ⟨hcnot, hnodup⟩ := List.nodup_cons.mp hnodup
    obtain ⟨hroot, hfree⟩ := hlists list.1 (List.mem_cons_self ..)
    have hothers : ∀ c ∈ lists.map Prod.fst, s.heap.Root c ∧ s.Unowned c :=
      fun c hc => hlists c (List.mem_cons_of_mem _ hc)
    rw [List.foldl_cons]
    -- a list that is moved into itself is left out
    by_cases hself : list.1 = n
    · rw [if_pos hself]
      exact ih h hn hp hnp hnodup hothers
    rw [if_neg hself]
    have hnotin : ¬ s.heap.Inside list.1 p :=
      fun hin => hself (h.heap.root_unique hroot.2 hn.2 hin hnp)
    have hupdate := (h.attach hroot hfree hp hnotin).update list.1 (Object.setIndex list.2)
    have hstays : ∀ m, s.heap.Root m → m ≠ list.1 →
        ((s.heap.attach p list.1).update list.1 (Object.setIndex list.2)).Root m :=
      fun m hm hne => Forest.root_update_iff.mpr (Forest.root_attach_iff.mpr ⟨hm, hne⟩)
    refine ih hupdate (hstays n hn (Ne.symm hself)) ?_ ?_ hnodup (fun c hc => ?_)
    · exact Forest.live_update_iff.mpr (Forest.live_attach_iff.mpr hp)
    · show n = p ∨ n ∈ _
      rw [State.withHeap, Forest.up_update]
      exact hnp.imp id (fun hmem => (s.heap.up_attach_of_not_inside hnotin).symm ▸ hmem)
    · obtain ⟨hcroot, hcfree⟩ := hothers c hc
      exact ⟨hstays c hcroot (fun heq => hcnot (heq ▸ hc)), hcfree⟩

theorem Sound.move_nvpair {s : State} (h : Sound s) {n : Nat} (hn : s.heap.Root n)
    (name : String) (type : NvType) {lists : List Nat} (hnodup : lists.Nodup)
    (hlists : ∀ c ∈ lists, s.heap.Root c ∧ s.Unowned c) :
    Sound (s.withHeap (s.heap.move_nvpair n name type lists)) := by
  unfold Heap.move_nvpair
  split
  · have hgrows := Forest.Grows.graft s.heap n (.nvpair name type)
    have hgraft := h.grow (h.heap.graft hn.1 _) hgrows
    have hmap : lists.zipIdx.map Prod.fst = lists := List.zipIdx_map_fst 0 lists
    refine hgraft.attachAll ((hgrows.root_iff n).mpr hn) (Forest.live_graft n _) ?_ ?_ ?_
    · refine Or.inr ?_
      show n ∈ (s.heap.push _ _).up s.heap.length
      rw [Forest.up_push_self]
      exact List.mem_cons_self ..
    · rw [hmap]
      exact hnodup
    · rw [hmap]
      exact fun c hc => ⟨(hgrows.root_iff c).mpr (hlists c hc).1, (hlists c hc).2⟩
  · refine (h.update n Object.setError).destroyAll hnodup (fun c hc => ?_)
    exact ⟨Forest.root_update_iff.mpr (hlists c hc).1, (hlists c hc).2⟩

theorem State.borrows_of_clear {s : State} {u b x : Nat} (hb : (s.clear u).Borrows b x) :
    s.Borrows b x := by
  obtain ⟨kind, hkind, hpointer⟩ := hb
  exact ⟨kind, hkind, (State.pointer_of_gone (s.pointer_clear u) hpointer).2⟩

theorem State.owns_of_clear {s : State} {u v n : Nat} (hv : (s.clear u).Owns v n) :
    v ≠ u ∧ s.Owns v n :=
  State.pointer_of_gone (s.pointer_clear u) hv

theorem State.subset_moveValues (s : State) (values vs : List Nat) :
    values ⊆ (s.moveValues values vs).2.1 := by
  induction vs generalizing s values with
  | nil => exact List.Subset.refl _
  | cons v vs ih =>
    unfold State.moveValues
    split
    · exact List.Subset.refl _
    · exact List.Subset.trans (List.subset_append_left _ _) (ih _ _)

theorem State.checknvlist_clear (s : State) (u v : Nat) :
    (s.clear u).checknvlist v = if v = u then none else s.checknvlist v := by
  unfold State.checknvlist State.checkcookie
  rw [s.pointer_clear]
  by_cases hv : v = u
  · rw [if_pos hv, if_pos hv]
    rfl
  · rw [if_neg hv, if_neg hv]
    rfl

/-- After the userdata `seen` have been cleared, the loop takes over what is movable. -/
theorem State.moveValues_eq {s s₀ : State} {seen : List Nat} (values vs : List Nat)
    (hseen : ∀ v, s.checknvlist v = if v ∈ seen then none else s₀.checknvlist v) :
    (s.moveValues values vs).2.1 = values ++ s₀.movable seen vs := by
  induction vs generalizing s values seen with
  | nil => exact (List.append_nil values).symm
  | cons v vs ih =>
    unfold State.moveValues State.movable
    rw [hseen v]
    by_cases hv : v ∈ seen
    · rw [if_pos hv, if_pos hv, List.append_nil]
    rw [if_neg hv, if_neg hv]
    cases s₀.checknvlist v with
    | none => exact (List.append_nil values).symm
    | some n =>
      have hcleared : ∀ w, (s.clear v).checknvlist w =
          if w ∈ v :: seen then none else s₀.checknvlist w := by
        intro w
        rw [s.checknvlist_clear, hseen w]
        by_cases hw : w = v <;> simp [hw]
      show ((s.clear v).moveValues (values ++ [n]) vs).2.1 = _
      rw [ih (values ++ [n]) hcleared, List.append_assoc, List.singleton_append]

/-- The loop of `move_nvlist_array` leaves lists that nobody owns, each once. -/
theorem Sound.moveValues {s : State} (h : Sound s) {values vs : List Nat}
    (hnodup : values.Nodup) (hvalues : ∀ n ∈ values, s.heap.Root n ∧ s.Unowned n)
    (hborrow : ∀ n ∈ (s.moveValues values vs).2.1, s.Unborrowed n) :
    Sound (s.moveValues values vs).1 ∧ (s.moveValues values vs).1.heap = s.heap ∧
      (s.moveValues values vs).2.1.Nodup ∧
      ∀ n ∈ (s.moveValues values vs).2.1,
        s.heap.Root n ∧ (s.moveValues values vs).1.Unowned n := by
  induction vs generalizing s values with
  | nil => exact ⟨h, rfl, hnodup, hvalues⟩
  | cons v vs ih =>
    unfold State.moveValues at hborrow ⊢
    cases hv : s.checknvlist v with
    | none => exact ⟨h, rfl, hnodup, hvalues⟩
    | some n =>
      simp only [hv] at hborrow ⊢
      have hown := State.owns_of_checknvlist hv
      -- what has been collected is in the result, so the condition covers it
      have hmem : n ∈ ((s.clear v).moveValues (values ++ [n]) vs).2.1 :=
        State.subset_moveValues _ _ _ (List.mem_append_right _ (List.mem_singleton_self n))
      refine ih (h.clear hown (hborrow n hmem)) ?_ (fun m hm => ?_) (fun m hm => ?_)
      · refine List.nodup_append.mpr ⟨hnodup, List.nodup_singleton n, ?_⟩
        rintro a ha b hb rfl
        obtain rfl := List.mem_singleton.mp hb
        exact (hvalues a ha).2 v hown
      · rcases List.mem_append.mp hm with hm | hm
        · exact ⟨(hvalues m hm).1, fun u hu => (hvalues m hm).2 u (State.owns_of_clear hu).2⟩
        · obtain rfl := List.mem_singleton.mp hm
          refine ⟨h.owner v m hown, fun u hu => ?_⟩
          obtain ⟨hne, hu⟩ := State.owns_of_clear hu
          exact hne (h.distinct u v m hu hown)
      · refine State.unborrowed_iff.mpr (fun b x hb => ?_)
        exact (hborrow m hm).not_inside (State.borrows_of_clear hb)

/-! ## Every step -/

section Steps
variable {s : State} (h : Sound s)
include h

theorem Sound.live_of_owns {u n : Nat} (hu : s.Owns u n) : s.heap.Live n := (h.owner u n hu).1

/-- The lists of the pair that a method of `u` finds. -/
theorem Sound.get {u n p : Nat} (hu : s.checkself u = some n)
    (hp : s.heap.parent p = some n) {ns : List Nat} (hns : ∀ m ∈ ns, m ∈ s.heap.values p) :
    Sound (s.newrefAll u ns) := by
  obtain ⟨hualive, r, hr, hrn⟩ := h.any hu
  exact h.newrefValues hualive hr (h.inside_parent hp hrn) hns

/-- The lists of the pair of a cookie. -/
theorem Sound.cnvlist_get {k p : Nat} {type : NvType}
    (hk : s.checkcookietype k type = some p) {ns : List Nat}
    (hns : ∀ m ∈ ns, m ∈ s.heap.values p) : Sound (s.newrefAll k ns) := by
  have hborrows := State.borrows_of_cookietype hk
  obtain ⟨r, hr, hrp⟩ := h.borrowed k p hborrows
  obtain ⟨_, _, hpointer⟩ := hborrows
  exact h.newrefValues (State.alive_of_pointer hpointer) hr hrp hns

/-- A default that lies in the outermost list of the receiver. -/
theorem Sound.get_default {u n m : Nat} (hu : s.checkself u = some n)
    (htop : s.heap.top m = s.heap.top n) :
    Sound (s.newref (some u) m .const_nvlist) := by
  obtain ⟨hualive, r, hr, hrn⟩ := h.any hu
  have hrm : s.heap.Inside r m := by
    have hin := (h.heap.top_spec m).2
    rw [htop, h.heap.top_eq (h.root_of_anchored hr).2 hrn] at hin
    exact hin
  exact h.newref .const_nvlist (by decide) hualive hr hrm

theorem Sound.clearOwner {u n : Nat} (hu : s.Owns u n) (hborrow : s.Unborrowed n) :
    Sound (s.clear u) ∧ (s.clear u).Unowned n := by
  refine ⟨h.clear hu hborrow, fun v hv => ?_⟩
  obtain ⟨hne, hv⟩ := State.owns_of_clear hv
  exact hne (h.distinct v u n hv hu)

theorem Sound.xfer {u n : Nat} (hu : s.checknvlist u = some n) (hborrow : s.Unborrowed n) :
    Sound ((s.clear u).withHeap (s.heap.destroy n)) := by
  have hown := State.owns_of_checknvlist hu
  obtain ⟨hclear, hfree⟩ := h.clearOwner hown hborrow
  exact hclear.destroy (h.owner u n hown) hfree

theorem Sound.move_nvlist {u v n m : Nat} (hu : s.checknvlist u = some n)
    (hv : s.checknvlist v = some m) (name : String) (hborrow : s.Unborrowed m) :
    Sound ((s.clear v).withHeap (s.heap.move_nvpair n name .NVLIST [m])) := by
  have hown := State.owns_of_checknvlist hv
  obtain ⟨hclear, hfree⟩ := h.clearOwner hown hborrow
  refine hclear.move_nvpair (h.owner u n (State.owns_of_checknvlist hu)) name .NVLIST
    (List.nodup_singleton m) (fun c hc => ?_)
  obtain rfl := List.mem_singleton.mp hc
  exact ⟨h.owner v c hown, hfree⟩

theorem Sound.collect {u : Nat} (he : Enabled s (.collect u)) :
    Sound (next s (.collect u)) := by
  have hrelease := h.release he.2
  unfold Nv.next
  dsimp only
  split
  · exact hrelease
  · rename_i n hu
    have hown : s.Owns u n := State.checkcookie_eq_some.mp hu
    refine hrelease.destroy (h.owner u n hown) (fun v hv => ?_)
    obtain ⟨hne, hv⟩ := State.pointer_of_gone (s.pointer_release u) hv
    exact hne (h.distinct v u n hv hown)

/-- A check that fails changes nothing. -/
theorem Sound.checked {check : Option Nat} {f : Nat → State} :
    (∀ x, check = some x → Sound (f x)) → Sound (match check with
      | none => s
      | some x => f x) := by
  intro hf
  cases check with
  | none => exact h
  | some x => exact hf x rfl

/-- The lists of an array are moved one after the other; if one is refused, those that have
been taken are destroyed. -/
theorem Sound.move_nvlist_array {u : Nat} {name : String} {vs : List Nat}
    (hok : Respectful s (.move_nvlist_array u name vs)) :
    Sound (next s (.move_nvlist_array u name vs)) := by
  refine h.checked (fun nvl hu => ?_)
  split
  · exact h
  have hsome : s.checknvlist u ≠ none := by
    rw [hu]
    exact Option.some_ne_none nvl
  have hmovable : (s.moveValues [] vs).2.1 = s.movable [] vs :=
    State.moveValues_eq [] vs (fun v => (if_neg List.not_mem_nil).symm)
  have hloop := h.moveValues List.nodup_nil (fun _ hn => nomatch hn)
    (hmovable ▸ hok hsome)
  have hroot := h.owner u nvl (State.owns_of_checknvlist hu)
  generalize s.moveValues [] vs = out at hloop
  obtain ⟨s', values, ended⟩ := out
  obtain ⟨hsound, hheap, hnodup, hvalues⟩ := hloop
  dsimp only at hsound hheap hnodup hvalues
  rw [← hheap] at hroot hvalues ⊢
  cases ended with
  | true => exact hsound.move_nvpair hroot name _ hnodup hvalues
  | false => exact hsound.destroyAll hnodup hvalues

/-- Every respectful step keeps the invariant. -/
theorem Sound.next (e : Event) (hok : Respectful s e) (he : Enabled s e) :
    Sound (next s e) := by
  cases e with
  | create flags => exact h.newTree _
  | unpack flags items => exact h.newTree _
  | clone u =>
    unfold Nv.next
    dsimp only
    split
    · exact h
    · exact h.newTree _
  | xfer u reply =>
    refine h.checked (fun tosend hu => ?_)
    have hsent := h.xfer hu (hok tosend hu)
    cases reply with
    | none => exact hsent
    | some tree => exact hsent.newTree _
  | set_error u => exact h.checked (fun nvl _ => h.update nvl Object.setError)
  | add u name type =>
    exact h.checked (fun nvl hu =>
      h.add_nvpair (h.live_of_owns (State.owns_of_checknvlist hu)) name _ _)
  | add_nvlist u name v =>
    unfold Nv.next
    dsimp only
    split
    · rename_i nvl value hu hv
      exact h.add_nvpair (h.live_of_owns (State.owns_of_checknvlist hu)) name _ _
    · exact h
  | add_nvlist_array u name vs =>
    refine h.checked (fun nvl hu => ?_)
    split
    · exact h
    · exact h.add_nvpair (h.live_of_owns (State.owns_of_checknvlist hu)) name _ _
  | append_nvlist_array u name v =>
    unfold Nv.next
    dsimp only
    split
    · rename_i nvl value hu hv
      refine h.checked (fun p hp => ?_)
      have hlive : s.heap.Live p :=
        h.heap.live_of_inside (h.live_of_owns (State.owns_of_checknvlist hu))
          (Or.inr (s.heap.mem_up_of_parent (parent_of_find hp)))
      have htrees := h.heap.graftTrees hlive
        (s.heap.copyOf value (s.heap.children p).length).toList
      exact h.grow htrees.1 htrees.2
    · exact h
  | move_nvlist u name v =>
    unfold Nv.next
    dsimp only
    split
    · rename_i nvl value hu hv
      have hsome : s.checknvlist u ≠ none := by
        rw [hu]
        exact Option.some_ne_none nvl
      exact h.move_nvlist hu hv name (hok hsome value hv)
    · exact h
  | move_nvlist_array u name vs => exact h.move_nvlist_array hok
  | get_nvlist u name default =>
    unfold Nv.next
    dsimp only
    split
    · exact h
    · exact h
    · rename_i nvl hu _
      split
      · rename_i p hp
        exact h.get hu (parent_of_find hp) (fun m hm => List.mem_of_mem_take hm)
      · rename_i value hp hdefault
        obtain ⟨d, rfl, hd⟩ := Option.map_eq_some_iff.mp hdefault
        exact h.get_default hu (hok nvl hu hp value hd)
      · exact h
  | get_nvlist_array u name =>
    refine h.checked (fun p hfound => ?_)
    obtain ⟨nvl, hu, hp⟩ := Option.bind_eq_some_iff.mp hfound
    exact h.get hu (parent_of_find hp) (fun m hm => hm)
  | take u name type =>
    refine h.checked (fun p hfound => ?_)
    obtain ⟨nvl, hu, hp⟩ := Option.bind_eq_some_iff.mp hfound
    exact h.free (h.live_of_owns (State.owns_of_checknvlist hu)) (parent_of_find hp)
      (hok nvl hu p hp)
  | take_nvlist u name default =>
    unfold Nv.next
    dsimp only
    split
    · exact h
    rename_i hdefault
    refine h.checked (fun p hfound => ?_)
    obtain ⟨nvl, hu, hp⟩ := Option.bind_eq_some_iff.mp hfound
    exact h.take (h.live_of_owns (State.owns_of_checknvlist hu)) (parent_of_find hp)
      (hok hdefault nvl hu p hp)
  | take_nvlist_array u name =>
    refine h.checked (fun p hfound => ?_)
    obtain ⟨nvl, hu, hp⟩ := Option.bind_eq_some_iff.mp hfound
    exact h.take (h.live_of_owns (State.owns_of_checknvlist hu)) (parent_of_find hp)
      (hok nvl hu p hp)
  | free u name type =>
    refine h.checked (fun p hfound => ?_)
    obtain ⟨nvl, hu, hp⟩ := Option.bind_eq_some_iff.mp hfound
    exact h.free (h.live_of_owns (State.checkcookie_eq_some.mp hu)) (parent_of_find hp)
      (hok nvl hu p hp)
  | next u cookie =>
    cases cookie with
    | none => exact h.checked (fun _ _ => h.newNull)
    | some k =>
      unfold Nv.next
      dsimp only
      split
      · rename_i nvl p hu hk
        refine h.checked (fun q hq => h.setref hk hu (he nvl hu p hk) (hok nvl hu p hk ?_))
        rw [hq]
        exact Option.some_ne_none q
      · exact h
  | get_parent u => exact h.checked (fun _ hu => h.get_parent hu)
  | get_array_next u =>
    refine h.checked (fun nvl hu => ?_)
    cases hnext : s.get_array_next u nvl with
    | none => exact h
    | some s' => exact h.get_array_next hu hnext
  | get_pararr u =>
    refine h.checked (fun nvl hu => ?_)
    cases hnext : s.get_array_next u nvl with
    | none => exact h.get_parent hu
    | some s' => exact h.get_array_next hu hnext
  | cnvlist_get_nvlist k =>
    exact h.checked (fun p hk => h.cnvlist_get hk (fun m hm => List.mem_of_mem_take hm))
  | cnvlist_get_nvlist_array k =>
    exact h.checked (fun p hk => h.cnvlist_get hk (fun m hm => hm))
  -- a cookie points at its pair, so these steps are not respectful
  | cnvlist_take_nvlist k =>
    exact h.checked (fun p hk => absurd (hok p hk) (not_unborrowed_of_cookietype hk))
  | cnvlist_take_nvlist_array k =>
    exact h.checked (fun p hk => absurd (hok p hk) (not_unborrowed_of_cookietype hk))
  | cnvlist_free k type =>
    exact h.checked (fun p hk => absurd (hok p hk) (not_unborrowed_of_cookietype hk))
  | callGc u =>
    refine h.checked (fun nvl hu => ?_)
    have hnone : s.checkcookie .nvlist u = none := hok
    rw [hu] at hnone
    cases hnone
  | collect u => exact h.collect he

end Steps

/-! ## Every run -/

/-- What a userdata borrows is there, and its references lead to the userdata that owns the
list which holds it. -/
def Valid (s : State) : Prop :=
  ∀ b x, s.Borrows b x → s.heap.Live x ∧
    ∃ o r, s.Holds b o ∧ s.Owns o r ∧ s.heap.Inside r x

/-- **Borrowed pointers stay valid**, in every run whose steps respect what is borrowed:
through any graph of lists, copies, moves and takings, and in any order of collection. -/
theorem borrows_valid (s : State) (h : system.ReachableBy Respectful s) : Valid s := by
  have hsound : Sound s := h.invariant sound_init (fun _ e hs hok he => hs.next e hok he)
  intro b x hb
  obtain ⟨r, ⟨o, hholds, ho⟩, hin⟩ := hsound.borrowed b x hb
  exact ⟨hsound.live hb, o, r, hholds, ho, hin⟩

/-- Lists are nested, moved, taken, walked upwards and collected. -/
def nestedEvents : List Event :=
  [.create 0, .create 0, .create 0, .add 1 "k" 2, .clone 1, .move_nvlist 0 "x" 3,
    .move_nvlist 0 "y" 2, .get_nvlist 0 "x" none, .add_nvlist 1 "c" 4, .get_parent 4,
    .cnvlist_get_nvlist 6, .get_nvlist 0 "z" (some 4), .take_nvlist 0 "y" none,
    .move_nvlist_array 9 "a" [1], .get_nvlist_array 9 "a", .get_pararr 10, .free 0 "y" none,
    .next 0 none, .collect 5, .collect 8, .collect 2]

theorem borrows_valid_nested : ∃ s, system.run nestedEvents = some s ∧
    s.pointer 7 = some (.const_nvlist, 4) ∧ s.pointer 10 = some (.const_nvlist, 1) ∧ Valid s := by
  have hrun : ((system.restrict Respectful (fun _ _ => inferInstance)).run nestedEvents).map
      (fun s => (s.pointer 7, s.pointer 10)) =
      some (some (.const_nvlist, 4), some (.const_nvlist, 1)) := by decide +kernel
  obtain ⟨s, hs, hfacts⟩ := Option.map_eq_some_iff.mp hrun
  obtain ⟨hseven, hten⟩ := Prod.mk.inj hfacts
  exact ⟨s, System.run_of_restrict hs, hseven, hten, borrows_valid s (System.run_restrict hs)⟩

/-- A default that only its own owner keeps is collected with that owner. -/
theorem not_borrows_valid : ¬ ∀ s, system.Reachable s → Valid s := by
  intro h
  have hrun : (system.run [.create 0, .create 0, .create 0, .move_nvlist 1 "x" 2,
      .get_nvlist 1 "x" none, .get_nvlist 0 "k" (some 3), .collect 3, .collect 1]).map
      (fun s => (s.pointer 4, s.heap.freed 2)) = some (some (.const_nvlist, 2), 1) := by
    decide
  obtain ⟨s, hs, hfacts⟩ := Option.map_eq_some_iff.mp hrun
  obtain ⟨hpointer, hfreed⟩ := Prod.mk.inj hfacts
  have hborrows : s.Borrows 4 2 := ⟨.const_nvlist, by decide, hpointer⟩
  have hlive := (h s (System.run_reachable hs) 4 2 hborrows).1.2
  rw [hfreed] at hlive
  cases hlive

end Nv
end FluaLibs
