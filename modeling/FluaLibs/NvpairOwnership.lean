import FluaLibs.Forest
import FluaLibs.RefCount
import FluaLibs.Transition

/-! # Who frees an `nvlist_t` of libnvpair

A userdata of the nvpair module holds one pointer to a C nvlist, and its `__gc` passes it to
`nvlist_free`.  Lists are built with `nvlist`, `unpack` and `dup`, each with a userdata of
its own; a list that is added to another is copied, and the copy is freed with the pair that
holds it.  `lookup`, `lookup_nvlist` and the iterator of `pairs` wrap the lists a pair
holds in userdata of the same kind.

The C heap is a forest whose objects are nvlists and nvpairs: a list contains its pairs, a
pair the lists of its value.  Operations that read plain values, `size` and `pack` change
nothing here, and neither does one that fails.
-/
namespace FluaLibs
namespace Nvpair

def NV_UNIQUE_NAME : Nat := 1
def NV_UNIQUE_NAME_TYPE : Nat := 2

/-- `data_type_t`, with the types whose values hold no nvlist by their number. -/
inductive DataType where
  | NVLIST
  | NVLIST_ARRAY
  | plain (type : Nat)
  deriving DecidableEq

inductive Object where
  | nvlist (nvflag : Nat)
  | nvpair (name : String) (type : DataType)
  deriving DecidableEq

abbrev Heap := Forest Object

/-- A value to be added: its type, and the lists that are to be copied into the pair. -/
structure Value where
  type : DataType
  nvlists : List Nat
  deriving DecidableEq

/-! ## libnvpair -/

namespace Heap
variable (h : Heap)

def named (name : String) (p : Nat) : Bool :=
  match h.content p with
  | some (.nvpair name' _) => name' = name
  | _ => false

def typed (type : DataType) (p : Nat) : Bool :=
  match h.content p with
  | some (.nvpair _ type') => type' = type
  | _ => false

/-- The pairs that adding a pair to the list `n` replaces. -/
def duplicates (n : Nat) (name : String) (type : DataType) : List Nat :=
  match h.content n with
  | some (.nvlist nvflag) =>
    if nvflag &&& NV_UNIQUE_NAME ≠ 0 then (h.children n).filter (h.named name)
    else if nvflag &&& NV_UNIQUE_NAME_TYPE ≠ 0 then
      (h.children n).filter (fun p => h.named name p && h.typed type p)
    else []
  | _ => []

/-- A copy of `n`, to be allocated. -/
def copyOf (n : Nat) : Option (Object × List (Nat × Object)) :=
  (h.content n).map (fun object => (object, h.contents n))

/-- The value is copied before the pairs of the same name are freed. -/
def nvlist_add_common (n : Nat) (name : String) (value : Value) : Heap :=
  (h.duplicates n name value.type).foldl Forest.remove
    ((value.nvlists.filterMap h.copyOf).foldl (Forest.graftTree h.length)
      (h.graft n (.nvpair name value.type)))

/-- What a pair holds. -/
def pairOf (p : Nat) : Option (String × Value) :=
  match h.content p with
  | some (.nvpair name type) => some (name, ⟨type, h.children p⟩)
  | _ => none

def pairsOf (n : Nat) : List (String × Value) := (h.children n).filterMap h.pairOf

/-- The pairs of `src` are added to `dst` one after another. -/
def nvlist_merge (dst src : Nat) : Heap :=
  if dst = src then h
  else (h.pairsOf src).foldl (fun h' pair => h'.nvlist_add_common dst pair.1 pair.2) h

/-- The pairs that `nvlist_remove_all`, or `nvlist_remove` when a type is given, frees. -/
def removed (n : Nat) (name : String) : Option DataType → List Nat
  | none => (h.children n).filter (h.named name)
  | some type =>
    ((h.children n).filter (fun p => h.named name p && h.typed type p)).take 1

def nvlist_lookup_nvpair (n : Nat) (name : String) : Option Nat :=
  (h.children n).find? (h.named name)

/-- Lists whose names need not be unique do not support this (`ENOTSUP`). -/
def nvlist_lookup_nvlist (n : Nat) (name : String) : Option Nat :=
  match h.content n with
  | some (.nvlist nvflag) =>
    if nvflag &&& (NV_UNIQUE_NAME ||| NV_UNIQUE_NAME_TYPE) ≠ 0 then
      (h.children n).find? (fun p => h.named name p && h.typed .NVLIST p)
    else none
  | _ => none

/-- The pair of `n` after `p`; a pair of another list has none. -/
def nvlist_next_nvpair (n p : Nat) : Option Nat :=
  if h.parent p = some n then (h.children n).find? (fun q => p < q) else none

/-- The value of `p` is an nvlist, or an array that has some. -/
def HoldsNvlist (p : Nat) : Prop :=
  (h.typed .NVLIST p = true ∨ h.typed .NVLIST_ARRAY p = true) ∧ h.children p ≠ []

instance (p : Nat) : Decidable (HoldsNvlist h p) := inferInstanceAs (Decidable (_ ∧ _))

end Heap

/-! ## The module -/

/-- A userdata of the module: the pointer in its cookie, the userdata it refers to, and
whether the collector has finalized it. -/
structure Userdata where
  cookie : Option Nat
  ref : Option Nat
  collected : Bool
  deriving DecidableEq

/-- The C heap, the userdata in the order of their creation, and the light userdata of
nvpairs that Lua holds. -/
structure State where
  heap : Heap
  userdata : List Userdata
  cursors : List Nat
  deriving DecidableEq

inductive Event where
  | nvlist (nvflag : Nat)
  /-- `items` is what the packed list holds. -/
  | unpack (nvflag : Nat) (items : List (Nat × Object))
  | dup (u : Nat)
  | merge (u v : Nat)
  /-- One of the `add_` methods whose value holds no nvlist. -/
  | add (u : Nat) (name : String) (type : Nat)
  | add_nvlist (u : Nat) (name : String) (v : Nat)
  | add_nvlist_array (u : Nat) (name : String) (vs : List Nat)
  | remove (u : Nat) (name : String) (type : Option DataType)
  | lookup (u : Nat) (name : String)
  | lookup_nvlist (u : Nat) (name : String)
  | pairs (u : Nat)
  /-- `l_nvlist_pairs_iter`. -/
  | pairs_iter (u p : Nat)
  /-- Lua gives up a light userdata. -/
  | drop (p : Nat)
  /-- `u:__gc()`. -/
  | callGc (u : Nat)
  /-- The collector finalizes a userdata. -/
  | collect (u : Nat)
  deriving DecidableEq

namespace State
variable (s : State)

/-- `checknvlist`, of a userdata that Lua can still use. -/
def cookie (u : Nat) : Option Nat := s.userdata[u]?.bind Userdata.cookie

def withHeap (heap : Heap) : State := { s with heap := heap }

/-- `new`, or `newref` when there is a userdata to refer to. -/
def push (n : Nat) (ref : Option Nat) : State :=
  { s with userdata := s.userdata ++ [⟨some n, ref, false⟩] }

def pushvalue (u p : Nat) : State :=
  if s.heap.typed .NVLIST p then
    (s.heap.children p).head?.elim s (fun n => s.push n none)
  else if s.heap.typed .NVLIST_ARRAY p then
    (s.heap.children p).foldl (fun s n => s.push n (some u)) s
  else s

/-- `l_nvlist_gc`: the list is freed and the cookie cleared. -/
def gc (u : Nat) : State :=
  match s.cookie u with
  | none => s
  | some n =>
    { s with
      heap := s.heap.destroy n
      userdata := s.userdata.modify u (fun d => { d with cookie := none }) }

end State

/-- What can happen: the arguments pass `checknvlist`, and a userdata is finalized when no
other refers to it. -/
def Enabled (s : State) : Event → Prop
  | .nvlist _ | .unpack _ _ => True
  | .dup u | .add u _ _ | .remove u _ _ | .lookup u _ | .lookup_nvlist u _ | .pairs u
  | .callGc u => s.cookie u ≠ none
  | .merge u v | .add_nvlist u _ v => s.cookie u ≠ none ∧ s.cookie v ≠ none
  | .add_nvlist_array u _ vs => s.cookie u ≠ none ∧ ∀ v ∈ vs, s.cookie v ≠ none
  | .pairs_iter u p => s.cookie u ≠ none ∧ p ∈ s.cursors
  | .drop p => p ∈ s.cursors
  | .collect u => (∃ d ∈ s.userdata[u]?, d.collected = false) ∧
    ∀ d ∈ s.userdata, d.collected = false → d.ref ≠ some u

instance (s : State) (e : Event) : Decidable (Enabled s e) := by
  cases e <;> unfold Enabled <;> infer_instance

def next (s : State) : Event → State
  | .nvlist nvflag => (s.withHeap (s.heap.plant (.nvlist nvflag))).push s.heap.length none
  | .unpack nvflag items =>
    (s.withHeap ((s.heap.plant (.nvlist nvflag)).embed s.heap.length items)).push
      s.heap.length none
  | .dup u =>
    match (s.cookie u).bind s.heap.copyOf with
    | none => s
    | some (object, items) =>
      (s.withHeap ((s.heap.plant object).embed s.heap.length items)).push s.heap.length none
  | .merge u v =>
    match s.cookie u, s.cookie v with
    | some nvla, some nvlb => s.withHeap (s.heap.nvlist_merge nvla nvlb)
    | _, _ => s
  | .add u name type =>
    match s.cookie u with
    | none => s
    | some nvl => s.withHeap (s.heap.nvlist_add_common nvl name ⟨.plain type, []⟩)
  | .add_nvlist u name v =>
    match s.cookie u with
    | none => s
    | some nvl =>
      s.withHeap (s.heap.nvlist_add_common nvl name ⟨.NVLIST, (s.cookie v).toList⟩)
  | .add_nvlist_array u name vs =>
    match s.cookie u with
    | none => s
    | some nvl =>
      s.withHeap (s.heap.nvlist_add_common nvl name ⟨.NVLIST_ARRAY, vs.filterMap s.cookie⟩)
  | .remove u name type =>
    match s.cookie u with
    | none => s
    | some nvl => s.withHeap ((s.heap.removed nvl name type).foldl Forest.remove s.heap)
  | .lookup u name =>
    match (s.cookie u).bind (fun nvl => s.heap.nvlist_lookup_nvpair nvl name) with
    | none => s
    | some nvp => s.pushvalue u nvp
  | .lookup_nvlist u name =>
    match (s.cookie u).bind (fun nvl => s.heap.nvlist_lookup_nvlist nvl name) with
    | none => s
    | some nvp => (s.heap.children nvp).head?.elim s (fun value => s.push value none)
  | .pairs u =>
    match s.cookie u with
    | none => s
    | some nvl => { s with cursors := s.cursors ++ (s.heap.children nvl).head?.toList }
  | .pairs_iter u p =>
    match s.cookie u with
    | none => s
    | some nvl =>
      { s with cursors := s.cursors ++ (s.heap.nvlist_next_nvpair nvl p).toList }.pushvalue u p
  | .drop p => { s with cursors := s.cursors.erase p }
  | .callGc u => s.gc u
  | .collect u =>
    { s.gc u with
      userdata := (s.gc u).userdata.modify u (fun d => { d with collected := true }) }

def system : System State Event where
  init := ⟨[], [], []⟩
  Enabled := Enabled
  decEnabled := fun _ _ => inferInstance
  next := next

/-! ## The condition -/

/-- No light userdata points at the object `n`, or at one inside it. -/
def State.Unheld (s : State) (n : Nat) : Prop := ∀ c ∈ s.cursors, ¬ s.heap.Inside n c

instance (s : State) (n : Nat) : Decidable (s.Unheld n) :=
  inferInstanceAs (Decidable (∀ _ ∈ _, ¬ _))

/-- No nvlist is taken out of a pair, and no pair is freed while Lua holds a light userdata
of it. -/
def Careful (s : State) : Event → Prop
  | .add u name type => ∀ nvl ∈ s.cookie u,
    ∀ p ∈ s.heap.duplicates nvl name (.plain type), s.Unheld p
  | .add_nvlist u name _ => ∀ nvl ∈ s.cookie u,
    ∀ p ∈ s.heap.duplicates nvl name .NVLIST, s.Unheld p
  | .add_nvlist_array u name _ => ∀ nvl ∈ s.cookie u,
    ∀ p ∈ s.heap.duplicates nvl name .NVLIST_ARRAY, s.Unheld p
  | .merge u v => ∀ nvla ∈ s.cookie u, ∀ nvlb ∈ s.cookie v,
    ∀ pair ∈ s.heap.pairsOf nvlb, ∀ p ∈ s.heap.duplicates nvla pair.1 pair.2.type, s.Unheld p
  | .remove u name type => ∀ nvl ∈ s.cookie u,
    ∀ p ∈ s.heap.removed nvl name type, s.Unheld p
  | .lookup u name => ∀ nvl ∈ s.cookie u,
    ∀ p ∈ s.heap.nvlist_lookup_nvpair nvl name, ¬ s.heap.HoldsNvlist p
  | .lookup_nvlist u name => ∀ nvl ∈ s.cookie u,
    ∀ p ∈ s.heap.nvlist_lookup_nvlist nvl name, ¬ s.heap.HoldsNvlist p
  | .pairs_iter _ p => ¬ s.heap.HoldsNvlist p
  | .callGc u | .collect u => ∀ nvl ∈ s.cookie u, s.Unheld nvl
  | _ => True

instance (s : State) (e : Event) : Decidable (Careful s e) := by
  cases e <;> unfold Careful <;> infer_instance

/-! ## What the library calls do to the heap -/

/-- The roots stay what they are, and the objects `cursors` are still there. -/
structure Keeps (cursors : List Nat) (h g : Heap) : Prop where
  wellFormed : g.WellFormed
  root : ∀ m, g.Root m ↔ h.Root m
  live : ∀ c ∈ cursors, g.Live c

namespace Heap
variable {h : Heap}

theorem children_nodup (h : Heap) (n : Nat) : (h.children n).Nodup :=
  List.nodup_range.filter _

theorem duplicates_sublist (h : Heap) (n : Nat) (name : String) (type : DataType) :
    (h.duplicates n name type).Sublist (h.children n) := by
  unfold duplicates
  split
  · split
    · exact List.filter_sublist
    split
    · exact List.filter_sublist
    · exact List.nil_sublist _
  · exact List.nil_sublist _

theorem removed_sublist (h : Heap) (n : Nat) (name : String) (type : Option DataType) :
    (h.removed n name type).Sublist (h.children n) := by
  cases type with
  | none => exact List.filter_sublist
  | some type => exact (List.take_sublist 1 _).trans List.filter_sublist

theorem mem_duplicates {n p : Nat} {name : String} {type : DataType} :
    p ∈ h.duplicates n name type ↔ ∃ nvflag, h.content n = some (.nvlist nvflag) ∧
      h.parent p = some n ∧ h.named name p = true ∧
      (nvflag &&& NV_UNIQUE_NAME ≠ 0 ∨
        nvflag &&& NV_UNIQUE_NAME_TYPE ≠ 0 ∧ h.typed type p = true) := by
  unfold duplicates
  split
  · rename_i nvflag hn
    have hflag : ∀ nvflag', some (Object.nvlist nvflag) = some (.nvlist nvflag') ↔
        nvflag = nvflag' := by simp
    rw [hn]
    simp only [hflag, exists_eq_left']
    by_cases hname : nvflag &&& NV_UNIQUE_NAME ≠ 0
    · simp [hname, Forest.mem_children]
    by_cases htype : nvflag &&& NV_UNIQUE_NAME_TYPE ≠ 0
    · simp [hname, htype, Forest.mem_children]
    · simp [hname, htype]
  · rename_i hn
    constructor
    · exact fun hp => nomatch hp
    · rintro ⟨nvflag, hflag, _⟩
      exact absurd hflag (hn nvflag)

theorem child_live (hw : h.WellFormed) {n p : Nat} (hn : h.Live n) (hp : p ∈ h.children n) :
    h.Live p :=
  hw.live_of_inside hn (Or.inr (h.mem_up_of_parent (h.mem_children.mp hp)))

/-- Pairs of a list are freed. -/
theorem prune (hw : h.WellFormed) {n : Nat} (hn : h.Live n) {ps : List Nat}
    (hps : ps.Sublist (h.children n)) : Forest.Pruned h ps (ps.foldl Forest.remove h) :=
  hw.pruned (hps.nodup (h.children_nodup n))
    (fun _ hp => ⟨child_live hw hn (hps.subset hp), h.mem_children.mp (hps.subset hp)⟩)

theorem keeps_of_pruned {ps cursors : List Nat} {g : Heap} (hg : Forest.Pruned h ps g)
    (hlive : ∀ c ∈ cursors, h.Live c) (hunheld : ∀ p ∈ ps, ∀ c ∈ cursors, ¬ h.Inside p c) :
    Keeps cursors h g where
  wellFormed := hg.wellFormed
  root := hg.root
  live c hc := (hg.live c).mpr ⟨hlive c hc, fun p hp => hunheld p hp c hc⟩

/-- First the pair is added, with what it holds; then the pairs it replaces are freed. -/
theorem add_common_eq (hw : h.WellFormed) {n : Nat} (hn : h.Live n) (name : String)
    (value : Value) : ∃ mid, Forest.Grows h mid ∧
      Forest.Pruned mid (h.duplicates n name value.type) (h.nvlist_add_common n name value) := by
  have hgraft := hw.graft hn (.nvpair name value.type)
  have htrees := hgraft.graftTrees (Forest.live_graft n _) (value.nvlists.filterMap h.copyOf)
  have hgrows := (Forest.Grows.graft h n _).trans htrees.2
  refine ⟨_, hgrows, htrees.1.pruned (n := n) ?_ ?_⟩
  · exact (duplicates_sublist h n name value.type).nodup (h.children_nodup n)
  · intro p hp
    have hchild := (duplicates_sublist h n name value.type).subset hp
    have hlive := child_live hw hn hchild
    refine ⟨hgrows.live hlive, ?_⟩
    rw [Forest.parent, hgrows.up p hlive.1]
    exact h.mem_children.mp hchild

section Add
variable (hw : h.WellFormed) {n : Nat} (hn : h.Live n) {name : String} {value : Value}
include hw hn

theorem keeps_add_common {cursors : List Nat} (hlive : ∀ c ∈ cursors, h.Live c)
    (hunheld : ∀ p ∈ h.duplicates n name value.type, ∀ c ∈ cursors, ¬ h.Inside p c) :
    Keeps cursors h (h.nvlist_add_common n name value) := by
  obtain ⟨mid, hgrows, hpruned⟩ := add_common_eq hw hn name value
  have hkeeps : Keeps cursors mid (h.nvlist_add_common n name value) := by
    refine keeps_of_pruned hpruned (fun c hc => hgrows.live (hlive c hc)) (fun p hp c hc => ?_)
    rw [hgrows.inside_iff (hlive c hc).1]
    exact hunheld p hp c hc
  exact ⟨hkeeps.wellFormed, fun m => (hkeeps.root m).trans (hgrows.root_iff m), hkeeps.live⟩

/-- Around an object that stays, an addition puts no pair that a later one replaces. -/
theorem duplicates_add_common {c : Nat} (hc : h.Live c)
    (hunheld : ∀ p ∈ h.duplicates n name value.type, ¬ h.Inside p c)
    {p : Nat} {name' : String} {type' : DataType}
    (hp : p ∈ (h.nvlist_add_common n name value).duplicates n name' type')
    (hin : (h.nvlist_add_common n name value).Inside p c) :
    p ∈ h.duplicates n name' type' ∧ h.Inside p c := by
  obtain ⟨mid, hgrows, hpruned⟩ := add_common_eq hw hn name value
  -- the chain of an object that stays is the old one
  have hup : ∀ m, h.Live m → (∀ d ∈ h.duplicates n name value.type, ¬ h.Inside d m) →
      (h.nvlist_add_common n name value).up m = h.up m := by
    intro m hm hd
    rw [hpruned.up m, hgrows.up m hm.1]
    intro d hdup
    rw [hgrows.inside_iff hm.1]
    exact hd d hdup
  have hcontent : ∀ m, h.Live m →
      (h.nvlist_add_common n name value).content m = h.content m :=
    fun m hm => (hpruned.content m).trans (hgrows.content m hm.1)
  have hpc : h.Inside p c := by
    rw [Forest.Inside, hup c hc hunheld] at hin
    exact hin
  have hlive := hw.live_of_inside' hc hpc
  have hparent : (h.nvlist_add_common n name value).parent p = h.parent p := by
    rw [Forest.parent, hup p hlive (fun d hd hdp => hunheld d hd (hw.inside_trans hdp hpc)),
      Forest.parent]
  refine ⟨?_, hpc⟩
  rw [mem_duplicates] at hp ⊢
  simpa only [named, typed, hcontent n hn, hcontent p hlive, hparent] using hp

end Add

/-- Pairs are added one after another. -/
theorem keeps_merge (hw : h.WellFormed) {n : Nat} (hn : h.Root n) {cursors : List Nat}
    (pairs : List (String × Value)) (hlive : ∀ c ∈ cursors, h.Live c)
    (hunheld : ∀ pair ∈ pairs, ∀ p ∈ h.duplicates n pair.1 pair.2.type,
      ∀ c ∈ cursors, ¬ h.Inside p c) :
    Keeps cursors h
      (pairs.foldl (fun h' pair => h'.nvlist_add_common n pair.1 pair.2) h) := by
  induction pairs generalizing h with
  | nil => exact ⟨hw, fun _ => Iff.rfl, hlive⟩
  | cons pair pairs ih =>
    have hfirst := hunheld pair (List.mem_cons_self ..)
    have hadd := keeps_add_common hw hn.1 hlive hfirst
    -- a pair that a later addition replaces and a cursor is on was there at the start
    have hrest := ih hadd.wellFormed ((hadd.root n).mpr hn) hadd.live (by
      intro pair' hpair p hp c hc hin
      have hold := duplicates_add_common hw hn.1 (hlive c hc)
        (fun d hd => hfirst d hd c hc) hp hin
      exact hunheld pair' (List.mem_cons_of_mem _ hpair) p hold.1 c hc hold.2)
    exact ⟨hrest.wellFormed, fun m => (hrest.root m).trans (hadd.root m), hrest.live⟩

end Heap

/-! ## The invariant -/

/-- The userdata hold the roots of the heap, each root once, and the light userdata point at
pairs that are there. -/
structure Sound (s : State) : Prop where
  heap : s.heap.WellFormed
  cookie : ∀ u n, s.cookie u = some n → s.heap.Root n
  distinct : ∀ u v n, s.cookie u = some n → s.cookie v = some n → u = v
  owned : ∀ n, s.heap.Root n → ∃ u, s.cookie u = some n
  collected : ∀ d ∈ s.userdata, d.collected = true → d.cookie = none
  cursors : ∀ c ∈ s.cursors, s.heap.Live c

theorem cookie_push (s : State) (n : Nat) (ref : Option Nat) (u : Nat) :
    (s.push n ref).cookie u = if u = s.userdata.length then some n else s.cookie u := by
  unfold State.cookie State.push
  by_cases hu : u = s.userdata.length
  · rw [if_pos hu, hu, List.getElem?_concat_length]
    rfl
  · rw [if_neg hu, getElem?_concat_of_ne hu]

theorem cookie_gc (s : State) (u v : Nat) :
    (s.gc u).cookie v = if v = u then none else s.cookie v := by
  unfold State.gc
  cases hu : s.cookie u with
  | none =>
    by_cases hv : v = u
    · rw [if_pos hv, hv]
      exact hu
    · rw [if_neg hv]
  | some n =>
    apply bind_modify_none
    exact fun _ => rfl

section Steps
variable {s : State} (h : Sound s)
include h

theorem Sound.withHeap {g : Heap} (hg : Keeps s.cursors s.heap g) : Sound (s.withHeap g) where
  heap := hg.wellFormed
  cookie u n hu := (hg.root n).mpr (h.cookie u n hu)
  distinct := h.distinct
  owned n hn := h.owned n ((hg.root n).mp hn)
  collected := h.collected
  cursors := hg.live

/-- A new list with a userdata of its own. -/
theorem Sound.push {g : Heap} (hg : g.WellFormed)
    (hroot : ∀ m, g.Root m ↔ s.heap.Root m ∨ m = s.heap.length)
    (hlive : ∀ m, s.heap.Live m → g.Live m) :
    Sound ((s.withHeap g).push s.heap.length none) := by
  have hpush : ∀ u, ((s.withHeap g).push s.heap.length none).cookie u =
      if u = s.userdata.length then some s.heap.length else s.cookie u :=
    cookie_push (s.withHeap g) _ _
  have hcookie : ∀ u n, ((s.withHeap g).push s.heap.length none).cookie u = some n →
      u = s.userdata.length ∧ n = s.heap.length ∨ s.cookie u = some n := by
    intro u n hu
    rw [hpush] at hu
    split at hu
    · rename_i hlength
      exact Or.inl ⟨hlength, (Option.some.inj hu).symm⟩
    · exact Or.inr hu
  -- the new list is past the heap, so no userdata holds it yet
  have hnot : ∀ u, s.cookie u ≠ some s.heap.length := by
    intro u hu
    exact absurd (h.cookie u _ hu).1.1 (Nat.lt_irrefl _)
  refine ⟨hg, fun u n hu => ?_, fun u v n hu hv => ?_, fun n hn => ?_, fun d hd hc => ?_,
    fun c hc => hlive c (h.cursors c hc)⟩
  · rcases hcookie u n hu with ⟨_, rfl⟩ | hu
    · exact (hroot _).mpr (Or.inr rfl)
    · exact (hroot n).mpr (Or.inl (h.cookie u n hu))
  · rcases hcookie u n hu with ⟨rfl, rfl⟩ | hu <;> rcases hcookie v _ hv with ⟨rfl, hn⟩ | hv
    · rfl
    · exact absurd hv (hnot v)
    · exact absurd (hn ▸ hu) (hnot u)
    · exact h.distinct u v n hu hv
  · rcases (hroot n).mp hn with hn | rfl
    · obtain ⟨u, hu⟩ := h.owned n hn
      refine ⟨u, ?_⟩
      rw [hpush, if_neg]
      · exact hu
      · rintro rfl
        rw [State.cookie, List.getElem?_eq_none (Nat.le_refl _)] at hu
        cases hu
    · exact ⟨s.userdata.length, by rw [hpush, if_pos rfl]⟩
  · rcases List.mem_append.mp hd with hd | hd
    · exact h.collected d hd hc
    · rw [List.mem_singleton.mp hd] at hc
      cases hc

theorem Sound.plant (object : Object) (items : List (Nat × Object)) :
    Sound ((s.withHeap ((s.heap.plant object).embed s.heap.length items)).push
      s.heap.length none) := by
  have hplant := h.heap.plant object
  have hnew : (s.heap.plant object).Live s.heap.length :=
    (Forest.live_plant_iff object _).mpr (Or.inr rfl)
  have hembed := hplant.embed hnew items
  refine h.push hembed.1 (fun m => ?_) (fun m hm => ?_)
  · rw [hembed.2.root_iff, Forest.root_plant_iff]
  · exact hembed.2.live ((Forest.live_plant_iff object m).mpr (Or.inl hm))

theorem Sound.addCursors {cs : List Nat} (hcs : ∀ c ∈ cs, s.heap.Live c) :
    Sound { s with cursors := s.cursors ++ cs } :=
  { h with cursors := fun c hc => (List.mem_append.mp hc).elim (h.cursors c) (hcs c) }

/-- The list of a userdata is freed, and its cookie cleared. -/
theorem Sound.gc {u : Nat} (hu : ∀ n ∈ s.cookie u, s.Unheld n) : Sound (s.gc u) := by
  cases hcookie : s.cookie u with
  | none =>
    unfold State.gc
    rw [hcookie]
    exact h
  | some n =>
    have hroot := h.cookie u n hcookie
    have hheap : (s.gc u).heap = s.heap.destroy n := by
      unfold State.gc
      rw [hcookie]
    have hcursors : (s.gc u).cursors = s.cursors := by
      unfold State.gc
      rw [hcookie]
    have hold : ∀ v m, (s.gc u).cookie v = some m → v ≠ u ∧ s.cookie v = some m := by
      intro v m hv
      rw [cookie_gc] at hv
      split at hv
      · cases hv
      · exact ⟨‹_›, hv⟩
    refine ⟨?_, fun v m hv => ?_, fun v w m hv hw => ?_, fun m hm => ?_, ?_, fun c hc => ?_⟩
    · rw [hheap]
      exact h.heap.destroy hroot
    · obtain ⟨hne, hv⟩ := hold v m hv
      rw [hheap, Forest.root_destroy_iff]
      refine ⟨h.cookie v m hv, ?_⟩
      rintro rfl
      exact hne (h.distinct v u m hv hcookie)
    · exact h.distinct v w m (hold v m hv).2 (hold w m hw).2
    · rw [hheap, Forest.root_destroy_iff] at hm
      obtain ⟨v, hv⟩ := h.owned m hm.1
      refine ⟨v, ?_⟩
      rw [cookie_gc, if_neg]
      · exact hv
      · rintro rfl
        exact hm.2 (Option.some.inj (hv.symm.trans hcookie))
    · have hmodify : (s.gc u).userdata =
          s.userdata.modify u (fun d => { d with cookie := none }) := by
        unfold State.gc
        rw [hcookie]
      rw [hmodify]
      exact forall_mem_modify h.collected (fun _ _ _ => rfl)
    · rw [hcursors] at hc
      rw [hheap, Forest.live_destroy_iff]
      exact ⟨h.cursors c hc, hu n hcookie c hc⟩

/-- A userdata that holds nothing any more is finalized. -/
theorem Sound.finalize {u : Nat} (hu : s.cookie u = none) :
    Sound { s with userdata := s.userdata.modify u (fun d => { d with collected := true }) } := by
  have hcookie : ∀ v, State.cookie { s with
      userdata := s.userdata.modify u (fun d => { d with collected := true }) } v =
      s.cookie v := by
    intro v
    apply bind_modify_same
    exact fun _ => rfl
  refine { h with
    cookie := fun v n hv => h.cookie v n ((hcookie v).symm.trans hv)
    distinct := fun v w n hv hw =>
      h.distinct v w n ((hcookie v).symm.trans hv) ((hcookie w).symm.trans hw)
    owned := fun n hn => (h.owned n hn).imp (fun v hv => (hcookie v).trans hv)
    collected := forall_mem_modify h.collected (fun d hd _ => ?_) }
  rw [State.cookie, hd] at hu
  exact hu

/-- A pair is added to the list of a userdata. -/
theorem Sound.add {u nvl : Nat} (hu : s.cookie u = some nvl) (name : String) (value : Value)
    (hunheld : ∀ p ∈ s.heap.duplicates nvl name value.type, s.Unheld p) :
    Sound (s.withHeap (s.heap.nvlist_add_common nvl name value)) :=
  h.withHeap (Heap.keeps_add_common h.heap (h.cookie u nvl hu).1 h.cursors hunheld)

theorem Sound.merge {u v nvla nvlb : Nat} (hu : s.cookie u = some nvla)
    (hv : s.cookie v = some nvlb) (hok : Careful s (.merge u v)) :
    Sound (s.withHeap (s.heap.nvlist_merge nvla nvlb)) := by
  refine h.withHeap ?_
  unfold Heap.nvlist_merge
  by_cases hself : nvla = nvlb
  · rw [if_pos hself]
    exact ⟨h.heap, fun _ => Iff.rfl, h.cursors⟩
  · rw [if_neg hself]
    exact Heap.keeps_merge h.heap (h.cookie u nvla hu) _ h.cursors (hok nvla hu nvlb hv)

/-- The first pair of a list, and the one after another, are there. -/
theorem Sound.cursor {u nvl : Nat} (hu : s.cookie u = some nvl) {cs : List Nat}
    (hcs : ∀ c ∈ cs, c ∈ s.heap.children nvl) : Sound { s with cursors := s.cursors ++ cs } :=
  h.addCursors (fun c hc => Heap.child_live h.heap (h.cookie u nvl hu).1 (hcs c hc))

end Steps

theorem pushvalue_of_not_holdsNvlist {s : State} {u p : Nat} (hp : ¬ s.heap.HoldsNvlist p) :
    s.pushvalue u p = s := by
  unfold State.pushvalue
  by_cases hnvlist : s.heap.typed .NVLIST p = true
  · rw [if_pos hnvlist]
    have hnone : s.heap.children p = [] :=
      by_contra (fun hne => hp ⟨Or.inl hnvlist, hne⟩)
    rw [hnone]
    rfl
  rw [if_neg hnvlist]
  by_cases harray : s.heap.typed .NVLIST_ARRAY p = true
  · rw [if_pos harray]
    have hnone : s.heap.children p = [] :=
      by_contra (fun hne => hp ⟨Or.inr harray, hne⟩)
    rw [hnone]
    rfl
  · rw [if_neg harray]

theorem next_nvpair_mem {h : Heap} {n p q : Nat} (hq : h.nvlist_next_nvpair n p = some q) :
    q ∈ h.children n := by
  unfold Heap.nvlist_next_nvpair at hq
  split at hq
  · exact List.mem_of_find?_eq_some hq
  · cases hq

theorem lookup_nvlist_typed {h : Heap} {n p : Nat} {name : String}
    (hp : h.nvlist_lookup_nvlist n name = some p) : h.typed .NVLIST p = true := by
  unfold Heap.nvlist_lookup_nvlist at hp
  split at hp
  · split at hp
    · have hfound := List.find?_some hp
      simp only [Bool.and_eq_true] at hfound
      exact hfound.2
    · cases hp
  · cases hp

/-- A check that fails changes nothing. -/
theorem Sound.checked {s : State} (h : Sound s) {check : Option Nat} {f : Nat → State} :
    (∀ x, check = some x → Sound (f x)) → Sound (match check with
      | none => s
      | some x => f x) := by
  intro hf
  cases check with
  | none => exact h
  | some x => exact hf x rfl

/-- Every careful step keeps the invariant. -/
theorem Sound.next {s : State} (h : Sound s) (e : Event) (hok : Careful s e) :
    Sound (next s e) := by
  cases e with
  | nvlist nvflag => exact h.plant (.nvlist nvflag) []
  | unpack nvflag items => exact h.plant (.nvlist nvflag) items
  | dup u =>
    unfold Nvpair.next
    dsimp only
    split
    · exact h
    · exact h.plant _ _
  | merge u v =>
    unfold Nvpair.next
    dsimp only
    split
    · rename_i nvla nvlb hu hv
      exact h.merge hu hv hok
    · exact h
  | add u name type => exact h.checked (fun nvl hu => h.add hu name _ (hok nvl hu))
  | add_nvlist u name v => exact h.checked (fun nvl hu => h.add hu name _ (hok nvl hu))
  | add_nvlist_array u name vs => exact h.checked (fun nvl hu => h.add hu name _ (hok nvl hu))
  | remove u name type =>
    refine h.checked (fun nvl hu => ?_)
    have hpruned := Heap.prune h.heap (h.cookie u nvl hu).1
      (Heap.removed_sublist s.heap nvl name type)
    exact h.withHeap (Heap.keeps_of_pruned hpruned h.cursors (hok nvl hu))
  -- what `lookup` and the iterator find holds no nvlist, so nothing is wrapped
  | lookup u name =>
    refine h.checked (fun nvp hfound => ?_)
    obtain ⟨nvl, hu, hp⟩ := Option.bind_eq_some_iff.mp hfound
    rw [pushvalue_of_not_holdsNvlist (hok nvl hu nvp hp)]
    exact h
  | lookup_nvlist u name =>
    refine h.checked (fun nvp hfound => ?_)
    obtain ⟨nvl, hu, hp⟩ := Option.bind_eq_some_iff.mp hfound
    have hnone : s.heap.children nvp = [] := by
      by_contra hne
      exact hok nvl hu nvp hp ⟨Or.inl (lookup_nvlist_typed hp), hne⟩
    rw [hnone]
    exact h
  | pairs u =>
    refine h.checked (fun nvl hu => h.cursor hu (fun c hc => ?_))
    exact List.mem_of_mem_head? (Option.mem_toList.mp hc)
  | pairs_iter u p =>
    refine h.checked (fun nvl hu => ?_)
    have hmem : ∀ c ∈ (s.heap.nvlist_next_nvpair nvl p).toList, c ∈ s.heap.children nvl :=
      fun c hc => next_nvpair_mem (Option.mem_toList.mp hc)
    have hsame : State.pushvalue { s with
        cursors := s.cursors ++ (s.heap.nvlist_next_nvpair nvl p).toList } u p = _ :=
      pushvalue_of_not_holdsNvlist hok
    rw [hsame]
    exact h.cursor hu hmem
  | drop p => exact { h with cursors := fun c hc => h.cursors c (List.mem_of_mem_erase hc) }
  | callGc u => exact h.gc hok
  | collect u =>
    have hgc := h.gc hok
    refine hgc.finalize ?_
    rw [cookie_gc, if_pos rfl]

theorem sound_init : Sound system.init where
  heap := Forest.wellFormed_nil
  cookie _ _ hu := nomatch hu
  distinct _ _ _ hu := nomatch hu
  owned n hn := absurd hn.1.1 (Nat.not_lt_zero n)
  collected _ hd := nomatch hd
  cursors _ hc := nomatch hc

/-! ## Every run -/

/-- The ownership of the C nvlists: nothing is freed twice; what is inside another object is
freed with it and only then; what the userdata and the light userdata point at is there; and
when all userdata have been finalized, everything has been freed once. -/
structure Owned (s : State) : Prop where
  once : ∀ n, s.heap.freed n ≤ 1
  container : ∀ n p, s.heap.parent n = some p → s.heap.freed n = s.heap.freed p
  cookie : ∀ u n, s.cookie u = some n → s.heap.Live n
  cursor : ∀ c ∈ s.cursors, s.heap.Live c
  all : (∀ d ∈ s.userdata, d.collected = true) → ∀ n, n < s.heap.length → s.heap.freed n = 1

theorem Sound.toOwned {s : State} (h : Sound s) : Owned s where
  once := h.heap.once
  container n p hp := h.heap.freed n p (s.heap.mem_up_of_parent hp)
  cookie u n hu := (h.cookie u n hu).1
  cursor := h.cursors
  all hall n hn := by
    have hle := h.heap.once n
    by_contra hne
    have hlive : s.heap.Live n := ⟨hn, by omega⟩
    -- a list that is left has a root, and the root a userdata
    obtain ⟨r, hr, _⟩ := h.heap.exists_root hlive
    obtain ⟨u, hu⟩ := h.owned r hr
    obtain ⟨d, hd, hcookie⟩ := Option.bind_eq_some_iff.mp hu
    have hmem := List.mem_of_getElem? hd
    rw [h.collected d hmem (hall d hmem)] at hcookie
    cases hcookie

/-- **Every nvlist is freed exactly once**, in every run in which no operation takes an
nvlist out of a pair, and no pair is freed while Lua holds a light userdata of it: whatever
is added, merged, removed or copied, and in whatever order userdata are finalized. -/
theorem nvlists_owned (s : State) (h : system.ReachableBy Careful s) : Owned s := by
  have hsound : Sound s := h.invariant sound_init (fun _ e hs hok _ => hs.next e hok)
  exact hsound.toOwned

/-- Lists are nested, merged, packed and unpacked, iterated over and removed. -/
def ownedEvents : List Event :=
  [.nvlist 1, .nvlist 2, .add 1 "k" 8, .add_nvlist 0 "x" 1, .add_nvlist_array 0 "y" [1, 0],
    .merge 1 0, .dup 1, .unpack 1 [(0, .nvpair "p" (.plain 9))], .pairs 3, .pairs_iter 3 36,
    .lookup 1 "k", .drop 36, .remove 0 "x" none, .add_nvlist 0 "y" 2, .collect 1, .callGc 0,
    .collect 3, .collect 0, .collect 2]

theorem nvlists_owned_nested : ∃ s, system.run ownedEvents = some s ∧
    (∀ d ∈ s.userdata, d.collected = true) ∧ Owned s := by
  have hrun : ((system.restrict Careful (fun _ _ => inferInstance)).run ownedEvents).map
      (fun s => s.userdata.all (fun d => d.collected)) = some true := by decide +kernel
  obtain ⟨s, hs, hall⟩ := Option.map_eq_some_iff.mp hrun
  refine ⟨s, System.run_of_restrict hs, ?_, nvlists_owned s (System.run_restrict hs)⟩
  exact fun d hd => List.all_eq_true.mp hall d hd

/-- The userdata of a nested list is finalized: the list is freed, its container is not. -/
theorem not_nvlists_owned : ¬ ∀ s, system.Reachable s → Owned s := by
  intro h
  have hrun : (system.run [.nvlist 1, .nvlist 1, .add_nvlist 0 "x" 1, .lookup_nvlist 0 "x",
      .collect 2]).map (fun s => (s.heap.parent 3, s.heap.freed 3, s.heap.freed 2)) =
      some (some 2, 1, 0) := by decide
  obtain ⟨s, hs, hfacts⟩ := Option.map_eq_some_iff.mp hrun
  simp only [Prod.mk.injEq] at hfacts
  obtain ⟨hparent, hlist, hpair⟩ := hfacts
  have heq := (h s (System.run_reachable hs)).container 3 2 hparent
  rw [hlist, hpair] at heq
  cases heq

end Nvpair
end FluaLibs
