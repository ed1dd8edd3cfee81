import FluaLibs.DialogItems

/-! # What dialogs with items leave behind

The dialogs do what a reading without addresses says (`itemsOf` and its siblings), ask the
library about what has been read, and free it.  So an error in the middle of the reading leaves
the pieces that have been read by then, and nothing else does.
-/
namespace FluaLibs
namespace Dialog
open LuaArguments Held

/-! ## What is expected -/

section Expected
variable (env : ItemEnv) (lib : DialogLibrary) (args : Nat → Option Value)

/-- A copy of a string, if there is memory. -/
def piece {α : Type} (there : Bool) (a : α) : Counted Raised α :=
  if there = true then Counted.piece a else Counted.raise noMemoryError

/-- A text of an item, copied if there is memory; a value that is no string gives none. -/
def textOf (place : List Nat) (field : String) : Counted Raised (Option Bytes) := do
  let v ← Counted.ofExcept (env.getfield place field)
  match tolstring env.host v with
  | none => pure none
  | some s => piece (env.strdup place field) (some (cstr s))

/-- An item, field by field in the order of `checkitem`. -/
def itemOf (layout : Layout) (place : List Nat) : Counted Raised ItemView := do
  let texts ← Counted.forEach (textOf env place) layout.texts
  let booleans ← Counted.forEach (fun f => Counted.ofExcept (getboolean env place f))
    layout.booleans
  let numbers ← Counted.forEach (fun f => Counted.ofExcept (getinteger env place f))
    layout.numbers
  pure ⟨texts, booleans, numbers⟩

/-- The items of a table, from the first to the one at its length. -/
def itemsOf (layout : Layout) (arg : Int) (place : List Nat) (v : Option Value) :
    Counted Raised (List ItemView) := do
  Counted.ofExcept (checktable arg v)
  let len ← Counted.ofExcept (env.len place)
  piece (callocFits env place len) ()
  Counted.forEach (fun i => do
    Counted.ofExcept (gettable env place i)
    itemOf env layout (place ++ [i])) (List.range len.toNat)

/-- The groups of a mixed list, each with its type and its items. -/
def groupsOf (arg : Int) (v : Option Value) : Counted Raised (List (Int × List ItemView)) := do
  Counted.ofExcept (checktable arg v)
  let len ← Counted.ofExcept (env.len [])
  piece (callocFits env [] len) ()
  Counted.forEach (fun g => do
    Counted.ofExcept (gettable env [] g)
    let type ← Counted.ofExcept (getinteger env [g] "type")
    let v ← Counted.ofExcept (env.getfield [g] "items")
    let items ← itemsOf env menuitem (-1) [g] (some v)
    pure (type, items)) (List.range len.toNat)

/-- A label that there is no memory for is missing. -/
def labelOf (i : Nat) (s : Bytes) : Counted Raised (Option Bytes) :=
  if env.strdup [i] "label" = true then Counted.piece (some (cstr s)) else pure none

/-- A piece that may be missing for now. -/
def asked (there : Bool) : Counted Raised Unit :=
  if there = true then Counted.piece () else pure ()

/-- The bars of a mixed gauge, whose labels may be missing. -/
def barsOf (arg : Int) (v : Option Value) : Counted Raised (List (Option Bytes × Int)) := do
  Counted.ofExcept (checktable arg v)
  let len ← Counted.ofExcept (env.len [])
  asked (callocFits env [0] len)
  asked (callocFits env [1] len)
  if callocFits env [0] len = true ∧ callocFits env [1] len = true then
    Counted.forEach (fun i => do
      Counted.ofExcept (gettable env [] i)
      let s ← Counted.ofExcept (getlabel env i)
      let label ← labelOf env i s
      let perc ← Counted.ofExcept (getperc env i)
      pure (label, perc)) (List.range len.toNat)
  else Counted.raise noMemoryError

end Expected

/-! ## Reading -/

section Reading
variable {env : ItemEnv} {base : List Nat}

/-- A check acquires nothing. -/
theorem Acquires.check {ε α : Type} {base had : List Nat} (y : Except ε α) :
    Acquires base had (fun _ => had) id (Code.ofExcept y) (Counted.ofExcept y) :=
  Acquires.ofExcept y (fun _ h => h) (fun _ h => h) (fun _ => List.Perm.refl _)

/-- A copy is acquired where there is one. -/
theorem COPYSTRING_acquires (place : List Nat) (field : String) :
    Acquires base [] copyAddresses (Option.map Copy.text) (COPYSTRING env place field)
      (textOf env place field) := by
  refine (Acquires.check (env.getfield place field)).bind (fun v => ?_)
  dsimp only [id]
  rcases htext : tolstring env.host v with _ | s
  · exact Acquires.pure (List.Perm.refl _)
  · dsimp only
    refine Acquires.malloc (fun hthere => ?_) (fun hthere => ?_)
    · rw [piece, if_pos hthere]
      exact ⟨pure (some (cstr s)), rfl, fun a => Acquires.pure (List.Perm.refl _)⟩
    · rw [piece, if_neg (by simp [hthere])]
      exact Acquires.raise _

/-- **An item** acquires the copies of its strings. -/
theorem checkitem_acquires (layout : Layout) (place : List Nat) :
    Acquires base [] Item.addresses Item.view (checkitem env layout place)
      (itemOf env layout place) := by
  refine (Acquires.forEach (fun f _ => COPYSTRING_acquires place f)).bind (fun texts => ?_)
  refine ((Acquires.forEach (fun f _ => Acquires.check _)).frame _).bind (fun booleans => ?_)
  refine ((Acquires.forEach (fun f _ => Acquires.check _)).frame _).bind (fun numbers => ?_)
  rw [List.map_id, List.map_id]
  refine Acquires.pure ?_
  rw [Item.addresses, List.flatMap_eq_nil_iff.mpr (fun _ _ => rfl),
    List.flatMap_eq_nil_iff.mpr (fun _ _ => rfl)]
  exact List.Perm.refl _

/-- An array, and what is read into it. -/
theorem Acquires.array {α α' β : Type} {own : α → List Nat} {view : α → α'}
    {own' : β → List Nat} {view' : β → List α'} {place : List Nat} {len : Int} {n : Nat}
    {f : Nat → Code Raised α} {g : Nat → Counted Raised α'}
    (make : Nat → List α → β) (h : ∀ i, Acquires base [] own view (f i) (g i))
    (hown : ∀ a as, own' (make a as) = a :: as.flatMap own)
    (hview : ∀ a as, view' (make a as) = as.map view) :
    Acquires base [] own' view'
      (do
        match ← Code.malloc (callocFits env place len) with
        | none => Code.raise noMemoryError
        | some array =>
          let as ← Code.forEach f (List.range n)
          pure (make array as))
      (do
        piece (callocFits env place len) ()
        Counted.forEach g (List.range n)) := by
  refine Acquires.malloc (fun hfits => ?_) (fun hfits => ?_)
  · rw [piece, if_pos hfits]
    refine ⟨_, rfl, fun array => ?_⟩
    refine ((Acquires.forEach (fun i _ => h i)).frame [array]).map (fun as => ?_) (hview array)
    rw [hown]
    exact (List.perm_append_singleton array _).symm
  · rw [piece, if_neg (by simp [hfits])]
    exact Acquires.raise _

/-- **A list of items** acquires its array and what its items acquire. -/
theorem checkitems_acquires (layout : Layout) (arg : Int) (place : List Nat) (v : Option Value) :
    Acquires base [] Items.addresses (fun items => items.items.map Item.view)
      (checkitems env layout arg place v) (itemsOf env layout arg place v) := by
  refine (Acquires.check (checktable arg v)).bind (fun _ => ?_)
  refine (Acquires.check (env.len place)).bind (fun len => ?_)
  refine Acquires.array Items.mk (fun i => ?_) (fun _ _ => rfl) (fun _ _ => rfl)
  refine (Acquires.check (gettable env place i)).bind (fun _ => ?_)
  exact checkitem_acquires layout (place ++ [i])

def MenuGroup.view (g : MenuGroup) : Int × List ItemView := (g.type, g.items.items.map Item.view)

/-- **A list of groups** acquires its array, and that of each group. -/
theorem checkmenugroups_acquires (arg : Int) (v : Option Value) :
    Acquires base [] MenuGroups.addresses (fun groups => groups.groups.map MenuGroup.view)
      (checkmenugroups env arg v) (groupsOf env arg v) := by
  refine (Acquires.check (checktable arg v)).bind (fun _ => ?_)
  refine (Acquires.check (env.len [])).bind (fun len => ?_)
  refine Acquires.array MenuGroups.mk (fun g => ?_) (fun _ _ => rfl) (fun _ _ => rfl)
  refine (Acquires.check (gettable env [] g)).bind (fun _ => ?_)
  refine (Acquires.check (getinteger env [g] "type")).bind (fun type => ?_)
  refine (Acquires.check (env.getfield [g] "items")).bind (fun v => ?_)
  refine (checkitems_acquires menuitem (-1) [g] (some v)).bind (fun items => ?_)
  exact Acquires.pure (List.Perm.refl _)

def Minibar.view (b : Minibar) : Option Bytes × Int := (b.label.map Copy.text, b.perc)

/-- A label, with the percentage behind it. -/
theorem minibar_acquires (i : Nat) :
    Acquires base [] (fun b : Minibar => copyAddresses b.label) Minibar.view
      (do
        Code.ofExcept (gettable env [] i)
        let s ← Code.ofExcept (getlabel env i)
        let p ← Code.malloc (env.strdup [i] "label")
        let perc ← Code.ofExcept (getperc env i)
        pure (⟨p.map (fun a => ⟨a, cstr s⟩), perc⟩ : Minibar))
      (do
        Counted.ofExcept (gettable env [] i)
        let s ← Counted.ofExcept (getlabel env i)
        let label ← labelOf env i s
        let perc ← Counted.ofExcept (getperc env i)
        pure (label, perc)) := by
  refine (Acquires.check (gettable env [] i)).bind (fun _ => ?_)
  refine (Acquires.check (getlabel env i)).bind (fun s => ?_)
  refine Acquires.malloc (fun hthere => ?_) (fun hthere => ?_)
  · rw [labelOf, if_pos hthere]
    refine ⟨_, rfl, fun a => ?_⟩
    refine (Acquires.check (getperc env i)).bind (fun perc => ?_)
    exact Acquires.pure (List.Perm.refl _)
  · rw [labelOf, if_neg (by simp [hthere]), Counted.pure_bind]
    refine (Acquires.check (getperc env i)).bind (fun perc => ?_)
    exact Acquires.pure (List.Perm.refl _)

/-- **A list of bars** acquires its array and the labels. -/
theorem checkminibars_acquires (arg : Int) (v : Option Value) :
    Acquires base [] Minibars.addresses (fun bars => bars.bars.map Minibar.view)
      (checkminibars env arg v) (barsOf env arg v) := by
  refine (Acquires.check (checktable arg v)).bind (fun _ => ?_)
  refine (Acquires.check (env.len [])).bind (fun len => ?_)
  dsimp only [id]
  refine Acquires.malloc (fun hlabels => ?_) (fun hlabels => ?_)
  · rw [asked, if_pos hlabels]
    refine ⟨_, rfl, fun labels => Acquires.malloc (fun hpercs => ?_) (fun hpercs => ?_)⟩
    · rw [asked, if_pos hpercs, if_pos ⟨hlabels, hpercs⟩]
      refine ⟨_, rfl, fun percs => ?_⟩
      refine ((Acquires.forEach (fun i _ => minibar_acquires i)).frame [percs, labels]).map
        (fun bars => ?_) (fun _ => rfl)
      refine (List.Perm.swap percs labels _).trans ?_
      show ([percs, labels] ++ _ : List Nat).Perm _
      exact List.perm_append_comm
    · rw [asked, if_neg (by simp [hpercs]), if_neg (by simp [hpercs]), Counted.pure_bind]
      exact Acquires.raise _
  · rw [asked, if_neg (by simp [hlabels]), Counted.pure_bind, if_neg (by simp [hlabels])]
    refine Acquires.malloc (fun hpercs => ?_) (fun hpercs => ?_)
    · rw [asked, if_pos hpercs]
      exact ⟨_, rfl, fun percs => Acquires.raise _⟩
    · rw [asked, if_neg (by simp [hpercs]), Counted.pure_bind]
      exact Acquires.raise _

/-! ### How much is read -/

/-- No table is so long that its length is not an `unsigned int`. -/
def ItemEnv.Small (env : ItemEnv) : Prop :=
  ∀ place n, env.len place = .ok n → n < 2 ^ 32

/-- What is read one by one is no longer than its table. -/
theorem range_small (hsmall : env.Small) {place : List Nat} {len : Int}
    (hlen : env.len place = .ok len) {α : Type} {f : Nat → Counted Raised α} {as : List α}
    (h : (Counted.forEach f (List.range len.toNat)).1 = .ok as) : as.length < 2 ^ 32 := by
  have hlt := hsmall place len hlen
  rw [Counted.forEach_length h, List.length_range]
  omega

/-- A list that is read has a table's length. -/
theorem read_length {arg : Int} {place : List Nat} {v : Option Value} {α : Type}
    {fits : Int → Counted Raised Unit} {f : Nat → Counted Raised α} (hsmall : env.Small)
    {as : List α}
    (h : (do
      Counted.ofExcept (checktable arg v)
      let len ← Counted.ofExcept (env.len place)
      fits len
      Counted.forEach f (List.range len.toNat)).1 = .ok as) :
    as.length < 2 ^ 32 ∧ ∀ a ∈ as, ∃ i, (f i).1 = .ok a := by
  obtain ⟨_, -, hrest⟩ := Counted.bind_eq_ok h
  obtain ⟨len, hlen, hrest⟩ := Counted.bind_eq_ok hrest
  obtain ⟨_, -, hread⟩ := Counted.bind_eq_ok hrest
  refine ⟨range_small hsmall hlen hread, fun a ha => ?_⟩
  obtain ⟨i, -, hi⟩ := Counted.forEach_mem hread ha
  exact ⟨i, hi⟩

theorem itemsOf_length {layout : Layout} {arg : Int} {place : List Nat} {v : Option Value}
    (hsmall : env.Small) {views : List ItemView}
    (h : (itemsOf env layout arg place v).1 = .ok views) : views.length < 2 ^ 32 :=
  (read_length hsmall h).1

theorem groupsOf_length {arg : Int} {v : Option Value} (hsmall : env.Small)
    {views : List (Int × List ItemView)} (h : (groupsOf env arg v).1 = .ok views) :
    views.length < 2 ^ 32 ∧ ∀ g ∈ views, g.2.length < 2 ^ 32 := by
  obtain ⟨hlen, hread⟩ := read_length hsmall h
  refine ⟨hlen, fun g hg => ?_⟩
  obtain ⟨i, hi⟩ := hread g hg
  obtain ⟨_, -, hrest⟩ := Counted.bind_eq_ok hi
  obtain ⟨_, -, hrest⟩ := Counted.bind_eq_ok hrest
  obtain ⟨_, -, hrest⟩ := Counted.bind_eq_ok hrest
  obtain ⟨items, hitems, hg⟩ := Counted.bind_eq_ok hrest
  cases hg
  exact itemsOf_length hsmall hitems

theorem barsOf_length {arg : Int} {v : Option Value} (hsmall : env.Small)
    {views : List (Option Bytes × Int)} (h : (barsOf env arg v).1 = .ok views) :
    views.length < 2 ^ 32 := by
  obtain ⟨_, -, hrest⟩ := Counted.bind_eq_ok h
  obtain ⟨len, hlen, hrest⟩ := Counted.bind_eq_ok hrest
  obtain ⟨_, -, hrest⟩ := Counted.bind_eq_ok hrest
  obtain ⟨_, -, hrest⟩ := Counted.bind_eq_ok hrest
  split at hrest
  · exact range_small hsmall hlen hrest
  · cases hrest

end Reading

/-! ## Freeing -/

section Freeing
variable {base l rest : List Nat} {Q : Unit → List Nat → Prop} {R : Raised → List Nat → Prop}

/-- A short list is handed over whole, although its length is an `unsigned int`. -/
theorem Items.handed_eq {items : Items} (h : items.items.length < 2 ^ 32) :
    items.handed = items.items := by
  rw [Items.handed, Items.nitems, Nat.mod_eq_of_lt h, List.take_length]

/-- `freemenuitems` releases what a list of items has acquired. -/
theorem freemenuitems_spec {items : Items} (hsmall : items.items.length < 2 ^ 32)
    (hl : l.Perm (items.addresses ++ rest)) (h : Q () rest) :
    Spec base l (freemenuitems items) Q R := by
  refine Spec.bind (Q := fun _ l' => l' = items.array :: rest) (Spec.freeAll ?_ rfl) ?_
  · rw [Items.handed_eq hsmall]
    refine hl.trans (List.perm_middle.symm.trans ?_)
    exact ((List.reverse_perm items.items).symm.flatMap_right _).append_right _
  · rintro _ _ rfl
    exact Spec.free (List.Perm.refl _) h

theorem MenuGroups.handed_eq {groups : MenuGroups} (h : groups.groups.length < 2 ^ 32) :
    groups.handed = groups.groups := by
  rw [MenuGroups.handed, Nat.mod_eq_of_lt h, List.take_length]

/-- `freemenugroups` releases what a list of groups has acquired. -/
theorem freemenugroups_spec {groups : MenuGroups} (hsmall : groups.groups.length < 2 ^ 32)
    (hitems : ∀ g ∈ groups.groups, g.items.items.length < 2 ^ 32)
    (hl : l.Perm (groups.addresses ++ rest)) (h : Q () rest) :
    Spec base l (freemenugroups groups) Q R := by
  rw [freemenugroups, MenuGroups.handed_eq hsmall]
  refine Spec.bind (Q := fun _ l' => l' = groups.array :: rest)
    (Spec.forAll (fun g => g.items.addresses) ?_ ?_ rfl) ?_
  · intro g hg l rest hl
    exact freemenuitems_spec (hitems g (List.mem_reverse.mp hg)) hl rfl
  · refine hl.trans (List.perm_middle.symm.trans ?_)
    exact ((List.reverse_perm groups.groups).symm.flatMap_right _).append_right _
  · rintro _ _ rfl
    exact Spec.free (List.Perm.refl _) h

theorem Minibars.handed_eq {bars : Minibars} (h : bars.bars.length < 2 ^ 32) :
    bars.handed = bars.bars := by
  rw [Minibars.handed, Nat.mod_eq_of_lt h, List.take_length]

/-- `freeminibars` releases what a list of bars has acquired. -/
theorem freeminibars_spec {bars : Minibars} (hsmall : bars.bars.length < 2 ^ 32)
    (hl : l.Perm (bars.addresses ++ rest)) (h : Q () rest) :
    Spec base l (freeminibars bars) Q R := by
  rw [freeminibars, Minibars.handed_eq hsmall]
  refine Spec.bind (Q := fun _ l' => l' = bars.labels :: bars.percs :: rest)
    (Spec.freeAll ?_ rfl) ?_
  · refine hl.trans ?_
    rw [List.perm_iff_count]
    intro a
    simp only [Minibars.addresses, List.count_append, List.count_cons, List.cons_append,
      ((List.reverse_perm bars.bars).flatMap_right _).count_eq]
    omega
  · rintro _ _ rfl
    refine Spec.bind (Q := fun _ l' => l' = bars.percs :: rest)
      (Spec.free (List.Perm.refl _) rfl) ?_
    rintro _ _ rfl
    exact Spec.free (List.Perm.refl _) h

/-- The values of a form, and its items. -/
theorem freeformitems_spec {items : Items} {values : List (Option Copy)}
    (hsmall : items.items.length < 2 ^ 32) (hvalues : values.length = items.items.length)
    (hl : l.Perm (values.flatMap copyAddresses ++ (items.addresses ++ rest))) (h : Q () rest) :
    Spec base l (freeformitems items values) Q R := by
  have hzip : ∀ (values : List (Option Copy)) (is : List Item), values.length = is.length →
      ((values.zip is).flatMap (fun p => copyAddresses p.1 ++ p.2.addresses)).Perm
        (values.flatMap copyAddresses ++ is.flatMap Item.addresses) := by
    intro values
    induction values with
    | nil =>
      intro is his
      rw [List.length_eq_zero_iff.mp his.symm]
      exact List.Perm.refl _
    | cons c values ih =>
      intro is his
      rcases is with _ | ⟨i, is⟩
      · cases his
      · have hrest := ih is (Nat.succ.inj his)
        rw [List.perm_iff_count] at hrest ⊢
        intro a
        have ha := hrest a
        simp only [List.zip_cons_cons, List.flatMap_cons, List.count_append] at ha ⊢
        omega
  rw [freeformitems, Items.handed_eq hsmall]
  refine Spec.bind (Q := fun _ l' => l' = items.array :: rest) (Spec.freeAll ?_ rfl) ?_
  · refine hl.trans ?_
    have hcount := (hzip values items.items hvalues)
    have hreverse := (List.reverse_perm (values.zip items.items)).flatMap_right
      (fun p => copyAddresses p.1 ++ p.2.addresses)
    rw [List.perm_iff_count]
    intro a
    have ha := (hreverse.trans hcount).count_eq a
    simp only [Items.addresses, List.count_append, List.count_cons, List.cons_append] at ha ⊢
    omega
  · rintro _ _ rfl
    exact Spec.free (List.Perm.refl _) h

end Freeing

/-! ## The dialogs -/

section Dialogs
variable (env : ItemEnv) (lib : DialogLibrary) (args : Nat → Option Value)

/-- The arguments of a dialog with a list. -/
def readlistOf : Counted Raised (DialogArgs × List ItemView × Int) := do
  let a ← Counted.ofExcept (checkargs env args)
  let items ← itemsOf env menuitem 6 [] (args 6)
  let i ← Counted.ofExcept (checkinteger env.host 7 (args 7))
  pure (a, items, IntType.int.wrap (i - 1))

/-- The results of a dialog, unless the library has failed. -/
def answer (name : String) (rv : Int) (rest : List Pushed) : Except Raised (List Pushed) :=
  if rv = lib.ERROR then .error (libraryError lib name) else .ok (.integer rv :: rest)

/-- What a dialog with a list returns: what the library answers for the items that it got. -/
def listOf (d : ListDialog) : Counted Raised (List Pushed) :=
  (readlistOf env args).used fun (a, views, focus) =>
    let r := lib.list d a views focus
    answer lib d.name r.1 [.integer (d.focus r.2)]

def readformOf : Counted Raised (DialogArgs × List ItemView × Option Int) := do
  let a ← Counted.ofExcept (checkargs env args)
  let items ← itemsOf env formitem 6 [] (args 6)
  if env.v = true then do
    let i ← Counted.ofExcept (checkinteger env.host 7 (args 7))
    pure (a, items, some (IntType.int.wrap (i - 1)))
  else pure (a, items, none)

/-- What a form returns: the answer of the library, and the values of the fields. -/
def formOf : Counted Raised (List Pushed) :=
  (readformOf env args).used fun (a, views, focus) =>
    let r := lib.form a views focus
    answer lib "bsddialog_form" r.1 (.strings ((List.range views.length).map r.2.1) ::
      if env.v = true then [.integer (r.2.2 + 1)] else [])

def readgaugeOf : Counted Raised (DialogArgs × List (Option Bytes × Int)) := do
  let a ← Counted.ofExcept (checkargs env args)
  let bars ← barsOf env 6 (args 6)
  pure (a, bars)

/-- What a mixed gauge returns. -/
def mixedgaugeOf : Counted Raised (List Pushed) :=
  (readgaugeOf env args).used fun (a, views) =>
    answer lib "bsddialog_mixedgauge" (lib.mixedgauge a views) []

def readmixedlistOf : Counted Raised (DialogArgs × List (Int × List ItemView) × Int × Int) := do
  let a ← Counted.ofExcept (checkargs env args)
  let groups ← groupsOf env 6 (args 6)
  let list ← Counted.ofExcept (checkinteger env.host 7 (args 7))
  let item ← Counted.ofExcept (checkinteger env.host 8 (args 8))
  pure (a, groups, IntType.int.wrap list, IntType.int.wrap item)

/-- What a mixed list returns. -/
def mixedlistOf : Counted Raised (List Pushed) :=
  (readmixedlistOf env args).used fun (a, views, focuslist, focusitem) =>
    let r := lib.mixedlist a views focuslist focusitem
    answer lib "bsddialog_mixedlist" r.1 [.integer r.2.1, .integer r.2.2]

variable {env args} {base : List Nat}

/-- The items are the last argument that acquires anything. -/
theorem readlist_acquires :
    Acquires base [] (fun r => r.2.1.addresses)
      (fun r => (r.1, r.2.1.items.map Item.view, r.2.2)) (readlist env args)
      (readlistOf env args) := by
  refine (Acquires.check (checkargs env args)).bind (fun a => ?_)
  refine (checkitems_acquires menuitem 6 [] (args 6)).bind (fun items => ?_)
  refine (Acquires.check (checkinteger env.host 7 (args 7))).bind (fun i => ?_)
  exact Acquires.pure (List.Perm.refl _)

theorem readform_acquires :
    Acquires base [] (fun r => r.2.1.addresses)
      (fun r => (r.1, r.2.1.items.map Item.view, r.2.2)) (readform env args)
      (readformOf env args) := by
  refine (Acquires.check (checkargs env args)).bind (fun a => ?_)
  refine (checkitems_acquires formitem 6 [] (args 6)).bind (fun items => ?_)
  by_cases hv : env.v = true
  · rw [if_pos hv, if_pos hv]
    refine (Acquires.check (checkinteger env.host 7 (args 7))).bind (fun i => ?_)
    exact Acquires.pure (List.Perm.refl _)
  · rw [if_neg hv, if_neg hv]
    exact Acquires.pure (List.Perm.refl _)

theorem readgauge_acquires :
    Acquires base [] (fun r => r.2.addresses) (fun r => (r.1, r.2.bars.map Minibar.view))
      (readgauge env args) (readgaugeOf env args) := by
  refine (Acquires.check (checkargs env args)).bind (fun a => ?_)
  refine (checkminibars_acquires 6 (args 6)).bind (fun bars => ?_)
  exact Acquires.pure (List.Perm.refl _)

theorem readmixedlist_acquires :
    Acquires base [] (fun r => r.2.1.addresses)
      (fun r => (r.1, r.2.1.groups.map MenuGroup.view, r.2.2)) (readmixedlist env args)
      (readmixedlistOf env args) := by
  refine (Acquires.check (checkargs env args)).bind (fun a => ?_)
  refine (checkmenugroups_acquires 6 (args 6)).bind (fun groups => ?_)
  refine (Acquires.check (checkinteger env.host 7 (args 7))).bind (fun i => ?_)
  refine (Acquires.check (checkinteger env.host 8 (args 8))).bind (fun j => ?_)
  exact Acquires.pure (List.Perm.refl _)

/-- The end of a dialog. -/
theorem answer_spec {name : String} {rv : Int} {rest : List Pushed} :
    Spec base [] (if rv = lib.ERROR then Code.raise (libraryError lib name)
      else pure (.integer rv :: rest))
      (fun out l => answer lib name rv rest = .ok out ∧ l = [])
      (fun e l => answer lib name rv rest = .error e ∧ l = []) := by
  by_cases hrv : rv = lib.ERROR
  · rw [if_pos hrv, answer, if_pos hrv]
    exact Spec.raise ⟨rfl, rfl⟩
  · rw [if_neg hrv, answer, if_neg hrv]
    exact Spec.pure ⟨rfl, rfl⟩

/-- **`checklist`, `menu` and `radiolist`** show what is in the table, and free it. -/
theorem listDialog_meets (hsmall : env.Small) (d : ListDialog) :
    Meets base (listDialog env lib args d) (listOf env lib args d) := by
  refine readlist_acquires.meets ?_
  rintro ⟨a, items, focus⟩ l hread hl
  have hlen : items.items.length < 2 ^ 32 := by
    obtain ⟨_, -, hrest⟩ := Counted.bind_eq_ok hread
    obtain ⟨views, hviews, hrest⟩ := Counted.bind_eq_ok hrest
    obtain ⟨_, -, heq⟩ := Counted.bind_eq_ok hrest
    have hlen := itemsOf_length hsmall hviews
    cases heq
    rwa [List.length_map] at hlen
  refine Spec.bind (Q := fun _ l' => l' = l) (Spec.touchAll (fun x hx => hl.mem_iff.mpr hx) rfl) ?_
  rintro _ l' rfl
  dsimp only at hl ⊢
  rw [Items.handed_eq hlen]
  have hfree : l'.Perm (items.addresses ++ []) := by rwa [List.append_nil]
  refine Spec.bind (freemenuitems_spec hlen hfree (Q := fun _ l => l = []) rfl) ?_
  rintro _ _ rfl
  exact answer_spec lib

/-- The values that the library makes. -/
theorem newvalues_spec {made : Nat → Option Bytes} {R : Raised → List Nat → Prop}
    (is l : List Nat) : Spec base l (Code.forEach (fun i => newvalue (made i)) is)
      (fun values l' => values.map (Option.map Copy.text) = is.map made ∧
        l'.Perm (values.flatMap copyAddresses ++ l)) R := by
  induction is generalizing l with
  | nil => exact Spec.pure ⟨rfl, List.Perm.refl _⟩
  | cons i is ih =>
    rw [Code.forEach]
    refine Spec.bind (Q := fun c l' => c.map Copy.text = made i ∧
      l'.Perm (copyAddresses c ++ l)) ?_ ?_
    · generalize made i = made
      rcases made with _ | s
      · exact Spec.pure ⟨rfl, List.Perm.refl _⟩
      · rw [newvalue]
        refine Spec.bind (Q := fun p l' => ∃ a, p = some a ∧ l' = a :: l)
          (Spec.malloc (fun _ a _ => ⟨a, rfl, rfl⟩) (by simp)) ?_
        rintro _ _ ⟨a, rfl, rfl⟩
        exact Spec.pure ⟨rfl, List.Perm.refl _⟩
    · rintro c l' ⟨hc, hl'⟩
      refine (ih l').bind ?_
      rintro values l'' ⟨hvalues, hl''⟩
      refine Spec.pure ⟨?_, ?_⟩
      · rw [List.map_cons, List.map_cons, hc, hvalues]
      · refine (hl''.trans (hl'.append_left _)).trans ?_
        rw [List.flatMap_cons, List.append_assoc]
        exact List.perm_append_comm_assoc ..

/-- A form does what is expected of it. -/
theorem form_meets (hsmall : env.Small) :
    Meets base (l_bsddialog_form env lib args) (formOf env lib args) := by
  refine readform_acquires.meets ?_
  rintro ⟨a, items, focus⟩ l hread hl
  have hlen : items.items.length < 2 ^ 32 := by
    obtain ⟨_, -, hrest⟩ := Counted.bind_eq_ok hread
    obtain ⟨views, hviews, hrest⟩ := Counted.bind_eq_ok hrest
    have hlen := itemsOf_length hsmall hviews
    by_cases hv : env.v = true
    · rw [if_pos hv] at hrest
      obtain ⟨_, -, heq⟩ := Counted.bind_eq_ok hrest
      cases heq
      rwa [List.length_map] at hlen
    · rw [if_neg hv] at hrest
      cases hrest
      rwa [List.length_map] at hlen
  refine Spec.bind (Q := fun _ l' => l' = l) (Spec.touchAll (fun x hx => hl.mem_iff.mpr hx) rfl) ?_
  rintro _ l' rfl
  dsimp only at hl ⊢
  rw [Items.handed_eq hlen]
  refine (newvalues_spec _ l').bind ?_
  rintro values l ⟨hmade, hl'⟩
  have hvalues : values.length = items.items.length := by
    have hmap := congrArg List.length hmade
    rwa [List.length_map, List.length_map, List.length_range] at hmap
  have hfree : l.Perm (values.flatMap copyAddresses ++ (items.addresses ++ [])) := by
    rw [List.append_nil]
    exact hl'.trans (hl.append_left _)
  rw [List.length_map]
  by_cases hrv : (lib.form a (items.items.map Item.view) focus).1 = lib.ERROR
  · -- The library may have made values before it failed.
    rw [if_pos hrv, answer, if_pos hrv]
    refine Spec.bind (freeformitems_spec hlen hvalues hfree (Q := fun _ l => l = []) rfl) ?_
    rintro _ _ rfl
    exact Spec.raise ⟨rfl, rfl⟩
  · rw [if_neg hrv, answer, if_neg hrv]
    have htouch : ∀ x ∈ values.flatMap copyAddresses, x ∈ l :=
      fun x hx => hl'.mem_iff.mpr (List.mem_append_left _ hx)
    refine Spec.bind (Q := fun _ l' => l' = l) (Spec.touchAll htouch rfl) ?_
    rintro _ l rfl
    refine Spec.bind (freeformitems_spec hlen hvalues hfree (Q := fun _ l => l = []) rfl) ?_
    rintro _ _ rfl
    rw [← hmade]
    exact Spec.pure ⟨rfl, rfl⟩

theorem mixedgauge_meets (hsmall : env.Small) :
    Meets base (l_bsddialog_mixedgauge env lib args) (mixedgaugeOf env lib args) := by
  refine readgauge_acquires.meets ?_
  rintro ⟨a, bars⟩ l hread hl
  have hlen : bars.bars.length < 2 ^ 32 := by
    obtain ⟨_, -, hrest⟩ := Counted.bind_eq_ok hread
    obtain ⟨views, hviews, heq⟩ := Counted.bind_eq_ok hrest
    have hlen := barsOf_length hsmall hviews
    cases heq
    rwa [List.length_map] at hlen
  refine Spec.bind (Q := fun _ l' => l' = l) (Spec.touchAll (fun x hx => hl.mem_iff.mpr hx) rfl) ?_
  rintro _ l' rfl
  dsimp only at hl ⊢
  rw [Minibars.handed_eq hlen]
  have hfree : l'.Perm (bars.addresses ++ []) := by rwa [List.append_nil]
  refine Spec.bind (freeminibars_spec hlen hfree (Q := fun _ l => l = []) rfl) ?_
  rintro _ _ rfl
  exact answer_spec lib

theorem mixedlist_meets (hsmall : env.Small) :
    Meets base (l_bsddialog_mixedlist env lib args) (mixedlistOf env lib args) := by
  refine readmixedlist_acquires.meets ?_
  rintro ⟨a, groups, focuslist, focusitem⟩ l hread hl
  have hlen : groups.groups.length < 2 ^ 32 ∧
      ∀ g ∈ groups.groups, g.items.items.length < 2 ^ 32 := by
    obtain ⟨_, -, hrest⟩ := Counted.bind_eq_ok hread
    obtain ⟨views, hviews, hrest⟩ := Counted.bind_eq_ok hrest
    obtain ⟨_, -, hrest⟩ := Counted.bind_eq_ok hrest
    obtain ⟨_, -, heq⟩ := Counted.bind_eq_ok hrest
    obtain ⟨hlen, hitems⟩ := groupsOf_length hsmall hviews
    cases heq
    rw [List.length_map] at hlen
    refine ⟨hlen, fun g hg => ?_⟩
    have hview := hitems g.view (List.mem_map_of_mem hg)
    rwa [MenuGroup.view, List.length_map] at hview
  have hhanded : groups.groups.map (fun g => (g.type, g.items.handed.map Item.view)) =
      groups.groups.map MenuGroup.view := by
    refine List.map_congr_left (fun g hg => ?_)
    rw [Items.handed_eq (hlen.2 g hg), MenuGroup.view]
  refine Spec.bind (Q := fun _ l' => l' = l) (Spec.touchAll (fun x hx => hl.mem_iff.mpr hx) rfl) ?_
  rintro _ l' rfl
  dsimp only at hl ⊢
  rw [MenuGroups.handed_eq hlen.1, hhanded]
  have hfree : l'.Perm (groups.addresses ++ []) := by rwa [List.append_nil]
  refine Spec.bind (freemenugroups_spec hlen.1 hlen.2 hfree (Q := fun _ l => l = []) rfl) ?_
  rintro _ _ rfl
  exact answer_spec lib

/-- **Dialogs with items** show the library what is in the tables and return what it says of it.
Whatever they have read is freed exactly once, whether the library fails or not; an error that is
raised while they read leaves exactly the pieces that have been read by then. -/
theorem dialogs_with_items (env : ItemEnv) (lib : DialogLibrary) (args : Nat → Option Value)
    (base : List Nat) (hsmall : env.Small) :
    (∀ d, Meets base (listDialog env lib args d) (listOf env lib args d)) ∧
      Meets base (l_bsddialog_form env lib args) (formOf env lib args) ∧
      Meets base (l_bsddialog_mixedgauge env lib args) (mixedgaugeOf env lib args) ∧
      Meets base (l_bsddialog_mixedlist env lib args) (mixedlistOf env lib args) :=
  ⟨listDialog_meets lib hsmall, form_meets lib hsmall, mixedgauge_meets lib hsmall,
    mixedlist_meets lib hsmall⟩

end Dialogs

/-- Tables with two elements, of which the ones with fields have a name. -/
def sampleTables : ItemEnv where
  host := Host.plain
  isConf u := u = 0
  v := true
  type _ := IntType.uint32
  len _ := .ok 2
  geti _ i := .ok (.table i)
  getfield _ field := .ok (if field = "name" then .string [97] else if field = "items" then .table 9
    else .nil)
  calloc _ := true
  strdup _ _ := true

def sampleDialogs : DialogLibrary where
  ERROR := -1
  geterror := "no screen"
  list _ _ views focus := if focus = 0 then (0, views.length) else (-1, 0)
  form _ _ _ := (-1, fun _ => none, 0)
  mixedgauge _ _ := -1
  mixedlist _ _ _ _ := (-1, 0, 0)

def sampleArgs (i : Nat) : Option Value :=
  [.userdata 0, .string [98], .integer 0, .integer 0, .integer 0, .table 1, .integer 1][i - 1]?

/-- A menu is shown; a list of groups lacks its last argument, when two arrays with two copies
and the array of the groups have been made. -/
theorem dialogs_with_items_two :
    Spec [] [] (l_bsddialog_menu sampleTables sampleDialogs sampleArgs)
        (fun out l => out = [.integer 0, .integer 3] ∧ l = []) (fun _ _ => False) ∧
      Spec [] [] (l_bsddialog_mixedlist sampleTables sampleDialogs sampleArgs)
        (fun _ _ => False) (fun e l => e = .typeerror 8 "number" ∧ l.length = 7) := by
  have hsmall : sampleTables.Small := by
    rintro place n ⟨⟩
    decide
  have hmenu : listOf sampleTables sampleDialogs sampleArgs .menu =
      (.ok [.integer 0, .integer 3], 0) := rfl
  have hleft : mixedlistOf sampleTables sampleDialogs sampleArgs =
      (.error (.typeerror 8 "number"), 7) := rfl
  obtain ⟨hlist, -, -, hmixed⟩ :=
    dialogs_with_items sampleTables sampleDialogs sampleArgs [] hsmall
  refine ⟨(hlist .menu).mono ?_ ?_, hmixed.mono ?_ ?_⟩
  · rintro out l ⟨hout, hl⟩
    rw [hmenu] at hout
    cases hout
    exact ⟨rfl, hl⟩
  · rintro e l ⟨he, -⟩
    rw [hmenu] at he
    cases he
  · rintro out l ⟨hout, -⟩
    rw [hleft] at hout
    cases hout
  · rintro e l ⟨he, hl⟩
    rw [hleft] at he hl
    cases he
    exact ⟨rfl, hl⟩

end Dialog
end FluaLibs
