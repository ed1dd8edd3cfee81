import FluaLibs.DialogFields
import FluaLibs.ListEntries
import FluaLibs.Ownership
import FluaLibs.Transition

/-! # Any number of dialog configurations

The allocator gives out addresses again, and what is written to a field replaces a copy that is
freed first.  `Run.written` is what a reader expects of a field: what was last written to it, as
its type keeps it.

Lua may have no memory to write down a number.  It raises then, after the old copy was freed
and before the field has a new one, so the copy is freed a second time; and nil as a `securech`
is followed as a pointer.  `Careful` leaves these two out.
-/
namespace FluaLibs
namespace Dialog
open LuaArguments

/-! ## Runs -/

structure Run where
  state : State
  written : Nat → Field → Value

inductive Event where
  | initconf
  | index (u : Nat) (key : Bytes)
  | newindex (u : Nat) (key : Bytes) (x : Value) (m : Memory)
  | gc (u : Nat)

section System
variable (b : Build) (defaults : Conf)

/-- What a field keeps of a value that is written to it; nothing if Lua raises before. -/
def kept (f : Field) (x : Value) (m : Memory) : Option Value :=
  match f.kind with
  | .boolean => some (.boolean (toboolean x))
  | .integer => some (.integer (IntType.back ((b.type f).wrap (tointeger b x))))
  | .string =>
    match m, tolstring b.host x with
    | .copy _, some x => some (.string (cstr x))
    | .copy _, none | .exhausted, _ => some .nil
    | .raised, _ => none
  | .char =>
    match m, tolstring b.host x with
    | .copy _, x | .exhausted, x => some (.string (cstr [firstChar (x.getD [])]))
    | .raised, _ => none

/-- What is expected after a write. -/
def remember (written : Nat → Field → Value) (u : Nat) (key : Bytes) (x : Value) (m : Memory) :
    Nat → Field → Value := fun u' f =>
  if u' = u ∧ f ∈ assigned b.v ∧ f.key = cstr key then (kept b f x m).getD (written u' f)
  else written u' f

def next (r : Run) : Event → Run
  | .initconf =>
    ⟨l_bsddialog_initconf r.state defaults, fun u f =>
      if u = r.state.userdata.length then (readField (fun _ => none) defaults f).1
      else r.written u f⟩
  | .index u key =>
    match r.state.conf u with
    | some c => { r with state := (l_bsddialog_conf_index b r.state u c key).1 }
    | none => r
  | .newindex u key x m =>
    match r.state.conf u with
    | some c =>
      ⟨(l_bsddialog_conf_newindex b r.state u c key x m).1, remember b r.written u key x m⟩
    | none => r
  | .gc u =>
    match r.state.conf u with
    | some c => { r with state := l_bsddialog_conf_gc b r.state u c }
    | none => r

def isNumber : Value → Bool
  | .integer _ | .number _ => true
  | _ => false

/-- A copy is put where nothing is, by then; and only a number needs memory of Lua. -/
def serves (s : State) (c : Conf) (key : Bytes) (x : Value) : Memory → Bool
  | .copy a => (findField (assigned b.v) key).all (fun f => ((s.free (c.strings f)).heap a).isNone)
  | .exhausted => true
  | .raised => isNumber x

def Enabled (r : Run) : Event → Prop
  | .initconf => True
  | .index u _ | .gc u => (r.state.conf u).isSome = true
  | .newindex u key x m => (r.state.conf u).any (fun c => serves b r.state c key x m) = true

def system : System Run Event where
  init := ⟨⟨[], fun _ => none, false⟩, fun _ _ => .nil⟩
  Enabled := Enabled b
  decEnabled r e := by
    cases e with
    | initconf => exact isTrue trivial
    | _ => exact inferInstanceAs (Decidable (_ = _))
  next := next b defaults

/-- Lua has memory for the numbers that become strings, and `securech` is written from a
string. -/
def Careful (_ : Run) : Event → Prop
  | .newindex _ key x m => ∀ f ∈ assigned b.v, f.key = cstr key →
      (f.kind = .string → m ≠ .raised) ∧ (f.kind = .char → (tolstring b.host x).isSome = true)
  | _ => True

instance (r : Run) (e : Event) : Decidable (Careful b r e) := by
  cases e with
  | newindex _ key x m =>
    exact inferInstanceAs (Decidable (∀ f ∈ assigned b.v, f.key = cstr key → _ ∧ _))
  | _ => exact isTrue trivial

end System

/-! ## The parts of a step -/

section Parts
variable {s : State} {u : Nat} {c : Conf}

/-- Who is to free an address: a field of a configuration that is there. -/
def Holds (s : State) (o : Nat × Field) (a : Nat) : Prop :=
  ∃ c, s.conf o.1 = some c ∧ c.strings o.2 = some a

def InUse (s : State) (a : Nat) : Prop := s.heap a ≠ none

theorem State.conf_eq_some {s : State} : s.conf u = some c ↔ s.userdata[u]? = some ⟨c, false⟩ := by
  rw [State.conf, Option.bind_eq_some_iff]
  constructor
  · rintro ⟨d, hd, hc⟩
    split at hc
    · cases hc
    · next hnot =>
      obtain rfl := Option.some.inj hc
      rw [hd, ← Bool.not_eq_true _ |>.mp hnot]
  · intro h
    exact ⟨_, h, rfl⟩

/-- A configuration is written over. -/
theorem State.conf_set {s t : State} {d : Userdata} (hu : s.conf u = some c)
    (ht : t.userdata = s.userdata.set u d) (u' : Nat) :
    t.conf u' = if u' = u then (if d.collected = true then none else some d.conf)
      else s.conf u' := by
  have hlt : u < s.userdata.length :=
    (List.getElem?_eq_some_iff.mp (State.conf_eq_some.mp hu)).1
  rw [State.conf, State.conf, ht]
  split
  · next heq =>
    subst heq
    rw [List.getElem?_set_self hlt]
    rfl
  · next hne => rw [List.getElem?_set_ne (Ne.symm hne)]

theorem State.conf_setConf (hu : s.conf u = some c) (c' : Conf) (u' : Nat) :
    (s.setConf u c').conf u' = if u' = u then some c' else s.conf u' := by
  have hset := State.conf_set (t := s.setConf u c') hu rfl u'
  simpa using hset

/-- A string is read from the heap where its field points. -/
theorem readField_congr {heap heap' : Nat → Option Bytes} {f : Field}
    (h : ∀ a, c.strings f = some a → heap' a = heap a) :
    readField heap' c f = readField heap c f := by
  unfold readField
  cases f.kind with
  | string =>
    cases hf : c.strings f with
    | none => rfl
    | some a => simp only [h a hf]
  | _ => rfl

/-- What a field says depends on that field only. -/
theorem readField_conf {heap : Nat → Option Bytes} {c' : Conf} {f : Field}
    (hb : c'.booleans f = c.booleans f) (hi : c'.integers f = c.integers f)
    (hs : c'.strings f = c.strings f) (hch : f.kind = .char → c'.securech = c.securech) :
    readField heap c' f = readField heap c f := by
  unfold readField
  cases hk : f.kind with
  | boolean => simp only [hb]
  | integer => simp only [hi]
  | string => simp only [hs]
  | char => simp only [hch hk]

theorem readField_update {heap : Nat → Option Bytes} {f g : Field} {p : Option Nat} (hg : g ≠ f) :
    readField heap { c with strings := Function.update c.strings f p } g = readField heap c g :=
  readField_conf rfl rfl (Function.update_of_ne hg _ _) (fun _ => rfl)

theorem readField_null {heap : Nat → Option Bytes} {f : Field} (hf : f.kind = .string)
    (hs : c.strings f = none) : readField heap c f = (.nil, false) := by
  simp only [readField, hf, hs]

theorem readField_copy {heap : Nat → Option Bytes} {f : Field} {a : Nat} {x : Bytes}
    (hf : f.kind = .string) (hs : c.strings f = some a) (ha : heap a = some x) :
    readField heap c f = (.string x, false) := by
  simp only [readField, hf, hs, ha]

@[simp] theorem State.conf_free (s : State) (p : Option Nat) (u : Nat) :
    (s.free p).conf u = s.conf u := by
  have hdata : (s.free p).userdata = s.userdata := by
    unfold State.free
    repeat' split
    all_goals rfl
  rw [State.conf, State.conf, hdata]

@[simp] theorem State.conf_strdup (s : State) (a : Nat) (x : Bytes) (u : Nat) :
    (s.strdup a x).conf u = s.conf u := rfl

/-- The addresses of some fields are freed, one after the other. -/
theorem foldl_free {l : List Field} (hl : l.Nodup) (hfault : s.fault = false)
    (huse : ∀ f ∈ l, ∀ a, c.strings f = some a → InUse s a)
    (honce : ∀ f ∈ l, ∀ g ∈ l, ∀ a, c.strings f = some a → c.strings g = some a → f = g) :
    (l.foldl (fun s f => s.free (c.strings f)) s).userdata = s.userdata ∧
      (l.foldl (fun s f => s.free (c.strings f)) s).fault = false ∧
      ∀ a, (l.foldl (fun s f => s.free (c.strings f)) s).heap a =
        if ∃ f ∈ l, c.strings f = some a then none else s.heap a := by
  induction l generalizing s with
  | nil => exact ⟨rfl, hfault, fun a => by simp⟩
  | cons f l ih =>
    obtain ⟨hnot, hrest⟩ := List.nodup_cons.mp hl
    have honce' : ∀ g ∈ l, ∀ g' ∈ l, ∀ a, c.strings g = some a → c.strings g' = some a → g = g' :=
      fun g hg g' hg' => honce g (List.mem_cons_of_mem f hg) g' (List.mem_cons_of_mem f hg')
    rw [List.foldl_cons]
    cases hf : c.strings f with
    | none =>
      obtain ⟨hdata, hok, hheap⟩ := ih hrest hfault
        (fun g hg => huse g (List.mem_cons_of_mem f hg)) honce'
      refine ⟨hdata, hok, ?_⟩
      intro a
      rw [State.free, hheap a]
      simp [hf]
    | some a =>
      obtain ⟨x, hx⟩ := Option.ne_none_iff_exists'.mp (huse f (List.mem_cons_self ..) a hf)
      set t : State := { s with heap := Function.update s.heap a none } with ht
      have hstep : s.free (some a) = t := by simp only [State.free, hx, ht]
      rw [hstep]
      have huse' : ∀ g ∈ l, ∀ a', c.strings g = some a' → InUse t a' := by
        intro g hg a' ha'
        have hne : a' ≠ a := by
          rintro rfl
          obtain rfl := honce f (List.mem_cons_self ..) g (List.mem_cons_of_mem f hg) a' hf ha'
          exact hnot hg
        rw [InUse, ht]
        dsimp only
        rw [Function.update_of_ne hne]
        exact huse g (List.mem_cons_of_mem f hg) a' ha'
      obtain ⟨hdata, hok, hheap⟩ := ih (s := t) hrest hfault huse' honce'
      refine ⟨hdata, hok, ?_⟩
      intro a'
      rw [hheap a', ht]
      by_cases heq : a' = a
      · subst heq
        simp [hf]
      · simp [hf, heq, Ne.symm heq]

end Parts

/-! ## The invariant -/

structure Inv (v : Bool) (r : Run) : Prop where
  fault : r.state.fault = false
  owned : OwnedOnce (Holds r.state) (InUse r.state)
  freed : ∀ u c f a, r.state.conf u = some c → c.strings f = some a → f ∈ freed v
  read : ∀ u c f, r.state.conf u = some c →
    readField r.state.heap c f = (r.written u f, false)

theorem Inv.init (b : Build) (defaults : Conf) : Inv b.v (system b defaults).init where
  fault := rfl
  owned := by
    refine .empty ?_ ?_
    · rintro o a ⟨c, hc, -⟩
      cases hc
    · rintro a ha
      exact ha rfl
  freed u c f a hc := by cases hc
  read u c f hc := by cases hc

/-- What is wanted of what the parts of a step leave, when the fields of one configuration have
changed. -/
structure Changed (r : Run) (u : Nat) (c c' : Conf) (f : Field) (x : Value) (t : Run) : Prop where
  conf : ∀ u', t.state.conf u' = if u' = u then some c' else r.state.conf u'
  strings : ∀ g, g ≠ f → c'.strings g = c.strings g
  reads : ∀ heap g, g ≠ f → readField heap c' g = readField heap c g
  written : ∀ u' g, t.written u' g = if u' = u ∧ g = f then x else r.written u' g

section Steps
variable {v : Bool} {r : Run} {u : Nat} {c : Conf} (h : Inv v r) (hu : r.state.conf u = some c)
include h hu

/-- A field that is no string is written. -/
theorem Inv.write {d : Conf} {f : Field} {x : Value} {t : Run} (ht : Changed r u c d f x t)
    (hheap : t.state.heap = r.state.heap) (hfault : t.state.fault = r.state.fault)
    (hstring : d.strings f = c.strings f) (hread : readField r.state.heap d f = (x, false)) :
    Inv v t := by
  have hstrings : d.strings = c.strings := by
    funext g
    by_cases hg : g = f
    · rw [hg, hstring]
    · exact ht.strings g hg
  constructor
  · rw [hfault, h.fault]
  · refine h.owned.congr ?_ (fun a => by rw [InUse, InUse, hheap])
    rintro ⟨u', g⟩ a
    rw [Holds, Holds, ht.conf]
    split
    · next heq =>
      dsimp only at heq
      subst heq
      simp [hu, hstrings]
    · exact Iff.rfl
  · intro u' c₂ g a hc hg
    rw [ht.conf] at hc
    split at hc
    · obtain rfl := Option.some.inj hc
      rw [hstrings] at hg
      exact h.freed u c g a hu hg
    · exact h.freed u' c₂ g a hc hg
  · intro u' c₂ g hc
    rw [ht.conf] at hc
    rw [hheap, ht.written]
    split at hc
    · next heq =>
      subst heq
      obtain rfl := Option.some.inj hc
      by_cases hg : g = f
      · subst hg
        simpa using hread
      · simp only [hg, and_false, if_false, ht.reads _ g hg]
        exact h.read u' c g hu
    · next hne =>
      simp only [hne, false_and, if_false]
      exact h.read u' c₂ g hc

/-- The string of a field is freed, and the field is `NULL` then. -/
theorem Inv.clear {f : Field} (hf : f.kind = .string) :
    Inv v ⟨(r.state.free (c.strings f)).setConf u
        { c with strings := Function.update c.strings f none },
      fun u' g => if u' = u ∧ g = f then .nil else r.written u' g⟩ := by
  have hconf (u' : Nat) : ((r.state.free (c.strings f)).setConf u
      { c with strings := Function.update c.strings f none }).conf u' =
        if u' = u then some { c with strings := Function.update c.strings f none }
        else r.state.conf u' := by
    rw [State.conf_setConf (c := c) (by rw [State.conf_free, hu]), State.conf_free]
  have hnull (heap : Nat → Option Bytes) :
      readField heap { c with strings := Function.update c.strings f none } f = (.nil, false) :=
    readField_null hf (Function.update_self ..)
  cases hcf : c.strings f with
  | none =>
    rw [hcf] at hconf
    refine h.write hu (d := { c with strings := Function.update c.strings f none }) (f := f)
      (x := .nil) ⟨hconf, ?_, ?_, fun _ _ => rfl⟩ rfl rfl ?_ (hnull _)
    · intro g hg
      exact Function.update_of_ne hg _ _
    · intro heap g hg
      exact readField_update hg
    · simp [hcf]
  | some a =>
    have hholds : Holds r.state (u, f) a := ⟨c, hu, hcf⟩
    obtain ⟨y, hy⟩ := Option.ne_none_iff_exists'.mp (h.owned.live _ _ hholds)
    have hfree : r.state.free (some a) =
        { r.state with heap := Function.update r.state.heap a none } := by
      simp only [State.free, hy]
    rw [hcf, hfree] at hconf
    rw [hfree]
    constructor
    · exact h.fault
    · refine h.owned.release (· = a) ?_ ?_
      · rintro ⟨u', g⟩ a'
        rw [Holds, hconf]
        dsimp only
        split
        · next heq =>
          subst heq
          by_cases hg : g = f
          · subst hg
            simp [Holds, hu, hcf, eq_comm]
          · have hne : c.strings g = some a' → a' ≠ a := by
              rintro hg' rfl
              exact hg (congrArg Prod.snd (h.owned.unique (u', g) (u', f) a' ⟨c, hu, hg'⟩ hholds))
            simpa [Holds, hu, hg] using hne
        · next hne =>
          rw [Holds]
          refine ⟨fun hold => ⟨hold, ?_⟩, fun hold => hold.1⟩
          rintro rfl
          exact hne (congrArg Prod.fst (h.owned.unique (u', g) (u, f) a' hold hholds))
      · intro a'
        rw [InUse, InUse, State.setConf]
        by_cases heq : a' = a
        · simp [heq]
        · simp [heq]
    · intro u' c₂ g a' hc hg
      rw [hconf] at hc
      split at hc
      · obtain rfl := Option.some.inj hc
        by_cases hgf : g = f
        · simp [hgf] at hg
        · exact h.freed u c g a' hu (by simpa [hgf] using hg)
      · exact h.freed u' c₂ g a' hc hg
    · intro u' c₂ g hc
      rw [hconf] at hc
      -- a field that still points somewhere points somewhere else
      have hother (c₁ : Conf) (hc₁ : r.state.conf u' = some c₁) (hne : (u', g) ≠ (u, f)) :
          readField (Function.update r.state.heap a none) c₁ g = readField r.state.heap c₁ g := by
        refine readField_congr ?_
        intro a' ha'
        refine Function.update_of_ne ?_ _ _
        rintro rfl
        exact hne (h.owned.unique (u', g) (u, f) a' ⟨c₁, hc₁, ha'⟩ hholds)
      split at hc
      · next heq =>
        subst heq
        obtain rfl := Option.some.inj hc
        by_cases hg : g = f
        · subst hg
          simpa using hnull _
        · simp only [hg, and_false, if_false, readField_update hg]
          rw [State.setConf, hother c hu (by simp [hg])]
          exact h.read u' c g hu
      · next hne =>
        simp only [hne, false_and, if_false]
        rw [State.setConf, hother c₂ hc (by simp [hne])]
        exact h.read u' c₂ g hc

/-- A copy is put at an address that is free, in a field that is `NULL`. -/
theorem Inv.store {f : Field} {a : Nat} {x : Bytes} (hf : f.kind = .string)
    (hmem : f ∈ Dialog.freed v) (hnull : c.strings f = none) (ha : r.state.heap a = none) :
    Inv v ⟨(r.state.strdup a x).setConf u
        { c with strings := Function.update c.strings f (some a) },
      fun u' g => if u' = u ∧ g = f then .string (cstr x) else r.written u' g⟩ := by
  have hconf (u' : Nat) : ((r.state.strdup a x).setConf u
      { c with strings := Function.update c.strings f (some a) }).conf u' =
        if u' = u then some { c with strings := Function.update c.strings f (some a) }
        else r.state.conf u' :=
    State.conf_setConf (c := c) hu _ u'
  have hunused (o : Nat × Field) : ¬ Holds r.state o a := fun hold => h.owned.live o a hold ha
  constructor
  · exact h.fault
  · refine h.owned.acquire (u, f) (· = a) ?_ ?_ ?_
    · rintro a' rfl
      exact fun huse => huse ha
    · rintro ⟨u', g⟩ a'
      rw [Holds, hconf]
      dsimp only
      split
      · next heq =>
        subst heq
        by_cases hg : g = f
        · subst hg
          simp [Holds, hu, hnull, eq_comm]
        · simp [Holds, hu, hg]
      · next hne => simp [Holds, hne]
    · intro a'
      rw [InUse, InUse, State.setConf, State.strdup]
      by_cases heq : a' = a
      · simp [heq]
      · simp [heq]
  · intro u' c₂ g a' hc hg
    rw [hconf] at hc
    split at hc
    · obtain rfl := Option.some.inj hc
      by_cases hgf : g = f
      · exact hgf ▸ hmem
      · exact h.freed u c g a' hu (by simpa [hgf] using hg)
    · exact h.freed u' c₂ g a' hc hg
  · intro u' c₂ g hc
    rw [hconf] at hc
    have hother (c₁ : Conf) (hc₁ : r.state.conf u' = some c₁) :
        readField (Function.update r.state.heap a (some (cstr x))) c₁ g =
          readField r.state.heap c₁ g := by
      refine readField_congr ?_
      intro a' ha'
      refine Function.update_of_ne ?_ _ _
      rintro rfl
      exact hunused (u', g) ⟨c₁, hc₁, ha'⟩
    split at hc
    · next heq =>
      subst heq
      obtain rfl := Option.some.inj hc
      by_cases hg : g = f
      · subst hg
        have hcopy : readField (Function.update r.state.heap a (some (cstr x)))
            { c with strings := Function.update c.strings g (some a) } g =
              (.string (cstr x), false) :=
          readField_copy hf (Function.update_self ..) (Function.update_self ..)
        simpa [State.setConf, State.strdup] using hcopy
      · simp only [hg, and_false, if_false, readField_update hg]
        rw [State.setConf, State.strdup, hother c hu]
        exact h.read u' c g hu
    · next hne =>
      simp only [hne, false_and, if_false]
      rw [State.setConf, State.strdup, hother c₂ hc]
      exact h.read u' c₂ g hc

/-- A configuration is collected, and its strings are freed. -/
theorem Inv.gc (b : Build) (hv : b.v = v) :
    Inv v { r with state := l_bsddialog_conf_gc b r.state u c } := by
  subst hv
  have hl : (Dialog.freed b.v).Nodup := by
    rw [freed_eq]
    exact ((indexed_keys b.v).of_map _).filter _
  obtain ⟨hdata, hfault, hheap⟩ := foldl_free (c := c) hl h.fault
    (fun f _ a ha => h.owned.live (u, f) a ⟨c, hu, ha⟩)
    (fun f _ g _ a hf hg =>
      congrArg Prod.snd (h.owned.unique (u, f) (u, g) a ⟨c, hu, hf⟩ ⟨c, hu, hg⟩))
  set t : State := l_bsddialog_conf_gc b r.state u c with ht
  have hconf (u' : Nat) : t.conf u' = if u' = u then none else r.state.conf u' := by
    have hset := State.conf_set (d := ⟨c, true⟩) (t := t) hu (by rw [← hdata]; rfl) u'
    simpa using hset
  have htheap (a : Nat) : t.heap a =
      if ∃ f ∈ Dialog.freed b.v, c.strings f = some a then none else r.state.heap a := hheap a
  have hgone (a : Nat) : (∃ f ∈ Dialog.freed b.v, c.strings f = some a) ↔
      ∃ f, Holds r.state (u, f) a := by
    constructor
    · rintro ⟨f, -, hf⟩
      exact ⟨f, c, hu, hf⟩
    · rintro ⟨f, c', hc', hf⟩
      obtain rfl := Option.some.inj (hu.symm.trans hc')
      exact ⟨f, h.freed u c f a hu hf, hf⟩
  constructor
  · exact hfault
  · refine h.owned.release (fun a => ∃ f, Holds r.state (u, f) a) ?_ ?_
    · rintro ⟨u', g⟩ a
      rw [Holds, hconf]
      dsimp only
      split
      · next heq =>
        subst heq
        refine ⟨?_, fun hold => absurd ⟨g, hold.1⟩ hold.2⟩
        rintro ⟨c', hc', -⟩
        cases hc'
      · next hne =>
        refine ⟨fun hold => ⟨hold, ?_⟩, fun hold => hold.1⟩
        rintro ⟨f, hf⟩
        exact hne (congrArg Prod.fst (h.owned.unique (u', g) (u, f) a hold hf))
    · intro a
      rw [InUse, InUse, htheap, ← hgone]
      split
      · next hex => simp [hex]
      · next hex => simp [hex]
  · intro u' c₂ g a hc hg
    rw [hconf] at hc
    split at hc
    · cases hc
    · exact h.freed u' c₂ g a hc hg
  · intro u' c₂ g hc
    rw [hconf] at hc
    split at hc
    · cases hc
    · next hne =>
      rw [← h.read u' c₂ g hc]
      refine readField_congr ?_
      intro a ha
      rw [htheap, if_neg]
      rw [hgone]
      rintro ⟨f, hf⟩
      exact hne (congrArg Prod.fst (h.owned.unique (u', g) (u, f) a ⟨c₂, hc, ha⟩ hf))

end Steps

/-! ## Every step -/

section Step
variable {b : Build} {r : Run} {u : Nat} {c : Conf}

theorem findField_eq_some {v : Bool} {key : Bytes} {f : Field}
    (h : findField (assigned v) key = some f) : ∀ g, g ∈ assigned v ∧ g.key = cstr key ↔ g = f := by
  have hf : f ∈ assigned v := List.mem_of_find?_eq_some h
  have hkey : f.key = cstr key := by simpa using List.find?_some h
  intro g
  constructor
  · rintro ⟨hg, heq⟩
    exact List.inj_on_of_nodup_map (indexed_keys v) hg hf (heq.trans hkey.symm)
  · rintro rfl
    exact ⟨hf, hkey⟩

theorem findField_eq_none {v : Bool} {key : Bytes} (h : findField (assigned v) key = none) :
    ∀ g ∈ assigned v, g.key ≠ cstr key := by
  intro g hg
  simpa using List.find?_eq_none.mp h g hg

/-- One field is expected to change. -/
theorem remember_eq {key : Bytes} {x : Value} {m : Memory} {f : Field} {y : Value}
    (hf : findField (assigned b.v) key = some f) (hy : kept b f x m = some y) :
    remember b r.written u key x m =
      fun u' g => if u' = u ∧ g = f then y else r.written u' g := by
  funext u' g
  rw [remember]
  simp only [findField_eq_some hf g]
  split
  · next heq => rw [heq.2, hy, Option.getD_some]
  · rfl

theorem remember_eq_self {key : Bytes} {x : Value} {m : Memory}
    (hf : ∀ f, findField (assigned b.v) key = some f → kept b f x m = none) :
    remember b r.written u key x m = r.written := by
  funext u' g
  rw [remember]
  split
  · next heq =>
    cases hfind : findField (assigned b.v) key with
    | none => exact absurd heq.2.2 (findField_eq_none hfind g heq.2.1)
    | some f =>
      obtain rfl := (findField_eq_some hfind g).mp heq.2
      rw [hf g hfind, Option.getD_none]
  · rfl

theorem mem_freed {v : Bool} {f : Field} (hf : f ∈ assigned v) (hkind : f.kind = .string) :
    f ∈ Dialog.freed v := by
  rw [freed_eq]
  exact List.mem_filter.mpr ⟨hf, by simp [hkind]⟩

/-- **A string is written**: the old copy is freed, and the new one is the only one. -/
theorem Inv.writeString (h : Inv b.v r) (hu : r.state.conf u = some c) {f : Field} {x : Value}
    {m : Memory} (hf : f.kind = .string) (hmem : f ∈ assigned b.v) (hm : m ≠ .raised)
    (hfree : ∀ a, m = .copy a → (r.state.free (c.strings f)).heap a = none) :
    ∃ y, kept b f x m = some y ∧
      Inv b.v ⟨(writeString b r.state u c f x m).1,
        fun u' g => if u' = u ∧ g = f then y else r.written u' g⟩ := by
  have hclear := h.clear hu hf
  cases m with
  | raised => exact absurd rfl hm
  | exhausted =>
    refine ⟨.nil, by simp [kept, hf], ?_⟩
    cases hx : tolstring b.host x <;> simpa [Dialog.writeString, hx] using hclear
  | copy a =>
    cases hx : tolstring b.host x with
    | none =>
      refine ⟨.nil, by simp [kept, hf, hx], ?_⟩
      simpa [Dialog.writeString, hx] using hclear
    | some y =>
      refine ⟨.string (cstr y), by simp [kept, hf, hx], ?_⟩
      have hlt : u < (r.state.free (c.strings f)).userdata.length := by
        have hconf : (r.state.free (c.strings f)).conf u = some c := by rw [State.conf_free, hu]
        exact (List.getElem?_eq_some_iff.mp (State.conf_eq_some.mp hconf)).1
      have hnew : ((r.state.free (c.strings f)).setConf u
          { c with strings := Function.update c.strings f none }).conf u =
            some { c with strings := Function.update c.strings f none } := by
        rw [State.conf_setConf (c := c) (by rw [State.conf_free, hu]), if_pos rfl]
      have hstore := hclear.store (a := a) (x := y) hnew hf (mem_freed hmem hf) (by simp)
        (hfree a rfl)
      have hwritten : (fun u' g => if u' = u ∧ g = f then Value.string (cstr y)
          else if u' = u ∧ g = f then .nil else r.written u' g) =
          fun u' g => if u' = u ∧ g = f then .string (cstr y) else r.written u' g := by
        funext u' g
        split <;> simp_all
      have hstate : ((((r.state.free (c.strings f)).setConf u
          { c with strings := Function.update c.strings f none }).strdup a y).setConf u
            { c with strings := Function.update (Function.update c.strings f none) f (some a) }) =
          ((r.state.free (c.strings f)).strdup a y).setConf u
            { c with strings := Function.update c.strings f (some a) } := by
        simp [State.setConf, State.strdup, Function.update_idem]
      rw [hwritten] at hstore
      simp only [Dialog.writeString, hx]
      rw [← hstate]
      exact hstore

/-- **A field is written**, of any type. -/
theorem Inv.newindex (h : Inv b.v r) (hu : r.state.conf u = some c) {key : Bytes} {x : Value}
    {m : Memory} (hok : Careful b r (.newindex u key x m))
    (hserves : serves b r.state c key x m = true) :
    Inv b.v ⟨(l_bsddialog_conf_newindex b r.state u c key x m).1,
      remember b r.written u key x m⟩ := by
  cases hfind : findField (assigned b.v) key with
  | none =>
    rw [remember_eq_self (by simp [hfind])]
    simp only [l_bsddialog_conf_newindex, hfind]
    exact h
  | some f =>
    obtain ⟨hmem, hkey⟩ := (findField_eq_some hfind f).mpr rfl
    obtain ⟨hstring, hchar⟩ := hok f hmem hkey
    cases hf : f.kind with
    | boolean =>
      rw [remember_eq hfind (y := .boolean (toboolean x)) (by simp [kept, hf])]
      simp only [l_bsddialog_conf_newindex, hfind, hf]
      refine h.write hu (d := { c with booleans := Function.update c.booleans f (toboolean x) })
        (f := f) ⟨State.conf_setConf hu _, fun _ _ => rfl, ?_, fun _ _ => rfl⟩ rfl rfl rfl ?_
      · intro heap g hg
        exact readField_conf (Function.update_of_ne hg _ _) rfl rfl (fun _ => rfl)
      · simp [readField, hf]
    | integer =>
      rw [remember_eq hfind (y := .integer (IntType.back ((b.type f).wrap (tointeger b x))))
        (by simp [kept, hf])]
      simp only [l_bsddialog_conf_newindex, hfind, hf]
      refine h.write hu (d := { c with
          integers := Function.update c.integers f ((b.type f).wrap (tointeger b x)) })
        (f := f) ⟨State.conf_setConf hu _, fun _ _ => rfl, ?_, fun _ _ => rfl⟩ rfl rfl rfl ?_
      · intro heap g hg
        exact readField_conf rfl (Function.update_of_ne hg _ _) rfl (fun _ => rfl)
      · simp [readField, hf]
    | string =>
      have hfree (a : Nat) (ha : m = .copy a) :
          (r.state.free (c.strings f)).heap a = none := by
        subst ha
        simpa [serves, hfind] using hserves
      obtain ⟨y, hy, hinv⟩ := h.writeString hu hf hmem (hstring hf) hfree (x := x)
      rw [remember_eq hfind hy]
      simp only [l_bsddialog_conf_newindex, hfind, hf]
      exact hinv
    | char =>
      obtain ⟨z, hz⟩ := Option.isSome_iff_exists.mp (hchar hf)
      by_cases hm : m = .raised
      · subst hm
        rw [remember_eq_self (by simp [hfind, kept, hf])]
        simp only [l_bsddialog_conf_newindex, hfind, hf]
        exact h
      have hfield : f = .securech := by
        revert hf
        cases f <;> simp [Field.kind]
      have hresult : l_bsddialog_conf_newindex b r.state u c key x m =
          (r.state.setConf u { c with securech := firstChar z }, .nothing) := by
        cases m <;> simp_all [l_bsddialog_conf_newindex]
      have hkept : kept b f x m = some (.string (cstr [firstChar z])) := by
        cases m <;> simp_all [kept]
      rw [remember_eq hfind hkept, hresult]
      refine h.write hu (d := { c with securech := firstChar z }) (f := f)
        ⟨State.conf_setConf hu _, fun _ _ => rfl, ?_, fun _ _ => rfl⟩ rfl rfl rfl ?_
      · intro heap g hg
        refine readField_conf rfl rfl rfl (fun hg' => absurd ?_ hg)
        rw [hfield]
        revert hg'
        cases g <;> simp [Field.kind]
      · simp [readField, hf]

/-- **A key is read**: a proxy, the field as it was last written, or nil. -/
theorem Inv.index (h : Inv b.v r) (hu : r.state.conf u = some c) (key : Bytes) :
    (l_bsddialog_conf_index b r.state u c key).1 = r.state := by
  unfold l_bsddialog_conf_index
  split
  · rfl
  · split
    · next f _ =>
      simp [h.read u c f hu]
    · rfl

theorem Inv.initconf (h : Inv b.v r) {defaults : Conf} (hd : ∀ f, defaults.strings f = none) :
    Inv b.v (next b defaults r .initconf) := by
  set t := next b defaults r .initconf with ht
  have hconf (u' : Nat) : t.state.conf u' =
      if u' = r.state.userdata.length then some defaults else r.state.conf u' := by
    rw [ht]
    simp only [next, l_bsddialog_initconf, State.conf]
    split
    · next heq =>
      subst heq
      simp
    · next hne => rw [getElem?_concat_of_ne hne]
  constructor
  · exact h.fault
  · refine h.owned.congr ?_ (fun _ => Iff.rfl)
    rintro ⟨u', g⟩ a
    rw [Holds, Holds, hconf]
    dsimp only
    split
    · next heq =>
      subst heq
      simp [hd, State.conf]
    · exact Iff.rfl
  · intro u' c' g a hc hg
    rw [hconf] at hc
    split at hc
    · obtain rfl := Option.some.inj hc
      rw [hd] at hg
      cases hg
    · exact h.freed u' c' g a hc hg
  · intro u' c' g hc
    rw [hconf] at hc
    rw [ht]
    simp only [next]
    split at hc
    · next heq =>
      obtain rfl := Option.some.inj hc
      rw [if_pos heq]
      have hsecond : (readField (fun _ => none) defaults g).2 = false := by
        unfold readField
        split <;> simp_all
      have hread : readField r.state.heap defaults g = readField (fun _ => none) defaults g :=
        readField_congr (fun a ha => absurd ((hd g).symm.trans ha) (by simp))
      exact hread.trans (Prod.ext rfl hsecond)
    · next hne =>
      rw [if_neg hne]
      exact h.read u' c' g hc

/-- **Every step keeps the invariant.** -/
theorem Inv.next (h : Inv b.v r) {defaults : Conf} (hd : ∀ f, defaults.strings f = none)
    {e : Event} (hok : Careful b r e) (he : Enabled b r e) :
    Inv b.v (next b defaults r e) := by
  cases e with
  | initconf => exact h.initconf hd
  | index u key =>
    obtain ⟨c, hu⟩ := Option.isSome_iff_exists.mp he
    simp only [Dialog.next, hu, h.index hu key]
    exact h
  | newindex u key x m =>
    obtain ⟨c, hu, hserves⟩ := (Option.any_eq_true _ _).mp he
    simp only [Dialog.next, hu]
    exact h.newindex hu hok hserves
  | gc u =>
    obtain ⟨c, hu⟩ := Option.isSome_iff_exists.mp he
    simp only [Dialog.next, hu]
    exact h.gc hu b rfl

end Step

/-! ## All runs -/

/-- **What is read is what was last written**, through the configuration and through its
proxies; each copy of a string belongs to one field, nothing is freed twice or read after it was
freed, and when all configurations have been collected no copy is left. -/
theorem dialog_configurations (b : Build) (defaults : Conf) (hd : ∀ f, defaults.strings f = none)
    {r : Run} (h : (system b defaults).ReachableBy (Careful b) r) :
    r.state.fault = false ∧ OwnedOnce (Holds r.state) (InUse r.state) ∧
      (∀ u c, r.state.conf u = some c → ∀ f ∈ indexed b.v,
        l_bsddialog_conf_index b r.state u c f.key = (r.state, .value (r.written u f)) ∧
        ∀ g ∈ f.group,
          l_bsddialog_conf_index b r.state u c (literal g.name) =
            (r.state, .proxy u (literal g.name)) ∧
          l_bsddialog_conf_proxy_index b r.state u c (literal g.name) (literal f.name) =
            (r.state, .value (r.written u f))) ∧
      ((∀ u, r.state.conf u = none) → ∀ a, r.state.heap a = none) := by
  have hinv : Inv b.v r :=
    h.invariant (Inv.init b defaults) (fun _ _ hs hok he => hs.next hd hok he)
  have hread (u : Nat) (c : Conf) (hu : r.state.conf u = some c) (f : Field)
      (hf : f ∈ indexed b.v) :
      l_bsddialog_conf_index b r.state u c f.key = (r.state, .value (r.written u f)) := by
    simp [l_bsddialog_conf_index, find_proxied_key hf, findField_key hf, hinv.read u c f hu]
  refine ⟨hinv.fault, hinv.owned, ?_, ?_⟩
  · intro u c hu f hf
    refine ⟨hread u c hu f hf, ?_⟩
    intro g hg
    obtain ⟨hproxied, hdotted⟩ := dotted_group hf g hg
    refine ⟨?_, ?_⟩
    · rw [l_bsddialog_conf_index, find_proxied_name hproxied]
    · rw [l_bsddialog_conf_proxy_index, hdotted, hread u c hu f hf]
  · intro hnone a
    by_contra huse
    refine hinv.owned.not_live ?_ a huse
    rintro o a' ⟨c, hc, -⟩
    rw [hnone] at hc
    cases hc

/-- A library of version 1, with integers that have no sign. -/
def sampleBuild : Build := ⟨Host.plain, true, fun _ => IntType.uint32⟩

def sampleConf : Conf := ⟨fun _ => false, fun _ => 0, fun _ => none, 42⟩

/-- The title of one is written twice, and the second copy has the address of the first; the
other one is collected. -/
def sampleEvents : List Event :=
  [.initconf, .initconf,
    .newindex 0 (literal "title") (.string (literal "one")) (.copy 5),
    .newindex 1 (literal "key.f1_file") (.string (literal "two")) (.copy 6),
    .newindex 0 (literal "title") (.string (literal "three")) (.copy 5),
    .index 0 (literal "title"), .gc 1]

theorem dialog_configurations_two :
    ∃ r, (system sampleBuild sampleConf).run sampleEvents = some r ∧
      r.state.heap 5 = some (literal "three") ∧ r.state.heap 6 = none ∧
      ∃ c, r.state.conf 0 = some c ∧
        l_bsddialog_conf_index sampleBuild r.state 0 c (literal "title") =
          (r.state, .value (.string (literal "three"))) := by
  have hrun : (((system sampleBuild sampleConf).restrict (Careful sampleBuild)
      (fun _ _ => inferInstance)).run sampleEvents).map (fun r => (r.state.heap 5,
        r.state.heap 6, r.written 0 .title, (r.state.conf 0).isSome)) =
      some (some (literal "three"), none, .string (literal "three"), true) := by
    decide +kernel
  obtain ⟨r, hr, hview⟩ := Option.map_eq_some_iff.mp hrun
  simp only [Prod.mk.injEq] at hview
  obtain ⟨h5, h6, htitle, hconf⟩ := hview
  obtain ⟨c, hc⟩ := Option.isSome_iff_exists.mp hconf
  obtain ⟨-, -, hread, -⟩ := dialog_configurations sampleBuild sampleConf (fun _ => rfl)
    (System.run_restrict hr)
  refine ⟨r, System.run_of_restrict hr, h5, h6, c, hc, ?_⟩
  rw [← htitle]
  exact (hread 0 c hc .title (by decide)).1

/-- Without memory for a number the copy in the field is freed twice. -/
example : ((system sampleBuild sampleConf).run
    [.initconf, .newindex 0 (literal "title") (.string (literal "one")) (.copy 5),
      .newindex 0 (literal "title") (.integer 2) .raised, .gc 0]).map (fun r => r.state.fault) =
    some true := by
  decide +kernel

end Dialog
end FluaLibs
