import FluaLibs.ClosableHandles
import FluaLibs.LuaArguments

/-! # The handles of the modules

Descriptors are kept in the user value `FILEDESC` of a userdata (`eventfd`, `inotify`,
`procdesc`) or in the userdata itself (`kqueue`, and the queues of `mqueue`); what the C
libraries give is kept by its address, in the user value `COOKIE`.  What closing does to them
is not the same in all modules: some keep the descriptor when `close` fails and some do not, and
some finalizers leave an address behind.

The functions are the modules' own, from where their arguments have been checked to be of the
right type, and `handles_sound` is about all of them.
-/
namespace FluaLibs
namespace Handles
open LuaArguments

/-! ## Descriptors in `FILEDESC`

Nil stands there once the descriptor is closed. -/

/-- What `checkeventfd` and its like do. -/
def checkfiledesc (message : String) : Option Int → Except Raised Int
  | some fd => .ok fd
  | none => .error (.argerror 1 message)

def checkeventfd : Option Int → Except Raised Int := checkfiledesc "invalid eventfd (closed)"

def checkinotify : Option Int → Except Raised Int := checkfiledesc "invalid inotify fd (closed)"

def checkprocdesc : Option Int → Except Raised Int := checkfiledesc "invalid procdesc (closed)"

/-- What `l_eventfd_close` and its like do. -/
def closefiledesc (errno : Option Nat) : Option Int → Effect (Option Int) Int
  | none => ⟨none, none, .success⟩
  | some fd =>
    match errno with
    | some e => ⟨some fd, some fd, .failed e⟩
    | none => ⟨none, some fd, .success⟩

def l_eventfd_close : Option Nat → Option Int → Effect (Option Int) Int := closefiledesc

def l_inotify_close : Option Nat → Option Int → Effect (Option Int) Int := closefiledesc

def l_procdesc_close : Option Nat → Option Int → Effect (Option Int) Int := closefiledesc

/-- What `l_eventfd_wrap` and its like make of an integer. -/
def wrapfiledesc (i : Int) : Option Int := some (IntType.int.wrap i)

def l_eventfd_wrap : Int → Option Int := wrapfiledesc

def l_inotify_wrap : Int → Option Int := wrapfiledesc

def l_procdesc_wrap : Int → Option Int := wrapfiledesc

/-- The descriptors that there can be. -/
def isDescriptor (fd : Int) : Bool := decide (0 ≤ fd ∧ fd < 2 ^ 31)

/-! ## Descriptors in the userdata

−1 stands there once the descriptor is closed. -/

namespace Kqueue

def l_wrap (i : Int) : Int := IntType.int.wrap i

def l_close (errno : Option Nat) (kq : Int) : Effect Int Int :=
  if kq = -1 then ⟨-1, none, .nothing⟩
  else
    match errno with
    | some e => ⟨kq, some kq, .failed e⟩
    | none => ⟨-1, some kq, .success⟩

/-- An error is ignored. -/
def l_gc (_errno : Option Nat) (kq : Int) : Effect Int Int :=
  if kq = -1 then ⟨-1, none, .nothing⟩ else ⟨-1, some kq, .nothing⟩

/-- What `kevent` is called with by `l_kevent`. -/
def l_kevent (kq : Int) : Option Int := some kq

end Kqueue

namespace Mqueue

/-- What stands in the userdata that `l_mq_open` returns. -/
def l_mq_open (mq : Int) : Int := mq

/-- The descriptor is forgotten before it is closed. -/
def l_mq_close (errno : Option Nat) (mq : Int) : Effect Int Int :=
  match errno with
  | some e => ⟨-1, some mq, .failed e⟩
  | none => ⟨-1, some mq, .success⟩

def l_mq_gc (errno : Option Nat) (mq : Int) : Effect Int Int :=
  if mq = -1 then ⟨-1, none, .nothing⟩
  else
    match errno with
    | some e => ⟨-1, some mq, .failed e⟩
    | none => ⟨-1, some mq, .nothing⟩

/-- What the methods call `mq_send` and the others with. -/
def descriptor (mq : Int) : Option Int := some mq

end Mqueue

/-! ## Addresses in `COOKIE`

NULL stands there once the object is released; `checkcookienull` takes it and `checkcookie` does
not. -/

/-- `NULL` -/
def NULL : Nat := 0

def checkcookie (cookie : Nat) : Except Raised Nat :=
  if cookie = NULL then .error (.argerror 1 "cookie expired") else .ok cookie

def l_be_close (_errno : Option Nat) (hdl : Nat) : Effect Nat Nat :=
  if hdl = NULL then ⟨NULL, none, .nothing⟩ else ⟨NULL, some hdl, .nothing⟩

/-- The library is called with NULL too. -/
def l_magic_close (_errno : Option Nat) (cookie : Nat) : Effect Nat Nat :=
  ⟨NULL, some cookie, .nothing⟩

def l_kvm_close (errno : Option Nat) (kd : Nat) : Effect Nat Nat :=
  if kd = NULL then ⟨NULL, none, .nothing⟩
  else
    match errno with
    | some e => ⟨kd, some kd, .failed e⟩
    | none => ⟨NULL, some kd, .success⟩

def l_pcpu_gc (_errno : Option Nat) (pcpu : Nat) : Effect Nat Nat :=
  match checkcookie pcpu with
  | .error _ => ⟨pcpu, none, .raised⟩
  | .ok pcpu => ⟨NULL, some pcpu, .nothing⟩

/-- `__close` of a directory. -/
def l_closedir (errno : Option Nat) (dirp : Nat) : Effect Nat Nat :=
  match checkcookie dirp with
  | .error _ => ⟨dirp, none, .raised⟩
  | .ok dirp =>
    match errno with
    | some _ => ⟨dirp, some dirp, .raised⟩
    | none => ⟨NULL, some dirp, .nothing⟩

/-- The address stays. -/
def l_dir_gc (errno : Option Nat) (dirp : Nat) : Effect Nat Nat :=
  if dirp = NULL then ⟨dirp, none, .nothing⟩
  else
    match errno with
    | some _ => ⟨dirp, some dirp, .raised⟩
    | none => ⟨dirp, some dirp, .nothing⟩

/-- The address stays. -/
def l_setmode_gc (_errno : Option Nat) (set : Nat) : Effect Nat Nat :=
  match checkcookie set with
  | .error _ => ⟨set, none, .raised⟩
  | .ok set => ⟨set, some set, .nothing⟩

/-- The address stays. -/
def l_mac_gc (errno : Option Nat) (label : Nat) : Effect Nat Nat :=
  match checkcookie label with
  | .error _ => ⟨label, none, .raised⟩
  | .ok label =>
    match errno with
    | some _ => ⟨label, some label, .raised⟩
    | none => ⟨label, some label, .nothing⟩

/-! ## The families -/

/-- The kinds of handles that hold a descriptor in `FILEDESC`. -/
inductive FiledescKind where
  | eventfd
  | inotify
  | procdesc
  deriving DecidableEq

def FiledescKind.family : FiledescKind → Family (Option Int) Int
  | eventfd => ⟨isDescriptor, l_eventfd_wrap, true, id, [l_eventfd_close], l_eventfd_close,
      fun c => (checkeventfd c).toOption, true, true, false⟩
  | inotify => ⟨isDescriptor, l_inotify_wrap, true, id, [l_inotify_close], l_inotify_close,
      fun c => (checkinotify c).toOption, true, true, false⟩
  | procdesc => ⟨isDescriptor, l_procdesc_wrap, true, id, [l_procdesc_close], l_procdesc_close,
      fun c => (checkprocdesc c).toOption, true, true, true⟩

/-- The kinds of handles that are a descriptor. -/
inductive DescriptorKind where
  | kqueue
  | mqueue
  deriving DecidableEq

/-- What is not −1 is held. -/
def heldDescriptor (fd : Int) : Option Int := if fd = -1 then none else some fd

def DescriptorKind.family : DescriptorKind → Family Int Int
  | kqueue => ⟨isDescriptor, Kqueue.l_wrap, true, heldDescriptor, [Kqueue.l_close], Kqueue.l_gc,
      Kqueue.l_kevent, true, true, false⟩
  | mqueue => ⟨isDescriptor, Mqueue.l_mq_open, false, heldDescriptor,
      [Mqueue.l_mq_close, Mqueue.l_mq_gc], Mqueue.l_mq_gc, Mqueue.descriptor, false, true, false⟩

/-- The kinds of handles that hold an address in `COOKIE`. -/
inductive CookieKind where
  | libbe
  | magic
  | kvm
  | pcpu
  | dirent
  | setmode
  | mac
  deriving DecidableEq

/-- What is not NULL is held. -/
def heldCookie (cookie : Nat) : Option Nat := if cookie = NULL then none else some cookie

def isAddress (p : Nat) : Bool := decide (p ≠ NULL)

/-- A kind of handle that is made by `new` and that `checkcookie` is called on. -/
def cookieFamily (closers : List (Option Nat → Nat → Effect Nat Nat))
    (gc : Option Nat → Nat → Effect Nat Nat) (keeps clears : Bool) : Family Nat Nat :=
  ⟨isAddress, id, false, heldCookie, closers, gc, fun c => (checkcookie c).toOption, keeps, clears,
    false⟩

def CookieKind.family : CookieKind → Family Nat Nat
  | libbe => cookieFamily [l_be_close] l_be_close false true
  | magic => cookieFamily [l_magic_close] l_magic_close false true
  | kvm => cookieFamily [l_kvm_close] l_kvm_close true true
  | pcpu => cookieFamily [] l_pcpu_gc true true
  | dirent => cookieFamily [l_closedir] l_dir_gc true false
  | setmode => cookieFamily [] l_setmode_gc true false
  | mac => cookieFamily [] l_mac_gc true false

/-! ## They are lawful -/

theorem closefiledesc_lawful (check : Option Int → Except Raised Int)
    (hcheck : ∀ c fd, check c = .ok fd → c = some fd) (forks : Bool) :
    (⟨isDescriptor, wrapfiledesc, true, id, [closefiledesc], closefiledesc,
      fun c => (check c).toOption, true, true, forks⟩ : Family (Option Int) Int).Lawful where
  held_new fd hfd := by
    obtain ⟨hnonneg, hlt⟩ := of_decide_eq_true hfd
    have hholds : IntType.int.Holds fd := by
      show -2 ^ 31 ≤ fd ∧ fd < 2 ^ 31
      omega
    simp [wrapfiledesc, IntType.wrap_of_holds hholds]
  close_releases e c fd hc close hclose := by
    obtain rfl := List.mem_singleton.mp hclose
    obtain rfl : c = some fd := hc
    cases e <;> rfl
  close_held e c fd hc close hclose := by
    obtain rfl := List.mem_singleton.mp hclose
    obtain rfl : c = some fd := hc
    cases e <;> rfl
  close_closed e c hc close hclose := by
    obtain rfl := List.mem_singleton.mp hclose
    obtain rfl : c = none := hc
    exact ⟨rfl, fun _ h => by cases h⟩
  gc_releases e c fd hc := by
    obtain rfl : c = some fd := hc
    cases e <;> rfl
  gc_clears c fd _ hc := by
    obtain rfl : c = some fd := hc
    rfl
  gc_closed e c hc := by
    obtain rfl : c = none := hc
    exact ⟨rfl, fun _ h => by cases h⟩
  passes_held c fd hpass _ := by
    cases hok : check c with
    | error e => simp [hok, Except.toOption] at hpass
    | ok fd' =>
      obtain rfl : fd' = fd := by simpa [hok, Except.toOption] using hpass
      exact hcheck c fd' hok

theorem checkfiledesc_eq_ok {message : String} {c : Option Int} {fd : Int}
    (h : checkfiledesc message c = .ok fd) : c = some fd := by
  cases c with
  | none => cases h
  | some fd' =>
    obtain rfl := Except.ok.inj h
    rfl

theorem FiledescKind.lawful (k : FiledescKind) : k.family.Lawful := by
  cases k <;> exact closefiledesc_lawful _ (fun _ _ => checkfiledesc_eq_ok) _

theorem heldDescriptor_eq_some {c fd : Int} : heldDescriptor c = some fd ↔ c = fd ∧ fd ≠ -1 := by
  rw [heldDescriptor]
  split
  · next heq =>
    subst heq
    simp
    omega
  · next hne =>
    simp only [Option.some.injEq]
    constructor
    · rintro rfl
      exact ⟨rfl, hne⟩
    · exact fun h => h.1

theorem heldDescriptor_eq_none {c : Int} : heldDescriptor c = none ↔ c = -1 := by
  rw [heldDescriptor]
  split <;> simp_all

theorem kqueue_lawful : DescriptorKind.kqueue.family.Lawful where
  held_new fd hfd := by
    obtain ⟨hnonneg, hlt⟩ := of_decide_eq_true hfd
    have hholds : IntType.int.Holds fd := by
      show -2 ^ 31 ≤ fd ∧ fd < 2 ^ 31
      omega
    exact heldDescriptor_eq_some.mpr ⟨IntType.wrap_of_holds hholds, by omega⟩
  close_releases e c fd hc close hclose := by
    obtain rfl := List.mem_singleton.mp hclose
    obtain ⟨rfl, hne⟩ := heldDescriptor_eq_some.mp hc
    cases e <;> simp [Kqueue.l_close, hne]
  close_held e c fd hc close hclose := by
    obtain rfl := List.mem_singleton.mp hclose
    obtain ⟨rfl, hne⟩ := heldDescriptor_eq_some.mp hc
    cases e <;> simp [DescriptorKind.family, Kqueue.l_close, heldDescriptor, hne]
  close_closed e c hc close hclose := by
    obtain rfl := List.mem_singleton.mp hclose
    obtain rfl := heldDescriptor_eq_none.mp hc
    exact ⟨rfl, fun _ h => by cases h⟩
  gc_releases e c fd hc := by
    obtain ⟨rfl, hne⟩ := heldDescriptor_eq_some.mp hc
    simp [DescriptorKind.family, Kqueue.l_gc, hne]
  gc_clears c fd _ hc := by
    obtain ⟨rfl, hne⟩ := heldDescriptor_eq_some.mp hc
    simp [DescriptorKind.family, Kqueue.l_gc, heldDescriptor, hne]
  gc_closed e c hc := by
    obtain rfl := heldDescriptor_eq_none.mp hc
    exact ⟨rfl, fun _ h => by cases h⟩
  passes_held c fd hpass hvalid := by
    obtain rfl := Option.some.inj hpass
    obtain ⟨hnonneg, -⟩ := of_decide_eq_true hvalid
    exact heldDescriptor_eq_some.mpr ⟨rfl, by omega⟩

/-- A queue is closed by `mq_close` and by `__close`, which is its finalizer. -/
theorem mem_mqueue_closers {close : Option Nat → Int → Effect Int Int}
    (h : close ∈ DescriptorKind.mqueue.family.closers) :
    close = Mqueue.l_mq_close ∨ close = Mqueue.l_mq_gc := by
  simpa only [DescriptorKind.family, List.mem_cons, List.not_mem_nil, or_false] using h

theorem mqueue_lawful : DescriptorKind.mqueue.family.Lawful where
  held_new fd hfd := by
    obtain ⟨hnonneg, -⟩ := of_decide_eq_true hfd
    exact heldDescriptor_eq_some.mpr ⟨rfl, by omega⟩
  close_releases e c fd hc close hclose := by
    obtain ⟨rfl, hne⟩ := heldDescriptor_eq_some.mp hc
    rcases mem_mqueue_closers hclose with rfl | rfl
    · cases e <;> rfl
    · cases e <;> simp [Mqueue.l_mq_gc, hne]
  close_held e c fd hc close hclose := by
    obtain ⟨rfl, hne⟩ := heldDescriptor_eq_some.mp hc
    rcases mem_mqueue_closers hclose with rfl | rfl
    · cases e <;> simp [DescriptorKind.family, Mqueue.l_mq_close, heldDescriptor]
    · cases e <;> simp [DescriptorKind.family, Mqueue.l_mq_gc, heldDescriptor, hne]
  close_closed e c hc close hclose := by
    obtain rfl := heldDescriptor_eq_none.mp hc
    rcases mem_mqueue_closers hclose with rfl | rfl
    · -- a queue that is closed is closed again, with -1, which is refused
      have hminus : isDescriptor (-1) = false := by decide
      cases e <;> exact ⟨rfl, fun n hn => Option.some.inj hn ▸ hminus⟩
    · exact ⟨rfl, fun n hn => by cases hn⟩
  gc_releases e c fd hc := by
    obtain ⟨rfl, hne⟩ := heldDescriptor_eq_some.mp hc
    cases e <;> simp [DescriptorKind.family, Mqueue.l_mq_gc, hne]
  gc_clears c fd _ hc := by
    obtain ⟨rfl, hne⟩ := heldDescriptor_eq_some.mp hc
    simp [DescriptorKind.family, Mqueue.l_mq_gc, heldDescriptor, hne]
  gc_closed e c hc := by
    obtain rfl := heldDescriptor_eq_none.mp hc
    exact ⟨rfl, fun _ h => by cases h⟩
  passes_held c fd hpass hvalid := by
    obtain rfl := Option.some.inj hpass
    obtain ⟨hnonneg, -⟩ := of_decide_eq_true hvalid
    exact heldDescriptor_eq_some.mpr ⟨rfl, by omega⟩

theorem DescriptorKind.lawful (k : DescriptorKind) : k.family.Lawful := by
  cases k with
  | kqueue => exact kqueue_lawful
  | mqueue => exact mqueue_lawful

theorem heldCookie_eq_some {c p : Nat} : heldCookie c = some p ↔ c = p ∧ p ≠ NULL := by
  rw [heldCookie]
  split
  · next heq =>
    subst heq
    simp only [reduceCtorEq, false_iff, not_and, not_not]
    exact fun h => h.symm
  · next hne =>
    simp only [Option.some.injEq]
    constructor
    · rintro rfl
      exact ⟨rfl, hne⟩
    · exact fun h => h.1

theorem heldCookie_eq_none {c : Nat} : heldCookie c = none ↔ c = NULL := by
  rw [heldCookie]
  split <;> simp_all

theorem checkcookie_of_ne {c : Nat} (h : c ≠ NULL) : checkcookie c = .ok c := if_neg h

/-- What a function has to do that is called on an address. -/
structure Releases (keeps : Bool) (fn : Option Nat → Nat → Effect Nat Nat) : Prop where
  releases (e : Option Nat) (c : Nat) : c ≠ NULL → (fn e c).releases = some c
  cell (e : Option Nat) (c : Nat) : c ≠ NULL →
    (fn e c).cell = if e.isSome = true ∧ keeps = true then c else NULL
  closed (e : Option Nat) : (fn e NULL).cell = NULL ∧
    ∀ n, (fn e NULL).releases = some n → n = NULL

theorem l_be_close_releases : Releases false l_be_close where
  releases e c hc := by simp [l_be_close, hc]
  cell e c hc := by simp [l_be_close, hc]
  closed e := ⟨rfl, fun n h => by cases h⟩

theorem l_magic_close_releases : Releases false l_magic_close where
  releases e c _ := rfl
  cell e c _ := by simp [l_magic_close]
  closed e := ⟨rfl, fun n h => (Option.some.inj h).symm⟩

theorem l_kvm_close_releases : Releases true l_kvm_close where
  releases e c hc := by cases e <;> simp [l_kvm_close, hc]
  cell e c hc := by cases e <;> simp [l_kvm_close, hc]
  closed e := ⟨rfl, fun n h => by cases h⟩

theorem l_closedir_releases : Releases true l_closedir where
  releases e c hc := by cases e <;> simp [l_closedir, checkcookie_of_ne hc]
  cell e c hc := by cases e <;> simp [l_closedir, checkcookie_of_ne hc]
  closed e := ⟨rfl, fun n h => by cases h⟩

/-- What a finalizer has to do that is called on an address; it need not clear it. -/
structure Finalizes (clears : Bool) (gc : Option Nat → Nat → Effect Nat Nat) : Prop where
  releases (e : Option Nat) (c : Nat) : c ≠ NULL → (gc e c).releases = some c
  cell (c : Nat) : clears = true → c ≠ NULL → (gc none c).cell = NULL
  closed (e : Option Nat) : (gc e NULL).cell = NULL ∧
    ∀ n, (gc e NULL).releases = some n → n = NULL

theorem Releases.finalizes {keeps : Bool} {fn : Option Nat → Nat → Effect Nat Nat}
    (h : Releases keeps fn) : Finalizes true fn where
  releases := h.releases
  cell c _ hc := by simp [h.cell none c hc]
  closed := h.closed

theorem cookieFamily_lawful {keeps clears : Bool}
    {closers : List (Option Nat → Nat → Effect Nat Nat)} {gc : Option Nat → Nat → Effect Nat Nat}
    (hclosers : ∀ fn ∈ closers, Releases keeps fn) (hgc : Finalizes clears gc) :
    (cookieFamily closers gc keeps clears).Lawful where
  held_new p hp := heldCookie_eq_some.mpr ⟨rfl, of_decide_eq_true hp⟩
  close_releases e c p hc fn hfn := by
    obtain ⟨rfl, hne⟩ := heldCookie_eq_some.mp hc
    exact (hclosers fn hfn).releases e c hne
  close_held e c p hc fn hfn := by
    obtain ⟨rfl, hne⟩ := heldCookie_eq_some.mp hc
    have hcell := (hclosers fn hfn).cell e c hne
    show heldCookie (fn e c).cell = if e.isSome = true ∧ keeps = true then some c else none
    rw [hcell]
    by_cases hkept : e.isSome = true ∧ keeps = true
    · rw [if_pos hkept, if_pos hkept]
      exact heldCookie_eq_some.mpr ⟨rfl, hne⟩
    · rw [if_neg hkept, if_neg hkept]
      rfl
  close_closed e c hc fn hfn := by
    obtain rfl := heldCookie_eq_none.mp hc
    obtain ⟨hcell, hinvalid⟩ := (hclosers fn hfn).closed e
    refine ⟨heldCookie_eq_none.mpr hcell, ?_⟩
    intro n hn
    obtain rfl := hinvalid n hn
    rfl
  gc_releases e c p hc := by
    obtain ⟨rfl, hne⟩ := heldCookie_eq_some.mp hc
    exact hgc.releases e c hne
  gc_clears c p hclears hc := by
    obtain ⟨rfl, hne⟩ := heldCookie_eq_some.mp hc
    exact heldCookie_eq_none.mpr (hgc.cell c hclears hne)
  gc_closed e c hc := by
    obtain rfl := heldCookie_eq_none.mp hc
    obtain ⟨hcell, hinvalid⟩ := hgc.closed e
    refine ⟨heldCookie_eq_none.mpr hcell, ?_⟩
    intro n hn
    obtain rfl := hinvalid n hn
    rfl
  passes_held c p hpass _ := by
    by_cases hc : c = NULL
    · subst hc
      cases hpass
    · obtain rfl : c = p := by
        simpa [cookieFamily, checkcookie_of_ne hc, Except.toOption] using hpass
      exact heldCookie_eq_some.mpr ⟨rfl, hc⟩

theorem l_pcpu_gc_finalizes : Finalizes true l_pcpu_gc where
  releases e c hc := by simp [l_pcpu_gc, checkcookie_of_ne hc]
  cell c _ hc := by simp [l_pcpu_gc, checkcookie_of_ne hc]
  closed e := ⟨rfl, fun n h => by cases h⟩

theorem l_dir_gc_finalizes : Finalizes false l_dir_gc where
  releases e c hc := by cases e <;> simp [l_dir_gc, hc]
  cell c hclears := by cases hclears
  closed e := ⟨rfl, fun n h => by cases h⟩

theorem l_setmode_gc_finalizes : Finalizes false l_setmode_gc where
  releases e c hc := by simp [l_setmode_gc, checkcookie_of_ne hc]
  cell c hclears := by cases hclears
  closed e := ⟨rfl, fun n h => by cases h⟩

theorem l_mac_gc_finalizes : Finalizes false l_mac_gc where
  releases e c hc := by cases e <;> simp [l_mac_gc, checkcookie_of_ne hc]
  cell c hclears := by cases hclears
  closed e := ⟨rfl, fun n h => by cases h⟩

theorem CookieKind.lawful (k : CookieKind) : k.family.Lawful := by
  have hone {keeps : Bool} {fn : Option Nat → Nat → Effect Nat Nat} (h : Releases keeps fn) :
      ∀ fn' ∈ [fn], Releases keeps fn' := fun _ hmem => List.mem_singleton.mp hmem ▸ h
  have hnone : ∀ fn ∈ ([] : List (Option Nat → Nat → Effect Nat Nat)), Releases true fn :=
    fun _ hmem => absurd hmem List.not_mem_nil
  cases k with
  | libbe =>
    exact cookieFamily_lawful (hone l_be_close_releases) l_be_close_releases.finalizes
  | magic =>
    exact cookieFamily_lawful (hone l_magic_close_releases) l_magic_close_releases.finalizes
  | kvm =>
    exact cookieFamily_lawful (hone l_kvm_close_releases) l_kvm_close_releases.finalizes
  | pcpu => exact cookieFamily_lawful hnone l_pcpu_gc_finalizes
  | dirent => exact cookieFamily_lawful (hone l_closedir_releases) l_dir_gc_finalizes
  | setmode => exact cookieFamily_lawful hnone l_setmode_gc_finalizes
  | mac => exact cookieFamily_lawful hnone l_mac_gc_finalizes

/-! ## All of them are sound -/

/-- **Every handle is closed once, and only ever touches its own object**: for all kinds of
handles, in every run in which names are given out again and again, in which `wrap` is only
given what the caller hands over, in which what cannot be closed is left as the module takes it to
be, and in which a script calls no finalizer that leaves an address behind. -/
theorem handles_sound :
    (∀ (k : FiledescKind) s, (system k.family).ReachableBy (Careful k.family) s →
      Sound k.family s) ∧
    (∀ (k : DescriptorKind) s, (system k.family).ReachableBy (Careful k.family) s →
      Sound k.family s) ∧
    ∀ (k : CookieKind) s, (system k.family).ReachableBy (Careful k.family) s →
      Sound k.family s :=
  ⟨fun k _ h => sound_of_careful k.lawful h, fun k _ h => sound_of_careful k.lawful h,
    fun k _ h => sound_of_careful k.lawful h⟩

/-- The number 3 is used again after it has been closed, and then it is the program's, which
hands it over. -/
theorem handles_sound_reused :
    ∃ s, (system FiledescKind.eventfd.family).run
      [.create 3, .method 0, .close 0 0 ⟨none, true⟩, .open_outside 3, .close 0 0 ⟨none, true⟩,
        .wrap 3, .gc 0 ⟨none, true⟩, .method 1, .gc 1 ⟨none, true⟩] = some s ∧
      s.closed = [(0, some 0), (1, some 1)] ∧ Sound FiledescKind.eventfd.family s := by
  have hrun : (((system FiledescKind.eventfd.family).restrict
      (Careful FiledescKind.eventfd.family) (fun _ _ => inferInstance)).run
      [.create 3, .method 0, .close 0 0 ⟨none, true⟩, .open_outside 3, .close 0 0 ⟨none, true⟩,
        .wrap 3, .gc 0 ⟨none, true⟩, .method 1, .gc 1 ⟨none, true⟩]).map (fun s => s.closed) =
      some [(0, some 0), (1, some 1)] := by
    decide
  obtain ⟨s, hs, hclosed⟩ := Option.map_eq_some_iff.mp hrun
  exact ⟨s, System.run_of_restrict hs, hclosed, handles_sound.1 _ s (System.run_restrict hs)⟩

/-- A `kvm_close` that fails after it has freed everything is repeated by the finalizer. -/
example : ((system CookieKind.kvm.family).run
    [.create 8, .close 0 0 ⟨some 9, true⟩, .gc 0 ⟨none, true⟩]).map (fun s => s.closed) =
      some [(0, some 0), (0, none)] := by
  decide

/-- A script that calls the finalizer of a directory has it closed again when it is collected. -/
example : ((system CookieKind.dirent.family).run
    [.create 8, .call_gc 0 ⟨none, true⟩, .gc 0 ⟨none, true⟩]).map (fun s => s.closed) =
      some [(0, some 0), (0, none)] := by
  decide

/-- The child of `pdfork` closes what nobody has given to its handle. -/
example : ((system FiledescKind.procdesc.family).run
    [.open_outside 3, .child 3, .gc 0 ⟨none, true⟩]).map (fun s => s.closed) =
      some [(0, some 0)] := by
  decide

/-- A descriptor that is closed behind a handle's back is closed again, and by then it is
another object. -/
example : ((system FiledescKind.eventfd.family).run
    [.create 3, .close_outside 3, .open_outside 3, .close 0 0 ⟨none, true⟩]).map
      (fun s => s.closed) = some [(0, some 1)] := by
  decide

end Handles
end FluaLibs
