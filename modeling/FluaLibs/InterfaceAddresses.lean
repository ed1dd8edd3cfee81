import FluaLibs.Transition
import Mathlib.Data.List.Basic

/-! # The lifetime of `struct ifaddrs` values

A handle of libifconfig caches the list of interface addresses.  `foreach_iface` and
`foreach_ifaddr` walk a cached list and hand its nodes to a callback, each wrapped in a
userdata of its own that holds nothing but the pointer.  Closing the handle, or
collecting it, frees the list.

While an iteration runs, its handle lies on the stack of the C function, so the
collector leaves it alone; but `foreach_ifaddr` may walk the list of another handle,
whose iteration goes on around it.  The documentation asks that a value not be kept
outside its callback.  What is read through the pointers is recorded, with whether the
list was still there.
-/
namespace FluaLibs
namespace Ifaddrs

/-- An iteration: the handle on its stack, the handle whose list it walks, and the value
of the callback that runs, unless the C library does. -/
structure Frame where
  handle : Nat
  list : Nat
  running : Option Nat
  deriving DecidableEq

/-- A read through an `ifaddrs` pointer: the list it points into, and whether that has
not been freed. -/
structure Read where
  list : Nat
  live : Bool
  deriving DecidableEq

/-- The handles (`*hp != NULL`), for each `ifaddrs` userdata the handle whose list it
points into, the iterations from the innermost outwards, and the reads. -/
structure State where
  handles : List Bool
  addrs : List Nat
  frames : List Frame
  reads : List Read
  deriving DecidableEq

inductive Event where
  | open_
  | foreach_iface (h : Nat)
  | foreach_ifaddr (h v : Nat)
  /-- `foreach_cb`, for the next node of the innermost iteration. -/
  | callback
  /-- The callback returns to the C library. -/
  | return_
  /-- The list ends, and with it the innermost iteration. -/
  | finish
  /-- An error is caught outside the `n` innermost iterations. -/
  | raise (n : Nat)
  /-- `name`, `flags`, `addr`, `netmask` or `dstaddr`. -/
  | method (v : Nat)
  | addr_info (h v : Nat)
  | close (h : Nat)
  /-- The collector finalizes a handle. -/
  | gc (h : Nat)
  deriving DecidableEq

namespace State
variable (s : State)

/-- Lua code runs: outside all iterations, or in the callback of the innermost one. -/
def InLua : Prop := ∀ f ∈ s.frames.head?, f.running.isSome = true

/-- The C library runs, in the innermost iteration. -/
def InLibrary : Prop := ∃ f ∈ s.frames.head?, f.running = none

instance : Decidable s.InLua := inferInstanceAs (Decidable (∀ _ ∈ _, _))
instance : Decidable s.InLibrary := by
  unfold InLibrary
  cases s.frames.head? with
  | none => exact isFalse (fun h => by obtain ⟨f, hf, _⟩ := h; cases hf)
  | some f =>
    exact decidable_of_iff (f.running = none)
      ⟨fun h => ⟨f, rfl, h⟩, fun ⟨g, hg, h⟩ => by cases hg; exact h⟩

/-- The list of a handle: freed when the handle is closed. -/
def live (h : Nat) : Bool := s.handles[h]?.getD false

/-- The list a value points into. -/
def listOf (v : Nat) : Nat := s.addrs[v]?.getD 0

def read (list : Nat) : State := { s with reads := s.reads ++ [⟨list, s.live list⟩] }

end State

/-- What can happen.  `l_ifconfig_checkhandle` lets no closed handle pass; a failed check
only raises an error. -/
def Enabled (s : State) : Event → Prop
  | .open_ => s.InLua
  | .foreach_iface h => s.InLua ∧ s.live h = true
  | .foreach_ifaddr h v | .addr_info h v => s.InLua ∧ s.live h = true ∧ v < s.addrs.length
  | .callback | .finish => s.InLibrary
  | .return_ => s.InLua ∧ s.frames ≠ []
  | .raise n => n ≤ s.frames.length
  | .method v => s.InLua ∧ v < s.addrs.length
  | .close h => s.InLua ∧ h < s.handles.length
  | .gc h => h < s.handles.length ∧ ∀ f ∈ s.frames, f.handle ≠ h

instance (s : State) (e : Event) : Decidable (Enabled s e) := by
  cases e <;> unfold Enabled <;> infer_instance

def next (s : State) : Event → State
  | .open_ => { s with handles := s.handles ++ [true] }
  | .foreach_iface h => { s with frames := ⟨h, h, none⟩ :: s.frames }
  | .foreach_ifaddr h v =>
    { s.read (s.listOf v) with frames := ⟨h, s.listOf v, none⟩ :: s.frames }
  | .callback =>
    match s.frames with
    | [] => s
    | f :: frames =>
      { s.read f.list with
        addrs := s.addrs ++ [f.list]
        frames := { f with running := some s.addrs.length } :: frames }
  | .return_ =>
    match s.frames with
    | [] => s
    | f :: frames => { s with frames := { f with running := none } :: frames }
  | .finish =>
    match s.frames with
    | [] => s
    | f :: frames => { s.read f.list with frames := frames }
  | .raise n => { s with frames := s.frames.drop n }
  | .method v | .addr_info _ v => s.read (s.listOf v)
  | .close h | .gc h => { s with handles := s.handles.set h false }

def system : System State Event where
  init := ⟨[], [], [], []⟩
  Enabled := Enabled
  decEnabled := fun _ _ => inferInstance
  next := next

/-- The rules of the documentation: a value is used only while its callback runs, and a
handle is not closed while its list is walked. -/
def Scoped (s : State) : Event → Prop
  | .method v | .addr_info _ v | .foreach_ifaddr _ v => ∃ f ∈ s.frames, f.running = some v
  | .close h => ∀ f ∈ s.frames, f.list ≠ h
  | _ => True

instance (s : State) (e : Event) : Decidable (Scoped s e) := by
  cases e <;> unfold Scoped <;> infer_instance

/-! ## The invariant -/

/-- Below each iteration, itself included, one has the handle of the list it walks on its
stack. -/
def Rooted : List Frame → Prop
  | [] => True
  | f :: frames => (f.handle = f.list ∨ ∃ g ∈ frames, g.handle = f.list) ∧ Rooted frames

theorem Rooted.exists_handle {frames : List Frame} (h : Rooted frames) :
    ∀ f ∈ frames, ∃ g ∈ frames, g.handle = f.list := by
  induction frames with
  | nil => exact fun f hf => nomatch hf
  | cons f frames ih =>
    intro g hg
    rcases List.mem_cons.mp hg with rfl | hg
    · rcases h.1 with hself | ⟨k, hk, hlist⟩
      · exact ⟨g, List.mem_cons_self .., hself⟩
      · exact ⟨k, List.mem_cons_of_mem _ hk, hlist⟩
    · obtain ⟨k, hk, hlist⟩ := ih h.2 g hg
      exact ⟨k, List.mem_cons_of_mem _ hk, hlist⟩

theorem Rooted.drop {frames : List Frame} (h : Rooted frames) (n : Nat) :
    Rooted (frames.drop n) := by
  induction n generalizing frames with
  | zero => exact h
  | succ n ih =>
    cases frames with
    | nil => trivial
    | cons f frames => exact ih h.2

/-- Everything read so far was there; the lists that are walked are there; the value of a
callback that runs points into the list that is walked. -/
structure Sound (s : State) : Prop where
  reads : ∀ r ∈ s.reads, r.live = true
  live : ∀ f ∈ s.frames, s.live f.list = true
  running : ∀ f ∈ s.frames, ∀ v, f.running = some v → s.addrs[v]? = some f.list
  rooted : Rooted s.frames

section Steps
variable {s : State} (h : Sound s)
include h

theorem Sound.read {list : Nat} (hlist : s.live list = true) : Sound (s.read list) where
  reads r hr := by
    rcases List.mem_append.mp hr with hr | hr
    · exact h.reads r hr
    · rw [List.mem_singleton.mp hr]
      exact hlist
  live := h.live
  running := h.running
  rooted := h.rooted

/-- The value of a callback that runs points into a list that is walked. -/
theorem Sound.listOf {v : Nat} (hv : ∃ f ∈ s.frames, f.running = some v) :
    ∃ f ∈ s.frames, s.listOf v = f.list := by
  obtain ⟨f, hf, hrunning⟩ := hv
  refine ⟨f, hf, ?_⟩
  rw [State.listOf, h.running f hf v hrunning]
  rfl

theorem Sound.method {v : Nat} (hv : ∃ f ∈ s.frames, f.running = some v) :
    Sound (s.read (s.listOf v)) := by
  obtain ⟨f, hf, hlist⟩ := h.listOf hv
  rw [hlist]
  exact h.read (h.live f hf)

/-- A new iteration over a list that is there. -/
theorem Sound.push {f : Frame} (hlive : s.live f.list = true) (hrunning : f.running = none)
    (hroot : f.handle = f.list ∨ ∃ g ∈ s.frames, g.handle = f.list) :
    Sound { s with frames := f :: s.frames } where
  reads := h.reads
  live := List.forall_mem_cons.mpr ⟨hlive, h.live⟩
  running := by
    refine List.forall_mem_cons.mpr ⟨fun v hv => ?_, h.running⟩
    rw [hrunning] at hv
    cases hv
  rooted := ⟨hroot, h.rooted⟩

/-- The innermost iterations end. -/
theorem Sound.drop (n : Nat) : Sound { s with frames := s.frames.drop n } where
  reads := h.reads
  live f hf := h.live f (List.mem_of_mem_drop hf)
  running f hf := h.running f (List.mem_of_mem_drop hf)
  rooted := h.rooted.drop n

theorem Sound.openHandle : Sound { s with handles := s.handles ++ [true] } where
  reads := h.reads
  live f hf := by
    have hlive := h.live f hf
    have hlt : f.list < s.handles.length := by
      by_contra hge
      rw [State.live, List.getElem?_eq_none (Nat.le_of_not_lt hge)] at hlive
      cases hlive
    show ((s.handles ++ [true])[f.list]?).getD false = true
    rw [List.getElem?_append_left hlt]
    exact hlive
  running := h.running
  rooted := h.rooted

/-- A handle whose list nobody walks is closed. -/
theorem Sound.closeHandle {k : Nat} (hk : ∀ f ∈ s.frames, f.list ≠ k) :
    Sound { s with handles := s.handles.set k false } where
  reads := h.reads
  live f hf := by
    show ((s.handles.set k false)[f.list]?).getD false = true
    rw [List.getElem?_set_ne (Ne.symm (hk f hf))]
    exact h.live f hf
  running := h.running
  rooted := h.rooted

/-- Whether a callback runs does not matter for the list of the innermost iteration. -/
theorem Sound.live_running {f : Frame} {frames : List Frame} (hf : s.frames = f :: frames)
    (running : Option Nat) :
    ∀ g ∈ { f with running := running } :: frames, s.live g.list = true := by
  have hlive := h.live
  rw [hf] at hlive
  obtain ⟨hfirst, hrest⟩ := List.forall_mem_cons.mp hlive
  exact List.forall_mem_cons.mpr ⟨hfirst, hrest⟩

/-- The innermost iteration gives its next node to the callback. -/
theorem Sound.callback {f : Frame} {frames : List Frame} (hf : s.frames = f :: frames) :
    Sound { s with
      addrs := s.addrs ++ [f.list]
      frames := { f with running := some s.addrs.length } :: frames } where
  reads := h.reads
  live := h.live_running hf _
  running := by
    have hrunning := h.running
    rw [hf] at hrunning
    refine List.forall_mem_cons.mpr ⟨fun v hv => ?_, fun g hg v hv => ?_⟩
    · obtain rfl := Option.some.inj hv
      exact List.getElem?_concat_length
    · have hold := hrunning g (List.mem_cons_of_mem _ hg) v hv
      rw [List.getElem?_append_left (List.getElem?_eq_some_iff.mp hold).1]
      exact hold
  rooted := by
    have hrooted := h.rooted
    rw [hf] at hrooted
    exact hrooted

theorem Sound.callbackReturns {f : Frame} {frames : List Frame} (hf : s.frames = f :: frames) :
    Sound { s with frames := { f with running := none } :: frames } where
  reads := h.reads
  live := h.live_running hf _
  running := by
    have hrunning := h.running
    rw [hf] at hrunning
    exact List.forall_mem_cons.mpr ⟨(fun v hv => nomatch hv),
      fun g hg => hrunning g (List.mem_cons_of_mem _ hg)⟩
  rooted := by
    have hrooted := h.rooted
    rw [hf] at hrooted
    exact hrooted

/-- Every step within the rules keeps the invariant. -/
theorem Sound.next (e : Event) (hscoped : Scoped s e) (he : Enabled s e) :
    Sound (next s e) := by
  cases e with
  | open_ => exact h.openHandle
  | foreach_iface k => exact h.push he.2 rfl (Or.inl rfl)
  | foreach_ifaddr k v =>
    obtain ⟨f, hf, hlist⟩ := h.listOf hscoped
    -- the handle of the list is on the stack of an iteration around this one
    refine (h.method hscoped).push ?_ rfl (Or.inr ?_)
    · show s.live (s.listOf v) = true
      rw [hlist]
      exact h.live f hf
    · obtain ⟨g, hg, hhandle⟩ := h.rooted.exists_handle f hf
      exact ⟨g, hg, hhandle.trans hlist.symm⟩
  | callback =>
    cases hframes : s.frames with
    | nil => simpa only [Ifaddrs.next, hframes] using h
    | cons f frames =>
      have hlive := h.live f (by rw [hframes]; exact List.mem_cons_self ..)
      have hcallback := (h.read hlive).callback hframes
      simp only [Ifaddrs.next, hframes]
      exact hcallback
  | return_ =>
    cases hframes : s.frames with
    | nil => simpa only [Ifaddrs.next, hframes] using h
    | cons f frames => simpa only [Ifaddrs.next, hframes] using h.callbackReturns hframes
  | finish =>
    cases hframes : s.frames with
    | nil => simpa only [Ifaddrs.next, hframes] using h
    | cons f frames =>
      have hlive := h.live f (by rw [hframes]; exact List.mem_cons_self ..)
      have hdrop := (h.read hlive).drop 1
      simpa only [Ifaddrs.next, hframes, State.read, List.drop_one, List.tail_cons] using hdrop
  | raise n => exact h.drop n
  | method v => exact h.method hscoped
  | addr_info k v => exact h.method hscoped
  | close k => exact h.closeHandle hscoped
  | gc k =>
    refine h.closeHandle (fun f hf hlist => ?_)
    -- an iteration over the list would keep the handle from being collected
    obtain ⟨g, hg, hhandle⟩ := h.rooted.exists_handle f hf
    exact he.2 g hg (hhandle.trans hlist)

end Steps

theorem sound_init : Sound system.init where
  reads _ hr := nomatch hr
  live _ hf := nomatch hf
  running _ hf := nomatch hf
  rooted := trivial

/-! ## Every run -/

/-- **No read after free**: in every run in which values are used only while their
callbacks run, and no handle is closed while its list is walked, everything that is read
through an `ifaddrs` pointer is still there; the collector may run at any time. -/
theorem reads_live (s : State) (h : system.ReachableBy Scoped s) :
    ∀ r ∈ s.reads, r.live = true := by
  have hsound : Sound s :=
    h.invariant sound_init (fun _ e hs hscoped he => hs.next e hscoped he)
  exact hsound.reads

/-- Inside a callback, another handle walks the addresses of the interface. -/
def nestedEvents : List Event :=
  [.open_, .open_, .foreach_iface 0, .callback, .method 0, .foreach_ifaddr 1 0, .callback,
    .addr_info 0 1, .return_, .finish, .return_, .finish, .close 0, .gc 1]

theorem reads_live_nested : ∃ s, system.run nestedEvents = some s ∧ s.reads.length = 7 ∧
    ∀ r ∈ s.reads, r.live = true := by
  have hrun : ((system.restrict Scoped (fun _ _ => inferInstance)).run nestedEvents).map
      (fun s => s.reads.length) = some 7 := by decide
  obtain ⟨s, hs, hreads⟩ := Option.map_eq_some_iff.mp hrun
  exact ⟨s, System.run_of_restrict hs, hreads, reads_live s (System.run_restrict hs)⟩

/-- A value that was stored is used after its handle is closed. -/
theorem not_reads_live : ¬ ∀ s, system.Reachable s → ∀ r ∈ s.reads, r.live = true := by
  intro h
  have hrun : (system.run [.open_, .foreach_iface 0, .callback, .return_, .finish, .close 0,
      .method 0]).map (fun s => s.reads.map Read.live) = some [true, true, false] := by decide
  obtain ⟨s, hs, hreads⟩ := Option.map_eq_some_iff.mp hrun
  have hfalse : false ∈ s.reads.map Read.live := by
    rw [hreads]
    decide
  obtain ⟨r, hr, hlive⟩ := List.mem_map.mp hfalse
  rw [h s (System.run_reachable hs) r hr] at hlive
  cases hlive

end Ifaddrs
end FluaLibs
