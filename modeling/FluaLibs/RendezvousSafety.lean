import FluaLibs.Rendezvous

/-! # The discipline of the rendezvous object

As long as no cancellation is acted on inside the wait and no wait returns 0 to a
thread that is still registered, the object is in order (`WellFormed`): the mutex
belongs to the thread in the critical section, the registered thread is blocked
with its Lua state open and as it left it, and no Lua state is used that is closed
or running.  A cancellation inside the wait breaks this for good: the thread ends
with the mutex locked and its closed state registered.
-/
namespace FluaLibs
namespace Rendezvous
variable {R : Runtime}

namespace State
variable (s : State R) (t : Nat) (th : Thread R)

@[simp] theorem setThread_threads_self : (s.setThread t th).threads t = th := by
  simp [setThread]

@[simp] theorem setThread_threads_of_ne {t' : Nat} (h : t' ≠ t) :
    (s.setThread t th).threads t' = s.threads t' := by
  simp [setThread, h]

@[simp] theorem setThread_mutex : (s.setThread t th).mutex = s.mutex := rfl
@[simp] theorem setThread_waiter : (s.setThread t th).waiter = s.waiter := rfl
@[simp] theorem setThread_sleepers : (s.setThread t th).sleepers = s.sleepers := rfl
@[simp] theorem setThread_calls : (s.setThread t th).calls = s.calls := rfl
@[simp] theorem setThread_meetings : (s.setThread t th).meetings = s.meetings := rfl
@[simp] theorem setThread_fault : (s.setThread t th).fault = s.fault := rfl

end State

theorem narg_frame (a : Arguments R) (e : Entry) : e.narg (a.frame e) = a.values.length := by
  simp only [Entry.narg, LuaState.gettop, Arguments.frame, List.length_append, e.header_length]
  omega

/-- `c` is the call that thread `t` is in. -/
structure Current (s : State R) (t : Nat) (c : Call R) : Prop where
  at_index : s.calls[(s.threads t).call]? = some c
  thread : c.thread = t
  entry : c.entry = (s.threads t).entry
  ongoing : c.outcome = none

namespace Pc

/-- In a call that has not been cancelled. -/
def isInside : Pc → Bool
  | outside | cancelled | cleaning | terminated => false
  | _ => true

/-- In a call, before the test of `waiter`. -/
def isEntering : Pc → Bool
  | locking | locked => true
  | _ => false

theorem isInside_of_isEntering {pc : Pc} (h : pc.isEntering = true) : pc.isInside = true := by
  cases pc <;> first | rfl | cases h

theorem not_isCritical_of_isBlocked {pc : Pc} (h : pc.isBlocked = true) :
    pc.isCritical = false := by
  cases pc <;> first | rfl | cases h

theorem isInside_of_isCritical {pc : Pc} (h : pc.isCritical = true) : pc.isInside = true := by
  cases pc <;> first | rfl | cases h

theorem isCritical_of_isSignalling {pc : Pc} (h : pc.isSignalling = true) :
    pc.isCritical = true := by
  cases pc <;> first | rfl | cases h

theorem isBlocked_of_isCritical {pc : Pc} (h : pc.isCritical = true) : pc.isBlocked = false := by
  cases pc <;> first | rfl | cases h

end Pc

/-- What holds of each thread. -/
structure ThreadOk (s : State R) (t : Nat) : Prop where
  current : (s.threads t).pc.isInside = true → ∃ c, Current s t c ∧
    ((s.threads t).pc.isEntering = true → (s.threads t).lua = c.args.frame c.entry) ∧
    (s.waiter = some t → (s.threads t).lua = c.args.parked c.entry)
  registered : s.waiter = some t → (s.threads t).pc.isBlocked = true
  owner : s.mutex = some t ↔ (s.threads t).pc.isCritical = true
  asleep : t ∈ s.sleepers → (s.threads t).pc = .waiting
  cleared : (s.threads t).pc.isSignalling = true → s.waiter = none
  not_cancelled : (s.threads t).pc ≠ .cancelled
  closed : (s.threads t).isOpen = false → (s.threads t).pc = .terminated

/-- The object is in order. -/
structure WellFormed (s : State R) : Prop where
  threads : ∀ t, ThreadOk s t
  fault : s.fault = false

/-- No cancellation is acted on inside the wait, and no wait returns 0 while the
thread is still registered. -/
def NoCancelInWait (s : State R) : Event R → Prop
  | .act t => (s.threads t).pc ≠ .waiting
  | .relock t => (s.threads t).pc = .woken → s.waiter ≠ some t
  | _ => True

theorem Current.congr {s s' : State R} {t : Nat} {c : Call R} (h : Current s t c)
    (hcalls : s'.calls = s.calls) (hcall : (s'.threads t).call = (s.threads t).call)
    (hentry : (s'.threads t).entry = (s.threads t).entry) : Current s' t c where
  at_index := by rw [hcalls, hcall, h.at_index]
  thread := h.thread
  entry := by rw [hentry, h.entry]
  ongoing := h.ongoing

/-- The owner of the mutex is unique. -/
theorem WellFormed.critical_unique {s : State R} (h : WellFormed s) {t t' : Nat}
    (ht : (s.threads t).pc.isCritical = true) (ht' : (s.threads t').pc.isCritical = true) :
    t = t' :=
  Option.some.inj (((h.threads t).owner.mpr ht).symm.trans ((h.threads t').owner.mpr ht'))

/-- What happens to the threads in `ts` leaves the others in order. -/
theorem WellFormed.update {s s' : State R} (h : WellFormed s) (ts : List Nat)
    (hother : ∀ t, t ∉ ts → s'.threads t = s.threads t)
    (hcurrent : ∀ t c, t ∉ ts → Current s t c → Current s' t c)
    (hwaiter : s'.waiter = none ∨ s'.waiter = s.waiter ∨
      ∃ t ∈ ts, s'.waiter = some t ∧ (s.threads t).pc.isCritical = true)
    (hmutex : ∀ t, t ∉ ts → (s'.mutex = some t ↔ s.mutex = some t))
    (hsleepers : ∀ t, t ∉ ts → t ∈ s'.sleepers → t ∈ s.sleepers)
    (hfault : s'.fault = s.fault) (hself : ∀ t ∈ ts, ThreadOk s' t) : WellFormed s' where
  threads t := by
    by_cases ht : t ∈ ts
    · exact hself t ht
    · have hold := h.threads t
      have hth := hother t ht
      have hreg : s'.waiter = some t → s.waiter = some t := by
        intro hw
        rcases hwaiter with hnone | hsame | ⟨u, hu, hnew, _⟩
        · rw [hnone] at hw
          cases hw
        · rw [← hsame, hw]
        · rw [hnew] at hw
          exact absurd (Option.some.inj hw ▸ hu) ht
      constructor
      · intro hin
        rw [hth] at hin ⊢
        obtain ⟨c, hc, hframe, hparked⟩ := hold.current hin
        exact ⟨c, hcurrent t c ht hc, hframe, fun hw => hparked (hreg hw)⟩
      · intro hw
        rw [hth]
        exact hold.registered (hreg hw)
      · rw [hth, hmutex t ht]
        exact hold.owner
      · intro hs
        rw [hth]
        exact hold.asleep (hsleepers t ht hs)
      · intro hpc
        rw [hth] at hpc
        rcases hwaiter with hnone | hsame | ⟨u, hu, _, hcritical⟩
        · exact hnone
        · rw [hsame, hold.cleared hpc]
        · have hcritical' := Pc.isCritical_of_isSignalling hpc
          exact absurd (h.critical_unique hcritical hcritical' ▸ hu) ht
      · rw [hth]
        exact hold.not_cancelled
      · rw [hth]
        exact hold.closed
  fault := hfault.trans h.fault

/-- The same for a step of one thread that makes and ends no call. -/
theorem WellFormed.update_one {s s' : State R} (h : WellFormed s) (t : Nat)
    (hother : ∀ t' ≠ t, s'.threads t' = s.threads t') (hcalls : s'.calls = s.calls)
    (hwaiter : s'.waiter = none ∨ s'.waiter = s.waiter ∨
      (s'.waiter = some t ∧ (s.threads t).pc.isCritical = true))
    (hmutex : ∀ t' ≠ t, (s'.mutex = some t' ↔ s.mutex = some t'))
    (hsleepers : ∀ t' ≠ t, t' ∈ s'.sleepers → t' ∈ s.sleepers)
    (hfault : s'.fault = s.fault) (hself : ThreadOk s' t) : WellFormed s' := by
  refine h.update [t] ?_ ?_ (by simpa using hwaiter) ?_ ?_ hfault ?_
  · intro t' ht'
    exact hother t' (by simpa using ht')
  · intro t' c ht' hc
    have hth := hother t' (by simpa using ht')
    exact hc.congr hcalls (by rw [hth]) (by rw [hth])
  · intro t' ht'
    exact hmutex t' (by simpa using ht')
  · intro t' ht'
    exact hsleepers t' (by simpa using ht')
  · intro t' ht'
    obtain rfl := List.mem_singleton.mp ht'
    exact hself

/-- Different threads are in different calls. -/
theorem Current.index_ne {s : State R} {t t' : Nat} {c d : Call R} (hc : Current s t c)
    (hd : Current s t' d) (hne : t' ≠ t) : (s.threads t').call ≠ (s.threads t).call := by
  intro heq
  have hcd := hd.at_index
  rw [heq, hc.at_index] at hcd
  have hsame : c = d := Option.some.inj hcd
  exact hne (hd.thread.symm.trans (hsame ▸ hc.thread))

/-- A call that ends leaves the other threads' calls as they are. -/
theorem Current.complete {s : State R} {t t' : Nat} {c d : Call R} (hc : Current s t' c)
    (o : Outcome R) (hne : t' ≠ t) (hd : Current s t d) : Current (s.complete t o) t' c where
  at_index := by
    have hindex : (s.threads t).call ≠ (s.threads t').call := (hd.index_ne hc hne).symm
    simp [State.complete, State.setPc, hne, hindex, hc.at_index]
  thread := hc.thread
  entry := by simp [State.complete, State.setPc, hne, hc.entry]
  ongoing := hc.ongoing

section Steps
variable {s : State R} (h : WellFormed s) {t : Nat}
include h

theorem WellFormed.not_registered (hpc : (s.threads t).pc.isBlocked = false) :
    s.waiter ≠ some t := by
  intro hw
  rw [(h.threads t).registered hw] at hpc
  cases hpc

theorem WellFormed.not_owner (hpc : (s.threads t).pc.isCritical = false) : s.mutex ≠ some t := by
  intro hm
  rw [(h.threads t).owner.mp hm] at hpc
  cases hpc

theorem WellFormed.registered_inside (hw : s.waiter = some t) :
    (s.threads t).pc.isInside = true := by
  have hblocked := (h.threads t).registered hw
  have hlive := (h.threads t).not_cancelled
  cases hcase : (s.threads t).pc <;> simp_all [Pc.isBlocked, Pc.isInside]

theorem WellFormed.not_asleep (hpc : (s.threads t).pc ≠ .waiting) : t ∉ s.sleepers :=
  fun hs => hpc ((h.threads t).asleep hs)

/-- A new call is the current one of its thread, and no other thread's changes. -/
theorem WellFormed.call (e : Entry) (args : Arguments R) (hpc : (s.threads t).pc = .outside)
    (hopen : (s.threads t).isOpen = true) : WellFormed (next s (.call t e args)) := by
  have hw := h.not_registered (t := t) (by rw [hpc]; rfl)
  have hm := h.not_owner (t := t) (by rw [hpc]; rfl)
  have hs := h.not_asleep (t := t) (by rw [hpc]; simp)
  refine h.update [t] ?_ ?_ (Or.inr (Or.inl rfl)) (fun _ _ => Iff.rfl) (fun _ _ hs => hs) rfl ?_
  · intro t' ht'
    simp only [List.mem_singleton] at ht'
    simp [next, ht']
  · intro t' c ht' hc
    simp only [List.mem_singleton] at ht'
    have hlt := (List.getElem?_eq_some_iff.mp hc.at_index).1
    refine ⟨?_, hc.thread, ?_, hc.ongoing⟩
    · simp [next, ht', List.getElem?_append_left hlt, hc.at_index]
    · simp [next, ht', hc.entry]
  · intro t' ht'
    obtain rfl := List.mem_singleton.mp ht'
    have hc : Current (next s (.call t' e args)) t' ⟨t', e, args, none⟩ :=
      ⟨by simp [next], rfl, by simp [next], rfl⟩
    constructor
    · intro _
      exact ⟨_, hc, fun _ => by simp [next], fun hw' => absurd hw' hw⟩
    · intro hw'
      exact absurd hw' hw
    · simp [next, hm, Pc.isCritical]
    · intro hs'
      exact absurd hs' hs
    · simp [next, Pc.isSignalling]
    · simp [next]
    · simp [next, hopen]

theorem WellFormed.lock (hpc : (s.threads t).pc = .locking) (hfree : s.mutex = none) :
    WellFormed (next s (.lock t)) := by
  have hw := h.not_registered (t := t) (by rw [hpc]; rfl)
  have hs := h.not_asleep (t := t) (by rw [hpc]; simp)
  have hold := h.threads t
  obtain ⟨c, hc, hframe, _⟩ := hold.current (by rw [hpc]; rfl)
  refine h.update_one t ?_ rfl (Or.inr (Or.inl rfl)) ?_ (fun _ _ hs => hs) rfl ?_
  · intro t' ht'
    simp [next, State.setPc, ht']
  · intro t' ht'
    simp [next, hfree, ht'.symm]
  · constructor
    · intro _
      refine ⟨c, hc.congr rfl (by simp [next, State.setPc]) (by simp [next, State.setPc]), ?_, ?_⟩
      · intro _
        simpa [next, State.setPc] using hframe (by rw [hpc]; rfl)
      · intro hw'
        exact absurd hw' hw
    · intro hw'
      exact absurd hw' hw
    · simp [next, State.setPc, Pc.isCritical]
    · intro hs'
      exact absurd hs' hs
    · simp [next, State.setPc, Pc.isSignalling]
    · simp [next, State.setPc]
    · intro hclosed
      have := hold.closed (by simpa [next, State.setPc] using hclosed)
      rw [hpc] at this
      cases this

/-- The end of a call, whether or not it held the mutex. -/
theorem WellFormed.complete (o : Outcome R) {m : Option Nat}
    (hpc : (s.threads t).pc.isInside = true) (hnotBlocked : (s.threads t).pc.isBlocked = false)
    (hm : m ≠ some t) (hmutex : ∀ t' ≠ t, (m = some t' ↔ s.mutex = some t')) :
    WellFormed { s.complete t o with mutex := m } := by
  have hw := h.not_registered (t := t) hnotBlocked
  have hs : t ∉ s.sleepers := by
    apply h.not_asleep
    intro hwait
    rw [hwait] at hnotBlocked
    cases hnotBlocked
  obtain ⟨d, hd, _⟩ := (h.threads t).current hpc
  refine h.update [t] ?_ ?_ (Or.inr (Or.inl rfl)) ?_ (fun _ _ hs => hs) rfl ?_
  · intro t' ht'
    simp only [List.mem_singleton] at ht'
    simp [State.complete, State.setPc, ht']
  · intro t' c ht' hc
    have hdone := hc.complete o (by simpa using ht') hd
    exact ⟨hdone.at_index, hdone.thread, hdone.entry, hdone.ongoing⟩
  · intro t' ht'
    exact hmutex t' (by simpa using ht')
  · intro t' ht'
    obtain rfl := List.mem_singleton.mp ht'
    constructor
    · intro hin
      simp [State.complete, State.setPc, Pc.isInside] at hin
    · intro hw'
      exact absurd hw' hw
    · simp [State.complete, State.setPc, hm, Pc.isCritical]
    · intro hs'
      exact absurd hs' hs
    · simp [State.complete, State.setPc, Pc.isSignalling]
    · simp [State.complete, State.setPc]
    · intro hclosed
      have := (h.threads t').closed (by simpa [State.complete, State.setPc] using hclosed)
      rw [this] at hpc
      cases hpc

theorem WellFormed.park (hpc : (s.threads t).pc = .locked) :
    WellFormed (next s (.park t)) := by
  have hold := h.threads t
  have hm : s.mutex = some t := hold.owner.mpr (by rw [hpc]; rfl)
  obtain ⟨c, hc, hframe, _⟩ := hold.current (by rw [hpc]; rfl)
  refine h.update_one t ?_ rfl (Or.inr (Or.inr ⟨rfl, by rw [hpc]; rfl⟩)) ?_ ?_ rfl ?_
  · intro t' ht'
    simp [next, ht']
  · intro t' ht'
    simp [next, hm, ht'.symm]
  · intro t' ht' hs
    simpa [next, ht'] using hs
  · constructor
    · intro _
      refine ⟨c, hc.congr rfl (by simp [next]) (by simp [next]), ?_, ?_⟩
      · intro hentering
        simp [next, Pc.isEntering] at hentering
      · intro _
        have hlua := hframe (by rw [hpc]; rfl)
        simp [next, ← hc.entry, hlua, narg_frame, Arguments.parked]
    · intro _
      simp [next, Pc.isBlocked]
    · simp [next, Pc.isCritical]
    · intro _
      simp [next]
    · simp [next, Pc.isSignalling]
    · simp [next]
    · intro hclosed
      have := hold.closed (by simpa [next] using hclosed)
      rw [hpc] at this
      cases this

/-- A thread in the critical section has come to the unlock. -/
theorem WellFormed.setUnlocking (n : Int) (L : LuaState R)
    (hpc : (s.threads t).pc.isCritical = true) :
    WellFormed (s.setThread t { s.threads t with pc := .unlocking n, lua := L }) := by
  have hold := h.threads t
  have hm : s.mutex = some t := hold.owner.mpr hpc
  have hw := h.not_registered (Pc.isBlocked_of_isCritical hpc)
  obtain ⟨c, hc, _⟩ := hold.current (Pc.isInside_of_isCritical hpc)
  refine h.update_one t ?_ rfl (Or.inr (Or.inl rfl)) (fun _ _ => Iff.rfl) (fun _ _ hs => hs) rfl ?_
  · intro t' ht'
    simp [ht']
  · constructor
    · intro _
      refine ⟨c, hc.congr rfl (by simp) (by simp), ?_, fun hw' => absurd hw' hw⟩
      intro hentering
      simp [Pc.isEntering] at hentering
    · intro hw'
      exact absurd hw' hw
    · simp [hm, Pc.isCritical]
    · intro hs
      have := hold.asleep hs
      rw [this] at hpc
      cases hpc
    · simp [Pc.isSignalling]
    · simp
    · intro hclosed
      have := hold.closed (by simpa using hclosed)
      rw [this] at hpc
      cases hpc

/-- A thread that is not in a call does something else, or ends. -/
theorem WellFormed.setOutside (th : Thread R) (hpc : (s.threads t).pc.isInside = false)
    (hpc' : th.pc.isInside = false) (hnot : th.pc ≠ .cancelled)
    (hclosed : th.isOpen = false → th.pc = .terminated) : WellFormed (s.setThread t th) := by
  have hold := h.threads t
  have hw : s.waiter ≠ some t := by
    intro hw
    rw [h.registered_inside hw] at hpc
    cases hpc
  have hm : s.mutex ≠ some t := by
    intro hm
    rw [Pc.isInside_of_isCritical (hold.owner.mp hm)] at hpc
    cases hpc
  have hs : t ∉ s.sleepers := by
    apply h.not_asleep
    intro hwait
    rw [hwait] at hpc
    cases hpc
  have hnotCritical : th.pc.isCritical = false := by
    cases hcase : th.pc.isCritical with
    | false => rfl
    | true =>
      rw [Pc.isInside_of_isCritical hcase] at hpc'
      cases hpc'
  refine h.update_one t ?_ rfl (Or.inr (Or.inl rfl)) (fun _ _ => Iff.rfl) (fun _ _ hs => hs) rfl ?_
  · intro t' ht'
    simp [ht']
  · constructor
    · intro hin
      simp [hpc'] at hin
    · intro hw'
      exact absurd hw' hw
    · simp [hm, hnotCritical]
    · intro hs'
      exact absurd hs' hs
    · intro hsignalling
      rw [State.setThread_threads_self] at hsignalling
      rw [Pc.isCritical_of_isSignalling hsignalling] at hnotCritical
      cases hnotCritical
    · simpa using hnot
    · simpa using hclosed

/-- A request for cancellation changes nothing else. -/
theorem WellFormed.cancel : WellFormed (next s (.cancel t)) := by
  have hold := h.threads t
  refine h.update_one t ?_ rfl (Or.inr (Or.inl rfl)) (fun _ _ => Iff.rfl) (fun _ _ hs => hs) rfl ?_
  · intro t' ht'
    simp [next, ht']
  · constructor
    · intro hin
      obtain ⟨c, hc, hframe, hparked⟩ := hold.current (by simpa [next] using hin)
      refine ⟨c, hc.congr rfl (by simp [next]) (by simp [next]), ?_, ?_⟩
      · simpa [next] using hframe
      · simpa [next] using hparked
    · simpa [next] using hold.registered
    · simpa [next] using hold.owner
    · simpa [next] using hold.asleep
    · simpa [next] using hold.cleared
    · simpa [next] using hold.not_cancelled
    · simpa [next] using hold.closed

/-- A wait comes to its end, with a signal or without, or at the deadline. -/
theorem WellFormed.leaveWait {pc : Pc} (hs : t ∈ s.sleepers) (hpc' : pc = .woken ∨ pc = .expired) :
    WellFormed { s.setPc t pc with sleepers := s.sleepers.filter (· ≠ t) } := by
  have hold := h.threads t
  have hpc := hold.asleep hs
  obtain ⟨c, hc, _, hparked⟩ := hold.current (by rw [hpc]; rfl)
  have hm : s.mutex ≠ some t := h.not_owner (by rw [hpc]; rfl)
  refine h.update_one t ?_ rfl (Or.inr (Or.inl rfl)) (fun _ _ => Iff.rfl) ?_ rfl ?_
  · intro t' ht'
    simp [State.setPc, ht']
  · intro t' _ hs'
    exact List.mem_of_mem_filter hs'
  · constructor
    · intro _
      refine ⟨c, hc.congr rfl (by simp [State.setPc]) (by simp [State.setPc]), ?_, ?_⟩
      · intro hentering
        rcases hpc' with rfl | rfl <;> simp [State.setPc, Pc.isEntering] at hentering
      · simpa [State.setPc] using hparked
    · intro _
      rcases hpc' with rfl | rfl <;> simp [State.setPc, Pc.isBlocked]
    · rcases hpc' with rfl | rfl <;> simp [State.setPc, hm, Pc.isCritical]
    · intro hs'
      simp at hs'
    · rcases hpc' with rfl | rfl <;> simp [State.setPc, Pc.isSignalling]
    · rcases hpc' with rfl | rfl <;> simp [State.setPc]
    · intro hclosed
      have := hold.closed (by simpa [State.setPc] using hclosed)
      rw [hpc] at this
      cases this

/-- The thread has the mutex back and is not registered any more. -/
theorem WellFormed.retake {n : Int} {L : LuaState R} {W : Option Nat}
    (hpc : (s.threads t).pc.isBlocked = true) (hfree : s.mutex = none) (hW : W ≠ some t)
    (hW' : W = none ∨ W = s.waiter) (hs : t ∉ s.sleepers) :
    WellFormed { s.setThread t { s.threads t with pc := .unlocking n, lua := L } with
      mutex := some t, waiter := W } := by
  have hold := h.threads t
  have hin : (s.threads t).pc.isInside = true := by
    have hlive := hold.not_cancelled
    cases hcase : (s.threads t).pc <;> simp_all [Pc.isBlocked, Pc.isInside]
  obtain ⟨c, hc, _⟩ := hold.current hin
  refine h.update_one t ?_ rfl (hW'.imp_right Or.inl) ?_ (fun _ _ hs => hs) rfl ?_
  · intro t' ht'
    simp [ht']
  · intro t' ht'
    simp [hfree, ht'.symm]
  · constructor
    · intro _
      refine ⟨c, hc.congr rfl (by simp) (by simp), ?_, fun hw => absurd hw hW⟩
      intro hentering
      simp [Pc.isEntering] at hentering
    · intro hw
      exact absurd hw hW
    · simp [Pc.isCritical]
    · intro hs'
      exact absurd hs' hs
    · simp [Pc.isSignalling]
    · simp
    · intro hclosed
      have := hold.closed (by simpa using hclosed)
      rw [this] at hpc
      cases hpc

/-- **What a call that finds a waiter does**: the registered thread is another one, in
a call that is parked, and the two calls settle with each other. -/
theorem WellFormed.serve_spec {w : Nat} (hpc : (s.threads t).pc = .locked)
    (hw : s.waiter = some w) :
    ∃ c d nres L' m l', Current s t c ∧ Current s w d ∧ w ≠ t ∧
      Settled c.args d.args c.entry nres L' ∧ Settled d.args c.args d.entry m l' ∧
      next s (.serve t) =
        { (s.setThread w { s.threads w with lua := l'.push (.integer m) }).setThread t
            { s.threads t with pc := .signalling nres, lua := L' } with
          waiter := none
          meetings := s.meetings ++ [((s.threads w).call, (s.threads t).call)] } := by
  have hblocked := (h.threads w).registered hw
  have hopen : (s.threads w).isOpen = true := by
    cases hcase : (s.threads w).isOpen with
    | true => rfl
    | false =>
      rw [(h.threads w).closed hcase] at hblocked
      cases hblocked
  have hne : w ≠ t := by
    rintro rfl
    rw [hpc] at hblocked
    cases hblocked
  obtain ⟨c, hc, hframe, _⟩ := (h.threads t).current (by rw [hpc]; rfl)
  obtain ⟨d, hd, _, hparked⟩ := (h.threads w).current (h.registered_inside hw)
  have hL := hframe (by rw [hpc]; rfl)
  have hl := hparked hw
  obtain ⟨nres, L', m, l', hrun, hmine, htheirs⟩ :=
    exchange_spec c.args d.args c.entry d.entry
  refine ⟨c, d, nres, L', m, l', hc, hd, hne, hmine, htheirs, ?_⟩
  have hnarg : (s.threads t).entry.narg (s.threads t).lua = c.args.values.length := by
    rw [hL, ← hc.entry, narg_frame]
  have hrun' : exchange (s.threads t).lua (s.threads w).lua ((s.threads t).entry.skip + 1)
      ((s.threads t).entry.narg (s.threads t).lua) =
        some (nres, L', l'.push (.integer m)) := by
    rw [hnarg, hL, hl, ← hc.entry]
    exact hrun
  simp only [next, State.serve, hw, hblocked, hopen, and_self, ite_true, hrun']

theorem WellFormed.serve {w : Nat} (hpc : (s.threads t).pc = .locked) (hw : s.waiter = some w) :
    WellFormed (next s (.serve t)) := by
  obtain ⟨c, d, nres, L', m, l', hc, hd, hne, _, _, heq⟩ := h.serve_spec hpc hw
  have hm : s.mutex = some t := (h.threads t).owner.mpr (by rw [hpc]; rfl)
  have hold := h.threads w
  have hblocked := hold.registered hw
  have hmw : s.mutex ≠ some w := h.not_owner (Pc.not_isCritical_of_isBlocked hblocked)
  -- the exchange writes to the records of the two threads only
  rw [heq]
  refine h.update [t, w] ?_ ?_ (Or.inl rfl) (fun _ _ => Iff.rfl) (fun _ _ hs => hs) rfl ?_
  · intro t' ht'
    simp only [List.mem_cons, List.not_mem_nil, or_false, not_or] at ht'
    simp [ht'.1, ht'.2]
  · intro t' c' ht' hc'
    simp only [List.mem_cons, List.not_mem_nil, or_false, not_or] at ht'
    exact hc'.congr rfl (by simp [ht'.1, ht'.2]) (by simp [ht'.1, ht'.2])
  · intro t' ht'
    simp only [List.mem_cons, List.not_mem_nil, or_false] at ht'
    rcases ht' with rfl | rfl
    · constructor
      · intro _
        refine ⟨c, hc.congr rfl (by simp) (by simp), ?_, fun hw' => by cases hw'⟩
        intro hentering
        simp [Pc.isEntering] at hentering
      · intro hw'
        cases hw'
      · simp [hm, Pc.isCritical]
      · intro hs
        have := (h.threads t').asleep hs
        rw [hpc] at this
        cases this
      · intro _
        rfl
      · simp
      · intro hclosed
        have := (h.threads t').closed (by simpa using hclosed)
        rw [hpc] at this
        cases this
    · constructor
      · intro _
        refine ⟨d, hd.congr rfl (by simp [hne]) (by simp [hne]), ?_, fun hw' => by cases hw'⟩
        intro hentering
        simp only [State.setThread_threads_of_ne _ _ _ hne, State.setThread_threads_self]
          at hentering
        cases hcase : (s.threads t').pc <;> simp_all [Pc.isEntering, Pc.isBlocked]
      · intro hw'
        cases hw'
      · simpa [hne] using hold.owner
      · simpa [hne] using hold.asleep
      · intro _
        rfl
      · simpa [hne] using hold.not_cancelled
      · simpa [hne] using hold.closed

theorem WellFormed.signal (woken : Option Nat) (hpc : (s.threads t).pc.isSignalling = true)
    (hwoken : ∀ w, woken = some w → w ∈ s.sleepers) :
    WellFormed (next s (.signal t woken)) := by
  cases hcase : (s.threads t).pc with
  | signalling n =>
    have hunlock : WellFormed (s.setPc t (.unlocking n)) :=
      h.setUnlocking n _ (by rw [hcase]; rfl)
    cases woken with
    | none =>
      simp only [next, hcase]
      exact hunlock
    | some w =>
      simp only [next, hcase]
      exact hunlock.leaveWait (hwoken w rfl) (Or.inl rfl)
  | _ =>
    rw [hcase] at hpc
    cases hpc

end Steps

/-- **The object stays in order** in every step without a cancellation inside the wait
and without a wait that returns to a registered thread. -/
theorem WellFormed.next {s : State R} (h : WellFormed s) (e : Event R)
    (hok : NoCancelInWait s e) (he : Enabled s e) : WellFormed (next s e) := by
  cases e with
  | call t e args => exact h.call e args he.1 he.2
  | lock t => exact h.lock he.1 he.2
  | lockTimeout t =>
    obtain ⟨hpc, _⟩ := he
    exact h.complete _ (by rw [hpc]; rfl) (by rw [hpc]; rfl) (h.not_owner (by rw [hpc]; rfl))
      (fun _ _ => Iff.rfl)
  | lockError t msg =>
    have hpc : (s.threads t).pc = .locking := he
    exact h.complete _ (by rw [hpc]; rfl) (by rw [hpc]; rfl) (h.not_owner (by rw [hpc]; rfl))
      (fun _ _ => Iff.rfl)
  | park t => exact h.park he.1
  | parkError t msg => exact h.setUnlocking _ _ (by rw [he.1]; rfl)
  | serve t =>
    obtain ⟨w, hw⟩ := Option.ne_none_iff_exists'.mp he.2
    exact h.serve he.1 hw
  | signal t woken =>
    cases woken with
    | none => exact h.signal none he.1 (fun w hw => by cases hw)
    | some w => exact h.signal (some w) he.1 (fun w' hw => Option.some.inj hw ▸ he.2)
  | signalError t msg =>
    have hpc : (s.threads t).pc.isSignalling = true := he
    exact h.setUnlocking _ _ (Pc.isCritical_of_isSignalling hpc)
  | wake t => exact h.leaveWait he (Or.inl rfl)
  | expire t => exact h.leaveWait he.1 (Or.inr rfl)
  | relock t =>
    obtain ⟨hpc, hfree⟩ := he
    cases hcase : (s.threads t).pc with
    | woken =>
      have hs : t ∉ s.sleepers := h.not_asleep (by rw [hcase]; simp)
      have hgoal := h.retake (n := (s.threads t).lua.topInteger) (L := (s.threads t).lua.pop 1)
        (by rw [hcase]; rfl) hfree (hok hcase) (Or.inr rfl) hs
      simp only [Rendezvous.next, State.relock, hcase]
      exact hgoal
    | expired =>
      have hs : t ∉ s.sleepers := h.not_asleep (by rw [hcase]; simp)
      have hgoal := h.retake (n := -2) (L := (s.threads t).lua) (W := none)
        (by rw [hcase]; rfl) hfree (by simp) (Or.inl rfl) hs
      simp only [Rendezvous.next, State.relock, hcase]
      exact hgoal
    | cancelled => exact absurd hcase (h.threads t).not_cancelled
    | _ => simp [hcase] at hpc
  | unlock t =>
    have hpc : (s.threads t).pc.isUnlocking = true := he
    cases hcase : (s.threads t).pc with
    | unlocking n =>
      have hm : s.mutex = some t := (h.threads t).owner.mpr (by rw [hcase]; rfl)
      have hgoal := h.complete ((s.threads t).entry.conclude n (s.threads t).lua) (m := none)
        (by rw [hcase]; rfl) (by rw [hcase]; rfl) (by simp)
        (fun t' ht' => by simp [hm, ht'.symm])
      simp only [Rendezvous.next, hcase]
      exact hgoal
    | _ =>
      rw [hcase] at hpc
      cases hpc
  | cancel t => exact h.cancel
  | act t =>
    have hnot : (s.threads t).pc ≠ .waiting := hok
    have hpc : (s.threads t).pc = .outside := by
      rcases List.mem_cons.mp he.1 with hpc | hpc
      · exact hpc
      · exact absurd (List.mem_singleton.mp hpc) hnot
    have hopen : (s.threads t).isOpen = false → Pc.cleaning = .terminated := by
      intro hclosed
      have := (h.threads t).closed hclosed
      rw [hpc] at this
      cases this
    simp only [Rendezvous.next, hnot, ite_false]
    exact h.setOutside _ (by rw [hpc]; rfl) rfl (by simp) hopen
  | cleanup t =>
    have hpc : (s.threads t).pc = .cleaning := he
    exact h.setOutside _ (by rw [hpc]; rfl) rfl (by simp) (fun _ => rfl)
  | exit t =>
    have hpc : (s.threads t).pc = .outside := he
    exact h.setOutside _ (by rw [hpc]; rfl) rfl (by simp) (fun _ => rfl)
  | join t =>
    have hpc : (s.threads t).pc = .terminated := he.1
    exact h.setOutside _ (by rw [hpc]; rfl) (by rw [hpc]; rfl) (by rw [hpc]; simp)
      (fun _ => hpc)

theorem wellFormed_init : WellFormed (system R).init where
  threads t := by
    constructor
    · intro hin
      cases hin
    · intro hw
      cases hw
    · simp [system, idleThread, Pc.isCritical]
    · intro hs
      cases hs
    · intro _
      rfl
    · simp [system, idleThread]
    · intro hclosed
      cases hclosed
  fault := rfl

theorem reachable_wellFormed {s : State R} (h : (system R).ReachableBy NoCancelInWait s) :
    WellFormed s :=
  h.invariant wellFormed_init (fun _ e hs hok he => hs.next e hok he)

/-- The registered state is that of a thread blocked in the rendezvous, and it is
open; the mutex is not held by a thread that has ended. -/
structure Survives (s : State R) : Prop where
  waiter : ∀ t, s.waiter = some t → (s.threads t).pc.isBlocked = true ∧ (s.threads t).isOpen = true
  mutex : ∀ t, s.mutex = some t → (s.threads t).pc ≠ .terminated

/-- **The rendezvous survives** every run in which no cancellation is acted on inside the
wait and no wait returns 0 to a thread that is still registered. -/
theorem rendezvous_survives (s : State R) (h : (system R).ReachableBy NoCancelInWait s) :
    Survives s where
  waiter t hw := by
    have hok := (reachable_wellFormed h).threads t
    have hblocked := hok.registered hw
    refine ⟨hblocked, ?_⟩
    cases hopen : (s.threads t).isOpen with
    | true => rfl
    | false =>
      rw [hok.closed hopen] at hblocked
      cases hblocked
  mutex t hm := by
    intro hterminated
    have hcritical := ((reachable_wellFormed h).threads t).owner.mp hm
    rw [hterminated] at hcritical
    cases hcritical
/-! ### A cancellation inside the wait -/

/-- A list of one scalar. -/
def Arguments.single (v : Value) (hv : v.isScalar = true) : Arguments R where
  values := [v]
  closures := []
  globals := 0
  inHeap r hr := by
    rw [← List.mem_singleton.mp hr] at hv
    cases hv

def Arguments.integer (i : Int) : Arguments R := .single (.integer i) rfl

/-- Thread 0 waits. -/
def waitEvents : List (Event sampleRuntime) :=
  [.call 0 .exchange (.integer 7), .lock 0, .park 0]

/-- Thread 0 waits, is cancelled, gets the mutex back and runs its cleanup handlers. -/
def cancelEvents : List (Event sampleRuntime) :=
  waitEvents ++ [.cancel 0, .act 0, .relock 0, .cleanup 0]

theorem rendezvous_survives_wait :
    ∃ s, (system sampleRuntime).run waitEvents = some s ∧ s.waiter = some 0 ∧ Survives s := by
  have hwait : ((system sampleRuntime).run waitEvents).map (fun s => s.waiter) = some (some 0) := by
    decide
  obtain ⟨s, hrun, hw⟩ := Option.map_eq_some_iff.mp hwait
  have hgood : ∀ e ∈ waitEvents, ∀ s, NoCancelInWait s e := by
    intro e he s
    simp only [waitEvents, List.mem_cons, List.not_mem_nil, or_false] at he
    rcases he with rfl | rfl | rfl <;> trivial
  have hreach := System.run_reachableBy hgood hrun
  exact ⟨s, hrun, hw, rendezvous_survives s (hreach.mono (fun s _ hok => hok s))⟩

/-- After a cancellation inside the wait the closed state of a terminated thread is
registered, and the mutex stays locked. -/
theorem not_survives_cancelled :
    ¬ ∀ (R : Runtime) (s : State R), (system R).Reachable s → Survives s := by
  intro h
  have hcancel : ((system sampleRuntime).run cancelEvents).map
      (fun s => (s.waiter, (s.threads 0).isOpen, s.mutex, (s.threads 0).pc)) =
        some (some 0, false, some 0, .terminated) := by
    decide
  obtain ⟨s, hrun, hs⟩ := Option.map_eq_some_iff.mp hcancel
  simp only [Prod.mk.injEq] at hs
  have hopen := ((h sampleRuntime s (System.run_reachable hrun)).waiter 0 hs.1).2
  rw [hs.2.1] at hopen
  cases hopen

end Rendezvous
end FluaLibs
