import FluaLibs.BoundedRuns
import FluaLibs.RendezvousOutcomes

/-! # No call waits for nothing

Once nobody makes new calls, every schedule of the threads that are inside one comes to an
end after a bounded number of steps, and then no call is left but one that is registered and
asleep: it waits for a partner that has not come.

`Phase` is where a thread is without the count that it carries, and `moves` says which threads
an event moves and where to; each move inside a call is a move forward (`rank`).
-/
namespace FluaLibs
namespace Rendezvous
variable {R : Runtime}

/-! ## Where the threads are -/

/-- Where a thread is, as far as the others are concerned. -/
inductive Phase where
  | outside
  | locking
  | locked
  | waiting
  | woken
  | expired
  | signalling
  | unlocking
  | gone
  deriving DecidableEq, Repr

namespace Phase

/-- How many steps a thread has to go until its call is over, at most. -/
def rank : Phase → Nat
  | locking => 7
  | locked => 6
  | waiting => 5
  | signalling => 4
  | woken => 3
  | expired => 2
  | unlocking => 1
  | outside | gone => 0

theorem rank_le (p : Phase) : p.rank ≤ 7 := by
  cases p <;> decide

/-- Not asleep, and with no signal to give. -/
def isQuiet : Phase → Bool
  | waiting | signalling => false
  | _ => true

theorem ne_of_isQuiet {p : Phase} (h : p.isQuiet = true) : p ≠ waiting ∧ p ≠ signalling := by
  revert h
  cases p <;> decide

end Phase

def Pc.phase : Pc → Phase
  | outside => .outside
  | locking => .locking
  | locked => .locked
  | waiting => .waiting
  | woken => .woken
  | expired => .expired
  | signalling _ => .signalling
  | unlocking _ => .unlocking
  | cancelled | cleaning | terminated => .gone

namespace Pc
variable {pc : Pc}

theorem phase_waiting : pc.phase = .waiting ↔ pc = .waiting := by
  cases pc <;> simp [phase]

theorem phase_locked : pc.phase = .locked ↔ pc = .locked := by
  cases pc <;> simp [phase]

theorem phase_signalling : pc.phase = .signalling ↔ pc.isSignalling = true := by
  cases pc <;> simp [phase, isSignalling]

theorem phase_unlocking : pc.phase = .unlocking ↔ pc.isUnlocking = true := by
  cases pc <;> simp [phase, isUnlocking]

theorem rank_pos : 0 < pc.phase.rank ↔ pc.isInside = true := by
  cases pc <;> simp [phase, Phase.rank, isInside]

theorem isCritical_iff : pc.isCritical = true ↔
    pc = .locked ∨ pc.isSignalling = true ∨ pc.isUnlocking = true := by
  cases pc <;> simp [isCritical, isSignalling, isUnlocking]

end Pc

def State.phase (s : State R) (t : Nat) : Phase := (s.threads t).pc.phase

/-- The threads that an event moves, and where to. -/
def moves : Event R → List (Nat × Phase)
  | .call t _ _ => [(t, .locking)]
  | .lock t => [(t, .locked)]
  | .lockTimeout t | .lockError t _ | .unlock t => [(t, .outside)]
  | .park t => [(t, .waiting)]
  | .parkError t _ | .relock t | .signal t none | .signalError t _ => [(t, .unlocking)]
  | .serve t => [(t, .signalling)]
  | .signal t (some w) => [(t, .unlocking), (w, .woken)]
  | .wake t => [(t, .woken)]
  | .expire t => [(t, .expired)]
  | .act t | .cleanup t | .exit t => [(t, .gone)]
  | .cancel _ | .join _ => []

def move (f : Nat → Phase) (ms : List (Nat × Phase)) : Nat → Phase :=
  ms.foldl (fun f m => Function.update f m.1 m.2) f

@[simp] theorem move_nil (f : Nat → Phase) : move f [] = f := rfl

@[simp] theorem move_cons (f : Nat → Phase) (t : Nat) (p : Phase) (ms : List (Nat × Phase)) :
    move f ((t, p) :: ms) = move (Function.update f t p) ms := rfl

theorem State.setThread_phase (s : State R) (t : Nat) (th : Thread R) :
    (s.setThread t th).phase = Function.update s.phase t th.pc.phase := by
  funext u
  by_cases hu : u = t
  · subst hu
    simp [State.phase]
  · simp [State.phase, hu]

theorem State.setThread_phase_same (s : State R) (t : Nat) (th : Thread R)
    (h : th.pc = (s.threads t).pc) : (s.setThread t th).phase = s.phase := by
  rw [setThread_phase, h]
  exact Function.update_eq_self t s.phase

/-- The phases depend on the threads alone. -/
theorem State.phase_congr {s s' : State R} (h : s'.threads = s.threads) : s'.phase = s.phase := by
  funext t
  rw [State.phase, State.phase, h]

/-- **What an event moves.** -/
theorem next_phase {s : State R} (h : WellFormed s) (e : Event R) (hok : NoCancelInWait s e)
    (he : Enabled s e) : (next s e).phase = move s.phase (moves e) := by
  cases e with
  | call t _ _ | lock t | park t | parkError t _ | signalError t _ | wake t | expire t
  | cleanup t | exit t =>
    exact State.setThread_phase s t _
  | lockTimeout t | lockError t _ => exact State.setThread_phase s t _
  | serve t =>
    obtain ⟨w, hw⟩ := Option.ne_none_iff_exists'.mp he.2
    obtain ⟨c, d, nres, L', m, l', _, _, hne, _, _, heq⟩ := h.serve_spec he.1 hw
    rw [heq]
    have hw' : (s.setThread w { s.threads w with lua := l'.push (.integer m) }).phase = s.phase :=
      s.setThread_phase_same w _ rfl
    calc _ = ((s.setThread w { s.threads w with lua := l'.push (.integer m) }).setThread t
          { s.threads t with pc := .signalling nres, lua := L' }).phase := State.phase_congr rfl
      _ = _ := by
        rw [State.setThread_phase, hw']
        rfl
  | signal t woken =>
    have hpc : (s.threads t).pc.isSignalling = true := by
      cases woken <;> exact he.1
    cases hcase : (s.threads t).pc with
    | signalling n =>
      cases woken with
      | none =>
        simp only [next, hcase]
        exact State.setThread_phase s t _
      | some w =>
        simp only [next, hcase, moves, move_cons, move_nil]
        calc _ = ((s.setPc t (.unlocking n)).setPc w .woken).phase := State.phase_congr rfl
          _ = _ := by
            rw [State.setPc, State.setThread_phase, State.setPc, State.setThread_phase]
            rfl
    | _ =>
      rw [hcase] at hpc
      cases hpc
  | relock t =>
    have hlive := (h.threads t).not_cancelled
    have hmem := he.1
    cases hcase : (s.threads t).pc with
    | woken =>
      simp only [next, State.relock, hcase]
      exact State.setThread_phase s t _
    | expired =>
      simp only [next, State.relock, hcase]
      exact State.setThread_phase s t _
    | cancelled => exact absurd hcase hlive
    | _ => simp [hcase] at hmem
  | unlock t =>
    have hpc : (s.threads t).pc.isUnlocking = true := he
    cases hcase : (s.threads t).pc with
    | unlocking n =>
      simp only [next, hcase]
      exact State.setThread_phase s t _
    | _ =>
      rw [hcase] at hpc
      cases hpc
  | act t =>
    have hnot : (s.threads t).pc ≠ .waiting := hok
    simp only [next, hnot, ite_false]
    exact State.setThread_phase s t _
  | cancel t => exact s.setThread_phase_same t _ rfl
  | join t => exact s.setThread_phase_same t _ rfl

/-! ## Nobody sleeps unnoticed -/

/-- A thread that is asleep is registered, or it is the one that has been served and that is
about to be signalled. -/
structure Noticed (s : State R) : Prop where
  asleep : ∀ t, s.phase t = .waiting → t ∈ s.sleepers
  noticed : ∀ t, s.phase t = .waiting → s.waiter = some t ∨ ∃ u, s.phase u = .signalling
  single : ∀ u t t', s.phase u = .signalling → s.phase t = .waiting → s.phase t' = .waiting →
    t = t'

theorem Noticed.of_none {s : State R} (h : ∀ t, s.phase t ≠ .waiting) : Noticed s where
  asleep t ht := absurd ht (h t)
  noticed t ht := absurd ht (h t)
  single _ t _ _ ht _ := absurd ht (h t)

theorem Noticed.init : Noticed (system R).init := .of_none (fun _ h => by cases h)

/-- In the critical section, before the signal, there is no signal to come. -/
theorem WellFormed.not_signalling {s : State R} (h : WellFormed s) {t u : Nat}
    (ht : s.phase t = .locked) : s.phase u ≠ .signalling := by
  intro hu
  have hpc := Pc.phase_locked.mp ht
  have hcritical : (s.threads t).pc.isCritical = true := by rw [hpc]; rfl
  have hsignalling := Pc.phase_signalling.mp hu
  have hsame := h.critical_unique hcritical (Pc.isCritical_of_isSignalling hsignalling)
  rw [← hsame, hpc] at hsignalling
  cases hsignalling

section Noticed
variable {s s' : State R} {a : Matchmaker (Arguments R)} (hwf : WellFormed s)
  (htracks : Tracks True False False s a) (h : Noticed s) {t : Nat} {p : Phase}

include h in
/-- A thread moves that does not begin to sleep and is not at the signal. -/
theorem Noticed.moved (hphase : s'.phase = Function.update s.phase t p) (hp : p.isQuiet = true)
    (ht : s.phase t ≠ .signalling) (hwaiter : ∀ u ≠ t, s.waiter = some u → s'.waiter = some u)
    (hsleepers : ∀ u ≠ t, u ∈ s.sleepers → u ∈ s'.sleepers) : Noticed s' := by
  obtain ⟨hwaiting, hsignalling⟩ := Phase.ne_of_isQuiet hp
  have hasleep (u : Nat) (hu : s'.phase u = .waiting) : u ≠ t ∧ s.phase u = .waiting := by
    rw [hphase, Function.update_apply] at hu
    split at hu
    · exact absurd hu hwaiting
    · next hne => exact ⟨hne, hu⟩
  have hsignal (u : Nat) : s'.phase u = .signalling ↔ s.phase u = .signalling := by
    rw [hphase, Function.update_apply]
    split
    · next heq =>
      subst heq
      exact ⟨fun hu => absurd hu hsignalling, fun hu => absurd hu ht⟩
    · exact Iff.rfl
  constructor
  · intro u hu
    obtain ⟨hne, hold⟩ := hasleep u hu
    exact hsleepers u hne (h.asleep u hold)
  · intro u hu
    obtain ⟨hne, hold⟩ := hasleep u hu
    cases h.noticed u hold with
    | inl hreg => exact Or.inl (hwaiter u hne hreg)
    | inr hsig =>
      obtain ⟨v, hv⟩ := hsig
      exact Or.inr ⟨v, (hsignal v).mpr hv⟩
  · intro u t₁ t₂ hu h₁ h₂
    exact h.single u t₁ t₂ ((hsignal u).mp hu) (hasleep t₁ h₁).2 (hasleep t₂ h₂).2

include h in
/-- The usual case: only the thread has moved. -/
theorem Noticed.moved_only (hphase : s'.phase = Function.update s.phase t p)
    (hp : p.isQuiet = true) (ht : s.phase t ≠ .signalling) (hwaiter : s'.waiter = s.waiter)
    (hsleepers : s'.sleepers = s.sleepers) : Noticed s' :=
  h.moved hphase hp ht (fun u _ hu => by rw [hwaiter, hu])
    (fun u _ hu => by rw [hsleepers]; exact hu)

include h in
/-- Nobody has moved. -/
theorem Noticed.congr (hphase : s'.phase = s.phase) (hwaiter : s'.waiter = s.waiter)
    (hsleepers : s'.sleepers = s.sleepers) : Noticed s' where
  asleep u hu := by
    rw [hphase] at hu
    rw [hsleepers]
    exact h.asleep u hu
  noticed u hu := by
    rw [hphase] at hu ⊢
    rw [hwaiter]
    exact h.noticed u hu
  single := by
    rw [hphase]
    exact h.single

include hwf h

/-- Who finds no waiter is the only one that sleeps. -/
theorem Noticed.park (ht : s.phase t = .locked) (hfree : s.waiter = none) :
    ∀ u, s.phase u ≠ .waiting := by
  intro u hu
  cases h.noticed u hu with
  | inl hreg =>
    rw [hfree] at hreg
    cases hreg
  | inr hsig =>
    obtain ⟨v, hv⟩ := hsig
    exact hwf.not_signalling ht hv

/-- Who finds a waiter finds the only thread that sleeps. -/
theorem Noticed.serve (ht : s.phase t = .locked) {u u' : Nat} (hu : s.phase u = .waiting)
    (hu' : s.phase u' = .waiting) : u = u' := by
  have hreg (v : Nat) (hv : s.phase v = .waiting) : s.waiter = some v := by
    cases h.noticed v hv with
    | inl hreg => exact hreg
    | inr hsig =>
      obtain ⟨w, hw⟩ := hsig
      exact absurd hw (hwf.not_signalling ht)
  exact Option.some.inj ((hreg u hu).symm.trans (hreg u' hu'))

/-- The only one that sleeps is registered. -/
theorem Noticed.parked (ht : s.phase t = .locked) (hfree : s.waiter = none)
    (hphase : s'.phase = Function.update s.phase t .waiting) (hwaiter : s'.waiter = some t)
    (hsleepers : t ∈ s'.sleepers) : Noticed s' := by
  have hnone := h.park hwf ht hfree
  have hasleep (u : Nat) (hu : s'.phase u = .waiting) : u = t := by
    rw [hphase, Function.update_apply] at hu
    split at hu
    · next heq => exact heq
    · exact absurd hu (hnone u)
  constructor
  · intro u hu
    obtain rfl := hasleep u hu
    exact hsleepers
  · intro u hu
    obtain rfl := hasleep u hu
    exact Or.inl hwaiter
  · intro u t₁ t₂ _ h₁ h₂
    rw [hasleep t₁ h₁, hasleep t₂ h₂]

/-- The only one that sleeps has been served, and the signal is to come. -/
theorem Noticed.served (ht : s.phase t = .locked)
    (hphase : s'.phase = Function.update s.phase t .signalling)
    (hsleepers : s'.sleepers = s.sleepers) : Noticed s' := by
  have hasleep (u : Nat) (hu : s'.phase u = .waiting) : s.phase u = .waiting := by
    rw [hphase, Function.update_apply] at hu
    split at hu
    · cases hu
    · exact hu
  constructor
  · intro u hu
    rw [hsleepers]
    exact h.asleep u (hasleep u hu)
  · intro u _
    refine Or.inr ⟨t, ?_⟩
    rw [hphase, Function.update_self]
  · intro u t₁ t₂ _ h₁ h₂
    exact h.serve hwf ht (hasleep t₁ h₁) (hasleep t₂ h₂)

/-- The thread that has been served is the only one asleep, and it is woken. -/
theorem Noticed.signalled {woken : Option Nat} (he : Enabled s (.signal t woken))
    (hphase : s'.phase = move s.phase (moves (.signal t woken : Event R))) : Noticed s' := by
  have ht : s.phase t = .signalling := by
    cases woken <;> exact Pc.phase_signalling.mpr he.1
  refine .of_none ?_
  intro u hu
  rw [hphase] at hu
  cases woken with
  | none =>
    simp only [moves, move_cons, move_nil, Function.update_apply] at hu
    split at hu
    · cases hu
    · have hmem := h.asleep u hu
      rw [he.2] at hmem
      cases hmem
  | some w =>
    simp only [moves, move_cons, move_nil, Function.update_apply] at hu
    split at hu
    · cases hu
    · next hne =>
      split at hu
      · cases hu
      · have hw : s.phase w = .waiting := Pc.phase_waiting.mpr ((hwf.threads w).asleep he.2)
        exact hne (h.single t u w ht hu hw)

include htracks

/-- **No wakeup is lost**, in any step of a run in which waits end for a reason. -/
theorem Noticed.next (e : Event R) (hok : PromptEvent s e) (hcancel : NoCancelInWait s e)
    (he : Enabled s e) : Noticed (next s e) := by
  have hphase := next_phase hwf e hcancel he
  cases e with
  | call t e args =>
    have ht : s.phase t ≠ .signalling := by simp [State.phase, he.1, Pc.phase]
    exact h.moved_only hphase rfl ht rfl rfl
  | lock t =>
    have ht : s.phase t ≠ .signalling := by simp [State.phase, he.1, Pc.phase]
    exact h.moved_only hphase rfl ht rfl rfl
  | lockTimeout t =>
    have ht : s.phase t ≠ .signalling := by simp [State.phase, he.1, Pc.phase]
    exact h.moved_only hphase rfl ht rfl rfl
  | lockError t msg =>
    have hpc : (s.threads t).pc = .locking := he
    have ht : s.phase t ≠ .signalling := by simp [State.phase, hpc, Pc.phase]
    exact h.moved_only hphase rfl ht rfl rfl
  | park t =>
    have ht : s.phase t = .locked := Pc.phase_locked.mpr he.1
    exact h.parked hwf ht he.2 hphase rfl (by simp [Rendezvous.next])
  | parkError t msg =>
    have ht : s.phase t ≠ .signalling := by simp [State.phase, he.1, Pc.phase]
    exact h.moved_only hphase rfl ht rfl rfl
  | serve t =>
    have ht : s.phase t = .locked := Pc.phase_locked.mpr he.1
    obtain ⟨w, hw⟩ := Option.ne_none_iff_exists'.mp he.2
    obtain ⟨c, d, nres, L', m, l', _, _, hne, _, _, heq⟩ := hwf.serve_spec he.1 hw
    exact h.served hwf ht hphase (by simp only [heq, State.setThread])
  | signal t woken => exact h.signalled hwf he hphase
  | signalError t msg => exact hok.elim
  | wake t => exact hok.elim
  | expire t =>
    have hpc := (hwf.threads t).asleep he.1
    have ht : s.phase t ≠ .signalling := by simp [State.phase, hpc, Pc.phase]
    refine h.moved hphase rfl ht (fun u _ hu => hu) ?_
    intro u hne hu
    simp [Rendezvous.next, hu, hne]
  | relock t =>
    have hmem := he.1
    cases hcase : (s.threads t).pc with
    | woken =>
      have ht : s.phase t ≠ .signalling := by simp [State.phase, hcase, Pc.phase]
      refine h.moved_only hphase rfl ht ?_ ?_ <;>
        simp [Rendezvous.next, State.relock, hcase]
    | expired =>
      have ht : s.phase t ≠ .signalling := by simp [State.phase, hcase, Pc.phase]
      have hreg := ((htracks.threads t).expired hcase).2.1
      refine h.moved hphase rfl ht ?_ ?_
      · intro u hne hu
        exact absurd (Option.some.inj (hu.symm.trans hreg)) hne
      · intro u _ hu
        simpa [Rendezvous.next, State.relock, hcase, State.setPc] using hu
    | cancelled => exact absurd hcase (hwf.threads t).not_cancelled
    | _ => simp [hcase] at hmem
  | unlock t =>
    have hpc : (s.threads t).pc.isUnlocking = true := he
    have ht : s.phase t ≠ .signalling := by
      rw [State.phase, Pc.phase_unlocking.mpr hpc]
      decide
    refine h.moved_only hphase rfl ht ?_ ?_ <;>
      cases hcase : (s.threads t).pc <;> simp [Rendezvous.next, hcase, State.complete, State.setPc]
  | cancel t => exact h.congr hphase rfl rfl
  | act t =>
    have hnot : (s.threads t).pc ≠ .waiting := hcancel
    have ht : s.phase t ≠ .signalling := by
      have hmem := he.1
      simp only [List.mem_cons, List.not_mem_nil, or_false, hnot] at hmem
      simp [State.phase, hmem, Pc.phase]
    refine h.moved_only hphase rfl ht ?_ ?_ <;>
      simp [Rendezvous.next, hnot, State.setPc]
  | cleanup t =>
    have hpc : (s.threads t).pc = .cleaning := he
    have ht : s.phase t ≠ .signalling := by simp [State.phase, hpc, Pc.phase]
    exact h.moved_only hphase rfl ht rfl rfl
  | exit t =>
    have hpc : (s.threads t).pc = .outside := he
    have ht : s.phase t ≠ .signalling := by simp [State.phase, hpc, Pc.phase]
    exact h.moved_only hphase rfl ht rfl rfl
  | join t => exact h.congr hphase rfl rfl

end Noticed

/-! ## Calls that go on -/

/-- What the threads that are inside a call do next, apart from the calls that they make. -/
def InCall : Event R → Prop
  | .call _ _ _ | .cancel _ | .act _ | .cleanup _ | .exit _ | .join _ => False
  | _ => True

/-- What the code does when nothing fails and no deadline passes. -/
def Forced : Event R → Prop
  | .lock _ | .park _ | .serve _ | .signal _ _ | .relock _ | .unlock _ => True
  | _ => False

/-- A call that is not over is the one that its thread is in. -/
def Ongoing (s : State R) : Prop :=
  ∀ (k : Nat) c, s.calls[k]? = some c → c.outcome = none →
    (s.threads c.thread).call = k ∧ 0 < (s.phase c.thread).rank

/-- Only a new call is another call of its thread. -/
theorem next_threads_call {s : State R} (h : WellFormed s) {e : Event R}
    (hcall : ∀ t e' args, e ≠ .call t e' args) (he : Enabled s e) (u : Nat) :
    ((next s e).threads u).call = (s.threads u).call := by
  have hset (s : State R) (t : Nat) (th : Thread R) (hth : th.call = (s.threads t).call) :
      ((s.setThread t th).threads u).call = (s.threads u).call := by
    by_cases hu : u = t
    · subst hu
      simp [hth]
    · simp [hu]
  have hsetPc (s : State R) (t : Nat) (pc : Pc) :
      ((s.setPc t pc).threads u).call = (s.threads u).call := hset s t _ rfl
  cases e with
  | call t e' args => exact absurd rfl (hcall t e' args)
  | lock t | lockTimeout t | lockError t _ | park t | parkError t _ | signalError t _ | wake t
  | expire t | cancel t | cleanup t | exit t | join t =>
    exact hset s t _ rfl
  | serve t =>
    obtain ⟨w, hw⟩ := Option.ne_none_iff_exists'.mp he.2
    obtain ⟨c, d, nres, L', m, l', _, _, hne, _, _, heq⟩ := h.serve_spec he.1 hw
    rw [heq]
    have htw : t ≠ w := hne.symm
    exact (hset _ t _ (by simp [htw])).trans (hset s w _ rfl)
  | signal t woken =>
    cases hcase : (s.threads t).pc <;> cases woken <;>
      simp only [next, hcase] <;>
      first
      | rfl
      | exact hsetPc s _ _
      | exact (hsetPc _ _ _).trans (hsetPc s _ _)
  | relock t =>
    cases hcase : (s.threads t).pc <;> simp only [next, State.relock, hcase] <;>
      first
      | rfl
      | exact hset s t _ rfl
  | unlock t =>
    cases hcase : (s.threads t).pc with
    | unlocking n =>
      simp only [next, hcase]
      exact hset s t _ rfl
    | _ => simp only [next, hcase]
  | act t =>
    simp only [next]
    split
    · exact hset s t _ rfl
    · exact hset s t _ rfl

/-- The calls after a step, other than a new call, and whether one is over. -/
theorem next_calls {s : State R} (h : WellFormed s) {e : Event R}
    (hcall : ∀ t e' args, e ≠ .call t e' args) (he : Enabled s e) :
    ((next s e).calls = s.calls ∧ ∀ t, moves e ≠ [(t, .outside)]) ∨
    ∃ t o, moves e = [(t, .outside)] ∧ (next s e).calls =
      s.calls.modify (s.threads t).call (fun c => { c with outcome := some o }) := by
  cases e with
  | call t e' args => exact absurd rfl (hcall t e' args)
  | lock | park | parkError | signalError | wake | expire | cancel | cleanup | exit | join =>
    exact Or.inl ⟨rfl, by simp [moves]⟩
  | lockTimeout t | lockError t _ => exact Or.inr ⟨t, _, rfl, rfl⟩
  | serve t =>
    obtain ⟨w, hw⟩ := Option.ne_none_iff_exists'.mp he.2
    obtain ⟨c, d, nres, L', m, l', _, _, _, _, _, heq⟩ := h.serve_spec he.1 hw
    rw [heq]
    exact Or.inl ⟨rfl, by simp [moves]⟩
  | signal t woken =>
    refine Or.inl ⟨?_, by cases woken <;> simp [moves]⟩
    cases hcase : (s.threads t).pc <;> cases woken <;> simp only [next, hcase] <;> rfl
  | relock t =>
    refine Or.inl ⟨?_, by simp [moves]⟩
    cases hcase : (s.threads t).pc <;> simp only [next, State.relock, hcase] <;> rfl
  | unlock t =>
    have hpc : (s.threads t).pc.isUnlocking = true := he
    cases hcase : (s.threads t).pc with
    | unlocking n =>
      refine Or.inr ⟨t, (s.threads t).entry.conclude n (s.threads t).lua, rfl, ?_⟩
      simp [next, hcase, State.complete]
    | _ =>
      rw [hcase] at hpc
      cases hpc
  | act t =>
    refine Or.inl ⟨?_, by simp [moves]⟩
    simp only [next]
    split <;> rfl

/-- A move to where a thread is still in its call, or of a thread that is in none. -/
theorem rank_pos_update {f : Nat → Phase} {t : Nat} {p : Phase}
    (h : 0 < p.rank ∨ (f t).rank = 0) {u : Nat} (hu : 0 < (f u).rank) :
    0 < (Function.update f t p u).rank := by
  rw [Function.update_apply]
  split
  · next heq =>
    subst heq
    cases h with
    | inl hp => exact hp
    | inr hf => omega
  · exact hu

/-- A thread leaves its call only when the call is over. -/
theorem next_rank_pos {s : State R} (h : WellFormed s) {e : Event R} (hok : NoCancelInWait s e)
    (he : Enabled s e) (hmoves : ∀ t, moves e ≠ [(t, .outside)]) {u : Nat}
    (hu : 0 < (s.phase u).rank) : 0 < ((next s e).phase u).rank := by
  rw [next_phase h e hok he]
  cases e with
  | call | lock | park | parkError | serve | signalError | wake | expire | relock =>
    simp only [moves, move_cons, move_nil]
    exact rank_pos_update (Or.inl (by decide)) hu
  | lockTimeout t | lockError t _ | unlock t => exact absurd rfl (hmoves t)
  | signal t woken =>
    cases woken <;> simp only [moves, move_cons, move_nil]
    · exact rank_pos_update (Or.inl (by decide)) hu
    · exact rank_pos_update (Or.inl (by decide)) (rank_pos_update (Or.inl (by decide)) hu)
  | cancel | join => exact hu
  | act t =>
    have hnot : (s.threads t).pc ≠ .waiting := hok
    have hpc := he.1
    simp only [List.mem_cons, List.not_mem_nil, or_false, hnot] at hpc
    exact rank_pos_update (Or.inr (by rw [State.phase, hpc]; rfl)) hu
  | cleanup t | exit t =>
    have hpc : (s.threads t).pc = _ := he
    exact rank_pos_update (Or.inr (by rw [State.phase, hpc]; rfl)) hu

theorem Ongoing.init : Ongoing (system R).init := by
  intro k c hc
  simp [system] at hc

theorem Ongoing.next {s : State R} (hwf : WellFormed s) (h : Ongoing s) (e : Event R)
    (hok : NoCancelInWait s e) (he : Enabled s e) : Ongoing (next s e) := by
  have hphase := next_phase hwf e hok he
  by_cases hcall : ∃ t e' args, e = .call t e' args
  · obtain ⟨t, e', args, rfl⟩ := hcall
    intro k c hc hopen
    rw [Rendezvous.next, List.getElem?_append] at hc
    split at hc
    · -- the thread of a call that goes on is not the one that makes the new call
      obtain ⟨hindex, hrank⟩ := h k c hc hopen
      have hne : c.thread ≠ t := by
        rintro rfl
        rw [State.phase, he.1] at hrank
        exact absurd hrank (by decide)
      refine ⟨by simpa [Rendezvous.next, hne] using hindex, ?_⟩
      rw [hphase]
      simpa [moves, hne] using hrank
    · next hlen =>
      rw [List.getElem?_singleton] at hc
      split at hc
      · next hzero =>
        obtain rfl := Option.some.inj hc
        have hk : k = s.calls.length := by omega
        refine ⟨by simp [Rendezvous.next, hk], ?_⟩
        rw [hphase]
        simp [moves, Phase.rank]
      · cases hc
  · have hnot : ∀ t e' args, e ≠ .call t e' args := fun t e' args heq => hcall ⟨t, e', args, heq⟩
    have hindex (u : Nat) := next_threads_call hwf hnot he u
    cases next_calls hwf hnot he with
    | inl hsame =>
      obtain ⟨hcalls, hmoves⟩ := hsame
      intro k c hc hopen
      rw [hcalls] at hc
      obtain ⟨hk, hrank⟩ := h k c hc hopen
      exact ⟨(hindex c.thread).trans hk, next_rank_pos hwf hok he hmoves hrank⟩
    | inr hover =>
      obtain ⟨t, o, hmoves, hcalls⟩ := hover
      intro k c hc hopen
      rw [hcalls, List.getElem?_modify] at hc
      obtain ⟨d, hd, hc⟩ := Option.map_eq_some_iff.mp hc
      split at hc
      · rw [← hc] at hopen
        cases hopen
      · next hne =>
        subst hc
        obtain ⟨hk, hrank⟩ := h k d hd hopen
        have hthread : d.thread ≠ t := by
          rintro rfl
          exact hne hk
        refine ⟨(hindex d.thread).trans hk, ?_⟩
        rw [hphase, hmoves]
        simpa [hthread] using hrank

/-! ## Every schedule ends -/

/-- How many steps call `k` still has to go, at most. -/
def toGo (s : State R) (k : Nat) : Nat :=
  ((s.calls[k]?).map Call.thread).elim 0
    (fun t => if (s.threads t).call = k then (s.phase t).rank else 0)

/-- The same for all calls. -/
def remaining (s : State R) : Nat := ∑ k ∈ Finset.range s.calls.length, toGo s k

/-- The calls that are not over. -/
def openCalls (s : State R) : Finset Nat :=
  (Finset.range s.calls.length).filter (fun k => (s.calls[k]?).any (fun c => c.outcome.isNone))

theorem mem_openCalls {s : State R} {k : Nat} :
    k ∈ openCalls s ↔ ∃ c, s.calls[k]? = some c ∧ c.outcome = none := by
  rw [openCalls, Finset.mem_filter, Finset.mem_range, Option.any_eq_true]
  constructor
  · rintro ⟨-, c, hc, hopen⟩
    exact ⟨c, hc, Option.isNone_iff_eq_none.mp hopen⟩
  · rintro ⟨c, hc, hopen⟩
    exact ⟨(List.getElem?_eq_some_iff.mp hc).1, c, hc, Option.isNone_iff_eq_none.mpr hopen⟩

/-- A call that has some way to go is not over. -/
theorem mem_openCalls_of_toGo {s : State R} (h : WellFormed s) {k : Nat} (hk : toGo s k ≠ 0) :
    k ∈ openCalls s := by
  rw [toGo] at hk
  cases hc : s.calls[k]? with
  | none => simp [hc] at hk
  | some c =>
    simp only [hc, Option.map_some, Option.elim_some, ne_eq, ite_eq_right_iff,
      Classical.not_imp] at hk
    obtain ⟨hindex, hrank⟩ := hk
    have hinside := Pc.rank_pos.mp (Nat.pos_of_ne_zero hrank)
    obtain ⟨d, hd, -⟩ := (h.threads c.thread).current hinside
    have hat := hd.at_index
    rw [hindex] at hat
    exact mem_openCalls.mpr ⟨d, hat, hd.ongoing⟩

theorem toGo_le (s : State R) (k : Nat) : toGo s k ≤ 7 := by
  rw [toGo]
  cases (s.calls[k]?).map Call.thread with
  | none => exact Nat.zero_le _
  | some t =>
    rw [Option.elim_some]
    split
    · exact Phase.rank_le _
    · exact Nat.zero_le _

theorem remaining_le {s : State R} (h : WellFormed s) :
    remaining s ≤ 7 * (openCalls s).card := by
  have hsum : remaining s = ∑ k ∈ openCalls s, toGo s k := by
    refine (Finset.sum_subset (Finset.filter_subset _ _) ?_).symm
    intro k _ hk
    by_contra hne
    exact hk (mem_openCalls_of_toGo h hne)
  calc remaining s = ∑ k ∈ openCalls s, toGo s k := hsum
    _ ≤ (openCalls s).card • 7 := Finset.sum_le_card_nsmul _ _ 7 (fun k _ => toGo_le s k)
    _ = 7 * (openCalls s).card := by
      rw [nsmul_eq_mul]
      exact Nat.mul_comm _ 7

/-- A move forward. -/
theorem update_forward {f : Nat → Phase} {t : Nat} {p : Phase} (h : p.rank < (f t).rank) :
    (∀ u, (Function.update f t p u).rank ≤ (f u).rank) ∧
      (Function.update f t p t).rank < (f t).rank := by
  constructor
  · intro u
    rw [Function.update_apply]
    split
    · next heq =>
      subst heq
      exact h.le
    · exact le_rfl
  · rw [Function.update_self]
    exact h

/-- **Every step inside a call is a step forward.** -/
theorem next_forward {s : State R} (h : WellFormed s) {e : Event R} (hin : InCall e)
    (hok : NoCancelInWait s e) (he : Enabled s e) :
    (∀ u, ((next s e).phase u).rank ≤ (s.phase u).rank) ∧
      ∃ t, ((next s e).phase t).rank < (s.phase t).rank := by
  have hone {t : Nat} {p : Phase} (hmoves : moves e = [(t, p)]) (hlt : p.rank < (s.phase t).rank) :
      (∀ u, ((next s e).phase u).rank ≤ (s.phase u).rank) ∧
        ∃ t, ((next s e).phase t).rank < (s.phase t).rank := by
    rw [next_phase h e hok he, hmoves]
    obtain ⟨hle, hlt'⟩ := update_forward hlt
    exact ⟨hle, t, hlt'⟩
  have hrank {t : Nat} {pc : Pc} (hpc : (s.threads t).pc = pc) :
      (s.phase t).rank = pc.phase.rank := by rw [State.phase, hpc]
  cases e with
  | call | cancel | act | cleanup | exit | join => exact hin.elim
  | lock t | lockTimeout t | park t | parkError t _ | serve t =>
    exact hone rfl (by rw [hrank he.1]; decide)
  | lockError t msg =>
    have hpc : (s.threads t).pc = .locking := he
    exact hone rfl (by rw [hrank hpc]; decide)
  | signal t woken =>
    have ht : s.phase t = .signalling := by
      cases woken <;> exact Pc.phase_signalling.mpr he.1
    have hfirst : Phase.unlocking.rank < (s.phase t).rank := by
      rw [ht]
      decide
    cases woken with
    | none => exact hone rfl hfirst
    | some w =>
      have hw : s.phase w = .waiting := Pc.phase_waiting.mpr ((h.threads w).asleep he.2)
      have hne : w ≠ t := by
        rintro rfl
        rw [hw] at ht
        cases ht
      obtain ⟨hle, hlt⟩ := update_forward hfirst
      have hsecond : Phase.woken.rank <
          (Function.update s.phase t .unlocking w).rank := by
        rw [Function.update_of_ne hne, hw]
        decide
      obtain ⟨hle', -⟩ := update_forward hsecond
      rw [next_phase h _ hok he]
      exact ⟨fun u => (hle' u).trans (hle u), t, lt_of_le_of_lt (hle' t) hlt⟩
  | signalError t msg =>
    have ht : s.phase t = .signalling := Pc.phase_signalling.mpr he
    exact hone rfl (by rw [ht]; decide)
  | wake t => exact hone rfl (by rw [hrank ((h.threads t).asleep he)]; decide)
  | expire t => exact hone rfl (by rw [hrank ((h.threads t).asleep he.1)]; decide)
  | relock t =>
    have hmem := he.1
    have hlive := (h.threads t).not_cancelled
    cases hcase : (s.threads t).pc with
    | woken | expired => exact hone rfl (by rw [hrank hcase]; decide)
    | cancelled => exact absurd hcase hlive
    | _ => simp [hcase] at hmem
  | unlock t =>
    have hpc : (s.threads t).pc.isUnlocking = true := he
    have ht : s.phase t = .unlocking := Pc.phase_unlocking.mpr hpc
    exact hone rfl (by rw [ht]; decide)

/-- The threads of the calls do not change. -/
theorem next_calls_thread {s : State R} (h : WellFormed s) {e : Event R}
    (hcall : ∀ t e' args, e ≠ .call t e' args) (he : Enabled s e) :
    (next s e).calls.length = s.calls.length ∧
      ∀ k : Nat, ((next s e).calls[k]?).map Call.thread = (s.calls[k]?).map Call.thread := by
  rcases next_calls h hcall he with ⟨hcalls, -⟩ | ⟨t, o, -, hcalls⟩
  · rw [hcalls]
    exact ⟨rfl, fun _ => rfl⟩
  · rw [hcalls]
    refine ⟨List.length_modify .., ?_⟩
    intro k
    rw [List.getElem?_modify]
    cases s.calls[k]? with
    | none => rfl
    | some c =>
      simp only [Option.map_eq_map, Option.map_some]
      split <;> rfl

theorem remaining_lt {s : State R} (h : WellFormed s) {e : Event R} (hin : InCall e)
    (hok : NoCancelInWait s e) (he : Enabled s e) : remaining (next s e) < remaining s := by
  have hcall : ∀ t e' args, e ≠ .call t e' args := by
    rintro t e' args rfl
    exact hin
  obtain ⟨hlength, hthread⟩ := next_calls_thread h hcall he
  obtain ⟨hle, t, hlt⟩ := next_forward h hin hok he
  have hgo (k : Nat) : toGo (next s e) k = ((s.calls[k]?).map Call.thread).elim 0
      (fun t => if (s.threads t).call = k then ((next s e).phase t).rank else 0) := by
    simp only [toGo, hthread, next_threads_call h hcall he]
  rw [remaining, remaining, hlength]
  apply Finset.sum_lt_sum
  · intro k _
    rw [hgo, toGo]
    cases (s.calls[k]?).map Call.thread with
    | none => exact le_rfl
    | some u =>
      simp only [Option.elim_some]
      split
      · exact hle u
      · exact le_rfl
  · have hinside := Pc.rank_pos.mp (Nat.zero_lt_of_lt hlt)
    obtain ⟨c, hc, -⟩ := (h.threads t).current hinside
    have hat := hc.at_index
    refine ⟨(s.threads t).call, ?_, ?_⟩
    · exact Finset.mem_range.mpr (List.getElem?_eq_some_iff.mp hat).1
    · rw [hgo, toGo, hat, Option.map_some, Option.elim_some, Option.elim_some, hc.thread,
        if_pos rfl, if_pos rfl]
      exact hlt

/-! ## Schedules -/

/-- What has been shown of every state of a run in which waits end for a reason. -/
structure Steady (s : State R) : Prop where
  described : ∃ a, WellFormed s ∧ Tracks True False False s a
  noticed : Noticed s
  ongoing : Ongoing s

theorem PromptEvent.orderly {s : State R} {e : Event R} (h : PromptEvent s e) :
    Orderly True False False s e := by
  cases e with
  | call => exact fun _ => trivial
  | serve t => exact fun _ => h
  | expire t => exact ⟨trivial, h⟩
  | relock t | unlock t => exact fun hfalse => hfalse.elim
  | act t => exact h
  | wake | signalError => exact h
  | _ => trivial

theorem Steady.init : Steady (system R).init where
  described := ⟨_, wellFormed_init, tracks_init True False False⟩
  noticed := Noticed.init
  ongoing := Ongoing.init

theorem Steady.next {s : State R} (h : Steady s) {e : Event R} (hok : PromptEvent s e)
    (he : Enabled s e) : Steady (next s e) := by
  obtain ⟨a, hwf, htracks⟩ := h.described
  have hcancel := hok.orderly.noCancelInWait htracks
  refine ⟨?_, h.noticed.next hwf htracks e hok hcancel he, h.ongoing.next hwf e hcancel he⟩
  obtain ⟨es, a', -, htracks'⟩ := htracks.next hwf e hok.orderly he
  exact ⟨a', hwf.next e hcancel he, htracks'⟩

/-- What the threads may do that are inside a call. -/
def InsideCall (s : State R) (e : Event R) : Prop := InCall e ∧ PromptEvent s e

/-- Nothing goes on: the mutex is free, and at most one call is not over, which is registered
and asleep. -/
structure AtRest (s : State R) : Prop where
  mutex : s.mutex = none
  asleep : ∀ (k : Nat) c, s.calls[k]? = some c → c.outcome = none →
    s.waiter = some c.thread ∧ (s.threads c.thread).pc = .waiting
  single : ∀ (k k' : Nat) c c', s.calls[k]? = some c → c.outcome = none → s.calls[k']? = some c' →
    c'.outcome = none → k = k'

/-- Whoever has the mutex can go on. -/
theorem Steady.mutex_free {s : State R} (h : Steady s)
    (hstuck : ∀ e, Forced e → ¬ Enabled s e) : s.mutex = none := by
  obtain ⟨a, hwf, -⟩ := h.described
  by_contra hne
  obtain ⟨t, ht⟩ := Option.ne_none_iff_exists'.mp hne
  rcases Pc.isCritical_iff.mp ((hwf.threads t).owner.mp ht) with hpc | hpc | hpc
  · by_cases hfree : s.waiter = none
    · exact hstuck (.park t) trivial ⟨hpc, hfree⟩
    · exact hstuck (.serve t) trivial ⟨hpc, hfree⟩
  · cases hsleepers : s.sleepers with
    | nil => exact hstuck (.signal t none) trivial ⟨hpc, hsleepers⟩
    | cons w ws =>
      exact hstuck (.signal t (some w)) trivial ⟨hpc, by rw [hsleepers]; exact List.mem_cons_self⟩
  · exact hstuck (.unlock t) trivial hpc

/-- Whoever is inside a call and is not asleep can go on. -/
theorem Steady.waiting {s : State R} (h : Steady s) (hstuck : ∀ e, Forced e → ¬ Enabled s e)
    {t : Nat} (ht : 0 < (s.phase t).rank) : s.phase t = .waiting := by
  obtain ⟨a, hwf, -⟩ := h.described
  have hfree := h.mutex_free hstuck
  have hnot : (s.threads t).pc.isCritical = false := by
    cases hcase : (s.threads t).pc.isCritical with
    | false => rfl
    | true =>
      have howner := (hwf.threads t).owner.mpr hcase
      rw [hfree] at howner
      cases howner
  cases hcase : (s.threads t).pc with
  | waiting => rw [State.phase, hcase]; rfl
  | locking => exact absurd ⟨hcase, hfree⟩ (hstuck (.lock t) trivial)
  | woken | expired => exact absurd ⟨by simp [hcase], hfree⟩ (hstuck (.relock t) trivial)
  | outside | cancelled | cleaning | terminated =>
    rw [State.phase, hcase] at ht
    exact absurd ht (by decide)
  | locked | signalling | unlocking =>
    rw [hcase] at hnot
    cases hnot

/-- **No deadlock**: where the code can do nothing, nothing goes on. -/
theorem Steady.atRest {s : State R} (h : Steady s) (hstuck : ∀ e, Forced e → ¬ Enabled s e) :
    AtRest s := by
  have hasleep (k : Nat) (c : Call R) (hc : s.calls[k]? = some c) (hopen : c.outcome = none) :
      s.waiter = some c.thread ∧ (s.threads c.thread).pc = .waiting := by
    have hwaiting := h.waiting hstuck (h.ongoing k c hc hopen).2
    refine ⟨?_, Pc.phase_waiting.mp hwaiting⟩
    cases h.noticed.noticed c.thread hwaiting with
    | inl hreg => exact hreg
    | inr hsig =>
      obtain ⟨u, hu⟩ := hsig
      have hu' := h.waiting hstuck (t := u) (by rw [hu]; decide)
      rw [hu] at hu'
      cases hu'
  refine ⟨h.mutex_free hstuck, hasleep, ?_⟩
  intro k k' c c' hc hopen hc' hopen'
  have hsame : c.thread = c'.thread :=
    Option.some.inj ((hasleep k c hc hopen).1.symm.trans (hasleep k' c' hc' hopen').1)
  rw [← (h.ongoing k c hc hopen).1, ← (h.ongoing k' c' hc' hopen').1, hsame]

/-- **Every schedule ends, and nobody is left behind.**  When no new calls are made, the threads
that are inside one take at most seven steps for each call that is not over; and when the code
can do nothing more, at most one call is left, which waits for a partner. -/
theorem exchange_schedules_end (s : State R) (h : (system R).ReachableBy PromptEvent s)
    (dec : ∀ (s : State R) e, Decidable (InsideCall s e)) (es : List (Event R)) (s' : State R)
    (hrun : ((system R).restrict InsideCall dec).replay s es = some s') :
    es.length ≤ 7 * (openCalls s).card ∧
      ((∀ e, Forced e → ¬ Enabled s' e) → AtRest s') := by
  have hsteady : Steady s :=
    h.invariant Steady.init (fun _ _ hs hok he => hs.next hok he)
  have hstep (s : State R) (e : Event R) (hs : Steady s) (hok : InsideCall s e)
      (he : (system R).Enabled s e) : Steady (next s e) ∧ remaining (next s e) < remaining s := by
    obtain ⟨a, hwf, htracks⟩ := hs.described
    have hcancel := hok.2.orderly.noCancelInWait htracks
    exact ⟨hs.next hok.2 he, remaining_lt hwf hok.1 hcancel he⟩
  obtain ⟨hsteady', hlength⟩ := System.replay_length_add_le hstep hsteady hrun
  obtain ⟨a, hwf, -⟩ := hsteady.described
  refine ⟨?_, hsteady'.atRest⟩
  have hbound := remaining_le hwf
  omega

instance : (e : Event R) → Decidable (InCall e)
  | .call _ _ _ | .cancel _ | .act _ | .cleanup _ | .exit _ | .join _ => instDecidableFalse
  | .lock _ | .lockTimeout _ | .lockError _ _ | .park _ | .parkError _ _ | .serve _ | .signal _ _
  | .signalError _ _ | .wake _ | .expire _ | .relock _ | .unlock _ => instDecidableTrue

instance (s : State R) (e : Event R) : Decidable (InsideCall s e) :=
  inferInstanceAs (Decidable (_ ∧ _))

/-- Threads 0, 1 and 2 call `exchange`, and thread 0 waits already. -/
def threeEvents : List (Event sampleRuntime) :=
  [.call 0 .exchange (.integer 7), .lock 0, .park 0, .call 1 .exchange (.integer 8),
    .call 2 .exchange (.integer 9)]

/-- Threads 0 and 1 meet, and thread 2 is left. -/
def threeSchedule : List (Event sampleRuntime) :=
  [.lock 1, .serve 1, .signal 1 (some 0), .unlock 1, .lock 2, .park 2, .relock 0, .unlock 0]

theorem exchange_schedules_end_three :
    ∃ s s', (system sampleRuntime).run threeEvents = some s ∧
      (system sampleRuntime).replay s threeSchedule = some s' ∧
      s'.calls.map (fun c => c.outcome.isSome) = [true, true, false] ∧
      threeSchedule.length ≤ 7 * (openCalls s).card ∧
      ((∀ e, Forced e → ¬ Enabled s' e) → AtRest s') := by
  have hrun : ((((system sampleRuntime).restrict PromptEvent (fun _ _ => inferInstance)).run
      threeEvents).bind (fun s => (((system sampleRuntime).restrict InsideCall
        (fun _ _ => inferInstance)).replay s threeSchedule))).map
          (fun s' => s'.calls.map (fun c => c.outcome.isSome)) = some [true, true, false] := by
    decide
  obtain ⟨s', hs', hcalls⟩ := Option.map_eq_some_iff.mp hrun
  obtain ⟨s, hs, hschedule⟩ := Option.bind_eq_some_iff.mp hs'
  obtain ⟨hlength, hrest⟩ :=
    exchange_schedules_end s (System.run_restrict hs) (fun _ _ => inferInstance) _ s' hschedule
  exact ⟨s, s', System.run_of_restrict hs, System.replay_of_restrict hschedule, hcalls, hlength,
    hrest⟩

end Rendezvous
end FluaLibs
