import Mathlib.Order.Basic

/-! # Transition systems with guarded, executable steps

A concurrent component is a state type, an initial state and a set of events.
`Enabled s e` says that the event `e` can happen in `s`, and `next s e` is the
state it leads to; an event is one atomic action of one party, so a list of
events is one interleaving.  `run` replays such a list, and so evaluates a
concrete interleaving.

`ReachableBy ok` is reachability through steps that all meet the condition
`ok`, a condition on the state before the step and on the event.  With the
condition that always holds it is plain reachability.
-/
namespace FluaLibs

/-- A transition system whose steps are given by a guard and an effect. -/
structure System (State Event : Type) where
  init : State
  Enabled : State → Event → Prop
  decEnabled : ∀ s e, Decidable (Enabled s e)
  next : State → Event → State

namespace System
variable {State Event : Type} (sys : System State Event)

instance (s : State) (e : Event) : Decidable (sys.Enabled s e) := sys.decEnabled s e

/-- The state after `e`, or `none` when `e` cannot happen. -/
def step (s : State) (e : Event) : Option State :=
  if sys.Enabled s e then some (sys.next s e) else none

theorem step_eq_some {s s' : State} {e : Event} :
    sys.step s e = some s' ↔ sys.Enabled s e ∧ sys.next s e = s' := by
  simp [step]

/-- Replay a list of events; `none` when one of them cannot happen. -/
def replay (s : State) : List Event → Option State
  | [] => some s
  | e :: es => (sys.step s e).bind (fun s' => replay s' es)

/-- Replay from the initial state. -/
def run (es : List Event) : Option State := sys.replay sys.init es

theorem replay_cons_of_enabled {s s' : State} {e : Event} {es : List Event}
    (h : sys.Enabled s e) (hes : sys.replay (sys.next s e) es = some s') :
    sys.replay s (e :: es) = some s' := by
  rw [replay, sys.step_eq_some.mpr ⟨h, rfl⟩]
  exact hes

theorem replay_append (s : State) (es fs : List Event) :
    sys.replay s (es ++ fs) = (sys.replay s es).bind (fun t => sys.replay t fs) := by
  induction es generalizing s with
  | nil => rfl
  | cons e es ih =>
    rw [List.cons_append, replay, replay, Option.bind_assoc]
    exact Option.bind_congr (fun t _ => ih t)

/-- One more event, at the end. -/
theorem run_concat {s : State} {es : List Event} {e : Event} (h : sys.run es = some s)
    (he : sys.Enabled s e) : sys.run (es ++ [e]) = some (sys.next s e) := by
  have h' : sys.replay sys.init es = some s := h
  rw [run, replay_append, h']
  exact sys.replay_cons_of_enabled he rfl

/-- The states reached by runs whose steps all meet `ok`. -/
inductive ReachableBy (ok : State → Event → Prop) : State → Prop
  | init : ReachableBy ok sys.init
  | step {s : State} {e : Event} : ReachableBy ok s → ok s e → sys.Enabled s e →
      ReachableBy ok (sys.next s e)

/-- The states reached by any run. -/
abbrev Reachable : State → Prop := sys.ReachableBy (fun _ _ => True)

variable {sys} {ok : State → Event → Prop}

/-- **Invariant rule.**  What holds initially and is kept by every step that
meets the condition holds in every state such steps reach. -/
theorem ReachableBy.invariant {Inv : State → Prop} (hinit : Inv sys.init)
    (hstep : ∀ s e, Inv s → ok s e → sys.Enabled s e → Inv (sys.next s e))
    {s : State} (h : sys.ReachableBy ok s) : Inv s := by
  induction h with
  | init => exact hinit
  | step _ hok he ih => exact hstep _ _ ih hok he

/-- **Relative invariant rule.**  A step may rely on what has already been shown of every
state that such steps reach. -/
theorem ReachableBy.invariant_under {Aux Inv : State → Prop}
    (haux : ∀ s, sys.ReachableBy ok s → Aux s) (hinit : Inv sys.init)
    (hstep : ∀ s e, Aux s → Inv s → ok s e → sys.Enabled s e → Inv (sys.next s e))
    {s : State} (h : sys.ReachableBy ok s) : Inv s := by
  induction h with
  | init => exact hinit
  | step hs hok he ih => exact hstep _ _ (haux _ hs) ih hok he

/-- A stronger condition reaches fewer states. -/
theorem ReachableBy.mono {ok' : State → Event → Prop} (hle : ∀ s e, ok s e → ok' s e)
    {s : State} (h : sys.ReachableBy ok s) : sys.ReachableBy ok' s := by
  induction h with
  | init => exact .init
  | step _ hok he ih => exact .step ih (hle _ _ hok) he

/-- Replaying events that meet a condition on events alone stays within the
states reached under that condition. -/
theorem ReachableBy.replay {good : Event → Prop} {es : List Event} {s s' : State}
    (hs : sys.ReachableBy (fun _ e => good e) s) (hgood : ∀ e ∈ es, good e)
    (h : sys.replay s es = some s') : sys.ReachableBy (fun _ e => good e) s' := by
  induction es generalizing s with
  | nil => exact Option.some.inj h ▸ hs
  | cons e es ih =>
    obtain ⟨t, ht, hrest⟩ := Option.bind_eq_some_iff.mp h
    obtain ⟨he, rfl⟩ := sys.step_eq_some.mp ht
    exact ih (hs.step (hgood e (List.mem_cons_self ..)) he)
      (fun a ha => hgood a (List.mem_cons_of_mem _ ha)) hrest

theorem run_reachableBy {good : Event → Prop} {es : List Event} {s : State}
    (hgood : ∀ e ∈ es, good e) (h : sys.run es = some s) :
    sys.ReachableBy (fun _ e => good e) s :=
  ReachableBy.init.replay hgood h

theorem run_reachable {es : List Event} {s : State} (h : sys.run es = some s) :
    sys.Reachable s := by
  have hgood : ∀ e ∈ es, (fun _ : Event => True) e := fun _ _ => trivial
  exact run_reachableBy hgood h

/-- The system whose steps also meet `ok`, so that a run of it can be evaluated. -/
def restrict (sys : System State Event) (ok : State → Event → Prop)
    (dec : ∀ s e, Decidable (ok s e)) : System State Event where
  init := sys.init
  Enabled s e := ok s e ∧ sys.Enabled s e
  decEnabled s e := have := dec s e; inferInstanceAs (Decidable (ok s e ∧ sys.Enabled s e))
  next := sys.next

theorem reachableBy_of_restrict {dec : ∀ s e, Decidable (ok s e)} {s : State}
    (h : (sys.restrict ok dec).Reachable s) : sys.ReachableBy ok s := by
  induction h with
  | init => exact .init
  | step _ _ he ih => exact .step ih he.1 he.2

/-- A run of the restricted system stays within the states reached under the condition. -/
theorem run_restrict {dec : ∀ s e, Decidable (ok s e)} {es : List Event} {s : State}
    (h : (sys.restrict ok dec).run es = some s) : sys.ReachableBy ok s :=
  reachableBy_of_restrict (run_reachable h)

theorem run_of_restrict {dec : ∀ s e, Decidable (ok s e)} {es : List Event} {s : State}
    (h : (sys.restrict ok dec).run es = some s) : sys.run es = some s := by
  have general : ∀ (es : List Event) (s t : State), (sys.restrict ok dec).replay s es = some t →
      sys.replay s es = some t := by
    intro es
    induction es with
    | nil => exact fun _ _ h => h
    | cons e es ih =>
      intro s t h
      obtain ⟨u, hu, hrest⟩ := Option.bind_eq_some_iff.mp h
      obtain ⟨he, rfl⟩ := (sys.restrict ok dec).step_eq_some.mp hu
      exact sys.replay_cons_of_enabled he.2 (ih _ _ hrest)
  exact general es _ _ h

end System

/-- **Forward simulation** of `C` by `A`, for steps of `C` that meet `ok`: each
such step is matched by some events of `A`, possibly none. -/
structure Simulation {State Event AState AEvent : Type} (C : System State Event)
    (A : System AState AEvent) (ok : State → Event → Prop) where
  rel : State → AState → Prop
  init : rel C.init A.init
  step : ∀ s e a, rel s a → ok s e → C.Enabled s e →
    ∃ es a', A.replay a es = some a' ∧ rel (C.next s e) a'

namespace Simulation
variable {State Event AState AEvent : Type} {C : System State Event}
  {A : System AState AEvent} {ok : State → Event → Prop}

/-- Every state reached under the condition is related to a reachable state of
the simulating system. -/
theorem exists_reachable (sim : Simulation C A ok) {s : State} (h : C.ReachableBy ok s) :
    ∃ a, A.Reachable a ∧ sim.rel s a := by
  induction h with
  | init => exact ⟨A.init, .init, sim.init⟩
  | step _ hok he ih =>
    obtain ⟨a, ha, hrel⟩ := ih
    obtain ⟨es, a', hes, hrel'⟩ := sim.step _ _ a hrel hok he
    have hgood : ∀ e ∈ es, (fun _ : AEvent => True) e := fun _ _ => trivial
    exact ⟨a', ha.replay hgood hes, hrel'⟩

end Simulation
end FluaLibs
