import FluaLibs.RendezvousRefinement

/-! # How calls of the rendezvous end

The refinement of the matchmaker says what completed calls return.  For calls of
`exchange` alone: a call that returns has the arguments of one other call, which
has its arguments (`exchange_paired`), and two calls that meet return or raise as
one (`exchange_pairs_conclude`).  With timed calls, a call that reports a timeout
was matched with none (`timedexchange_all_or_nothing`), and one that was matched
returns `true` first only when its own last argument is `true`
(`timedexchange_result_iff`).

Each result has its condition on how waits end.  The runs at the end of each section
leave it, and show what the code then does.
-/
namespace FluaLibs
namespace Rendezvous
variable {R : Runtime}

/-- The matching is the one that the calls of `exchange` made. -/
def Agrees (m : Matching Nat) (s : State R) : Prop :=
  ∀ i j, m.partner i = some j ↔ (i, j) ∈ s.meetings ∨ (j, i) ∈ s.meetings

/-- Values `vs` of a state with closures `cs` are an argument list, value for value. -/
def Receives (theirs : Arguments R) (vs : List Value) (cs : List (Closure R)) : Prop :=
  List.Forall₂ (SameValue theirs.closures cs) theirs.values vs

/-- A call that met another one: that one is a call too, and whatever ends of the two
ends the way their arguments decide. -/
theorem Tracks.met {timed spurious honest : Prop} {s : State R} {a : Matchmaker (Arguments R)}
    (h : Tracks timed spurious honest s a) {i : Nat} {c : Call R} {o : Outcome R}
    (hc : s.calls[i]? = some c) (hmet : MetAndEnded honest a c i o) :
    ∃ j d, a.matching.partner i = some j ∧ s.calls[j]? = some d ∧
      Concluded c.entry c.args d.args o ∧ (honest → Exchangeable c.args d.args → ¬ c.EchoesFalse) ∧
      ∀ o', d.outcome = some o' → Concluded d.entry d.args c.args o' := by
  obtain ⟨j, theirs, hj, htheirs, hconcluded, hecho⟩ := hmet
  rw [h.offers, List.getElem?_map] at htheirs
  obtain ⟨d, hd, rfl⟩ := Option.map_eq_some_iff.mp htheirs
  refine ⟨j, d, hj, hd, hconcluded, hecho, ?_⟩
  intro o' ho'
  have hback := a.matching.symm i j hj
  rcases h.ended j d o' hd ho' with hmet' | ⟨_, hnone, _⟩
  · obtain ⟨i', theirs', hi', htheirs', hconcluded', _⟩ := hmet'
    obtain rfl : i = i' := Option.some.inj (hback.symm.trans hi')
    rw [h.offers, List.getElem?_map, hc] at htheirs'
    obtain rfl : c.args = theirs' := Option.some.inj htheirs'
    exact hconcluded'
  · rw [hnone] at hback
    cases hback

/-- The values a method returns after its own first result. -/
def Entry.results : Entry → List Value → List Value
  | .exchange, vs => vs
  | .timedexchange _ _, vs => vs.tail

theorem Entry.results_lead (e : Entry) (mine : Arguments R) (ws : List Value) :
    e.results (e.lead mine ++ ws) = ws := by
  cases e <;> rfl

theorem Concluded.returned {e : Entry} {mine theirs : Arguments R} {vs : List Value}
    {cs : List (Closure R)} (h : Concluded e mine theirs (.returned vs cs)) :
    Exchangeable mine theirs ∧
      ∃ ws, vs = e.lead mine ++ ws ∧ Receives theirs (e.results vs) cs := by
  by_cases hboth : Exchangeable mine theirs
  · obtain ⟨ws, cs', heq, hsame⟩ := h.delivered hboth
    cases heq
    refine ⟨hboth, ws, rfl, ?_⟩
    rw [Receives, Entry.results_lead]
    exact hsame
  · obtain ⟨err, heq⟩ := h.rejected hboth
    cases heq

theorem Concluded.receives {e : Entry} {mine theirs : Arguments R} {o : Outcome R}
    (h : Concluded e mine theirs o) (hboth : Exchangeable mine theirs) :
    ∃ vs cs, o = .returned vs cs ∧ Receives theirs (e.results vs) cs := by
  obtain ⟨ws, cs, rfl, hsame⟩ := h.delivered hboth
  refine ⟨_, cs, rfl, ?_⟩
  rw [Receives, Entry.results_lead]
  exact hsame

/-! ## Calls of `exchange` alone -/

/-- What happens when threads call `exchange` only, no `pthread` function fails and
nothing is cancelled. -/
def ExchangeEvent : Event R → Prop
  | .call _ e _ => e = .exchange
  | .lock _ | .park _ | .serve _ | .signal _ _ | .wake _ | .relock _ | .unlock _ => True
  | _ => False

/-- No wait returns 0 to a thread that is still registered. -/
def NoUnservedReturn (s : State R) : Event R → Prop
  | .relock t => (s.threads t).pc = .woken → s.waiter ≠ some t
  | _ => True

/-- All calls so far are calls of `exchange`, which give up under no circumstances. -/
theorem Tracks.ended_met {spurious honest : Prop} {s : State R} {a : Matchmaker (Arguments R)}
    (h : Tracks False spurious honest s a) {i : Nat} {c : Call R} {o : Outcome R}
    (hc : s.calls[i]? = some c) (ho : c.outcome = some o) : MetAndEnded honest a c i o := by
  rcases h.ended i c o hc ho with hmet | ⟨htimed, _⟩
  · exact hmet
  · exact htimed.elim

theorem Tracks.entry_eq {spurious honest : Prop} {s : State R} {a : Matchmaker (Arguments R)}
    (h : Tracks False spurious honest s a) {c : Call R} (hc : c ∈ s.calls) :
    c.entry = .exchange := by
  cases hcase : c.entry with
  | exchange => rfl
  | timedexchange sec nsec => exact (h.entries c hc (by rw [hcase]; rfl)).elim

/-- Every call that has returned is matched with another call, whose arguments it
returned, and which returns its arguments if it is over too. -/
def Paired (s : State R) : Prop :=
  ∃ m : Matching Nat, Agrees m s ∧
    ∀ i c vs cs, s.calls[i]? = some c → c.outcome = some (.returned vs cs) →
      ∃ j d, m.partner i = some j ∧ s.calls[j]? = some d ∧ Receives d.args vs cs ∧
        ∀ o, d.outcome = some o → ∃ ws ds, o = .returned ws ds ∧ Receives c.args ws ds

/-- **Calls of `exchange` are paired** in every run in which no wait returns 0 to a thread
that is still registered. -/
theorem exchange_paired (s : State R)
    (h : (system R).ReachableBy (fun s e => ExchangeEvent e ∧ NoUnservedReturn s e) s) :
    Paired s := by
  have horderly : (system R).ReachableBy (Orderly False True False) s := by
    refine h.mono ?_
    rintro s e ⟨hevent, hserved⟩
    cases e with
    | call t entry args =>
      obtain rfl : entry = .exchange := hevent
      exact fun htimed => by cases htimed
    | relock t => exact fun _ => hserved
    | serve t | unlock t => exact fun htimed => htimed.elim
    | lock | park | signal | wake => trivial
    | _ => exact hevent.elim
  obtain ⟨a, _, htracks⟩ := exists_tracks horderly
  refine ⟨a.matching, htracks.log, ?_⟩
  intro i c vs cs hc hreturned
  obtain ⟨j, d, hj, hd, hconcluded, _, hother⟩ :=
    htracks.met hc (htracks.ended_met hc hreturned)
  obtain ⟨hboth, ws, _, hreceives⟩ := hconcluded.returned
  have hentry := htracks.entry_eq (List.mem_of_getElem? hc)
  have hentry' := htracks.entry_eq (List.mem_of_getElem? hd)
  refine ⟨j, d, hj, hd, by rwa [hentry] at hreceives, ?_⟩
  intro o ho
  obtain ⟨us, ds, rfl, hreceives'⟩ := (hother o ho).receives hboth.symm
  exact ⟨us, ds, rfl, by rwa [hentry'] at hreceives'⟩

/-- The values of a call that has returned. -/
def Call.returnedValues (c : Call R) : Option (List Value) :=
  match c.outcome with
  | some (.returned vs _) => some vs
  | _ => none

theorem Call.outcome_of_returnedValues {c : Call R} {vs : List Value}
    (h : c.returnedValues = some vs) : ∃ cs, c.outcome = some (.returned vs cs) := by
  unfold Call.returnedValues at h
  split at h
  · rename_i ws cs ho
    obtain rfl := Option.some.inj h
    exact ⟨cs, ho⟩
  · cases h

/-- Threads 0 and 1 call `exchange` with an integer each, and both return. -/
def pairEvents : List (Event sampleRuntime) :=
  [.call 0 .exchange (.integer 7), .lock 0, .park 0,
    .call 1 .exchange (.integer 8), .lock 1, .serve 1, .signal 1 (some 0), .unlock 1,
    .relock 0, .unlock 0]

/-- Thread 0 waits, and its wait ends for no reason. -/
def spuriousEvents : List (Event sampleRuntime) :=
  [.call 0 .exchange (.integer 7), .lock 0, .park 0, .wake 0, .relock 0, .unlock 0]

instance : (e : Event R) → Decidable (ExchangeEvent e)
  | .call _ e _ => inferInstanceAs (Decidable (e = .exchange))
  | .lock _ | .park _ | .serve _ | .signal _ _ | .wake _ | .relock _ | .unlock _ =>
    instDecidableTrue
  | .lockTimeout _ | .lockError _ _ | .parkError _ _ | .signalError _ _ | .expire _ | .cancel _
  | .act _ | .cleanup _ | .exit _ | .join _ => instDecidableFalse

instance (s : State R) : (e : Event R) → Decidable (NoUnservedReturn s e)
  | .relock t => inferInstanceAs (Decidable ((s.threads t).pc = .woken → s.waiter ≠ some t))
  | .call _ _ _ | .lock _ | .lockTimeout _ | .lockError _ _ | .park _ | .parkError _ _ | .serve _
  | .signal _ _ | .signalError _ _ | .wake _ | .expire _ | .unlock _ | .cancel _ | .act _
  | .cleanup _ | .exit _ | .join _ => instDecidableTrue

theorem exchange_paired_two :
    ∃ s, (system sampleRuntime).run pairEvents = some s ∧
      s.calls.all (fun c => c.outcome.isSome) = true ∧ Paired s := by
  let ok : State sampleRuntime → Event sampleRuntime → Prop :=
    fun s e => ExchangeEvent e ∧ NoUnservedReturn s e
  have hrun : (((system sampleRuntime).restrict ok (fun _ _ => inferInstanceAs
      (Decidable (_ ∧ _)))).run pairEvents).map
        (fun s => s.calls.all (fun c => c.outcome.isSome)) = some true := by
    decide
  obtain ⟨s, hs, hall⟩ := Option.map_eq_some_iff.mp hrun
  exact ⟨s, System.run_of_restrict hs, hall, exchange_paired s (System.run_restrict hs)⟩

/-- A call whose wait ends for no reason returns its own arguments, unmatched. -/
theorem not_paired_spurious :
    ¬ ∀ (R : Runtime) (s : State R),
      (system R).ReachableBy (fun _ e => ExchangeEvent e) s → Paired s := by
  intro h
  have hrun : ((system sampleRuntime).run spuriousEvents).map
      (fun s => s.calls.map Call.returnedValues) = some [some [.integer 7]] := by
    decide
  have hgood : ∀ e ∈ spuriousEvents, ExchangeEvent e := by decide
  obtain ⟨s, hs, hcalls⟩ := Option.map_eq_some_iff.mp hrun
  obtain ⟨c, hsingle, hc⟩ := List.map_eq_singleton_iff.mp hcalls
  obtain ⟨cs, ho⟩ := Call.outcome_of_returnedValues hc
  have hat : s.calls[0]? = some c := by rw [hsingle]; rfl
  obtain ⟨m, _, hpaired⟩ := h sampleRuntime s (System.run_reachableBy hgood hs)
  obtain ⟨j, d, hj, hd, _⟩ := hpaired 0 c _ cs hat ho
  rw [hsingle] at hd
  have hlt := (List.getElem?_eq_some_iff.mp hd).1
  obtain rfl : j = 0 := by
    simp only [List.length_singleton] at hlt
    omega
  exact m.irrefl 0 hj

/-! ## Pairs of calls succeed or fail together -/

/-- How a call ends whose partner is `d`: with the arguments of `d`, unless `copyn`
rejects a value of either list; then with an error. -/
structure EndsWith (c d : Call R) (o : Outcome R) : Prop where
  returned : Exchangeable c.args d.args → ∃ vs cs, o = .returned vs cs ∧ Receives d.args vs cs
  raised : ¬ Exchangeable c.args d.args → ∃ err, o = .raised err

/-- The calls that are over have partners, and each pair returns or raises as one; the
registered thread and the owner of the mutex are in calls that go on, so that without
such a call nobody is registered and the mutex is free. -/
structure PairsConclude (s : State R) : Prop where
  pairs : ∃ m : Matching Nat, Agrees m s ∧
    ∀ i c o, s.calls[i]? = some c → c.outcome = some o →
      ∃ j d, m.partner i = some j ∧ s.calls[j]? = some d ∧ EndsWith c d o ∧
        ∀ o', d.outcome = some o' → EndsWith d c o'
  busy : ∀ t, s.waiter = some t ∨ s.mutex = some t → ∃ c, Current s t c
  quiet : (∀ c ∈ s.calls, c.outcome.isSome = true) → s.waiter = none ∧ s.mutex = none

/-- No wait ends without a reason. -/
def NotSpurious : Event R → Prop
  | .wake _ => False
  | _ => True

/-- **Calls of `exchange` succeed or fail in pairs** when no wait ends without a reason. -/
theorem exchange_pairs_conclude (s : State R)
    (h : (system R).ReachableBy (fun _ e => ExchangeEvent e ∧ NotSpurious e) s) :
    PairsConclude s := by
  have horderly : (system R).ReachableBy (Orderly False False False) s := by
    refine h.mono ?_
    rintro s e ⟨hevent, hreason⟩
    cases e with
    | call t entry args =>
      obtain rfl : entry = .exchange := hevent
      exact fun htimed => by cases htimed
    | relock t | serve t | unlock t => exact fun hfalse => hfalse.elim
    | lock | park | signal => trivial
    | wake => exact hreason
    | _ => exact hevent.elim
  obtain ⟨a, hwf, htracks⟩ := exists_tracks horderly
  have hends : ∀ {c d : Call R} {o}, c ∈ s.calls → Concluded c.entry c.args d.args o →
      EndsWith c d o := by
    intro c d o hc hconcluded
    refine ⟨fun hboth => ?_, hconcluded.rejected⟩
    obtain ⟨vs, cs, heq, hreceives⟩ := hconcluded.receives hboth
    exact ⟨vs, cs, heq, by rwa [htracks.entry_eq hc] at hreceives⟩
  have hbusy : ∀ t, s.waiter = some t ∨ s.mutex = some t → ∃ c, Current s t c := by
    intro t ht
    have hin : (s.threads t).pc.isInside = true := by
      rcases ht with hw | hm
      · exact hwf.registered_inside hw
      · exact Pc.isInside_of_isCritical ((hwf.threads t).owner.mp hm)
    obtain ⟨c, hc, _⟩ := (hwf.threads t).current hin
    exact ⟨c, hc⟩
  refine ⟨⟨a.matching, htracks.log, ?_⟩, hbusy, ?_⟩
  · intro i c o hc ho
    obtain ⟨j, d, hj, hd, hconcluded, _, hother⟩ := htracks.met hc (htracks.ended_met hc ho)
    exact ⟨j, d, hj, hd, hends (List.mem_of_getElem? hc) hconcluded,
      fun o' ho' => hends (List.mem_of_getElem? hd) (hother o' ho')⟩
  · intro hover
    have hnobody : ∀ t, ¬ (s.waiter = some t ∨ s.mutex = some t) := by
      intro t ht
      obtain ⟨c, hc⟩ := hbusy t ht
      have hsome := hover c (List.mem_of_getElem? hc.at_index)
      rw [hc.ongoing] at hsome
      cases hsome
    constructor
    · cases hw : s.waiter with
      | none => rfl
      | some t => exact absurd (Or.inl hw) (hnobody t)
    · cases hm : s.mutex with
      | none => rfl
      | some t => exact absurd (Or.inr hm) (hnobody t)

instance : (e : Event R) → Decidable (NotSpurious e)
  | .wake _ => instDecidableFalse
  | .call _ _ _ | .lock _ | .lockTimeout _ | .lockError _ _ | .park _ | .parkError _ _ | .serve _
  | .signal _ _ | .signalError _ _ | .expire _ | .relock _ | .unlock _ | .cancel _ | .act _
  | .cleanup _ | .exit _ | .join _ => instDecidableTrue

theorem exchange_pairs_conclude_two :
    ∃ s, (system sampleRuntime).run pairEvents = some s ∧ PairsConclude s := by
  have hrun : ((system sampleRuntime).run pairEvents).isSome = true := by decide
  obtain ⟨s, hs⟩ := Option.isSome_iff_exists.mp hrun
  have hgood : ∀ e ∈ pairEvents, ExchangeEvent e ∧ NotSpurious e := by decide
  exact ⟨s, hs, exchange_pairs_conclude s (System.run_reachableBy hgood hs)⟩

/-- Both calls of a pair are over. -/
def PairDone (s : State R) (p : Nat × Nat) : Prop :=
  p ∈ s.meetings ∧ ∀ i ∈ [p.1, p.2], ∃ c ∈ s.calls[i]?, c.outcome.isSome = true

instance (s : State R) (p : Nat × Nat) : Decidable (PairDone s p) :=
  inferInstanceAs (Decidable (_ ∧ _))

/-- Thread 2 registers before thread 0, which was served, is over. -/
def thirdEvents : List (Event sampleRuntime) :=
  [.call 0 .exchange (.integer 7), .lock 0, .park 0,
    .call 1 .exchange (.integer 8), .lock 1, .serve 1, .signal 1 (some 0), .unlock 1,
    .call 2 .exchange (.integer 9), .lock 2, .park 2, .relock 0]

/-- When the step that completes a pair has been taken, another call may be registered. -/
theorem waiter_after_pair :
    ¬ ∀ (R : Runtime) (s : State R) (e : Event R) (p : Nat × Nat),
      (system R).ReachableBy (fun _ e => ExchangeEvent e ∧ NotSpurious e) s →
      ExchangeEvent e → NotSpurious e → Enabled s e → ¬ PairDone s p → PairDone (next s e) p →
      (next s e).waiter = none ∧ (next s e).mutex = none := by
  intro h
  let last : Event sampleRuntime := .unlock 0
  have hrun : ((system sampleRuntime).run thirdEvents).map (fun s =>
      ((s.threads 0).pc.isUnlocking, decide (PairDone s (0, 1)),
        decide (PairDone (next s last) (0, 1)), (next s last).waiter)) =
      some (true, false, true, some 2) := by
    decide
  obtain ⟨s, hs, hfacts⟩ := Option.map_eq_some_iff.mp hrun
  simp only [Prod.mk.injEq, decide_eq_true_eq, decide_eq_false_iff_not] at hfacts
  obtain ⟨hpc, hbefore, hafter, hwaiter⟩ := hfacts
  have hgood : ∀ e ∈ thirdEvents, ExchangeEvent e ∧ NotSpurious e := by decide
  have hfree := (h sampleRuntime s last (0, 1) (System.run_reachableBy hgood hs) trivial trivial
    hpc hbefore hafter).1
  rw [hwaiter] at hfree
  cases hfree

/-! ## Timed calls -/

/-- What happens when threads call `exchange` and `timedexchange`, waits end for a
reason and nothing is cancelled.  A signal does not fail on a condition variable that
exists. -/
def TimedEvent : Event R → Prop
  | .call _ _ _ | .lock _ | .lockTimeout _ | .lockError _ _ | .park _ | .parkError _ _
  | .serve _ | .signal _ _ | .expire _ | .relock _ | .unlock _ => True
  | _ => False

/-- No wait is served after its deadline, and no deadline ends a wait that was served
(the call would return `false` all the same); and no timed call that was matched has
`false` as its own last argument (which it would return first). -/
def InTime (s : State R) : Event R → Prop
  | .serve _ => ∀ w ∈ s.waiter, (s.threads w).pc ≠ .expired
  | .expire t => s.waiter = some t
  | .unlock t => (s.threads t).pc.hasResults = true →
      ∀ c ∈ s.calls[(s.threads t).call]?, ¬ c.EchoesFalse
  | _ => True

/-- The call has reported a timeout: its first result is `false`. -/
def Call.ReportsTimeout (c : Call R) (vs : List Value) : Prop :=
  c.entry.isTimed = true ∧ vs.head? = some (.boolean false)

/-- A call that reports a timeout was matched with none; any other call that returns has
the arguments of its partner, which has its arguments if it is over too; and whoever is
about to give up at its deadline is the one that is registered. -/
structure AllOrNothing (s : State R) : Prop where
  pairs : ∃ m : Matching Nat, Agrees m s ∧
    ∀ i c vs cs, s.calls[i]? = some c → c.outcome = some (.returned vs cs) →
      (c.ReportsTimeout vs → m.partner i = none) ∧
      (¬ c.ReportsTimeout vs → ∃ j d, m.partner i = some j ∧ s.calls[j]? = some d ∧
        Receives d.args (c.entry.results vs) cs ∧
        ∀ o, d.outcome = some o →
          ∃ ws ds, o = .returned ws ds ∧ Receives c.args (d.entry.results ws) ds)
  clears_own : ∀ t t', (s.threads t).pc = .expired → s.waiter = some t' → t' = t

/-- The first result of a matched timed call is what stood below its results. -/
theorem Call.echoesFalse_of_lead {c : Call R} {ws : List Value}
    (h : c.ReportsTimeout (c.entry.lead c.args ++ ws)) : c.EchoesFalse := by
  obtain ⟨htimed, hhead⟩ := h
  refine ⟨htimed, ?_⟩
  cases hentry : c.entry with
  | exchange =>
    rw [hentry] at htimed
    cases htimed
  | timedexchange sec nsec =>
    rw [hentry] at hhead
    simp only [Entry.lead, List.cons_append, List.nil_append, List.head?_cons,
      Option.some.injEq] at hhead
    cases hlast : c.args.values.getLast? with
    | none =>
      rw [hlast] at hhead
      cases hhead
    | some v =>
      rw [hlast] at hhead
      exact congrArg some hhead

/-- **Timed calls are all-or-nothing** in every run in which no wait is both served and
over its deadline and no matched timed call has `false` as its last argument. -/
theorem timedexchange_all_or_nothing (s : State R)
    (h : (system R).ReachableBy (fun s e => TimedEvent e ∧ InTime s e) s) : AllOrNothing s := by
  have horderly : (system R).ReachableBy (Orderly True False True) s := by
    refine h.mono ?_
    rintro s e ⟨hevent, hintime⟩
    cases e with
    | call => exact fun _ => trivial
    | serve t | unlock t => exact fun _ => hintime
    | expire t => exact ⟨trivial, hintime⟩
    | relock t => exact fun hfalse => hfalse.elim
    | lock | park | signal | lockTimeout | lockError | parkError => trivial
    | _ => exact hevent.elim
  obtain ⟨a, hwf, htracks⟩ := exists_tracks horderly
  constructor
  · refine ⟨a.matching, htracks.log, ?_⟩
    intro i c vs cs hc hreturned
    rcases htracks.ended i c _ hc hreturned with hmet | ⟨_, hnone, halone⟩
    · obtain ⟨j, d, hj, hd, hconcluded, hecho, hother⟩ := htracks.met hc hmet
      obtain ⟨hboth, ws, rfl, hreceives⟩ := hconcluded.returned
      constructor
      · intro hreports
        exact absurd (Call.echoesFalse_of_lead hreports) (hecho trivial hboth)
      · intro _
        exact ⟨j, d, hj, hd, hreceives, fun o ho => (hother o ho).receives hboth.symm⟩
    · refine ⟨fun _ => hnone, fun hnot => ?_⟩
      rcases halone with ⟨err, heq⟩ | ⟨htimed, cs', heq⟩
      · cases heq
      · cases heq
        exact absurd ⟨htimed, rfl⟩ hnot
  · intro t t' hpc hw
    have hreg := ((htracks.threads t).expired hpc).2.1
    exact Option.some.inj (hw.symm.trans hreg)

instance : (e : Event R) → Decidable (TimedEvent e)
  | .call _ _ _ | .lock _ | .lockTimeout _ | .lockError _ _ | .park _ | .parkError _ _ | .serve _
  | .signal _ _ | .expire _ | .relock _ | .unlock _ => instDecidableTrue
  | .signalError _ _ | .wake _ | .cancel _ | .act _ | .cleanup _ | .exit _ | .join _ =>
    instDecidableFalse

instance (c : Call R) : Decidable c.EchoesFalse := inferInstanceAs (Decidable (_ ∧ _))

instance (s : State R) : (e : Event R) → Decidable (InTime s e)
  | .serve _ | .expire _ | .unlock _ => by
    unfold InTime
    infer_instance
  | .call _ _ _ | .lock _ | .lockTimeout _ | .lockError _ _ | .park _ | .parkError _ _
  | .signal _ _ | .signalError _ _ | .wake _ | .relock _ | .cancel _ | .act _ | .cleanup _
  | .exit _ | .join _ => instDecidableTrue

/-- Thread 0 waits with a deadline, which passes. -/
def timeoutEvents : List (Event sampleRuntime) :=
  [.call 0 (.timedexchange 1 0) (.integer 7), .lock 0, .park 0, .expire 0,
    .relock 0, .unlock 0]

/-- Thread 1 exchanges with thread 0, whose deadline has passed. -/
def lateEvents : List (Event sampleRuntime) :=
  [.call 0 (.timedexchange 1 0) (.integer 7), .lock 0, .park 0,
    .call 1 .exchange (.integer 8), .lock 1, .expire 0, .serve 1, .signal 1 none,
    .unlock 1, .relock 0, .unlock 0]

theorem timedexchange_all_or_nothing_alone :
    ∃ s, (system sampleRuntime).run timeoutEvents = some s ∧
      s.calls.map Call.returnedValues = [some [.boolean false]] ∧ AllOrNothing s := by
  let ok : State sampleRuntime → Event sampleRuntime → Prop :=
    fun s e => TimedEvent e ∧ InTime s e
  have hrun : (((system sampleRuntime).restrict ok (fun _ _ => inferInstanceAs
      (Decidable (_ ∧ _)))).run timeoutEvents).map
        (fun s => s.calls.map Call.returnedValues) = some [some [.boolean false]] := by
    decide
  obtain ⟨s, hs, hcalls⟩ := Option.map_eq_some_iff.mp hrun
  exact ⟨s, System.run_of_restrict hs, hcalls,
    timedexchange_all_or_nothing s (System.run_restrict hs)⟩

/-- A call that is served after its deadline reports a timeout, although the other call
has received its arguments. -/
theorem not_all_or_nothing_late :
    ¬ ∀ (R : Runtime) (s : State R),
      (system R).ReachableBy (fun _ e => TimedEvent e) s → AllOrNothing s := by
  intro h
  have hrun : ((system sampleRuntime).run lateEvents).map
      (fun s => (s.meetings, s.calls.map Call.returnedValues, s.calls.map (fun c => c.entry))) =
      some ([(0, 1)], [some [.boolean false], some [.integer 7]],
        [.timedexchange 1 0, .exchange]) := by
    decide
  have hgood : ∀ e ∈ lateEvents, TimedEvent e := by decide
  obtain ⟨s, hs, hfacts⟩ := Option.map_eq_some_iff.mp hrun
  simp only [Prod.mk.injEq] at hfacts
  obtain ⟨hmeetings, hcalls, hentries⟩ := hfacts
  have hat : ∃ c, s.calls[0]? = some c := by
    have hlen := congrArg List.length hcalls
    simp only [List.length_map, List.length_cons, List.length_nil] at hlen
    exact ⟨_, List.getElem?_eq_getElem (by omega)⟩
  obtain ⟨c, hc⟩ := hat
  have hvalues : c.returnedValues = some [.boolean false] := by
    have := congrArg (fun l => l[0]?) hcalls
    simpa [List.getElem?_map, hc] using this
  have hentry : c.entry = .timedexchange 1 0 := by
    have := congrArg (fun l => l[0]?) hentries
    simpa [List.getElem?_map, hc] using this
  obtain ⟨cs, ho⟩ := Call.outcome_of_returnedValues hvalues
  obtain ⟨m, hagrees, hpairs⟩ := (h sampleRuntime s (System.run_reachableBy hgood hs)).pairs
  have hnone := (hpairs 0 c _ cs hc ho).1 ⟨by rw [hentry]; rfl, rfl⟩
  have hsome : m.partner 0 = some 1 := (hagrees 0 1).mpr (Or.inl (by simp [hmeetings]))
  rw [hnone] at hsome
  cases hsome

/-! ## The first result of a timed call -/

/-- What happens when no wait ends without a reason or in a cancellation, and no deadline
passes for a call that is matched. -/
def PromptEvent (s : State R) : Event R → Prop
  | .wake _ | .signalError _ _ => False
  | .serve _ => ∀ w ∈ s.waiter, (s.threads w).pc ≠ .expired
  | .expire t => s.waiter = some t
  | .act t => (s.threads t).pc ≠ .waiting
  | _ => True

/-- All values of the list are serializable. -/
def Arguments.Serializable (a : Arguments R) : Prop :=
  ∀ v ∈ a.values, FluaLibs.Serializable a.globals a.closures v

/-- No value of the list is a function over a function. -/
def Arguments.Flat (a : Arguments R) : Prop := ∀ v ∈ a.values, ¬ HasFunctionUpvalue a.closures v

theorem Arguments.Serializable.copyable_iff {a : Arguments R} (h : a.Serializable) :
    a.Copyable ↔ a.Flat := by
  apply forall_congr'
  intro v
  exact forall_congr' (fun hv => copyable_iff_of_serializable (h v hv))

/-- The call has returned `true`, then the values of `theirs`, and nothing else. -/
def ReturnsTrueThen (theirs : Arguments R) (o : Outcome R) : Prop :=
  ∃ ws cs, o = .returned (.boolean true :: ws) cs ∧ Receives theirs ws cs

/-- The value that a timed call returns first is `true` only where its own last
argument is. -/
theorem Entry.lead_eq_true {e : Entry} {mine : Arguments R} {us ws : List Value}
    (he : e.isTimed = true) (h : e.lead mine ++ us = .boolean true :: ws) :
    mine.values.getLast? = some (.boolean true) ∧ us = ws := by
  cases e with
  | exchange => cases he
  | timedexchange sec nsec =>
    simp only [Entry.lead, List.cons_append, List.nil_append, List.cons.injEq] at h
    obtain ⟨hlead, hrest⟩ := h
    cases hlast : mine.values.getLast? with
    | none =>
      rw [hlast] at hlead
      cases hlead
    | some v =>
      rw [hlast] at hlead
      exact ⟨congrArg some hlead, hrest⟩

theorem Entry.lead_of_getLast? {e : Entry} {mine : Arguments R} (he : e.isTimed = true)
    (h : mine.values.getLast? = some (.boolean true)) : e.lead mine = [.boolean true] := by
  cases e with
  | exchange => cases he
  | timedexchange sec nsec =>
    simp only [Entry.lead, h]
    rfl

/-- How a matched timed call ends decides whether it returns `true` first. -/
theorem Concluded.returnsTrueThen_iff {e : Entry} {mine theirs : Arguments R} {o : Outcome R}
    (h : Concluded e mine theirs o) (he : e.isTimed = true) :
    ReturnsTrueThen theirs o ↔
      mine.values.getLast? = some (.boolean true) ∧ Exchangeable mine theirs := by
  constructor
  · rintro ⟨ws, cs, rfl, _⟩
    obtain ⟨hboth, us, heq, _⟩ := h.returned
    exact ⟨(Entry.lead_eq_true he heq.symm).1, hboth⟩
  · rintro ⟨hlast, hboth⟩
    obtain ⟨ws, cs, rfl, hsame⟩ := h.delivered hboth
    rw [Entry.lead_of_getLast? he hlast]
    exact ⟨ws, cs, rfl, hsame⟩

/-- **A matched timed call returns `true` and then the values of its partner exactly when
its own last argument is `true`** (and no function is nested in a function). -/
theorem timedexchange_result_iff (s : State R) (h : (system R).ReachableBy PromptEvent s)
    {i j : Nat} {c d : Call R} {o : Outcome R}
    (hmet : (i, j) ∈ s.meetings ∨ (j, i) ∈ s.meetings) (hc : s.calls[i]? = some c)
    (hd : s.calls[j]? = some d) (htimed : c.entry.isTimed = true)
    (hmine : c.args.Serializable) (htheirs : d.args.Serializable) (ho : c.outcome = some o) :
    ReturnsTrueThen d.args o ↔
      c.args.values.getLast? = some (.boolean true) ∧ c.args.Flat ∧ d.args.Flat := by
  have horderly : (system R).ReachableBy (Orderly True False False) s := by
    refine h.mono ?_
    rintro s e hprompt
    cases e with
    | call => exact fun _ => trivial
    | serve t => exact fun _ => hprompt
    | expire t => exact ⟨trivial, hprompt⟩
    | relock t | unlock t => exact fun hfalse => hfalse.elim
    | act t => exact hprompt
    | wake | signalError => exact hprompt
    | _ => trivial
  obtain ⟨a, _, htracks⟩ := exists_tracks horderly
  have hpartner : a.matching.partner i = some j := (htracks.log i j).mpr hmet
  have hconcluded : Concluded c.entry c.args d.args o := by
    rcases htracks.ended i c o hc ho with hended | ⟨_, hnone, _⟩
    · obtain ⟨j', d', hj', hd', hconcluded, _⟩ := htracks.met hc hended
      obtain rfl : j = j' := Option.some.inj (hpartner.symm.trans hj')
      obtain rfl : d = d' := Option.some.inj (hd.symm.trans hd')
      exact hconcluded
    · rw [hnone] at hpartner
      cases hpartner
  rw [hconcluded.returnsTrueThen_iff htimed, Exchangeable, hmine.copyable_iff,
    htheirs.copyable_iff]

instance (s : State R) : (e : Event R) → Decidable (PromptEvent s e)
  | .wake _ | .signalError _ _ => instDecidableFalse
  | .serve _ | .expire _ | .act _ => by
    unfold PromptEvent
    infer_instance
  | .call _ _ _ | .lock _ | .lockTimeout _ | .lockError _ _ | .park _ | .parkError _ _
  | .signal _ _ | .relock _ | .unlock _ | .cancel _ | .cleanup _ | .exit _ | .join _ =>
    instDecidableTrue

/-- A timed call of thread 0 with the argument `v` meets a call of thread 1 with 8. -/
def timedPairEvents (v : Value) (hv : v.isScalar = true) : List (Event sampleRuntime) :=
  [.call 0 (.timedexchange 1 0) (.single v hv), .lock 0, .park 0,
    .call 1 .exchange (.integer 8), .lock 1, .serve 1, .signal 1 (some 0), .unlock 1,
    .relock 0, .unlock 0]

/-- Scalars are serializable, and no functions. -/
theorem Arguments.Serializable.of_scalars {a : Arguments R}
    (h : ∀ v ∈ a.values, v.isScalar = true) : a.Serializable ∧ a.Flat := by
  constructor
  · intro v hv
    exact .scalar (h v hv)
  · rintro v hv ⟨r, _, _, _, rfl, _⟩
    exact Bool.noConfusion (h _ hv)

/-- What a call was given and what it returned. -/
structure Summary where
  entry : Entry
  args : List Value
  results : Option (List Value)
  deriving DecidableEq

def Call.summary (c : Call R) : Summary := ⟨c.entry, c.args.values, c.returnedValues⟩

/-- What `timedPairEvents` leads to: both calls are over, and the first has returned its
own argument and then 8. -/
theorem timedPair_run (v : Value) (hv : v.isScalar = true)
    (hrun : (((system sampleRuntime).restrict PromptEvent (fun _ _ => inferInstance)).run
      (timedPairEvents v hv)).map (fun s => (s.meetings, s.calls.map Call.summary)) =
      some ([(0, 1)], [⟨.timedexchange 1 0, [v], some [v, .integer 8]⟩,
        ⟨.exchange, [.integer 8], some [v]⟩])) :
    ∃ s c d cs, (system sampleRuntime).run (timedPairEvents v hv) = some s ∧
      (system sampleRuntime).ReachableBy PromptEvent s ∧ (0, 1) ∈ s.meetings ∧
      s.calls[0]? = some c ∧ s.calls[1]? = some d ∧ c.entry = .timedexchange 1 0 ∧
      c.args.values = [v] ∧ d.args.values = [.integer 8] ∧
      c.outcome = some (.returned [v, .integer 8] cs) := by
  obtain ⟨s, hs, hfacts⟩ := Option.map_eq_some_iff.mp hrun
  simp only [Prod.mk.injEq] at hfacts
  obtain ⟨hmeetings, hcalls⟩ := hfacts
  obtain ⟨c, rest, hrest, hc, hcalls'⟩ := List.map_eq_cons_iff.mp hcalls
  obtain ⟨d, hd, hd'⟩ := List.map_eq_singleton_iff.mp hcalls'
  simp only [Call.summary, Summary.mk.injEq] at hc hd'
  obtain ⟨cs, ho⟩ := Call.outcome_of_returnedValues hc.2.2
  refine ⟨s, c, d, cs, System.run_of_restrict hs, System.run_restrict hs, ?_, ?_, ?_, hc.1, hc.2.1,
    hd'.2.1, ho⟩
  · rw [hmeetings]
    exact List.mem_singleton_self _
  · rw [hrest]
    rfl
  · rw [hrest, hd]
    rfl

theorem scalars_singleton {a : Arguments R} {v : Value} (h : a.values = [v])
    (hv : v.isScalar = true) : a.Serializable ∧ a.Flat := by
  apply Arguments.Serializable.of_scalars
  intro w hw
  rw [h] at hw
  rw [List.mem_singleton.mp hw]
  exact hv

theorem timedexchange_result_iff_true :
    ∃ s c d o, (system sampleRuntime).run (timedPairEvents (.boolean true) rfl) = some s ∧
      s.calls[0]? = some c ∧ s.calls[1]? = some d ∧ c.outcome = some o ∧
      ReturnsTrueThen d.args o := by
  obtain ⟨s, c, d, cs, hrun, hreach, hmet, hc, hd, hentry, hargs, hargs', ho⟩ :=
    timedPair_run (.boolean true) rfl (by decide)
  obtain ⟨hser, hflat⟩ := scalars_singleton hargs rfl
  obtain ⟨hser', hflat'⟩ := scalars_singleton hargs' rfl
  refine ⟨s, c, d, _, hrun, hc, hd, ho, ?_⟩
  have hiff := timedexchange_result_iff s hreach (Or.inl hmet) hc hd (by rw [hentry]; rfl)
    hser hser' ho
  exact hiff.mpr ⟨by rw [hargs]; rfl, hflat, hflat'⟩

/-- A timed call with the argument 7 that meets one with 8 returns 7 and 8. -/
theorem not_timedexchange_result :
    ¬ ∀ (R : Runtime) (s : State R), (system R).ReachableBy PromptEvent s →
      ∀ (i j : Nat) (c d : Call R) (o : Outcome R),
        (i, j) ∈ s.meetings ∨ (j, i) ∈ s.meetings → s.calls[i]? = some c → s.calls[j]? = some d →
        c.entry.isTimed = true → c.args.Serializable → d.args.Serializable →
        c.outcome = some o → ReturnsTrueThen d.args o := by
  intro h
  obtain ⟨s, c, d, cs, _, hreach, hmet, hc, hd, hentry, hargs, hargs', ho⟩ :=
    timedPair_run (.integer 7) rfl (by decide)
  obtain ⟨ws, cs', heq, _⟩ := h sampleRuntime s hreach 0 1 c d _ (Or.inl hmet) hc hd
    (by rw [hentry]; rfl) (scalars_singleton hargs rfl).1 (scalars_singleton hargs' rfl).1 ho
  cases heq

end Rendezvous
end FluaLibs
