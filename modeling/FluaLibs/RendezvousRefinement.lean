import FluaLibs.Matchmaker
import FluaLibs.RendezvousSafety

/-! # Who is paired with whom

The rendezvous object refines a matchmaker: a call is an offer, `exchange` matches
two offers, and what a call returns is decided by the offer it is matched with.
The refinement (`simulation`) covers the runs in which every wait ends as the code
expects: a wait that returns 0 has been served, and a wait that is served does not
end at its deadline (`Orderly`).  Without the first a call returns its own
arguments; without the second a call reports a timeout although its arguments
were delivered.
-/
namespace FluaLibs
namespace Rendezvous
variable {R : Runtime}

/-- A timed call whose own last argument is `false`: the value `timedexchange`
returns first when it was matched. -/
def Call.EchoesFalse (c : Call R) : Prop :=
  c.entry.isTimed = true ∧ c.args.values.getLast? = some (.boolean false)

/-- About to unlock the mutex and return results. -/
def Pc.hasResults : Pc → Bool
  | unlocking n => decide (0 ≤ n)
  | _ => false

/-- The runs the refinement covers.  `timed` says whether there are timed calls and
calls that fail, `spurious` whether a wait may end without a reason, and `honest`
whether the first result of a matched timed call must not be taken for a timeout. -/
def Orderly (timed spurious honest : Prop) (s : State R) : Event R → Prop
  | .call _ e _ => e.isTimed = true → timed
  | .lock _ | .park _ | .signal _ _ => True
  | .wake _ => spurious
  | .lockTimeout _ | .lockError _ _ | .parkError _ _ => timed
  | .serve _ => timed → ∀ w ∈ s.waiter, (s.threads w).pc ≠ .expired
  | .expire t => timed ∧ s.waiter = some t
  | .relock t => spurious → (s.threads t).pc = .woken → s.waiter ≠ some t
  | .unlock t => honest → (s.threads t).pc.hasResults = true →
      ∀ c ∈ s.calls[(s.threads t).call]?, ¬ c.EchoesFalse
  | .act t => (s.threads t).pc ≠ .waiting
  | .cancel _ | .cleanup _ | .exit _ | .join _ => True
  | .signalError _ _ => False

/-! ## What a state says about the matchmaker -/

/-- Offer `k` has met another one, and is left with `n` and `L`. -/
def Met (a : Matchmaker (Arguments R)) (k : Nat) (e : Entry) (n : Int) (L : LuaState R) : Prop :=
  ∃ mine j theirs, a.offers[k]? = some mine ∧ a.matching.partner k = some j ∧
    a.offers[j]? = some theirs ∧ Settled mine theirs e n L

/-- How offer `k` may end without a partner. -/
def GaveUp (e : Entry) (n : Int) : Prop := n = -1 ∨ (n = -2 ∧ e.isTimed = true)

/-- Offer `k` has met another one and ended with `o`. -/
def MetAndEnded (honest : Prop) (a : Matchmaker (Arguments R)) (c : Call R) (k : Nat)
    (o : Outcome R) : Prop :=
  ∃ j theirs, a.matching.partner k = some j ∧ a.offers[j]? = some theirs ∧
    Concluded c.entry c.args theirs o ∧
    (honest → Exchangeable c.args theirs → ¬ c.EchoesFalse)

/-- A call that ended without a partner: with an error, or with `false` alone. -/
def EndedAlone (c : Call R) (o : Outcome R) : Prop :=
  (∃ err, o = .raised err) ∨ (c.entry.isTimed = true ∧ ∃ cs, o = .returned [.boolean false] cs)

/-- How far the current call of `t` has come. -/
structure Progress (timed spurious : Prop) (s : State R) (a : Matchmaker (Arguments R)) (t : Nat) :
    Prop where
  entering : (s.threads t).pc.isEntering = true →
    a.matching.partner (s.threads t).call = none
  registered : s.waiter = some t → a.matching.partner (s.threads t).call = none
  served : (s.threads t).pc.isBlocked = true → s.waiter ≠ some t →
    ∃ m l, (s.threads t).lua = l.push (.integer m) ∧
      Met a (s.threads t).call (s.threads t).entry m l
  signalling : ∀ n, (s.threads t).pc = .signalling n →
    Met a (s.threads t).call (s.threads t).entry n (s.threads t).lua
  unlocking : ∀ n, (s.threads t).pc = .unlocking n →
    Met a (s.threads t).call (s.threads t).entry n (s.threads t).lua ∨
    (timed ∧ a.matching.partner (s.threads t).call = none ∧ GaveUp (s.threads t).entry n)
  expired : (s.threads t).pc = .expired →
    timed ∧ s.waiter = some t ∧ (s.threads t).entry.isTimed = true
  woken : (s.threads t).pc = .woken → s.waiter = some t → spurious

/-- The matchmaker `a` describes the rendezvous `s`. -/
structure Tracks (timed spurious honest : Prop) (s : State R) (a : Matchmaker (Arguments R)) :
    Prop where
  offers : a.offers = s.calls.map Call.args
  log : ∀ i j, a.matching.partner i = some j ↔ (i, j) ∈ s.meetings ∨ (j, i) ∈ s.meetings
  entries : ∀ c ∈ s.calls, c.entry.isTimed = true → timed
  threads : ∀ t, Progress timed spurious s a t
  ended : ∀ (k : Nat) c o, s.calls[k]? = some c → c.outcome = some o →
    MetAndEnded honest a c k o ∨
    (timed ∧ a.matching.partner k = none ∧ EndedAlone c o)

theorem Met.mono {a a' : Matchmaker (Arguments R)} {k : Nat} {e : Entry} {n : Int}
    {L : LuaState R} (h : Met a k e n L) (ha : a.Extends a') : Met a' k e n L := by
  obtain ⟨mine, j, theirs, hmine, hj, htheirs, hsettled⟩ := h
  exact ⟨mine, j, theirs, ha.offers _ _ hmine, ha.partner _ _ hj, ha.offers _ _ htheirs, hsettled⟩

theorem MetAndEnded.mono {honest : Prop} {a a' : Matchmaker (Arguments R)} {c : Call R} {k : Nat}
    {o : Outcome R} (h : MetAndEnded honest a c k o) (ha : a.Extends a') :
    MetAndEnded honest a' c k o := by
  obtain ⟨j, theirs, hj, htheirs, hend⟩ := h
  exact ⟨j, theirs, ha.partner _ _ hj, ha.offers _ _ htheirs, hend⟩

/-- A thread that a step does not touch is where it was. -/
theorem Progress.frame {timed spurious : Prop} {s s' : State R} {a a' : Matchmaker (Arguments R)}
    {t : Nat} (h : Progress timed spurious s a t) (hth : s'.threads t = s.threads t)
    (hw : s'.waiter = some t ↔ s.waiter = some t) (ha : a.Extends a')
    (hfree : (s.threads t).pc.isInside = true → a.matching.partner (s.threads t).call = none →
      a'.matching.partner (s.threads t).call = none)
    (hin : s.waiter = some t → (s.threads t).pc.isInside = true) :
    Progress timed spurious s' a' t := by
  constructor
  · intro hentering
    rw [hth] at hentering ⊢
    exact hfree (Pc.isInside_of_isEntering hentering) (h.entering hentering)
  · intro hreg
    rw [hth]
    exact hfree (hin (hw.mp hreg)) (h.registered (hw.mp hreg))
  · intro hblocked hnot
    rw [hth] at hblocked ⊢
    obtain ⟨m, l, hlua, hmet⟩ := h.served hblocked (fun hreg => hnot (hw.mpr hreg))
    exact ⟨m, l, hlua, hmet.mono ha⟩
  · intro n hpc
    rw [hth] at hpc ⊢
    exact (h.signalling n hpc).mono ha
  · intro n hpc
    rw [hth] at hpc ⊢
    rcases h.unlocking n hpc with hmet | ⟨htimed, hnone, hgave⟩
    · exact Or.inl (hmet.mono ha)
    · exact Or.inr ⟨htimed, hfree (by rw [hpc]; rfl) hnone, hgave⟩
  · intro hpc
    rw [hth] at hpc ⊢
    obtain ⟨htimed, hreg, hentry⟩ := h.expired hpc
    exact ⟨htimed, hw.mpr hreg, hentry⟩
  · intro hpc hreg
    rw [hth] at hpc
    exact h.woken hpc (hw.mp hreg)

section Steps
variable {timed spurious honest : Prop} {s : State R} {a : Matchmaker (Arguments R)}
  (hwf : WellFormed s) (h : Tracks timed spurious honest s a) {t : Nat}
include hwf h

/-- A step of one thread that makes no call, ends none and matches none. -/
theorem Tracks.update_one (t : Nat) {s' : State R} (hother : ∀ t' ≠ t, s'.threads t' = s.threads t')
    (hcalls : s'.calls = s.calls) (hmeetings : s'.meetings = s.meetings)
    (hw : ∀ t' ≠ t, (s'.waiter = some t' ↔ s.waiter = some t'))
    (hself : Progress timed spurious s' a t) : Tracks timed spurious honest s' a where
  offers := by rw [hcalls, h.offers]
  log := by rw [hmeetings]; exact h.log
  entries := by rw [hcalls]; exact h.entries
  threads t' := by
    by_cases ht' : t' = t
    · rw [ht']
      exact hself
    · exact (h.threads t').frame (hother t' ht') (hw t' ht') (.refl a) (fun _ hnone => hnone)
        (fun hreg => hwf.registered_inside hreg)
  ended := by rw [hcalls]; exact h.ended

/-- A call that has just been made has no partner. -/
theorem Tracks.call (e : Entry) (args : Arguments R) (hpc : (s.threads t).pc = .outside)
    (htimed : e.isTimed = true → timed) :
    Tracks timed spurious honest (next s (.call t e args)) (a.offer args) := by
  have hlen : a.offers.length = s.calls.length := by rw [h.offers, List.length_map]
  have hnew : a.matching.partner s.calls.length = none := by
    cases hp : a.matching.partner s.calls.length with
    | none => rfl
    | some j =>
      have := a.bound _ _ hp
      omega
  have hnotReg : s.waiter ≠ some t := hwf.not_registered (by rw [hpc]; rfl)
  constructor
  · simp [next, Matchmaker.offer, h.offers]
  · exact h.log
  · intro c hc
    rcases List.mem_append.mp hc with hc | hc
    · exact h.entries c hc
    · obtain rfl := List.mem_singleton.mp hc
      exact htimed
  · intro t'
    by_cases ht' : t' = t
    · subst t'
      constructor
      · intro _
        simpa [next, Matchmaker.offer] using hnew
      · intro hreg
        exact absurd hreg hnotReg
      · intro hblocked
        simp [next, Pc.isBlocked] at hblocked
      · intro n hn
        simp [next] at hn
      · intro n hn
        simp [next] at hn
      · intro hexpired
        simp [next] at hexpired
      · intro hwoken
        simp [next] at hwoken
    · exact (h.threads t').frame (by simp [next, ht']) Iff.rfl (a.offer_extends args)
        (fun _ hnone => hnone) (fun hreg => hwf.registered_inside hreg)
  · intro k c o hc ho
    by_cases hk : k < s.calls.length
    · have hold : s.calls[k]? = some c := by
        simpa [next, List.getElem?_append_left hk] using hc
      rcases h.ended k c o hold ho with hmet | hgave
      · exact Or.inl (hmet.mono (a.offer_extends args))
      · exact Or.inr hgave
    · have hlast : c = ⟨t, e, args, none⟩ := by
        obtain ⟨hlt, hget⟩ := List.getElem?_eq_some_iff.mp hc
        simp only [next, List.length_append, List.length_singleton] at hlt
        have : k = s.calls.length := by omega
        subst this
        simpa [next] using hget.symm
      rw [hlast] at ho
      cases ho

theorem Tracks.lock (hpc : (s.threads t).pc = .locking) :
    Tracks timed spurious honest (next s (.lock t)) a := by
  have hold := h.threads t
  have hnotReg : s.waiter ≠ some t := hwf.not_registered (by rw [hpc]; rfl)
  refine h.update_one hwf t ?_ rfl rfl (fun _ _ => Iff.rfl) ?_
  · intro t' ht'
    simp [next, State.setPc, ht']
  · constructor
    · intro _
      simpa [next, State.setPc] using hold.entering (by rw [hpc]; rfl)
    · intro hreg
      exact absurd hreg hnotReg
    all_goals simp [next, State.setPc, Pc.isBlocked]

theorem Tracks.park (hpc : (s.threads t).pc = .locked) (hfree : s.waiter = none) :
    Tracks timed spurious honest (next s (.park t)) a := by
  have hnone := (h.threads t).entering (by rw [hpc]; rfl)
  refine h.update_one hwf t ?_ rfl rfl ?_ ?_
  · intro t' ht'
    simp [next, ht']
  · intro t' ht'
    simp [next, hfree, ht'.symm]
  · constructor
    · intro hentering
      simp [next, Pc.isEntering] at hentering
    · intro _
      simpa [next] using hnone
    · intro _ hnot
      simp [next] at hnot
    all_goals simp [next]

/-- The wait fails at once. -/
theorem Tracks.parkError (msg : Value) (hpc : (s.threads t).pc = .locked) (htimed : timed) :
    Tracks timed spurious honest (next s (.parkError t msg)) a := by
  have hnone := (h.threads t).entering (by rw [hpc]; rfl)
  have hnotReg : s.waiter ≠ some t := hwf.not_registered (by rw [hpc]; rfl)
  refine h.update_one hwf t ?_ rfl rfl (fun _ _ => Iff.rfl) ?_
  · intro t' ht'
    simp [next, ht']
  · constructor
    · intro hentering
      simp [next, Pc.isEntering] at hentering
    · intro hreg
      exact absurd hreg hnotReg
    · intro hblocked
      simp [next, Pc.isBlocked] at hblocked
    · intro n hn
      simp [next] at hn
    · intro n hn
      obtain rfl : -1 = n := by simpa [next] using hn
      exact Or.inr ⟨htimed, by simpa [next] using hnone, Or.inl rfl⟩
    · intro hexpired
      simp [next] at hexpired
    · intro hwoken
      simp [next] at hwoken

omit hwf in
/-- The waiting call and the arriving call are both free to be matched. -/
theorem Tracks.canPair {w : Nat} {c d : Call R} (hpc : (s.threads t).pc = .locked)
    (hw : s.waiter = some w) (hc : Current s t c) (hd : Current s w d) (hne : w ≠ t) :
    a.CanPair (s.threads w).call (s.threads t).call where
  left := by
    rw [h.offers, List.length_map]
    exact (List.getElem?_eq_some_iff.mp hd.at_index).1
  right := by
    rw [h.offers, List.length_map]
    exact (List.getElem?_eq_some_iff.mp hc.at_index).1
  free_left := (h.threads w).registered hw
  free_right := (h.threads t).entering (by rw [hpc]; rfl)
  ne := hc.index_ne hd hne

omit hwf in
theorem Tracks.offer_of_current {c : Call R} (hc : Current s t c) :
    a.offers[(s.threads t).call]? = some c.args := by
  rw [h.offers, List.getElem?_map, hc.at_index]
  rfl

/-- **The exchange is a match** of the waiting call and the arriving one. -/
theorem Tracks.serve {w : Nat} (hpc : (s.threads t).pc = .locked) (hw : s.waiter = some w)
    (hok : timed → (s.threads w).pc ≠ .expired) :
    ∃ hpair : a.CanPair (s.threads w).call (s.threads t).call,
      Tracks timed spurious honest (next s (.serve t)) (a.join hpair) := by
  obtain ⟨c, d, nres, L', m, l', hc, hd, hne, hmine, htheirs, heq⟩ := hwf.serve_spec hpc hw
  have hpair := h.canPair hpc hw hc hd hne
  have hleft : (a.join hpair).matching.partner (s.threads w).call = some (s.threads t).call :=
    a.matching.pair_left hpair.free_left hpair.free_right hpair.ne
  have hright : (a.join hpair).matching.partner (s.threads t).call = some (s.threads w).call :=
    a.matching.pair_right hpair.free_left hpair.free_right hpair.ne
  have hoffer := h.offer_of_current hc
  have hoffer' := h.offer_of_current hd
  have hblocked := (hwf.threads w).registered hw
  refine ⟨hpair, ?_⟩
  rw [heq]
  constructor
  · exact h.offers
  · intro i j
    have hiff := a.matching.pair_partner_iff hpair.free_left hpair.free_right hpair.ne
      (k := i) (l := j)
    rw [Matchmaker.join, hiff, h.log]
    simp only [List.mem_append, List.mem_singleton, Prod.mk.injEq]
    have hswap : i = (s.threads t).call ∧ j = (s.threads w).call ↔
        j = (s.threads w).call ∧ i = (s.threads t).call := and_comm
    rw [or_or_or_comm, hswap]
  · exact h.entries
  -- three kinds of threads: the one that serves, the one it serves, and the others
  · intro t'
    by_cases ht' : t' = t
    · subst t'
      constructor
      · intro hentering
        simp [Pc.isEntering] at hentering
      · intro hreg
        cases hreg
      · intro hblocked
        simp [Pc.isBlocked] at hblocked
      · intro n hn
        obtain rfl : nres = n := by simpa using hn
        simp only [State.setThread_threads_self, ← hc.entry]
        exact ⟨c.args, _, d.args, hoffer, hright, hoffer', hmine⟩
      all_goals simp
    · by_cases ht'w : t' = w
      · subst t'
        constructor
        · intro hentering
          simp only [State.setThread_threads_of_ne _ _ _ hne, State.setThread_threads_self]
            at hentering
          cases hcase : (s.threads w).pc <;> simp_all [Pc.isEntering, Pc.isBlocked]
        · intro hreg
          cases hreg
        · intro _ _
          simp only [State.setThread_threads_of_ne _ _ _ hne, State.setThread_threads_self,
            ← hd.entry]
          exact ⟨m, l', rfl, d.args, _, c.args, hoffer', hleft, hoffer, htheirs⟩
        · intro n hn
          simp only [State.setThread_threads_of_ne _ _ _ hne, State.setThread_threads_self] at hn
          rw [hn] at hblocked
          cases hblocked
        · intro n hn
          simp only [State.setThread_threads_of_ne _ _ _ hne, State.setThread_threads_self] at hn
          rw [hn] at hblocked
          cases hblocked
        · intro hexpired
          simp only [State.setThread_threads_of_ne _ _ _ hne, State.setThread_threads_self]
            at hexpired
          exact absurd hexpired (hok ((h.threads w).expired hexpired).1)
        · intro _ hreg
          cases hreg
      · refine (h.threads t').frame (by simp [ht', ht'w]) ?_ (Matchmaker.join_extends hpair) ?_ ?_
        · simp [hw, Ne.symm ht'w]
        · intro hin hnone
          obtain ⟨d', hd', _⟩ := (hwf.threads t').current hin
          exact Matchmaker.join_free hpair (hd.index_ne hd' ht'w) (hc.index_ne hd' ht') hnone
        · intro hreg
          exact hwf.registered_inside hreg
  -- a call that has ended is neither of the two, which are still under way
  · intro k c' o hc' ho
    rcases h.ended k c' o hc' ho with hmet | ⟨htimed, hnone, halone⟩
    · exact Or.inl (hmet.mono (Matchmaker.join_extends hpair))
    · have hne_of : ∀ {u d'}, Current s u d' → k ≠ (s.threads u).call := by
        intro u d' hd' hk
        have hcd : s.calls[k]? = some c' := hc'
        rw [hk, hd'.at_index] at hcd
        have : d' = c' := Option.some.inj hcd
        rw [← this, hd'.ongoing] at ho
        cases ho
      exact Or.inr ⟨htimed, Matchmaker.join_free hpair (hne_of hd) (hne_of hc) hnone, halone⟩

/-- A call ends: it met another one, or it gave up. -/
theorem Tracks.complete {o : Outcome R} {m : Option Nat} {c : Call R} (hc : Current s t c)
    (hnotReg : s.waiter ≠ some t)
    (hend : MetAndEnded honest a c (s.threads t).call o ∨
      (timed ∧ a.matching.partner (s.threads t).call = none ∧ EndedAlone c o)) :
    Tracks timed spurious honest { s.complete t o with mutex := m } a := by
  have hargs : (s.calls.modify (s.threads t).call (fun c => { c with outcome := some o })).map
      Call.args = s.calls.map Call.args := by
    apply List.ext_getElem?
    intro k
    simp only [List.getElem?_map, List.getElem?_modify]
    cases s.calls[k]? with
    | none => rfl
    | some d => by_cases hk : (s.threads t).call = k <;> simp [hk]
  constructor
  · exact h.offers.trans hargs.symm
  · exact h.log
  · intro d hd
    obtain ⟨k, hk⟩ := List.mem_iff_getElem?.mp hd
    simp only [State.complete, List.getElem?_modify] at hk
    obtain ⟨d', hd', rfl⟩ := Option.map_eq_some_iff.mp hk
    have hentry := h.entries d' (List.mem_of_getElem? hd')
    by_cases hkt : (s.threads t).call = k
    · simpa [hkt] using hentry
    · simpa [hkt] using hentry
  · intro t'
    by_cases ht' : t' = t
    · subst t'
      constructor
      · intro hentering
        simp [State.complete, State.setPc, Pc.isEntering] at hentering
      · intro hreg
        exact absurd hreg hnotReg
      · intro hblocked
        simp [State.complete, State.setPc, Pc.isBlocked] at hblocked
      all_goals simp [State.complete, State.setPc]
    · exact (h.threads t').frame (by simp [State.complete, State.setPc, ht']) Iff.rfl (.refl a)
        (fun _ hnone => hnone) (fun hreg => hwf.registered_inside hreg)
  · intro k d o' hd ho'
    simp only [State.complete, List.getElem?_modify] at hd
    by_cases hkt : (s.threads t).call = k
    · subst hkt
      rw [hc.at_index] at hd
      obtain rfl : { c with outcome := some o } = d := by simpa using hd
      obtain rfl : o = o' := Option.some.inj ho'
      exact hend
    · have hold : s.calls[k]? = some d := by simpa [hkt] using hd
      exact h.ended k d o' hold ho'

/-- A thread in the critical section goes from one result count to the same. -/
theorem Tracks.signalled {n : Int} (hpc : (s.threads t).pc = .signalling n) :
    Tracks timed spurious honest (s.setPc t (.unlocking n)) a := by
  have hmet := (h.threads t).signalling n hpc
  have hnotReg : s.waiter ≠ some t := hwf.not_registered (by rw [hpc]; rfl)
  refine h.update_one hwf t ?_ rfl rfl (fun _ _ => Iff.rfl) ?_
  · intro t' ht'
    simp [State.setPc, ht']
  · constructor
    · intro hentering
      simp [State.setPc, Pc.isEntering] at hentering
    · intro hreg
      exact absurd hreg hnotReg
    · intro hblocked
      simp [State.setPc, Pc.isBlocked] at hblocked
    · intro n' hn'
      simp [State.setPc] at hn'
    · intro n' hn'
      obtain rfl : n = n' := by simpa [State.setPc] using hn'
      exact Or.inl (by simpa [State.setPc] using hmet)
    all_goals simp [State.setPc]

/-- A wait comes to its end: with a signal when it has been served, at the deadline
when it has not, or for no reason. -/
theorem Tracks.leaveWait {pc : Pc} (hs : t ∈ s.sleepers)
    (hpc : (pc = .woken ∧ (s.waiter = some t → spurious)) ∨
      (pc = .expired ∧ timed ∧ s.waiter = some t ∧ (s.threads t).entry.isTimed = true)) :
    Tracks timed spurious honest
      { s.setPc t pc with sleepers := s.sleepers.filter (· ≠ t) } a := by
  have hold := h.threads t
  have hwaiting := (hwf.threads t).asleep hs
  refine h.update_one hwf t ?_ rfl rfl (fun _ _ => Iff.rfl) ?_
  · intro t' ht'
    simp [State.setPc, ht']
  · constructor
    · intro hentering
      rcases hpc with ⟨rfl, _⟩ | ⟨rfl, _⟩ <;> simp [State.setPc, Pc.isEntering] at hentering
    · simpa [State.setPc] using hold.registered
    · intro _ hnot
      simpa [State.setPc] using hold.served (by rw [hwaiting]; rfl) hnot
    · intro n hn
      rcases hpc with ⟨rfl, _⟩ | ⟨rfl, _⟩ <;> simp [State.setPc] at hn
    · intro n hn
      rcases hpc with ⟨rfl, _⟩ | ⟨rfl, _⟩ <;> simp [State.setPc] at hn
    · intro hexpired
      rcases hpc with ⟨rfl, _⟩ | ⟨rfl, hreg⟩
      · simp [State.setPc] at hexpired
      · simpa [State.setPc] using hreg
    · intro hwoken hreg
      rcases hpc with ⟨rfl, hspurious⟩ | ⟨rfl, _⟩
      · exact hspurious hreg
      · simp [State.setPc] at hwoken

/-- The wait returns 0: the thread reads the count that was left for it. -/
theorem Tracks.returnWoken (hpc : (s.threads t).pc = .woken) (hnot : s.waiter ≠ some t) :
    Tracks timed spurious honest
      { s.setThread t
          { s.threads t with
            pc := .unlocking (s.threads t).lua.topInteger, lua := (s.threads t).lua.pop 1 } with
        mutex := some t } a := by
  obtain ⟨m, l, hlua, hmet⟩ := (h.threads t).served (by rw [hpc]; rfl) hnot
  have hcount : (s.threads t).lua.topInteger = m := by
    simp [hlua, LuaState.topInteger, Value.tointeger]
  refine h.update_one hwf t ?_ rfl rfl (fun _ _ => Iff.rfl) ?_
  · intro t' ht'
    simp [ht']
  · constructor
    · intro hentering
      simp [Pc.isEntering] at hentering
    · intro hreg
      exact absurd hreg hnot
    · intro hblocked
      simp [Pc.isBlocked] at hblocked
    · intro n hn
      simp at hn
    · intro n hn
      obtain rfl : m = n := by simpa [hcount] using hn
      left
      simpa [hlua] using hmet
    all_goals simp

/-- The wait returns `ETIMEDOUT`: the thread was registered, and gives up. -/
theorem Tracks.returnExpired (hpc : (s.threads t).pc = .expired) :
    Tracks timed spurious honest
      { s.setPc t (.unlocking (-2)) with mutex := some t, waiter := none } a := by
  obtain ⟨htimed, hreg, hentry⟩ := (h.threads t).expired hpc
  have hnone := (h.threads t).registered hreg
  refine h.update_one hwf t ?_ rfl rfl ?_ ?_
  · intro t' ht'
    simp [State.setPc, ht']
  · intro t' ht'
    simp [hreg, ht'.symm]
  · constructor
    · intro hentering
      simp [State.setPc, Pc.isEntering] at hentering
    · intro hreg'
      cases hreg'
    · intro hblocked
      simp [State.setPc, Pc.isBlocked] at hblocked
    · intro n hn
      simp [State.setPc] at hn
    · intro n hn
      obtain rfl : -2 = n := by simpa [State.setPc] using hn
      refine Or.inr ⟨htimed, by simpa [State.setPc] using hnone, Or.inr ⟨rfl, ?_⟩⟩
      simpa [State.setPc] using hentry
    all_goals simp [State.setPc]

/-- A request for cancellation is no event of the matchmaker. -/
theorem Tracks.cancel : Tracks timed spurious honest (next s (.cancel t)) a := by
  have hold := h.threads t
  refine h.update_one hwf t ?_ rfl rfl (fun _ _ => Iff.rfl) ?_
  · intro t' ht'
    simp [next, ht']
  · constructor
    · simpa [next] using hold.entering
    · simpa [next] using hold.registered
    · simpa [next] using hold.served
    · simpa [next] using hold.signalling
    · simpa [next] using hold.unlocking
    · simpa [next] using hold.expired
    · simpa [next] using hold.woken

/-- A thread that is not in a call does something else, or ends. -/
theorem Tracks.setOutside (th : Thread R) (hpc : (s.threads t).pc.isInside = false)
    (hpc' : th.pc.isInside = false) (hnot : th.pc ≠ .cancelled) :
    Tracks timed spurious honest (s.setThread t th) a := by
  have hnotReg : s.waiter ≠ some t := by
    intro hreg
    rw [hwf.registered_inside hreg] at hpc
    cases hpc
  have hth : ((s.setThread t th).threads t).pc = th.pc := by simp
  refine h.update_one hwf t ?_ rfl rfl (fun _ _ => Iff.rfl) ?_
  · intro t' ht'
    simp [ht']
  · constructor
    · intro hentering
      rw [hth] at hentering
      rw [Pc.isInside_of_isEntering hentering] at hpc'
      cases hpc'
    · intro hreg
      exact absurd hreg hnotReg
    · intro hblocked
      rw [hth] at hblocked
      cases hcase : th.pc <;> simp_all [Pc.isInside, Pc.isBlocked]
    · intro n hn
      rw [← hth, hn] at hpc'
      cases hpc'
    · intro n hn
      rw [← hth, hn] at hpc'
      cases hpc'
    · intro hexpired
      rw [← hth, hexpired] at hpc'
      cases hpc'
    · intro hwoken
      rw [← hth, hwoken] at hpc'
      cases hpc'

end Steps

/-! ## The refinement -/

theorem Orderly.noCancelInWait {timed spurious honest : Prop} {s : State R}
    {a : Matchmaker (Arguments R)} {e : Event R} (h : Tracks timed spurious honest s a)
    (hok : Orderly timed spurious honest s e) : NoCancelInWait s e := by
  cases e with
  | act t => exact hok
  | relock t =>
    intro hpc hreg
    exact hok ((h.threads t).woken hpc hreg) hpc hreg
  | _ => trivial

/-- The end of a call that has unlocked the mutex. -/
theorem Tracks.unlock {timed spurious : Prop} {s : State R} {a : Matchmaker (Arguments R)}
    (hwf : WellFormed s) (h : Tracks timed spurious honest s a) {t : Nat} {n : Int}
    (hpc : (s.threads t).pc = .unlocking n)
    (hok : Orderly timed spurious honest s (.unlock t)) :
    Tracks timed spurious honest (next s (.unlock t)) a := by
  obtain ⟨c, hc, _⟩ := (hwf.threads t).current (by rw [hpc]; rfl)
  have hnotReg : s.waiter ≠ some t := hwf.not_registered (by rw [hpc]; rfl)
  simp only [next, hpc]
  refine h.complete hwf hc hnotReg ?_
  rcases (h.threads t).unlocking n hpc with hmet | ⟨htimed, hnone, hgave⟩
  · obtain ⟨mine, j, theirs, hmine, hj, htheirs, hsettled⟩ := hmet
    rw [h.offer_of_current hc] at hmine
    obtain rfl := Option.some.inj hmine
    rw [← hc.entry] at hsettled ⊢
    refine Or.inl ⟨j, theirs, hj, htheirs, hsettled.concluded, ?_⟩
    intro hhonest hboth
    have hn : 0 ≤ n := by
      rw [(hsettled.delivered hboth).1]
      omega
    exact hok hhonest (by rw [hpc]; exact decide_eq_true hn) c hc.at_index
  · refine Or.inr ⟨htimed, hnone, ?_⟩
    rw [← hc.entry] at hgave ⊢
    rcases hgave with rfl | ⟨rfl, hentry⟩
    · left
      cases c.entry with
      | exchange => exact ⟨_, rfl⟩
      | timedexchange => exact ⟨_, rfl⟩
    · refine Or.inr ⟨hentry, ?_⟩
      cases hcase : c.entry with
      | exchange =>
        rw [hcase] at hentry
        cases hentry
      | timedexchange sec nsec =>
        exact ⟨_, returnTop_of_stack (LuaState.push_stack _) rfl⟩

theorem Tracks.next {timed spurious honest : Prop} {s : State R} {a : Matchmaker (Arguments R)}
    (hwf : WellFormed s) (h : Tracks timed spurious honest s a) (e : Event R)
    (hok : Orderly timed spurious honest s e) (he : Enabled s e) :
    ∃ es a', (Matchmaker.system (Arguments R)).replay a es = some a' ∧
      Tracks timed spurious honest (next s e) a' := by
  cases e with
  | call t entry args =>
    exact ⟨_, _, a.offer_replay args, h.call hwf entry args he.1 hok⟩
  | lock t => exact ⟨[], a, rfl, h.lock hwf he.1⟩
  | lockTimeout t =>
    obtain ⟨hpc, hentry, _⟩ := he
    obtain ⟨c, hc, _⟩ := (hwf.threads t).current (by rw [hpc]; rfl)
    refine ⟨[], a, rfl, h.complete hwf hc (hwf.not_registered (by rw [hpc]; rfl)) (Or.inr ?_)⟩
    refine ⟨hok, (h.threads t).entering (by rw [hpc]; rfl), Or.inr ⟨hc.entry ▸ hentry, ?_⟩⟩
    exact ⟨_, returnTop_of_stack (LuaState.push_stack _) rfl⟩
  | lockError t msg =>
    have hpc : (s.threads t).pc = .locking := he
    obtain ⟨c, hc, _⟩ := (hwf.threads t).current (by rw [hpc]; rfl)
    refine ⟨[], a, rfl, h.complete hwf hc (hwf.not_registered (by rw [hpc]; rfl)) (Or.inr ?_)⟩
    exact ⟨hok, (h.threads t).entering (by rw [hpc]; rfl), Or.inl ⟨_, rfl⟩⟩
  | park t => exact ⟨[], a, rfl, h.park hwf he.1 he.2⟩
  | parkError t msg => exact ⟨[], a, rfl, h.parkError hwf msg he.1 hok⟩
  | serve t =>
    obtain ⟨w, hw⟩ := Option.ne_none_iff_exists'.mp he.2
    obtain ⟨hpair, htracks⟩ := h.serve hwf he.1 hw (fun htimed => hok htimed w hw)
    exact ⟨_, _, Matchmaker.pair_replay hpair, htracks⟩
  | signal t woken =>
    have hsignal : (s.threads t).pc.isSignalling = true := by
      cases woken with
      | none => exact he.1
      | some w => exact he.1
    cases hcase : (s.threads t).pc with
    | signalling n =>
      have hunlock := h.signalled hwf hcase
      have hwf' : WellFormed (s.setPc t (.unlocking n)) :=
        hwf.setUnlocking n _ (by rw [hcase]; rfl)
      cases woken with
      | none =>
        refine ⟨[], a, rfl, ?_⟩
        simp only [Rendezvous.next, hcase]
        exact hunlock
      | some w =>
        refine ⟨[], a, rfl, ?_⟩
        simp only [Rendezvous.next, hcase]
        refine hunlock.leaveWait hwf' he.2 (Or.inl ⟨rfl, fun hreg => ?_⟩)
        have hnone : s.waiter = none := (hwf.threads t).cleared hsignal
        have hreg' : s.waiter = some w := hreg
        rw [hnone] at hreg'
        cases hreg'
    | _ =>
      rw [hcase] at hsignal
      cases hsignal
  | wake t => exact ⟨[], a, rfl, h.leaveWait hwf he (Or.inl ⟨rfl, fun _ => hok⟩)⟩
  | expire t =>
    exact ⟨[], a, rfl, h.leaveWait hwf he.1 (Or.inr ⟨rfl, hok.1, hok.2, he.2⟩)⟩
  | relock t =>
    obtain ⟨hpc, _⟩ := he
    cases hcase : (s.threads t).pc with
    | woken =>
      have hnot : s.waiter ≠ some t := fun hreg =>
        hok ((h.threads t).woken hcase hreg) hcase hreg
      refine ⟨[], a, rfl, ?_⟩
      simp only [Rendezvous.next, State.relock, hcase]
      exact h.returnWoken hwf hcase hnot
    | expired =>
      refine ⟨[], a, rfl, ?_⟩
      simp only [Rendezvous.next, State.relock, hcase]
      exact h.returnExpired hwf hcase
    | cancelled => exact absurd hcase (hwf.threads t).not_cancelled
    | _ => simp [hcase] at hpc
  | unlock t =>
    have hpc : (s.threads t).pc.isUnlocking = true := he
    cases hcase : (s.threads t).pc with
    | unlocking n => exact ⟨[], a, rfl, h.unlock hwf hcase hok⟩
    | _ =>
      rw [hcase] at hpc
      cases hpc
  | cancel t => exact ⟨[], a, rfl, h.cancel hwf⟩
  | act t =>
    obtain ⟨hpc, _⟩ := he
    have hwaiting : (s.threads t).pc ≠ .waiting := hok
    have houtside : (s.threads t).pc = .outside := by simpa [hwaiting] using hpc
    refine ⟨[], a, rfl, ?_⟩
    simp only [Rendezvous.next, hwaiting, ite_false]
    exact h.setOutside hwf _ (by rw [houtside]; rfl) rfl Pc.noConfusion
  | cleanup t =>
    have hpc : (s.threads t).pc = .cleaning := he
    exact ⟨[], a, rfl, h.setOutside hwf _ (by rw [hpc]; rfl) rfl Pc.noConfusion⟩
  | exit t =>
    have hpc : (s.threads t).pc = .outside := he
    exact ⟨[], a, rfl, h.setOutside hwf _ (by rw [hpc]; rfl) rfl Pc.noConfusion⟩
  | join t =>
    have hpc : (s.threads t).pc = .terminated := he.1
    exact ⟨[], a, rfl, h.setOutside hwf _ (by rw [hpc]; rfl) (by rw [hpc]; rfl)
      (by rw [hpc]; exact Pc.noConfusion)⟩
  | signalError => cases hok

theorem tracks_init (timed spurious honest : Prop) :
    Tracks timed spurious honest (system R).init (Matchmaker.system (Arguments R)).init where
  offers := rfl
  log i j := by
    simp [system, Matchmaker.system]
  entries c hc := by cases hc
  threads t := by
    constructor
    · intro hentering
      cases hentering
    · intro hreg
      cases hreg
    · intro hblocked
      cases hblocked
    all_goals simp [system, idleThread]
  ended k c o hc := by
    simp [system] at hc

/-- **The rendezvous refines the matchmaker**, in the runs `Orderly` describes. -/
def simulation (R : Runtime) (timed spurious honest : Prop) :
    Simulation (system R) (Matchmaker.system (Arguments R)) (Orderly timed spurious honest) where
  rel s a := WellFormed s ∧ Tracks timed spurious honest s a
  init := ⟨wellFormed_init, tracks_init timed spurious honest⟩
  step s e a hrel hok he := by
    obtain ⟨hwf, htracks⟩ := hrel
    obtain ⟨es, a', hes, htracks'⟩ := htracks.next hwf e hok he
    exact ⟨es, a', hes, hwf.next e (hok.noCancelInWait htracks) he, htracks'⟩

theorem exists_tracks {timed spurious honest : Prop} {s : State R}
    (h : (system R).ReachableBy (Orderly timed spurious honest) s) :
    ∃ a, WellFormed s ∧ Tracks timed spurious honest s a := by
  obtain ⟨a, _, hrel⟩ := (simulation R timed spurious honest).exists_reachable h
  exact ⟨a, hrel⟩

end Rendezvous
end FluaLibs
