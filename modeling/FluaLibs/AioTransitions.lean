import FluaLibs.AioPointers

/-! # The documented transitions of a control block

`lua_aio.c` documents which transitions of the state field are valid, and means each to
be made by one thread: the one that submits, the one whose submission was refused, and
the one that has taken the state to `CB_RETURNING`.  Here this is a state machine of its
own, which remembers what the buffer held before and whose turn it is.  The changes of
the state field of the module, in the order in which they were made, are a run of it.
-/
namespace FluaLibs
namespace Aio

/-- What the buffer holds while nobody uses it. -/
inductive Content where
  | uninit
  | init
  deriving DecidableEq, Repr

def Content.state : Content → AiocbState
  | uninit => .uninit
  | init => .init

/-- A control block as documented: not in use, submitted, or being returned; in the last
two cases with the content before, and the call that made the transition. -/
inductive Phase where
  | idle (content : Content)
  | pending (before : Content) (call : Nat)
  | returning (before : Content) (call : Nat)
  deriving DecidableEq, Repr

namespace Phase

def state : Phase → AiocbState
  | idle content => content.state
  | pending _ _ => .pending
  | returning _ _ => .returning

/-- The transition is valid, and the call may make it. -/
def Entitled (p : Phase) (c : Change) : Prop :=
  match c.action, p with
  | .beginRead, idle content => content = .uninit
  | .beginWrite, idle content => content = .init
  | .beginReturn, pending _ _ => True
  | .refused, pending _ call => c.call = call
  | .rolledBack, returning _ call => c.call = call
  | .committed, returning _ call => c.call = call
  | _, _ => False

/-- What a valid transition leads to. -/
def next (p : Phase) (c : Change) : Phase :=
  match c.action, p with
  | .beginRead, idle content | .beginWrite, idle content => pending content c.call
  | .beginReturn, pending before _ => returning before c.call
  | .refused, pending before _ | .rolledBack, returning before _ => idle before
  | .committed, returning _ _ => idle .init
  | _, p => p

theorem eq_idle {p : Phase} {content : Content} (h : p.state = content.state) :
    p = idle content := by
  rcases p with ⟨_ | _⟩ | _ | _ <;> cases content <;> first | rfl | cases h

theorem exists_pending {p : Phase} (h : p.state = .pending) :
    ∃ before call, p = pending before call := by
  rcases p with ⟨_ | _⟩ | _ | _ <;> first | exact ⟨_, _, rfl⟩ | cases h

/-- A control block as it is made. -/
def made (created : AiocbState) : Phase := if created = .init then idle .init else idle .uninit

end Phase

/-- The documented state machine, of a control block made in the phase `p`. -/
def documented (p : Phase) : System Phase Change where
  init := p
  Enabled p c := p.Entitled c ∧ (p.next c).state = c.state
  decEnabled p c := by
    have : Decidable (p.Entitled c) := by
      unfold Phase.Entitled
      split <;> infer_instance
    exact inferInstance
  next := Phase.next

/-- The changes of the state field are a run of the documented machine to the present
state, and the shadow of a control block that is not in use is its state. -/
structure Documented (cb : Rcaiocb) : Prop where
  run : ∃ p, (documented (Phase.made cb.created)).run cb.changes = some p ∧ p.state = cb.state
  shadow : cb.state.idle = true → cb.aioState = cb.state

/-! ## One control block -/

/-- The recorded changes lead to the phase `p`. -/
structure Records (cb : Rcaiocb) (p : Phase) : Prop where
  run : (documented (Phase.made cb.created)).run cb.changes = some p
  state : p.state = cb.state
  idle : ∀ content, p = .idle content → cb.aioState = content.state
  pending : ∀ before call, p = .pending before call →
    cb.aioState = before.state ∧ cb.changes.getLast?.map Change.call = some call

namespace Records
variable {cb : Rcaiocb} {p : Phase} (h : Records cb p)
include h

theorem documented : Documented cb where
  run := ⟨p, h.run, h.state⟩
  shadow hidle := by
    have hstate := h.state
    cases p with
    | idle content => rw [h.idle content rfl, ← hstate]; rfl
    | pending before call =>
      rw [← hstate] at hidle
      cases hidle
    | returning before call =>
      rw [← hstate] at hidle
      cases hidle

/-- A store that changes the state is an entry of the record. -/
theorem change {call : Nat} {action : Action} {state : AiocbState} (p' : Phase)
    (hentitled : p.Entitled ⟨call, action, state⟩) (hnext : p.next ⟨call, action, state⟩ = p')
    (hstate : p'.state = state) (hne : cb.state ≠ state)
    (hidle : ∀ content, p' = .idle content → cb.aioState = content.state)
    (hpending : ∀ before c, p' = .pending before c → cb.aioState = before.state ∧ call = c) :
    Records (cb.store call action state) p' := by
  have hchanges : (cb.store call action state).changes = cb.changes ++ [⟨call, action, state⟩] :=
    if_neg hne
  constructor
  · rw [hchanges, ← hnext]
    exact System.run_concat _ h.run ⟨hentitled, by rw [hnext, hstate]⟩
  · exact hstate
  · exact hidle
  · intro before c hp
    obtain ⟨hshadow, hcall⟩ := hpending before c hp
    refine ⟨hshadow, ?_⟩
    rw [hchanges, List.getLast?_concat, hcall]
    rfl

end Records

/-- What a call that has changed the state relies on until it changes it back: `p` is
the phase, `shadow` the shadow field of the control block `a`. -/
def Pc.Follows (p : Phase) (shadow : AiocbState) (a i : Nat) : Pc → Prop
  | .submit b state => b = a → ∀ before, p = .pending before i → state = before.state
  | .rollback b state rest _ => (∀ x ∈ rest, x.1 ≠ a) ∧
      (b = a → ∀ before, p = .pending before i → state = before.state)
  | .aioReturn b | .failed b _ =>
    b = a → ∃ before, p = .returning before i ∧ shadow = before.state
  | .restore b state _ =>
    b = a → ∃ before, p = .returning before i ∧ shadow = before.state ∧ state = before.state
  | .commit b _ => b = a → ∃ before, p = .returning before i
  | .store b _ => b = a → (∃ before, p = .returning before i) ∧ shadow = .init
  | .tryRead b (some l) => a ∉ b :: l.mentions
  | .tryWrite b (some l) => a ∉ b :: l.mentions
  | .lio handled b _ rest => a ∉ handled.map (Prod.fst ∘ Prod.fst) ++ b :: rest.map Prod.fst
  | .lioReturn handled => a ∉ handled.map (Prod.fst ∘ Prod.fst)
  | .refused begun _ => a ∉ begun.map Prod.fst
  | .waited b _ | .waitedNew b _ => b ≠ a
  | _ => True

namespace Pc
variable {p p' : Phase} {shadow shadow' : AiocbState} {a i : Nat} {pc : Pc}

/-- A call that has no pointer to the control block relies on nothing. -/
theorem follows_of_not_mem (h : a ∉ pc.mentions) : pc.Follows p shadow a i := by
  cases pc with
  | tryRead b l | tryWrite b l =>
    cases l with
    | none => trivial
    | some l => exact h
  | rollback b state rest outcome =>
    refine ⟨?_, ?_⟩
    · rintro x hx rfl
      exact h (List.mem_cons_of_mem _ (List.mem_map.mpr ⟨x, hx, rfl⟩))
    · rintro rfl
      exact absurd (List.mem_cons_self ..) h
  | lio | lioReturn | refused => exact h
  | submit b state | aioReturn b | failed b | restore b | commit b | store b =>
    rintro rfl
    exact absurd (List.mem_cons_self ..) h
  | waited b result | waitedNew b result =>
    rintro rfl
    exact absurd (List.mem_cons_self ..) h
  | _ => trivial

/-- A call that the phase has not got, and has not got afterwards, does not notice. -/
theorem Follows.transfer (h : pc.Follows p shadow a i) (hp : ∀ before, p ≠ .returning before i)
    (hp' : ∀ before, p' ≠ .pending before i) : pc.Follows p' shadow' a i := by
  cases pc with
  | submit b state => exact fun _ before heq => absurd heq (hp' before)
  | rollback b state rest outcome =>
    exact ⟨h.1, fun _ before heq => absurd heq (hp' before)⟩
  | aioReturn b | failed b | restore b =>
    intro heq
    obtain ⟨before, hreturning, _⟩ := h heq
    exact absurd hreturning (hp before)
  | commit b =>
    intro heq
    obtain ⟨before, hreturning⟩ := h heq
    exact absurd hreturning (hp before)
  | store b =>
    intro heq
    obtain ⟨⟨before, hreturning⟩, _⟩ := h heq
    exact absurd hreturning (hp before)
  | tryRead b l | tryWrite b l =>
    cases l with
    | none => trivial
    | some l => exact h
  | lio | lioReturn | refused | waited | waitedNew => exact h
  | _ => trivial

/-- A call whose next action is on another control block does not get to this one
without a pointer. -/
theorem Follows.exec_of_ne {b : Nat} {ok : Bool} {cb : Rcaiocb} (h : pc.Follows p shadow a i)
    (htarget : pc.target = some b) (hne : b ≠ a) : (pc.exec i ok cb).2.Follows p shadow a i := by
  have general : a ∉ pc.mentions → (pc.exec i ok cb).2.Follows p shadow a i :=
    fun hnot => follows_of_not_mem (fun hmem => hnot (mentions_exec hmem))
  have hab : a ≠ b := Ne.symm hne
  cases pc with
  | suspend b rest =>
    simp only [exec]
    split
    · cases rest <;> trivial
    · trivial
  | tryRead c l | tryWrite c l =>
    obtain rfl := Option.some.inj htarget
    cases l with
    | none => exact general (by simpa [mentions] using hab)
    | some l => exact general h
  | lio => exact general h
  | rollback c state rest outcome =>
    obtain rfl := Option.some.inj htarget
    refine general ?_
    intro hmem
    rcases List.mem_cons.mp hmem with heq | hmem
    · exact hab heq
    · obtain ⟨x, hx, heq⟩ := List.mem_map.mp hmem
      exact h.1 x hx heq
  | lioReturn | refused | waitcomplete | waitedNew | retained | done => cases htarget
  | _ =>
    obtain rfl := Option.some.inj htarget
    exact general (by simpa [mentions] using hab)

end Pc

/-! ## One action -/

/-- The phase `p'` comes after `p`, by an action of the call `i`, or nothing that other
calls rely on has changed. -/
def TurnOf (i : Nat) (p p' : Phase) (shadow shadow' : AiocbState) : Prop :=
  (p' = p ∧ shadow' = shadow) ∨
    ((∀ before j, p = .returning before j → j = i) ∧ ∀ before j, p' = .pending before j → j = i)

theorem TurnOf.follows {i j a : Nat} {p p' : Phase} {shadow shadow' : AiocbState} {pc : Pc}
    (h : TurnOf i p p' shadow shadow') (hne : j ≠ i) (hpc : pc.Follows p shadow a j) :
    pc.Follows p' shadow' a j := by
  rcases h with ⟨rfl, rfl⟩ | ⟨hp, hp'⟩
  · exact hpc
  · refine hpc.transfer ?_ ?_
    · exact fun before heq => hne (hp before j heq)
    · exact fun before heq => hne (hp' before j heq)

/-- A call has taken an action: the record goes on, and it and the others still rely on
what is the case. -/
structure Advanced (i a : Nat) (p p' : Phase) (cb cb' : Rcaiocb) (pc' : Pc) : Prop where
  records : Records cb' p'
  follows : pc'.Follows p' cb'.aioState a i
  turn : TurnOf i p p' cb.aioState cb'.aioState

section Actions
variable {i a : Nat} {cb : Rcaiocb} {p : Phase} (h : Records cb p)
include h

/-- What the requests of the kernel, the references or the memory are does not matter. -/
theorem Records.congr {cb' : Rcaiocb} (hcreated : cb'.created = cb.created)
    (hchanges : cb'.changes = cb.changes) (hstate : cb'.state = cb.state)
    (hshadow : cb'.aioState = cb.aioState) : Records cb' p where
  run := by rw [hcreated, hchanges]; exact h.run
  state := by rw [hstate]; exact h.state
  idle := by rw [hshadow]; exact h.idle
  pending := by rw [hshadow, hchanges]; exact h.pending

theorem Records.quiet {cb' : Rcaiocb} {pc' : Pc} (hcreated : cb'.created = cb.created)
    (hchanges : cb'.changes = cb.changes) (hstate : cb'.state = cb.state)
    (hshadow : cb'.aioState = cb.aioState) (hpc : pc'.Follows p cb.aioState a i) :
    ∃ p', Advanced i a p p' cb cb' pc' := by
  refine ⟨p, h.congr hcreated hchanges hstate hshadow, ?_, Or.inl ⟨rfl, hshadow⟩⟩
  rw [hshadow]
  exact hpc

/-- A compare-exchange to `CB_PENDING`. -/
theorem Records.begin {action : Action} (content : Content) (hstate : cb.state = content.state)
    (hentitled : Phase.Entitled (.idle content) ⟨i, action, .pending⟩)
    (hnext : Phase.next (.idle content) ⟨i, action, .pending⟩ = .pending content i) :
    ∃ p', Advanced i a p p' cb (cb.store i action .pending) (.submit a cb.state) := by
  obtain rfl := Phase.eq_idle (h.state.trans hstate)
  have hshadow := h.idle _ rfl
  have hne : cb.state ≠ .pending := by
    rw [hstate]
    cases content <;> simp [Content.state]
  refine ⟨.pending content i, h.change _ hentitled hnext rfl hne ?_ ?_, ?_, Or.inr ⟨?_, ?_⟩⟩
  · intro content' heq
    cases heq
  · intro before call heq
    obtain ⟨rfl, rfl⟩ := Phase.pending.inj heq
    exact ⟨hshadow, rfl⟩
  · intro _ before heq
    obtain ⟨rfl, _⟩ := Phase.pending.inj heq
    exact hstate
  · intro before j heq
    cases heq
  · intro before j heq
    exact (Phase.pending.inj heq).2.symm

theorem Records.tryRead {ok : Bool} : ∃ p', Advanced i a p p' cb
    ((Pc.tryRead a none).exec i ok cb).1 ((Pc.tryRead a none).exec i ok cb).2 := by
  simp only [Pc.exec]
  split
  · rename_i cb' heq
    obtain ⟨huninit, rfl⟩ := cb.compareExchange_eq_some i heq
    exact h.begin .uninit huninit rfl rfl
  · exact h.quiet rfl rfl rfl rfl trivial

theorem Records.tryWrite {ok : Bool} : ∃ p', Advanced i a p p' cb
    ((Pc.tryWrite a none).exec i ok cb).1 ((Pc.tryWrite a none).exec i ok cb).2 := by
  simp only [Pc.exec]
  split
  · rename_i cb' heq
    obtain ⟨hinit, rfl⟩ := cb.compareExchange_eq_some i heq
    exact h.begin .init hinit rfl rfl
  · exact h.quiet rfl rfl rfl rfl trivial

/-- The compare-exchange of `_return`. -/
theorem Records.tryReturn {ok : Bool} : ∃ p', Advanced i a p p' cb
    ((Pc.tryReturn a).exec i ok cb).1 ((Pc.tryReturn a).exec i ok cb).2 := by
  simp only [Pc.exec]
  split
  · rename_i cb' heq
    obtain ⟨hpending, rfl⟩ := cb.compareExchange_eq_some i heq
    obtain ⟨before, call, rfl⟩ := Phase.exists_pending (h.state.trans hpending)
    have hshadow := (h.pending _ _ rfl).1
    have hne : cb.state ≠ .returning := by
      rw [hpending]
      simp
    refine ⟨.returning before i, h.change _ trivial rfl rfl hne ?_ ?_, ?_, Or.inr ⟨?_, ?_⟩⟩
    · intro content heq
      cases heq
    · intro before call heq
      cases heq
    · exact fun _ => ⟨before, rfl, hshadow⟩
    · intro before j heq
      cases heq
    · intro before j heq
      cases heq
  · exact h.quiet rfl rfl rfl rfl trivial

/-- A store of the call whose turn it is, back to a state not in use. -/
theorem Records.settle {action : Action} (content : Content) {state : AiocbState} {pc' : Pc}
    (hstate : content.state = state) (hentitled : p.Entitled ⟨i, action, state⟩)
    (hnext : p.next ⟨i, action, state⟩ = .idle content) (hne : cb.state ≠ state)
    (hshadow : cb.aioState = state)
    (hturn : ∀ before j, p = .returning before j → j = i)
    (hpc : ∀ p' shadow', pc'.Follows p' shadow' a i) :
    ∃ p', Advanced i a p p' cb (cb.store i action state) pc' := by
  refine ⟨.idle content, h.change _ hentitled hnext hstate hne ?_ ?_, hpc _ _, Or.inr ⟨hturn, ?_⟩⟩
  · intro content' heq
    rw [hshadow, ← hstate, Phase.idle.inj heq]
  · intro before call heq
    cases heq
  · intro before j heq
    cases heq

/-- The rollback after a refused submission. -/
theorem Records.rollback {state : AiocbState} {rest : List (Nat × AiocbState)} {outcome : Outcome}
    (hpc : (Pc.rollback a state rest outcome).Follows p cb.aioState a i)
    (hok : (cb.state = .pending ∧ cb.changes.getLast?.map Change.call = some i) ∨
      cb.state = state) :
    ∃ p', Advanced i a p p' cb (cb.store i .refused state) (rollbackStates outcome rest) := by
  have hrest : ∀ p' shadow', (rollbackStates outcome rest).Follows p' shadow' a i := by
    intro p' shadow'
    refine Pc.follows_of_not_mem ?_
    rw [Pc.mentions_rollbackStates]
    rintro hmem
    obtain ⟨x, hx, heq⟩ := List.mem_map.mp hmem
    exact hpc.1 x hx heq
  by_cases hsame : cb.state = state
  · -- the store changes nothing
    refine h.quiet rfl (if_pos hsame) hsame.symm rfl (hrest _ _)
  · obtain ⟨hpending, hlast⟩ := hok.resolve_right hsame
    obtain ⟨before, call, rfl⟩ := Phase.exists_pending (h.state.trans hpending)
    obtain ⟨hshadow, hcall⟩ := h.pending _ _ rfl
    obtain rfl : call = i := Option.some.inj (hcall.symm.trans hlast)
    obtain rfl := hpc.2 rfl before rfl
    exact h.settle before rfl rfl rfl hsame hshadow (fun before j heq => by cases heq) hrest

/-- The calls whose turn it is, after `aio_return(2)`. -/
theorem Records.restore {state : AiocbState} {source : Source}
    (hpc : (Pc.restore a state source).Follows p cb.aioState a i) :
    ∃ p', Advanced i a p p' cb (cb.store i .rolledBack state) (.done .fail) := by
  obtain ⟨before, rfl, hshadow, rfl⟩ := hpc rfl
  have hne : cb.state ≠ before.state := by
    rw [← h.state]
    cases before <;> simp [Phase.state, Content.state]
  refine h.settle before rfl rfl rfl hne hshadow ?_ (fun _ _ => trivial)
  intro c j heq
  exact (Phase.returning.inj heq).2.symm

theorem Records.store {source : Source}
    (hpc : (Pc.store a source).Follows p cb.aioState a i) :
    ∃ p', Advanced i a p p' cb (cb.store i .committed .init) (.done .success) := by
  obtain ⟨⟨before, rfl⟩, hshadow⟩ := hpc rfl
  have hne : cb.state ≠ .init := by
    rw [← h.state]
    simp [Phase.state]
  refine h.settle .init rfl rfl rfl hne hshadow ?_ (fun _ _ => trivial)
  intro c j heq
  exact (Phase.returning.inj heq).2.symm

/-- `rcaiocb_commit` writes the shadow before the state. -/
theorem Records.commit {source : Source}
    (hpc : (Pc.commit a source).Follows p cb.aioState a i) :
    ∃ p', Advanced i a p p' cb { cb with aioState := .init } (.store a source) := by
  obtain ⟨before, rfl⟩ := hpc rfl
  refine ⟨.returning before i, ⟨h.run, h.state, ?_, ?_⟩, fun _ => ⟨⟨before, rfl⟩, rfl⟩,
    Or.inr ⟨?_, ?_⟩⟩
  · intro content heq
    cases heq
  · intro c call heq
    cases heq
  · intro c j heq
    exact (Phase.returning.inj heq).2.symm
  · intro c j heq
    cases heq

/-- **One action of a call**, whatever it is. -/
theorem Records.exec {pc : Pc} (ok : Bool) (htarget : pc.target = some a)
    (hpc : pc.Follows p cb.aioState a i)
    (hok : ∀ t ∈ pc.restores,
      (cb.state = .pending ∧ cb.changes.getLast?.map Change.call = some i) ∨ cb.state = t.2) :
    ∃ p', Advanced i a p p' cb (pc.exec i ok cb).1 (pc.exec i ok cb).2 := by
  cases pc with
  | tryRead b l =>
    obtain rfl := Option.some.inj htarget
    -- a `listio` would have the control block among its entries
    cases l with
    | none => exact h.tryRead
    | some l => exact absurd (List.mem_cons_self ..) hpc
  | tryWrite b l =>
    obtain rfl := Option.some.inj htarget
    cases l with
    | none => exact h.tryWrite
    | some l => exact absurd (List.mem_cons_self ..) hpc
  | submit b state =>
    obtain rfl := Option.some.inj htarget
    cases ok with
    | true => exact h.quiet rfl rfl rfl rfl trivial
    | false => exact h.quiet rfl rfl rfl rfl ⟨fun x hx => (by cases hx), hpc⟩
  | rollback b state rest outcome =>
    obtain rfl := Option.some.inj htarget
    exact h.rollback hpc (hok _ rfl)
  | lio handled b state rest =>
    obtain rfl := Option.some.inj htarget
    exact absurd (List.mem_append_right _ (List.mem_cons_self ..)) hpc
  | tryReturn b =>
    obtain rfl := Option.some.inj htarget
    exact h.tryReturn
  | aioReturn b =>
    obtain rfl := Option.some.inj htarget
    simp only [Pc.exec]
    split
    · exact h.quiet rfl rfl rfl rfl hpc
    · rename_i result rest _
      refine h.quiet rfl rfl rfl rfl ?_
      cases result with
      | true => exact fun heq => (hpc heq).imp (fun _ hb => hb.1)
      | false => exact hpc
  | failed b source =>
    obtain rfl := Option.some.inj htarget
    exact h.quiet rfl rfl rfl rfl (fun heq => (hpc heq).imp (fun _ hb => ⟨hb.1, hb.2, hb.2⟩))
  | restore b state source =>
    obtain rfl := Option.some.inj htarget
    exact h.restore hpc
  | commit b source =>
    obtain rfl := Option.some.inj htarget
    exact h.commit hpc
  | store b source =>
    obtain rfl := Option.some.inj htarget
    exact h.store hpc
  | waited b result => exact absurd (Option.some.inj htarget) hpc
  | index b iov =>
    simp only [Pc.exec]
    split
    · exact h.quiet rfl rfl rfl rfl trivial
    · split <;> exact h.quiet rfl rfl rfl rfl trivial
  | cancel b =>
    simp only [Pc.exec]
    split <;> exact h.quiet rfl rfl rfl rfl trivial
  | suspend b rest =>
    simp only [Pc.exec]
    split
    · cases rest <;> exact h.quiet rfl rfl rfl rfl trivial
    · exact h.quiet rfl rfl rfl rfl trivial
  | copying b => exact h.quiet rfl rfl rfl rfl trivial
  | aioCancel b => cases ok <;> exact h.quiet rfl rfl rfl rfl trivial
  | aioSuspend b => exact h.quiet rfl rfl rfl rfl trivial
  | lioReturn | refused | waitcomplete | waitedNew | retained | done => cases htarget

end Actions

/-! ## Every interleaving -/

/-- No `listio` and no `waitcomplete` gets the control block `a`. -/
def Alone (a : Nat) (s : State) : Event → Prop
  | .call (.listio us) => ∀ u ∈ us.filterMap id, s.cookie u ≠ a
  | .refuse _ stray => stray ≠ some a
  | .waitcomplete _ found => found ≠ some a
  | _ => True

/-- A refused submission is rolled back in time: while the state is still the
`CB_PENDING` that its own call has set, or when the store would not change it. -/
def RefusedInTime (a : Nat) (s : State) : Event → Prop
  | .step i _ => ∀ c ∈ s.calls[i]?, ∀ t ∈ c.pc.restores, t.1 = a →
      ((s.cbs a).state = .pending ∧ (s.cbs a).changes.getLast?.map Change.call = some i) ∨
        (s.cbs a).state = t.2
  | _ => True

/-- The control block `a` is in the documented phase `p`, and the calls know. -/
structure Tracked (a : Nat) (s : State) (p : Phase) : Prop where
  records : Records (s.cbs a) p
  calls : ∀ (i : Nat) (c : Call), s.calls[i]? = some c → c.pc.Follows p (s.cbs a).aioState a i

section Steps
variable {a : Nat} {s : State} {p : Phase} (h : Tracked a s p)
include h

/-- The control block changes in nothing that is recorded. -/
theorem Tracked.setCb {b : Nat} {cb : Rcaiocb} (hcreated : cb.created = (s.cbs b).created)
    (hchanges : cb.changes = (s.cbs b).changes) (hstate : cb.state = (s.cbs b).state)
    (hshadow : cb.aioState = (s.cbs b).aioState) : Tracked a (s.setCb b cb) p := by
  by_cases heq : a = b
  · subst heq
    have hcb : (s.setCb a cb).cbs a = cb := by simp [State.setCb]
    constructor
    · rw [hcb]
      exact h.records.congr hcreated hchanges hstate hshadow
    · rw [hcb, hshadow]
      exact h.calls
  · have hcb : (s.setCb b cb).cbs a = s.cbs a := by simp [State.setCb, heq]
    constructor
    · rw [hcb]
      exact h.records
    · rw [hcb]
      exact h.calls

theorem Tracked.setCb_of_ne {b : Nat} (hne : b ≠ a) (cb : Rcaiocb) :
    Tracked a (s.setCb b cb) p := by
  have hcb : (s.setCb b cb).cbs a = s.cbs a := by simp [State.setCb, Ne.symm hne]
  constructor
  · rw [hcb]
    exact h.records
  · rw [hcb]
    exact h.calls

theorem Tracked.setCall {i : Nat} {c : Call} (hc : c.pc.Follows p (s.cbs a).aioState a i) :
    Tracked a (s.setCall i c) p where
  records := h.records
  calls j d hd := by
    rcases getElem?_set_cases hd with ⟨rfl, rfl⟩ | ⟨_, hd⟩
    · exact hc
    · exact h.calls j d hd

theorem Tracked.addCall {c : Call} (hc : ∀ i, c.pc.Follows p (s.cbs a).aioState a i) :
    Tracked a (s.addCall c) p where
  records := h.records
  calls j d hd := by
    rcases getElem?_concat_cases hd with hd | rfl
    · exact h.calls j d hd
    · exact hc j

theorem Tracked.step {i : Nat} {c : Call} {ok : Bool} (hi : s.calls[i]? = some c)
    (hok : ∀ t ∈ c.pc.restores, t.1 = a →
      ((s.cbs a).state = .pending ∧ (s.cbs a).changes.getLast?.map Change.call = some i) ∨
        (s.cbs a).state = t.2) : ∃ p', Tracked a (s.step i ok c) p' := by
  have hfollows := h.calls i c hi
  cases htarget : c.pc.target with
  | none =>
    refine ⟨p, ?_⟩
    simp only [State.step, htarget]
    exact h
  | some b =>
    simp only [State.step, htarget]
    by_cases heq : b = a
    · subst heq
      have hrestores : ∀ t ∈ c.pc.restores, t.1 = b := by
        intro t ht
        cases hpc : c.pc <;> rw [hpc] at ht htarget <;> cases ht
        exact Option.some.inj htarget
      obtain ⟨p', hadvanced⟩ := h.records.exec ok htarget hfollows
        (fun t ht => hok t ht (hrestores t ht))
      have hcb : ((s.setCb b (c.pc.exec i ok (s.cbs b)).1).setCall i
          { c with pc := (c.pc.exec i ok (s.cbs b)).2 }).cbs b = (c.pc.exec i ok (s.cbs b)).1 := by
        simp [State.setCb, State.setCall]
      refine ⟨p', ?_, ?_⟩
      · rw [hcb]
        exact hadvanced.records
      · rw [hcb]
        intro j d hd
        rcases getElem?_set_cases hd with ⟨rfl, rfl⟩ | ⟨hne, hd⟩
        · exact hadvanced.follows
        · exact hadvanced.turn.follows hne (h.calls j d hd)
    · exact ⟨p, (h.setCb_of_ne heq _).setCall (by
        rw [show (s.setCb b _).cbs a = s.cbs a by simp [State.setCb, Ne.symm heq]]
        exact hfollows.exec_of_ne htarget heq)⟩

theorem Tracked.make {i : Nat} {c : Call} (hi : s.calls[i]? = some c) :
    Tracked a (s.make i c) p := by
  have hnew : ∀ b, Tracked a (s.new b) p := fun _ => ⟨h.records, h.calls⟩
  unfold State.make
  split
  · exact (hnew _).setCall trivial
  · rename_i b result hpc
    have hne : b ≠ a := by
      have hfollows := h.calls i c hi
      rw [hpc] at hfollows
      exact hfollows
    refine (hnew b).setCall (Pc.follows_of_not_mem ?_)
    rw [Pc.mentions_collected]
    simpa using Ne.symm hne
  · exact h

theorem Tracked.lioReturn {i : Nat} {c : Call} (ok : Bool) (hi : s.calls[i]? = some c) :
    Tracked a (s.lioReturn i ok c) p := by
  unfold State.lioReturn
  split
  · rename_i handled hpc
    have hnot : a ∉ handled.map (Prod.fst ∘ Prod.fst) := by
      have hfollows := h.calls i c hi
      rw [hpc] at hfollows
      exact hfollows
    refine h.setCall ?_
    cases ok with
    | true => trivial
    | false =>
      refine Pc.follows_of_not_mem ?_
      rw [if_neg (by simp), Pc.mentions_rollbackStates, List.map_map]
      exact hnot
  · exact h

theorem Tracked.refuse {i : Nat} {c : Call} {stray : Option Nat} (hi : s.calls[i]? = some c)
    (hstray : stray ≠ some a) : Tracked a (s.refuse i stray c) p := by
  unfold State.refuse
  split
  · rename_i begun observed hpc
    have hnot : a ∉ begun.map Prod.fst := by
      have hfollows := h.calls i c hi
      rw [hpc] at hfollows
      exact hfollows
    refine h.setCall (Pc.follows_of_not_mem ?_)
    rw [Pc.mentions_rollbackStates, List.map_append, List.map_map, List.mem_append]
    rintro (hmem | hmem)
    · exact hnot hmem
    · exact hstray (by simpa [eq_comm] using hmem)
  · exact h

theorem Tracked.waitcomplete {i : Nat} {c : Call} {found : Option Nat}
    (hfound : found ≠ some a) : Tracked a (s.waitcomplete i c found) p := by
  unfold State.waitcomplete
  split
  · exact h.setCall trivial
  · rename_i b
    have hne : b ≠ a := fun heq => hfound (congrArg some heq)
    split
    · exact h
    · exact (h.setCb_of_ne hne _).setCall hne

theorem Tracked.setUserdata (u : Nat) (x : Userdata) : Tracked a (s.setUserdata u x) p :=
  ⟨h.records, h.calls⟩

theorem Tracked.setRefs (b : Nat) (refs : Refcount) :
    Tracked a (s.setCb b { s.cbs b with refs := refs }) p :=
  h.setCb rfl rfl rfl rfl

theorem Tracked.retain (x : Userdata) : Tracked a (s.retain x) p :=
  (h.setRefs x.cb _).addCall (fun _ => trivial)

theorem Tracked.release {u : Nat} {x : Userdata} (gc : Bool) : Tracked a (s.release u gc x) p := by
  unfold State.release
  split
  · exact (h.setRefs x.cb _).setUserdata u _
  · exact h.setUserdata u _

theorem Tracked.freeStep {u : Nat} {x : Userdata} (ok : Bool) :
    Tracked a (s.freeStep u ok x) p := by
  have hsame : ∀ pc : FreePc, Tracked a (s.setCb x.cb (pc.exec ok (s.cbs x.cb)).1) p := by
    intro pc
    cases pc with
    | aioCancel => cases ok <;> exact h.setCb rfl rfl rfl rfl
    | _ => exact h.setCb rfl rfl rfl rfl
  exact (hsame x.freePc).setUserdata u _

theorem Tracked.shared {lioRead : Bool} {buffer : Buffer} (ha : a < s.count) :
    Tracked a (s.shared lioRead buffer) p :=
  have hset := h.setCb_of_ne (Nat.ne_of_gt ha)
  ⟨(hset _).records, (hset _).calls⟩

end Steps

/-- A control block is in its first phase when it has been made. -/
theorem Bounded.tracked {s : State} (hb : Bounded s) (lioRead : Bool) (buffer : Buffer) :
    ∃ p, Tracked s.count (s.shared lioRead buffer) p := by
  have hstate := buffer.check_state
  unfold State.shared
  generalize buffer.check.getD (false, .uninit) = checked at hstate ⊢
  obtain ⟨vector, state⟩ := checked
  refine ⟨Phase.made state, ?_, ?_⟩
  · simp only [State.new, State.setCb, Function.update_self]
    refine ⟨rfl, ?_, ?_, ?_⟩
    · rcases hstate with rfl | rfl <;> rfl
    · intro content hcontent
      rcases hstate with rfl | rfl <;> cases hcontent <;> rfl
    · intro before call hpending
      rcases hstate with rfl | rfl <;> cases hpending
  · intro i c hi
    refine Pc.follows_of_not_mem (fun hmem => ?_)
    exact Nat.lt_irrefl _ (hb.calls c (List.mem_of_getElem? hi) _ hmem)

/-- **Every step keeps a control block on the documented transitions**, if it meets the
condition. -/
theorem Tracked.next {a : Nat} {s : State} {p : Phase} (h : Tracked a s p) (ha : a < s.count)
    (e : Event) (halone : Alone a s e) (hok : RefusedInTime a s e) (he : Enabled s e) :
    ∃ p', Tracked a (next s e) p' := by
  cases e with
  | shared lioRead buffer => exact ⟨p, h.shared ha⟩
  | call f =>
    refine ⟨p, h.addCall (fun i => ?_)⟩
    cases f with
    | suspend us => cases us <;> trivial
    | listio us =>
      refine Pc.follows_of_not_mem (fun hmem => ?_)
      obtain ⟨u, hu, heq⟩ := State.mentions_start (s := s) (f := .listio us) hmem
      exact halone u hu heq
    | _ => trivial
  | retain u =>
    obtain ⟨x, hu, _⟩ := he
    simp only [Aio.next, Option.mem_def.mp hu, Option.elim]
    exact ⟨p, h.retain x⟩
  | step i ok =>
    obtain ⟨c, hi, _⟩ := he
    simp only [Aio.next, Option.mem_def.mp hi, Option.elim]
    exact h.step hi (hok c hi)
  | make i =>
    obtain ⟨c, hi, _⟩ := he
    simp only [Aio.next, Option.mem_def.mp hi, Option.elim]
    exact ⟨p, h.make hi⟩
  | lioReturn i ok =>
    obtain ⟨c, hi, _⟩ := he
    simp only [Aio.next, Option.mem_def.mp hi, Option.elim]
    exact ⟨p, h.lioReturn ok hi⟩
  | refuse i stray =>
    obtain ⟨c, hi, _⟩ := he
    simp only [Aio.next, Option.mem_def.mp hi, Option.elim]
    exact ⟨p, h.refuse hi halone⟩
  | waitcomplete i found =>
    obtain ⟨c, hi, _⟩ := he
    simp only [Aio.next, Option.mem_def.mp hi, Option.elim]
    exact ⟨p, h.waitcomplete halone⟩
  | complete b ok => exact ⟨p, h.setCb rfl rfl rfl rfl⟩
  | close u =>
    obtain ⟨⟨x, hu, _⟩, _⟩ := he
    simp only [Aio.next, Option.mem_def.mp hu, Option.elim]
    exact ⟨p, h.release false⟩
  | gc u =>
    obtain ⟨⟨x, hu, _⟩, _⟩ := he
    simp only [Aio.next, Option.mem_def.mp hu, Option.elim]
    exact ⟨p, h.release true⟩
  | freeStep u ok =>
    obtain ⟨x, hu, _⟩ := he
    simp only [Aio.next, Option.mem_def.mp hu, Option.elim]
    exact ⟨p, h.freeStep ok⟩

/-- Only `l_aiocb_shared` makes a control block. -/
theorem count_next (s : State) (e : Event) :
    (next s e).count = s.count ∨ ∃ lioRead buffer, e = .shared lioRead buffer := by
  cases e with
  | shared lioRead buffer => exact Or.inr ⟨lioRead, buffer, rfl⟩
  | call f => exact Or.inl rfl
  | complete b ok => exact Or.inl rfl
  | retain u | freeStep u ok =>
    left
    simp only [Aio.next]
    cases s.userdata[u]? <;> rfl
  | close u | gc u =>
    left
    simp only [Aio.next]
    cases s.userdata[u]? with
    | none => rfl
    | some x =>
      simp only [Option.elim, State.release]
      split <;> rfl
  | step i ok | make i | lioReturn i ok | refuse i stray =>
    left
    simp only [Aio.next]
    cases s.calls[i]? with
    | none => rfl
    | some c =>
      simp only [Option.elim, State.step, State.make, State.lioReturn, State.refuse]
      split <;> rfl
  | waitcomplete i found =>
    left
    simp only [Aio.next]
    cases s.calls[i]? with
    | none => rfl
    | some c =>
      simp only [Option.elim, State.waitcomplete]
      split
      · rfl
      · split <;> rfl

/-- **The documented state machine**, for a control block that `listio` and
`waitcomplete` leave alone, in every run in which a refused submission is rolled back in
time. -/
theorem aio_documented (a : Nat) (s : State)
    (h : system.ReachableBy (fun s e => Alone a s e ∧ RefusedInTime a s e) s)
    (ha : a < s.count) : Documented (s.cbs a) := by
  have tracked : a < s.count → ∃ p, Tracked a s p := by
    clear ha
    induction h with
    | init => exact fun ha => absurd ha (Nat.not_lt_zero a)
    | step hs hok he ih =>
      rename_i s e
      intro ha
      by_cases hold : a < s.count
      · obtain ⟨p, hp⟩ := ih hold
        exact hp.next hold e hok.1 hok.2 he
      · rcases count_next s e with hcount | ⟨lioRead, buffer, rfl⟩
        · exact absurd (hcount ▸ ha) hold
        · have hlt : a < s.count + 1 := ha
          obtain rfl : a = s.count := by omega
          exact (reachable_bounded hs).tracked lioRead buffer
  obtain ⟨p, hp⟩ := tracked ha
  exact hp.records.documented

instance (a : Nat) (s : State) : (e : Event) → Decidable (Alone a s e)
  | .call (.listio us) => inferInstanceAs (Decidable (∀ u ∈ us.filterMap id, s.cookie u ≠ a))
  | .refuse _ stray => inferInstanceAs (Decidable (stray ≠ some a))
  | .waitcomplete _ found => inferInstanceAs (Decidable (found ≠ some a))
  | .call (.read _ _) | .call (.write _ _) | .call (.mlock _) | .call (.fsync _)
  | .call (.return_ _) | .call (.cancel _) | .call (.suspend _) | .call (.index _ _)
  | .call .waitcomplete | .shared _ _ | .retain _ | .step _ _ | .make _ | .lioReturn _ _
  | .complete _ _ | .close _ | .gc _ | .freeStep _ _ => instDecidableTrue

instance (a : Nat) (s : State) : (e : Event) → Decidable (RefusedInTime a s e)
  | .step _ _ => by
    unfold RefusedInTime
    infer_instance
  | .shared _ _ | .call _ | .retain _ | .make _ | .lioReturn _ _ | .refuse _ _ | .waitcomplete _ _
  | .complete _ _ | .close _ | .gc _ | .freeStep _ _ => instDecidableTrue

/-- A read is refused and rolled back, a second one is returned. -/
def readEvents : List Event :=
  [.shared false (.piece (.length 8)), .retain 0, .make 0, .call (.read 0 0), .step 1 true,
    .step 1 false, .step 1 true, .call (.read 0 0), .step 2 true, .step 2 true, .complete 0 true,
    .call (.return_ 1), .step 3 true, .step 3 true, .step 3 true, .step 3 true]

theorem aio_documented_read : ∃ s, system.run readEvents = some s ∧
    (s.cbs 0).changes.map Change.action =
      [.beginRead, .refused, .beginRead, .beginReturn, .committed] ∧ Documented (s.cbs 0) := by
  have hrun : ((system.restrict (fun s e => Alone 0 s e ∧ RefusedInTime 0 s e)
      (fun _ _ => inferInstance)).run readEvents).map
      (fun s => (s.count, (s.cbs 0).changes.map Change.action)) =
        some (1, [.beginRead, .refused, .beginRead, .beginReturn, .committed]) := by
    decide
  obtain ⟨s, hs, heq⟩ := Option.map_eq_some_iff.mp hrun
  obtain ⟨hcount, hactions⟩ := Prod.mk.inj heq
  exact ⟨s, System.run_of_restrict hs, hactions,
    aio_documented 0 s (System.run_restrict hs) (by omega)⟩

/-- A write is refused after another thread has called `_return`. -/
def refusedLate : List Event :=
  [.shared false (.piece (.string [])), .retain 0, .make 0, .call (.write 0 0), .step 1 true,
    .call (.return_ 1), .step 2 true, .step 1 false, .step 1 true]

/-- Its rollback takes the state from `CB_RETURNING`, which the other thread has set. -/
theorem not_documented_refused : ¬ ∀ (a : Nat) (s : State), system.ReachableBy (Alone a) s →
    a < s.count → Documented (s.cbs a) := by
  intro hall
  have hrun : ((system.restrict (Alone 0) (fun _ _ => inferInstance)).run refusedLate).map
      (fun s => (s.count,
        (documented (Phase.made (s.cbs 0).created)).run (s.cbs 0).changes)) = some (1, none) := by
    decide
  obtain ⟨s, hs, heq⟩ := Option.map_eq_some_iff.mp hrun
  obtain ⟨hcount, hnone⟩ := Prod.mk.inj heq
  obtain ⟨p, hp, _⟩ := (hall 0 s (System.run_restrict hs) (by omega)).run
  rw [hnone] at hp
  cases hp

end Aio
end FluaLibs
