import FluaLibs.AioReferences

/-! # Who has the request

At most one request is made of a control block at a time, and it is somewhere: with the
call that has moved the state to `CB_PENDING` and is about to submit it, with the
kernel, or with the call that has collected it and is about to restore the state.
`Pc.claims` counts the first and the last, `Rcaiocb.outstanding` the second.  While the
state is `CB_UNINIT` or `CB_INIT` there is none.

`_return` has not got the request between its compare-exchange and `aio_return(2)`, but
no other call has then taken the state to `CB_RETURNING`: `Pc.returns` counts those.
-/
namespace FluaLibs
namespace Aio

namespace Pc

/-- The requests of the control block `a` that the call has. -/
def claims (a : Nat) : Pc → Nat
  | tryRead _ l | tryWrite _ l => l.elim 0 (fun l => l.begun.countP (fun x => x.1 = a))
  | submit b _ => if b = a then 1 else 0
  | rollback b _ rest _ => (if b = a then 1 else 0) + rest.countP (fun x => x.1 = a)
  | lio handled b _ rest =>
    handled.countP (fun x => x.1.1 = a ∧ x.2 = false) +
      ((if b = a then 1 else 0) + rest.countP (fun x => x.1 = a))
  | lioReturn handled => handled.countP (fun x => x.1.1 = a ∧ x.2 = false)
  | refused begun _ => begun.countP (fun x => x.1 = a)
  | failed b _ | restore b _ _ | commit b _ | store b _ | waited b _ | waitedNew b _ =>
    if b = a then 1 else 0
  | _ => 0

/-- The call has taken the state of `a` to `CB_RETURNING`. -/
def returns (a : Nat) : Pc → Nat
  | aioReturn b | failed b .aioReturn | restore b _ .aioReturn | commit b .aioReturn
  | store b .aioReturn => if b = a then 1 else 0
  | _ => 0

/-- The states that the call may restore. -/
def values : Pc → List AiocbState
  | tryRead _ l | tryWrite _ l => l.elim [] (fun l => l.begun.map Prod.snd)
  | submit _ state | restore _ state _ => [state]
  | rollback _ state rest _ => state :: rest.map Prod.snd
  | lio handled _ state rest => handled.map (Prod.snd ∘ Prod.fst) ++ state :: rest.map Prod.snd
  | lioReturn handled => handled.map (Prod.snd ∘ Prod.fst)
  | refused begun _ => begun.map Prod.snd
  | _ => []

variable {a : Nat}

theorem claims_rollbackStates (outcome : Outcome) (targets : List (Nat × AiocbState)) :
    (rollbackStates outcome targets).claims a = targets.countP (fun x => x.1 = a) := by
  cases targets with
  | nil => rfl
  | cons e rest =>
    rw [List.countP_cons, Nat.add_comm]
    simp [rollbackStates, claims]

theorem claims_lioListio (handled : List ((Nat × AiocbState) × Bool))
    (rest : List (Nat × AiocbState)) : (lioListio handled rest).claims a =
      handled.countP (fun x => x.1.1 = a ∧ x.2 = false) + rest.countP (fun x => x.1 = a) := by
  cases rest with
  | nil => simp [lioListio, claims]
  | cons e rest =>
    rw [List.countP_cons, Nat.add_comm (rest.countP _)]
    simp [lioListio, claims]

theorem claims_nextEntry (begun : List (Nat × AiocbState)) (todo : List (Option (Nat × Bool))) :
    (nextEntry begun todo).claims a = begun.countP (fun x => x.1 = a) := by
  rcases todo with _ | ⟨_ | ⟨b, _ | _⟩, todo⟩
  · rw [nextEntry, claims_lioListio]
    simp
  · rw [nextEntry, claims_rollbackStates]
  · rfl
  · rfl

/-- A call gets the request with the compare-exchange. -/
theorem claims_afterBegin (b : Nat) (state : AiocbState) (l : Option Listing) :
    (afterBegin b state l).claims a =
      l.elim 0 (fun l => l.begun.countP (fun x => x.1 = a)) + if b = a then 1 else 0 := by
  cases l with
  | none => simp [afterBegin, claims]
  | some l =>
    rw [afterBegin, claims_nextEntry, List.countP_append]
    simp [List.countP_cons]

theorem claims_afterRefusal (observed : AiocbState) (l : Option Listing) :
    (afterRefusal observed l).claims a =
      l.elim 0 (fun l => l.begun.countP (fun x => x.1 = a)) := by
  cases l <;> rfl

theorem claims_collected (b : Nat) (source : Source) (result : Bool) :
    (collected b source result).claims a = if b = a then 1 else 0 := by
  cases result <;> rfl

theorem returns_of_submits {pc : Pc} (h : pc.submits = true) : pc.returns a = 0 := by
  cases pc <;> first | rfl | cases h

theorem values_rollbackStates (outcome : Outcome) (targets : List (Nat × AiocbState)) :
    (rollbackStates outcome targets).values = targets.map Prod.snd := by
  cases targets <;> rfl

theorem values_lioListio (handled : List ((Nat × AiocbState) × Bool))
    (rest : List (Nat × AiocbState)) : (lioListio handled rest).values =
      handled.map (Prod.snd ∘ Prod.fst) ++ rest.map Prod.snd := by
  cases rest with
  | nil => simp [lioListio, values]
  | cons e rest => rfl

theorem values_nextEntry (begun : List (Nat × AiocbState)) (todo : List (Option (Nat × Bool))) :
    (nextEntry begun todo).values = begun.map Prod.snd := by
  rcases todo with _ | ⟨_ | ⟨b, _ | _⟩, todo⟩
  · rw [nextEntry, values_lioListio]
    rfl
  · exact values_rollbackStates _ begun
  · rfl
  · rfl

/-- The entries that `lio_listio(2)` has been through, with whether they were queued. -/
def handled : Pc → List ((Nat × AiocbState) × Bool)
  | lioReturn handled => handled
  | _ => []

/-- The control block whose buffer the call is copying. -/
def copies : Pc → Option Nat
  | copying a => some a
  | _ => none

variable {pc : Pc}

/-- What a call may restore was the state of a control block not in use, or its shadow. -/
theorem values_exec {call : Nat} {ok : Bool} {cb : Rcaiocb} (hshadow : cb.aioState.idle = true)
    (h : ∀ v ∈ pc.values, v.idle = true) :
    ∀ v ∈ (pc.exec call ok cb).2.values, v.idle = true := by
  -- after a compare-exchange that succeeds
  have begun : ∀ (b : Nat) (l : Option Listing), cb.state.idle = true →
      (∀ v ∈ l.elim [] (fun l => l.begun.map Prod.snd), v.idle = true) →
      ∀ v ∈ (afterBegin b cb.state l).values, v.idle = true := by
    intro b l hidle hl v hv
    cases l with
    | none =>
      rw [List.mem_singleton.mp hv]
      exact hidle
    | some l =>
      rw [afterBegin, values_nextEntry, List.map_append] at hv
      rcases List.mem_append.mp hv with hv | hv
      · exact hl v hv
      · rw [List.mem_singleton.mp hv]
        exact hidle
  cases pc with
  | tryRead b l =>
    simp only [exec]
    split
    · rename_i cb' heq
      have huninit := (cb.compareExchange_eq_some call heq).1
      exact begun b l (by rw [huninit]; rfl) h
    · exact h
  | tryWrite b l =>
    simp only [exec]
    split
    · rename_i cb' heq
      have hinit := (cb.compareExchange_eq_some call heq).1
      exact begun b l (by rw [hinit]; rfl) h
    · cases l with
      | none => exact fun v hv => by cases hv
      | some l => exact h
  | submit b state =>
    cases ok with
    | true => exact fun v hv => by cases hv
    | false => exact h
  | rollback b state rest outcome =>
    simp only [exec, values_rollbackStates]
    exact fun v hv => h v (List.mem_cons_of_mem _ hv)
  | lio handled b state rest =>
    simp only [exec, values_lioListio]
    intro v hv
    refine h v ?_
    simpa [values, or_assoc] using hv
  | failed b source =>
    intro v hv
    rw [List.mem_singleton.mp hv]
    exact hshadow
  | tryReturn b | cancel b =>
    simp only [exec]
    split <;> exact fun v hv => by cases hv
  | aioReturn b =>
    simp only [exec]
    split
    · exact fun v hv => by cases hv
    · rename_i result rest _
      cases result <;> exact fun v hv => by cases hv
  | index b iov =>
    simp only [exec]
    split
    · exact fun v hv => by cases hv
    · split <;> exact fun v hv => by cases hv
  | suspend b rest =>
    simp only [exec]
    split
    · cases rest <;> exact fun v hv => by cases hv
    · exact fun v hv => by cases hv
  | restore | store | commit | waited | copying | aioCancel | aioSuspend =>
    exact fun v hv => by cases hv
  | _ => exact h

theorem copies_of_submits {pc : Pc} (h : pc.submits = true) : pc.copies = none := by
  cases pc <;> first | rfl | cases h

/-- Only `l_aiocb_index` copies a buffer, and only in the state `CB_INIT`. -/
theorem copies_exec {a call : Nat} {ok : Bool} {cb : Rcaiocb} (htarget : pc.target.isSome = true)
    (h : (pc.exec call ok cb).2.copies = some a) :
    cb.state = .init ∧ pc.target = some a ∧ (pc.exec call ok cb).1 = cb := by
  cases pc with
  | index b iov =>
    simp only [exec] at h ⊢
    split at h
    · cases h
    · split at h
      · rename_i hvector hinit
        rw [if_neg hvector, if_pos hinit]
        exact ⟨hinit, h, rfl⟩
      · cases h
  | tryRead b l =>
    simp only [exec] at h
    split at h
    · rw [copies_of_submits (submits_afterBegin _ _ _)] at h
      cases h
    · cases h
  | tryWrite b l =>
    simp only [exec] at h
    split at h
    · rw [copies_of_submits (submits_afterBegin _ _ _)] at h
      cases h
    · rw [copies_of_submits (submits_afterRefusal _ _)] at h
      cases h
  | rollback b state rest outcome =>
    simp only [exec, copies_of_submits (submits_rollbackStates _ _)] at h
    cases h
  | lio handled b state rest =>
    simp only [exec, copies_of_submits (submits_lioListio _ _)] at h
    cases h
  | tryReturn b | cancel b =>
    simp only [exec] at h
    split at h <;> cases h
  | aioReturn b =>
    simp only [exec] at h
    split at h
    · cases h
    · rename_i result rest _
      cases result <;> cases h
  | suspend b rest =>
    simp only [exec] at h
    split at h
    · cases rest <;> cases h
    · cases h
  | submit b state => cases ok <;> cases h
  | lioReturn | refused | waitcomplete | waitedNew | retained | done => cases htarget
  | _ => cases h

theorem countP_of_not_mem {l : List (Nat × AiocbState)} (h : a ∉ l.map Prod.fst) :
    l.countP (fun x => x.1 = a) = 0 := by
  refine List.countP_eq_zero.mpr (fun x hx => ?_)
  intro heq
  exact h (List.mem_map.mpr ⟨x, hx, of_decide_eq_true heq⟩)

theorem countP_handled_of_not_mem {l : List ((Nat × AiocbState) × Bool)}
    (h : a ∉ l.map (Prod.fst ∘ Prod.fst)) :
    l.countP (fun x => x.1.1 = a ∧ x.2 = false) = 0 := by
  refine List.countP_eq_zero.mpr (fun x hx => ?_)
  intro heq
  exact h (List.mem_map.mpr ⟨x, hx, (of_decide_eq_true heq).1⟩)

/-- A call that has no pointer to the control block has no request of it. -/
theorem claims_of_not_mem (h : a ∉ pc.mentions) : pc.claims a = 0 ∧ pc.returns a = 0 := by
  cases pc with
  | tryRead b l | tryWrite b l =>
    cases l with
    | none => exact ⟨rfl, rfl⟩
    | some l =>
      refine ⟨countP_of_not_mem (fun hmem => h ?_), rfl⟩
      exact List.mem_cons_of_mem _ (List.mem_append_right _ hmem)
  | rollback b state rest outcome =>
    simp only [mentions, List.mem_cons, not_or] at h
    simp only [claims, returns, countP_of_not_mem h.2, if_neg (Ne.symm h.1), and_self]
  | lio handled b state rest =>
    simp only [mentions, List.mem_append, List.mem_cons, not_or] at h
    simp only [claims, returns, countP_handled_of_not_mem h.1, countP_of_not_mem h.2.2,
      if_neg (Ne.symm h.2.1), and_self]
  | lioReturn handled => exact ⟨countP_handled_of_not_mem h, rfl⟩
  | refused begun observed => exact ⟨countP_of_not_mem h, rfl⟩
  | submit b | aioReturn b | waited b | waitedNew b =>
    simp only [mentions, List.mem_singleton] at h
    simp only [claims, returns, if_neg (Ne.symm h), and_self]
  | failed b source | restore b state source | commit b source | store b source =>
    simp only [mentions, List.mem_singleton] at h
    cases source <;> simp only [claims, returns, if_neg (Ne.symm h), and_self]
  | _ => exact ⟨rfl, rfl⟩

/-- An action on one control block is none on the requests of another. -/
theorem claims_exec_of_ne {b call : Nat} {ok : Bool} {cb : Rcaiocb} (htarget : pc.target = some b)
    (hne : b ≠ a) : (pc.exec call ok cb).2.claims a = pc.claims a ∧
      (pc.exec call ok cb).2.returns a = pc.returns a := by
  cases pc with
  | tryRead c l | tryWrite c l =>
    obtain rfl := Option.some.inj htarget
    simp only [exec]
    split
    · rw [claims_afterBegin, if_neg hne, returns_of_submits (submits_afterBegin _ _ _)]
      exact ⟨rfl, rfl⟩
    · first
      | exact ⟨rfl, rfl⟩
      | exact ⟨claims_afterRefusal _ _, returns_of_submits (submits_afterRefusal _ _)⟩
  | rollback c state rest outcome =>
    obtain rfl := Option.some.inj htarget
    refine ⟨(claims_rollbackStates _ _).trans ?_, returns_of_submits (submits_rollbackStates _ _)⟩
    rw [claims, if_neg hne, Nat.zero_add]
  | lio handled c state rest =>
    obtain rfl := Option.some.inj htarget
    refine ⟨(claims_lioListio _ _).trans ?_, returns_of_submits (submits_lioListio _ _)⟩
    rw [claims, if_neg hne, Nat.zero_add, List.countP_append]
    simp [hne]
  | aioReturn c =>
    obtain rfl := Option.some.inj htarget
    simp only [exec]
    split
    · simp only [claims, returns, if_neg hne, and_self]
    · rename_i result rest _
      cases result <;> simp [collected, claims, returns, hne]
  | submit c state =>
    obtain rfl := Option.some.inj htarget
    cases ok <;> simp [exec, claims, returns, hne]
  | failed c source | restore c state source | commit c source | store c source =>
    obtain rfl := Option.some.inj htarget
    cases source <;> simp [exec, claims, returns, hne]
  | waited c result =>
    obtain rfl := Option.some.inj htarget
    exact ⟨rfl, rfl⟩
  | tryReturn c =>
    obtain rfl := Option.some.inj htarget
    simp only [exec]
    split
    · simp only [claims, returns, if_neg hne, and_self]
    · exact ⟨rfl, rfl⟩
  | index c iov =>
    simp only [exec]
    split
    · exact ⟨rfl, rfl⟩
    · split <;> exact ⟨rfl, rfl⟩
  | cancel c =>
    simp only [exec]
    split <;> exact ⟨rfl, rfl⟩
  | suspend c rest =>
    simp only [exec]
    split
    · cases rest <;> exact ⟨rfl, rfl⟩
    · exact ⟨rfl, rfl⟩
  | copying | aioCancel | aioSuspend => exact ⟨rfl, rfl⟩
  | lioReturn | refused | waitcomplete | waitedNew | retained | done => cases htarget

end Pc

/-! ## One control block -/

/-- There is at most one request, and none while the state says so; a call that has
taken the state to `CB_RETURNING` is alone in this.  `claims` and `returns` are counted
over all calls. -/
structure Held (cb : Rcaiocb) (claims returns : Nat) : Prop where
  one : claims + cb.outstanding ≤ 1
  idle : cb.state.idle = true → claims + cb.outstanding = 0
  returning : returns = if cb.state = .returning then 1 else 0
  shadow : cb.aioState.idle = true

/-- What a call has to meet for the requests to stay in order, on a control block that
has `requests` with calls and the kernel.  `aio_return(2)` is not called by `_return`
for a request in progress, nor while another call has it; the store that ends a refused
submission or a `waitcomplete` finds the state as it was; nothing is submitted while its
buffer is being read. -/
def Pc.Careful (cb : Rcaiocb) (requests : Nat) (copied : Prop) : Pc → Prop
  | .aioReturn _ => cb.complete = [] → requests = 0
  | .rollback _ _ _ _ | .restore _ _ .aioWaitcomplete | .store _ .aioWaitcomplete =>
    cb.state = .pending
  | .tryWrite _ _ => cb.state = .init → ¬ copied
  | _ => True

section Exec
variable {a call others returners : Nat} {ok : Bool} {cb : Rcaiocb}

/-- No call is returning while the state says otherwise. -/
theorem Held.no_returners {n r : Nat} (h : Held cb n r) (hne : cb.state ≠ .returning) : r = 0 := by
  have hreturning := h.returning
  rwa [if_neg hne] at hreturning

/-- A call that is returning is alone in this. -/
theorem Held.alone {n r : Nat} (h : Held cb n (r + 1)) : cb.state = .returning ∧ r = 0 := by
  have hreturning := h.returning
  split at hreturning
  · next hstate => exact ⟨hstate, Nat.succ.inj hreturning⟩
  · cases hreturning

theorem ne_returning_of_pending (h : cb.state = .pending) : cb.state ≠ .returning := by
  rw [h]
  intro heq
  cases heq

/-- A compare-exchange to `CB_PENDING` takes the request. -/
theorem Held.begin {action : Action} {n : Nat} {pc' : Pc}
    (h : Held cb (others + n) (returners + 0)) (hidle : cb.state.idle = true)
    (hclaims : pc'.claims a = n + 1) (hreturns : pc'.returns a = 0) :
    Held (cb.store call action .pending) (others + pc'.claims a) (returners + pc'.returns a) where
  one := by
    have hnone := h.idle hidle
    rw [hclaims]
    show others + (n + 1) + cb.outstanding ≤ 1
    omega
  idle hpending := by cases hpending
  returning := by
    have hne : cb.state ≠ .returning := by
      intro heq
      rw [heq] at hidle
      cases hidle
    rw [hreturns, h.no_returners hne]
    rfl
  shadow := h.shadow

/-- A store back to a state not in use, by the call that has the request. -/
theorem Held.settle {action : Action} {state : AiocbState} {n r : Nat}
    (h : Held cb (others + (n + 1)) (returners + r)) (hstate : state.idle = true)
    (hturn : returners = 0) :
    Held (cb.store call action state) (others + n) (returners + 0) where
  one := by
    have hone := h.one
    show others + n + cb.outstanding ≤ 1
    omega
  idle _ := by
    have hone := h.one
    show others + n + cb.outstanding = 0
    omega
  returning := by
    rw [hturn, if_neg]
    show ¬ state = .returning
    rintro rfl
    cases hstate
  shadow := h.shadow

/-- An action that leaves the state field alone moves a request at most. -/
theorem Held.move {cb' : Rcaiocb} {n r n' r' : Nat} (h : Held cb (others + n) (returners + r))
    (hstate : cb'.state = cb.state) (hshadow : cb'.aioState.idle = true)
    (htotal : n' + cb'.outstanding ≤ n + cb.outstanding) (hreturns : r' = r) :
    Held cb' (others + n') (returners + r') where
  one := by
    have hone := h.one
    omega
  idle hidle := by
    rw [hstate] at hidle
    have hnone := h.idle hidle
    omega
  returning := by
    rw [hstate, hreturns]
    exact h.returning
  shadow := hshadow

/-- A call that writes the state at its end gives up the request: it was returning, or the
request is still pending. -/
theorem Held.conclude (source : Source) {action : Action} {state : AiocbState}
    (h : Held cb (others + (Pc.store a source).claims a)
      (returners + (Pc.store a source).returns a))
    (hstate : state.idle = true) (hpending : source = .aioWaitcomplete → cb.state = .pending) :
    Held (cb.store call action state) (others + 0) (returners + 0) := by
  cases source with
  | aioReturn =>
    simp only [Pc.claims, Pc.returns, if_true] at h
    exact h.settle hstate h.alone.2
  | aioWaitcomplete =>
    have hnone := h.no_returners (ne_returning_of_pending (hpending rfl))
    simp only [Pc.claims, if_true] at h
    exact h.settle hstate (by omega)

/-- **One action of a call**, on the control block it is about. -/
theorem Held.exec {pc : Pc} (h : Held cb (others + pc.claims a) (returners + pc.returns a))
    (htarget : pc.target = some a) (hvalues : ∀ v ∈ pc.values, v.idle = true) {copied : Prop}
    (hok : pc.Careful cb (others + pc.claims a + cb.outstanding) copied) :
    Held (pc.exec call ok cb).1 (others + (pc.exec call ok cb).2.claims a)
      (returners + (pc.exec call ok cb).2.returns a) := by
  cases pc with
  | tryRead b l =>
    obtain rfl := Option.some.inj htarget
    simp only [Pc.exec]
    split
    · rename_i cb' heq
      obtain ⟨huninit, rfl⟩ := cb.compareExchange_eq_some call heq
      refine h.begin (by rw [huninit]; rfl) ?_ (Pc.returns_of_submits (Pc.submits_afterBegin _ _ _))
      rw [Pc.claims_afterBegin, if_pos rfl]
      rfl
    · exact h
  | tryWrite b l =>
    obtain rfl := Option.some.inj htarget
    simp only [Pc.exec]
    split
    · rename_i cb' heq
      obtain ⟨hinit, rfl⟩ := cb.compareExchange_eq_some call heq
      refine h.begin (by rw [hinit]; rfl) ?_ (Pc.returns_of_submits (Pc.submits_afterBegin _ _ _))
      rw [Pc.claims_afterBegin, if_pos rfl]
      rfl
    · rw [Pc.claims_afterRefusal, Pc.returns_of_submits (Pc.submits_afterRefusal _ _)]
      exact h
  | submit b state =>
    obtain rfl := Option.some.inj htarget
    cases ok with
    | true =>
      refine h.move rfl h.shadow ?_ rfl
      simp [Pc.exec, Pc.claims, Rcaiocb.queue, Rcaiocb.outstanding]
      omega
    | false =>
      refine h.move rfl h.shadow ?_ rfl
      simp [Pc.exec, Pc.claims]
  | rollback b state rest outcome =>
    obtain rfl := Option.some.inj htarget
    have hnone := h.no_returners (ne_returning_of_pending hok)
    -- the entry that is rolled back has the request, so nobody else does
    have hclaims : (Pc.rollback b state rest outcome).claims b =
        rest.countP (fun x => x.1 = b) + 1 := by
      simp [Pc.claims, Nat.add_comm]
    rw [hclaims] at h
    simp only [Pc.exec, Pc.claims_rollbackStates,
      Pc.returns_of_submits (Pc.submits_rollbackStates _ _)]
    exact h.settle (hvalues state (List.mem_cons_self ..)) (by omega)
  | lio handled b state rest =>
    obtain rfl := Option.some.inj htarget
    simp only [Pc.exec, Pc.claims_lioListio, Pc.returns_of_submits (Pc.submits_lioListio _ _)]
    refine h.move ?_ ?_ ?_ rfl
    · cases ok <;> rfl
    · cases ok <;> exact h.shadow
    · cases ok <;>
        simp [Pc.claims, Rcaiocb.queue, Rcaiocb.outstanding, List.countP_append] <;> omega
  | tryReturn b =>
    obtain rfl := Option.some.inj htarget
    simp only [Pc.exec]
    split
    · rename_i cb' heq
      obtain ⟨hpending, rfl⟩ := cb.compareExchange_eq_some call heq
      have hnone := h.no_returners (ne_returning_of_pending hpending)
      refine ⟨h.one, fun hidle => (by cases hidle), ?_, h.shadow⟩
      simp only [Pc.returns] at hnone ⊢
      simp
      omega
    · exact h
  | aioReturn b =>
    obtain rfl := Option.some.inj htarget
    have hone := h.one
    simp only [Pc.claims] at hone
    -- the call counts as a returner, and there is one exactly in `CB_RETURNING`
    have hstate : cb.state = .returning := by
      simp only [Pc.returns, if_true] at h
      exact h.alone.1
    simp only [Pc.exec]
    split
    · rename_i hnil
      -- nothing is complete, and by the condition nothing is under way
      have hnone : others + 0 + cb.outstanding = 0 := hok hnil
      refine ⟨?_, fun hidle => ?_, h.returning, h.shadow⟩
      · simp only [Pc.claims, if_true]
        omega
      · rw [hstate] at hidle
        cases hidle
    · rename_i result rest hcons
      have hout : cb.outstanding = cb.running + rest.length + 1 := by
        simp [Rcaiocb.outstanding, hcons]
        omega
      rw [Pc.claims_collected, if_pos rfl]
      refine ⟨?_, fun hidle => ?_, ?_, h.shadow⟩
      · simp only [Rcaiocb.outstanding]
        omega
      · change cb.state.idle = true at hidle
        rw [hstate] at hidle
        cases hidle
      · cases result <;> exact h.returning
  | failed b source =>
    obtain rfl := Option.some.inj htarget
    cases source <;> exact h
  | commit b source =>
    obtain rfl := Option.some.inj htarget
    cases source <;> exact h.move rfl rfl (Nat.le_refl _) rfl
  | restore b state source =>
    obtain rfl := Option.some.inj htarget
    have hstate := hvalues state (List.mem_cons_self ..)
    cases source with
    | aioReturn =>
      exact Held.conclude (a := b) .aioReturn h hstate (fun heq => by cases heq)
    | aioWaitcomplete => exact Held.conclude (a := b) .aioWaitcomplete h hstate (fun _ => hok)
  | store b source =>
    obtain rfl := Option.some.inj htarget
    cases source with
    | aioReturn => exact h.conclude .aioReturn rfl (fun heq => by cases heq)
    | aioWaitcomplete => exact h.conclude .aioWaitcomplete rfl (fun _ => hok)
  | waited b result => exact h.move rfl h.shadow (Nat.le_refl _) rfl
  | index b iov =>
    simp only [Pc.exec]
    split
    · exact h
    · split <;> exact h
  | cancel b =>
    simp only [Pc.exec]
    split <;> exact h
  | suspend b rest =>
    simp only [Pc.exec]
    split
    · cases rest <;> exact h
    · exact h
  | copying b => exact h
  | aioCancel b =>
    cases ok with
    | true =>
      refine h.move rfl h.shadow ?_ rfl
      simp [Pc.exec, Pc.claims, Rcaiocb.aioCancel, Rcaiocb.outstanding]
      omega
    | false => exact h
  | aioSuspend b => exact h
  | lioReturn | refused | waitcomplete | waitedNew | retained | done => cases htarget

/-- A call that has the request finds the state in use. -/
theorem Held.state_ne_init {n r : Nat} (h : Held cb (others + (n + 1)) r) : cb.state ≠ .init := by
  intro hinit
  have hnone := h.idle (by rw [hinit]; rfl)
  omega

/-- The state field does not change under a call that copies the buffer. -/
theorem Held.state_exec {pc : Pc} {returns requests : Nat}
    (h : Held cb (others + pc.claims a) returns) (htarget : pc.target = some a) {copied : Prop}
    (hok : pc.Careful cb requests copied) :
    (pc.exec call ok cb).1.state = cb.state ∨ (cb.state = .init → ¬ copied) := by
  cases pc with
  | tryRead b l =>
    simp only [Pc.exec]
    split
    · rename_i cb' heq
      have huninit := (cb.compareExchange_eq_some call heq).1
      right
      intro hinit
      rw [huninit] at hinit
      cases hinit
    · exact Or.inl rfl
  | tryWrite b l => exact Or.inr hok
  | tryReturn b =>
    simp only [Pc.exec]
    split
    · rename_i cb' heq
      have hpending := (cb.compareExchange_eq_some call heq).1
      right
      intro hinit
      rw [hpending] at hinit
      cases hinit
    · exact Or.inl rfl
  | rollback b state rest outcome =>
    obtain rfl := Option.some.inj htarget
    rw [show (Pc.rollback b state rest outcome).claims b = rest.countP (fun x => x.1 = b) + 1 by
      simp [Pc.claims, Nat.add_comm]] at h
    exact Or.inr (fun hinit => absurd hinit h.state_ne_init)
  | restore b state source | store b source =>
    obtain rfl := Option.some.inj htarget
    rw [Pc.claims, if_pos rfl] at h
    exact Or.inr (fun hinit => absurd hinit (Held.state_ne_init (n := 0) h))
  | aioReturn b =>
    simp only [Pc.exec]
    split <;> exact Or.inl rfl
  | index b iov =>
    simp only [Pc.exec]
    split
    · exact Or.inl rfl
    · split <;> exact Or.inl rfl
  | cancel b | suspend b rest =>
    simp only [Pc.exec]
    split <;> exact Or.inl rfl
  | submit b state | lio handled b state rest | aioCancel b => cases ok <;> exact Or.inl rfl
  | _ => exact Or.inl rfl

end Exec

/-! ## Every control block -/

namespace State
variable (s : State)

/-- A number that each call contributes to, over all calls. -/
def total (f : Pc → Nat) : Nat := (s.calls.map (fun c => f c.pc)).sum

/-- The requests of a control block, with the calls and with the kernel. -/
def requests (a : Nat) : Nat := s.total (Pc.claims a) + (s.cbs a).outstanding

/-- The buffer of the control block is being copied. -/
def Copied (a : Nat) : Prop := ∃ c ∈ s.calls, c.pc.copies = some a

instance (a : Nat) : Decidable (s.Copied a) := inferInstanceAs (Decidable (∃ c ∈ s.calls, _))

/-- The others contribute what they did. -/
theorem total_setCall {f : Pc → Nat} {i : Nat} {c : Call} (hi : s.calls[i]? = some c) :
    ∃ others, s.total f = others + f c.pc ∧ ∀ c', (s.setCall i c').total f = others + f c'.pc := by
  obtain ⟨others, hsum, hset⟩ := exists_sum_map_set (fun c : Call => f c.pc) hi
  exact ⟨others, hsum, hset⟩

theorem total_addCall (f : Pc → Nat) (c : Call) : (s.addCall c).total f = s.total f + f c.pc := by
  simp [total, addCall]

/-- If somebody contributes, there is somebody. -/
theorem exists_of_total_pos {f : Pc → Nat} (h : 0 < s.total f) : ∃ c ∈ s.calls, 0 < f c.pc := by
  obtain ⟨n, hn, hpos⟩ := List.sum_pos_iff_exists_pos_nat.mp h
  obtain ⟨c, hc, rfl⟩ := List.mem_map.mp hn
  exact ⟨c, hc, hpos⟩

end State

/-- The condition on the actions for every control block.  `lio_listio(2)` does not fail
after it has queued a request, and `listio` does not go on after it has been refused an
entry. -/
def InFlightOk (s : State) : Event → Prop
  | .step i _ => ∀ c ∈ s.calls[i]?, ∀ a ∈ c.pc.target,
      c.pc.Careful (s.cbs a) (s.requests a) (s.Copied a)
  | .lioReturn i ok => ok = false → ∀ c ∈ s.calls[i]?, ∀ x ∈ c.pc.handled, x.2 = false
  | .refuse _ _ => False
  | _ => True

/-- The requests of every control block are in order. -/
structure InOrder (s : State) : Prop where
  held : ∀ a < s.count, Held (s.cbs a) (s.total (Pc.claims a)) (s.total (Pc.returns a))
  values : ∀ c ∈ s.calls, ∀ v ∈ c.pc.values, v.idle = true
  copied : ∀ a, s.Copied a → (s.cbs a).state = .init

/-- `l_aiocb_free` makes no requests. -/
theorem FreePc.exec_outstanding {pc : FreePc} {ok : Bool} {cb : Rcaiocb} :
    (pc.exec ok cb).1.outstanding ≤ cb.outstanding := by
  cases pc with
  | aioCancel =>
    cases ok with
    | true =>
      simp [FreePc.exec, Rcaiocb.aioCancel, Rcaiocb.outstanding]
      omega
    | false => exact Nat.le_refl _
  | aioReturn =>
    simp [FreePc.exec, Rcaiocb.outstanding]
  | _ => exact Nat.le_refl _

section Steps
variable {s : State} (h : InOrder s)
include h

/-- A step that no call takes, or in which one starts that has no request. -/
theorem InOrder.frame {s' : State} (hcount : s'.count = s.count)
    (htotal : ∀ a, s'.total (Pc.claims a) = s.total (Pc.claims a) ∧
      s'.total (Pc.returns a) = s.total (Pc.returns a))
    (hheld : ∀ a < s.count, ∀ n r, Held (s.cbs a) n r → Held (s'.cbs a) n r)
    (hstate : ∀ a, (s'.cbs a).state = (s.cbs a).state)
    (hcalls : ∀ c ∈ s'.calls, c ∈ s.calls ∨ (c.pc.values = [] ∧ c.pc.copies = none)) :
    InOrder s' where
  held a ha := by
    rw [hcount] at ha
    rw [(htotal a).1, (htotal a).2]
    exact hheld a ha _ _ (h.held a ha)
  values c hc v hv := by
    rcases hcalls c hc with hold | ⟨hvalues, _⟩
    · exact h.values c hold v hv
    · rw [hvalues] at hv
      cases hv
  copied a hcopied := by
    obtain ⟨c, hc, hcopies⟩ := hcopied
    rw [hstate]
    rcases hcalls c hc with hold | ⟨_, hnone⟩
    · exact h.copied a ⟨c, hold, hcopies⟩
    · rw [hnone] at hcopies
      cases hcopies

theorem InOrder.addCall {c : Call} (hclaims : ∀ a, c.pc.claims a = 0 ∧ c.pc.returns a = 0)
    (hvalues : c.pc.values = []) (hcopies : c.pc.copies = none) : InOrder (s.addCall c) := by
  refine h.frame rfl ?_ (fun _ _ _ _ hheld => hheld) (fun _ => rfl) ?_
  · intro a
    rw [s.total_addCall, s.total_addCall, (hclaims a).1, (hclaims a).2]
    exact ⟨rfl, rfl⟩
  · intro d hd
    refine (List.mem_append.mp hd).imp_right ?_
    intro hd
    rw [List.mem_singleton.mp hd]
    exact ⟨hvalues, hcopies⟩

/-- A call moves on, and at most one control block changes with it. -/
theorem InOrder.advance {s' : State} {i : Nat} {c c' : Call} (hi : s.calls[i]? = some c)
    (hcount : s'.count = s.count) (hcalls : s'.calls = s.calls.set i c')
    (hheld : ∀ a < s.count, ∀ others returners,
      s.total (Pc.claims a) = others + c.pc.claims a →
      Held (s.cbs a) (others + c.pc.claims a) (returners + c.pc.returns a) →
      Held (s'.cbs a) (others + c'.pc.claims a) (returners + c'.pc.returns a))
    (hvalues : ∀ v ∈ c'.pc.values, v.idle = true)
    (hcopies : ∀ a, c'.pc.copies = some a → (s'.cbs a).state = .init)
    (hstate : ∀ a, (s'.cbs a).state = (s.cbs a).state ∨ ((s.cbs a).state = .init → ¬ s.Copied a)) :
    InOrder s' where
  held a ha := by
    rw [hcount] at ha
    obtain ⟨others, hclaims, hclaims'⟩ := s.total_setCall (f := Pc.claims a) hi
    obtain ⟨returners, hreturns, hreturns'⟩ := s.total_setCall (f := Pc.returns a) hi
    have hsame : ∀ f : Pc → Nat, s'.total f = (s.setCall i c').total f := by
      intro f
      simp only [State.total, State.setCall, hcalls]
    have hold := h.held a ha
    rw [hclaims, hreturns] at hold
    rw [hsame, hsame, hclaims', hreturns']
    exact hheld a ha others returners hclaims hold
  values d hd v hv := by
    rw [hcalls] at hd
    rcases List.mem_or_eq_of_mem_set hd with hd | rfl
    · exact h.values d hd v hv
    · exact hvalues v hv
  copied a hcopied := by
    obtain ⟨d, hd, hcopies'⟩ := hcopied
    rw [hcalls] at hd
    rcases List.mem_or_eq_of_mem_set hd with hd | rfl
    · have hcopied : s.Copied a := ⟨d, hd, hcopies'⟩
      have hinit := h.copied a hcopied
      rcases hstate a with hsame | hnot
      · rw [hsame]
        exact hinit
      · exact absurd hcopied (hnot hinit)
    · exact hcopies a hcopies'

/-- **An action of a call.** -/
theorem InOrder.step {i a : Nat} {c : Call} (ok : Bool) (hb : Bounded s)
    (hi : s.calls[i]? = some c) (htarget : c.pc.target = some a)
    (hok : c.pc.Careful (s.cbs a) (s.requests a) (s.Copied a)) : InOrder (s.step i ok c) := by
  have hc := List.mem_of_getElem? hi
  have ha : a < s.count := hb.calls c hc a (Pc.mem_mentions_of_target htarget)
  have hsome : c.pc.target.isSome = true := by rw [htarget]; rfl
  simp only [State.step, htarget]
  have hself : ((s.setCb a (c.pc.exec i ok (s.cbs a)).1).setCall i
      { c with pc := (c.pc.exec i ok (s.cbs a)).2 }).cbs a = (c.pc.exec i ok (s.cbs a)).1 := by
    simp [State.setCb, State.setCall]
  have hother : ∀ b ≠ a, ((s.setCb a (c.pc.exec i ok (s.cbs a)).1).setCall i
      { c with pc := (c.pc.exec i ok (s.cbs a)).2 }).cbs b = s.cbs b := by
    intro b hb
    simp [State.setCb, State.setCall, hb]
  refine h.advance hi rfl rfl ?_ ?_ ?_ ?_
  · intro b hb others returners hclaims hheld
    by_cases heq : b = a
    · subst heq
      rw [hself]
      have hcareful : c.pc.Careful (s.cbs b) (others + c.pc.claims b + (s.cbs b).outstanding)
          (s.Copied b) := by
        rw [← hclaims]
        exact hok
      exact hheld.exec htarget (h.values c hc) hcareful
    · have hsame : (c.pc.exec i ok (s.cbs a)).2.claims b = c.pc.claims b ∧
          (c.pc.exec i ok (s.cbs a)).2.returns b = c.pc.returns b :=
        Pc.claims_exec_of_ne htarget (Ne.symm heq)
      rw [hother b heq]
      simp only [hsame.1, hsame.2]
      exact hheld
  · exact Pc.values_exec (h.held a ha).shadow (h.values c hc)
  · intro b hb
    obtain ⟨hinit, htarget', hsame⟩ := Pc.copies_exec hsome hb
    obtain rfl := Option.some.inj (htarget.symm.trans htarget')
    rw [hself, hsame]
    exact hinit
  · intro b
    by_cases heq : b = a
    · subst heq
      rw [hself]
      obtain ⟨others, hclaims, _⟩ := s.total_setCall (f := Pc.claims b) hi
      exact Held.state_exec (hclaims ▸ h.held b ha) htarget hok
    · rw [hother b heq]
      exact Or.inl rfl

/-- A call moves on without touching a control block. -/
theorem InOrder.setCall {i : Nat} {c c' : Call} (hi : s.calls[i]? = some c)
    (hclaims : ∀ a, c'.pc.claims a ≤ c.pc.claims a)
    (hreturns : ∀ a, c'.pc.returns a = c.pc.returns a)
    (hvalues : ∀ v ∈ c'.pc.values, v ∈ c.pc.values) (hcopies : c'.pc.copies = none) :
    InOrder (s.setCall i c') := by
  refine h.advance hi rfl rfl ?_ ?_ ?_ (fun _ => Or.inl rfl)
  · intro a ha others returners _ hheld
    exact hheld.move rfl hheld.shadow (Nat.add_le_add_right (hclaims a) _) (hreturns a)
  · exact fun v hv => h.values c (List.mem_of_getElem? hi) v (hvalues v hv)
  · intro a ha
    rw [hcopies] at ha
    cases ha

theorem InOrder.new (a : Nat) : InOrder (s.new a) :=
  h.frame rfl (fun _ => ⟨rfl, rfl⟩) (fun _ _ _ _ hheld => hheld) (fun _ => rfl)
    (fun _ hc => Or.inl hc)

theorem InOrder.make {i : Nat} {c : Call} (hi : s.calls[i]? = some c) : InOrder (s.make i c) := by
  unfold State.make
  split
  · rename_i a hpc
    refine (h.new a).setCall hi (fun b => Nat.zero_le _) ?_ (fun v hv => by cases hv) rfl
    rw [hpc]
    exact fun b => rfl
  · rename_i a result hpc
    refine (h.new a).setCall hi ?_ ?_ ?_ ?_
    · intro b
      rw [hpc, Pc.claims_collected]
      exact Nat.le_refl _
    · intro b
      rw [hpc]
      cases result <;> rfl
    · cases result <;> exact fun v hv => by cases hv
    · cases result <;> rfl
  · exact h

/-- What `lio_listio(2)` has not queued goes with the call that made the entry. -/
theorem InOrder.lioReturn {i : Nat} {c : Call} {ok : Bool} (hi : s.calls[i]? = some c)
    (hok : ok = false → ∀ x ∈ c.pc.handled, x.2 = false) : InOrder (s.lioReturn i ok c) := by
  unfold State.lioReturn
  split
  · rename_i handled hpc
    rw [hpc] at hok
    cases ok with
    | true =>
      refine h.setCall hi (fun b => Nat.zero_le _) ?_ (fun v hv => by cases hv) rfl
      rw [hpc]
      exact fun b => rfl
    | false =>
      have hnone := hok rfl
      refine h.setCall hi ?_ ?_ ?_ (Pc.copies_of_submits (Pc.submits_rollbackStates _ _))
      · intro b
        rw [hpc, if_neg (by simp), Pc.claims_rollbackStates, List.countP_map]
        refine List.countP_mono_left (fun x hx heq => ?_)
        simpa [hnone x hx] using heq
      · intro b
        rw [hpc]
        exact Pc.returns_of_submits (Pc.submits_rollbackStates _ _)
      · intro v hv
        rw [if_neg (by simp), Pc.values_rollbackStates, List.map_map] at hv
        rw [hpc]
        exact hv
  · exact h

/-- `aio_waitcomplete(2)` hands a request over. -/
theorem InOrder.waitcomplete {i : Nat} {c : Call} {found : Option Nat} (hi : s.calls[i]? = some c)
    (hpc : c.pc = .waitcomplete) : InOrder (s.waitcomplete i c found) := by
  unfold State.waitcomplete
  split
  · refine h.setCall hi (fun b => Nat.zero_le _) ?_ (fun v hv => by cases hv) rfl
    rw [hpc]
    exact fun b => rfl
  · rename_i a
    split
    · exact h
    · rename_i result rest hcons
      have hstate : ∀ b, ((s.setCb a { s.cbs a with complete := rest }).cbs b).state =
          (s.cbs b).state := by
        intro b
        by_cases heq : b = a
        · subst heq
          simp [State.setCb]
        · simp [State.setCb, heq]
      refine h.advance hi rfl rfl ?_ (fun v hv => by cases hv) (fun b hb => by cases hb)
        (fun b => Or.inl (hstate b))
      intro b hb others returners _ hheld
      rw [hpc] at hheld
      by_cases heq : b = a
      · subst heq
        refine hheld.move (hstate b) ?_ ?_ rfl
        · simp only [State.setCb, State.setCall, Function.update_self]
          exact hheld.shadow
        · simp only [State.setCb, State.setCall, Function.update_self]
          simp [Pc.claims, Rcaiocb.outstanding, hcons]
          omega
      · have hcb : ((s.setCb a { s.cbs a with complete := rest }).setCall i
            { c with pc := .waited a result }).cbs b = s.cbs b := by
          simp [State.setCb, State.setCall, heq]
        rw [hcb]
        refine hheld.move rfl hheld.shadow ?_ rfl
        rw [Pc.claims, if_neg (Ne.symm heq)]
        exact Nat.le_refl _

/-- The kernel, the references and the memory change under a control block. -/
theorem InOrder.setCb {a : Nat} {cb : Rcaiocb} (hstate : cb.state = (s.cbs a).state)
    (hshadow : cb.aioState = (s.cbs a).aioState)
    (hout : cb.outstanding ≤ (s.cbs a).outstanding) : InOrder (s.setCb a cb) := by
  refine h.frame rfl (fun _ => ⟨rfl, rfl⟩) ?_ ?_ (fun _ hc => Or.inl hc)
  · intro b hb n r hheld
    by_cases heq : b = a
    · subst heq
      have hcb : (s.setCb b cb).cbs b = cb := by simp [State.setCb]
      have hmove : Held cb (0 + n) (0 + r) := by
        refine Held.move (n := n) (r := r) ?_ hstate ?_ (Nat.add_le_add_left hout n) rfl
        · simpa using hheld
        · rw [hshadow]
          exact hheld.shadow
      rw [hcb]
      simpa using hmove
    · have hcb : (s.setCb a cb).cbs b = s.cbs b := by simp [State.setCb, heq]
      rw [hcb]
      exact hheld
  · intro b
    by_cases heq : b = a
    · subst heq
      simp [State.setCb, hstate]
    · simp [State.setCb, heq]

theorem InOrder.setUserdata (u : Nat) (x : Userdata) : InOrder (s.setUserdata u x) :=
  h.frame rfl (fun _ => ⟨rfl, rfl⟩) (fun _ _ _ _ hheld => hheld) (fun _ => rfl)
    (fun _ hc => Or.inl hc)

theorem InOrder.setRefs (a : Nat) (refs : Refcount) :
    InOrder (s.setCb a { s.cbs a with refs := refs }) :=
  h.setCb rfl rfl (Nat.le_refl _)

theorem InOrder.release (u : Nat) (gc : Bool) (x : Userdata) : InOrder (s.release u gc x) := by
  unfold State.release
  split
  · exact (h.setRefs x.cb _).setUserdata u _
  · exact h.setUserdata u _

theorem InOrder.freeStep (u : Nat) (ok : Bool) (x : Userdata) : InOrder (s.freeStep u ok x) := by
  refine InOrder.setUserdata (h.setCb ?_ ?_ ?_) u _
  · cases x.freePc with
    | aioCancel => cases ok <;> rfl
    | _ => rfl
  · cases x.freePc with
    | aioCancel => cases ok <;> rfl
    | _ => rfl
  · exact FreePc.exec_outstanding

theorem InOrder.shared (hb : Bounded s) (lioRead : Bool) (buffer : Buffer) :
    InOrder (s.shared lioRead buffer) := by
  have hfresh : ∀ f : Nat → Pc → Nat, (∀ a pc, a ∉ Pc.mentions pc → f a pc = 0) →
      s.total (f s.count) = 0 := by
    intro f hf
    by_contra hpos
    obtain ⟨c, hc, hpos⟩ := s.exists_of_total_pos (Nat.pos_of_ne_zero hpos)
    rw [hf _ _ (fun hmem => Nat.lt_irrefl _ (hb.calls c hc _ hmem))] at hpos
    cases hpos
  have hclaims := hfresh Pc.claims (fun a pc hnot => (Pc.claims_of_not_mem hnot).1)
  have hreturns := hfresh Pc.returns (fun a pc hnot => (Pc.claims_of_not_mem hnot).2)
  have hstate := buffer.check_state
  unfold State.shared
  generalize buffer.check.getD (false, .uninit) = checked at hstate ⊢
  obtain ⟨vector, state⟩ := checked
  have hidle : state.idle = true := by
    rcases hstate with heq | heq <;> rw [show state = _ from heq] <;> rfl
  have hne : state ≠ .returning := by
    rintro rfl
    cases hidle
  constructor
  · intro a ha
    by_cases heq : a = s.count
    · subst heq
      simp only [State.new, State.setCb, Function.update_self]
      refine ⟨?_, fun _ => ?_, ?_, hidle⟩
      · show s.total (Pc.claims s.count) + 0 ≤ 1
        omega
      · show s.total (Pc.claims s.count) + 0 = 0
        omega
      · rw [if_neg hne]
        exact hreturns
    · have hlt : a < s.count + 1 := ha
      simp only [State.new, State.setCb, Function.update_of_ne heq]
      exact h.held a (by omega)
  · exact h.values
  · intro a hcopied
    have hcopied' : s.Copied a := hcopied
    by_cases heq : a = s.count
    · subst heq
      obtain ⟨c, hc, hcopies⟩ := hcopied'
      have htarget : c.pc.target = some s.count := by
        cases hpc : c.pc <;> rw [hpc] at hcopies <;> cases hcopies
        rfl
      exact absurd (hb.calls c hc _ (Pc.mem_mentions_of_target htarget)) (Nat.lt_irrefl _)
    · simp only [State.new, State.setCb, Function.update_of_ne heq]
      exact h.copied a hcopied'

/-- A call starts without a request. -/
theorem InOrder.call (f : Invocation) : InOrder (s.addCall ⟨f.args, s.start f⟩) := by
  have hsubmits : ∀ pc : Pc, pc.submits = true → pc.values = [] → (∀ a, pc.claims a = 0) →
      InOrder (s.addCall ⟨f.args, pc⟩) := by
    intro pc hpc hvalues hclaims
    exact h.addCall (fun a => ⟨hclaims a, Pc.returns_of_submits hpc⟩) hvalues
      (Pc.copies_of_submits hpc)
  cases f with
  | suspend us => cases us <;> exact h.addCall (fun _ => ⟨rfl, rfl⟩) rfl rfl
  | listio us =>
    refine hsubmits _ (Pc.submits_nextEntry _ _) (Pc.values_nextEntry _ _) (fun a => ?_)
    exact Pc.claims_nextEntry _ _
  | _ => exact h.addCall (fun _ => ⟨rfl, rfl⟩) rfl rfl

end Steps

/-- **Every step keeps the requests in order**, if it meets the condition. -/
theorem InOrder.next {s : State} (h : InOrder s) (hb : Bounded s) (e : Event)
    (hok : InFlightOk s e) (he : Enabled s e) : InOrder (next s e) := by
  cases e with
  | shared lioRead buffer => exact h.shared hb lioRead buffer
  | call f => exact h.call f
  | retain u =>
    obtain ⟨x, hu, _⟩ := he
    simp only [Aio.next, Option.mem_def.mp hu, Option.elim]
    exact (h.setRefs x.cb _).addCall (fun _ => ⟨rfl, rfl⟩) rfl rfl
  | step i ok =>
    obtain ⟨c, hi, htarget, _⟩ := he
    simp only [Aio.next, Option.mem_def.mp hi, Option.elim]
    obtain ⟨a, ha⟩ := Option.isSome_iff_exists.mp htarget
    exact h.step ok hb hi ha (hok c hi a ha)
  | make i =>
    obtain ⟨c, hi, _⟩ := he
    simp only [Aio.next, Option.mem_def.mp hi, Option.elim]
    exact h.make hi
  | lioReturn i ok =>
    obtain ⟨c, hi, _⟩ := he
    simp only [Aio.next, Option.mem_def.mp hi, Option.elim]
    exact h.lioReturn hi (fun hfalse => hok hfalse c hi)
  | refuse i stray => exact absurd hok id
  | waitcomplete i found =>
    obtain ⟨c, hi, hpc, _⟩ := he
    simp only [Aio.next, Option.mem_def.mp hi, Option.elim]
    exact h.waitcomplete hi hpc
  | complete a ok =>
    refine h.setCb rfl rfl ?_
    have hrunning : 0 < (s.cbs a).running := he.2
    simp [Rcaiocb.outstanding]
    omega
  | close u =>
    obtain ⟨⟨x, hu, _⟩, _⟩ := he
    simp only [Aio.next, Option.mem_def.mp hu, Option.elim]
    exact h.release u false x
  | gc u =>
    obtain ⟨⟨x, hu, _⟩, _⟩ := he
    simp only [Aio.next, Option.mem_def.mp hu, Option.elim]
    exact h.release u true x
  | freeStep u ok =>
    obtain ⟨x, hu, _⟩ := he
    simp only [Aio.next, Option.mem_def.mp hu, Option.elim]
    exact h.freeStep u ok x

theorem inOrder_init : InOrder system.init where
  held a ha := absurd ha (Nat.not_lt_zero a)
  values c hc := by cases hc
  copied a hcopied := by
    obtain ⟨c, hc, _⟩ := hcopied
    cases hc

end Aio
end FluaLibs
