import FluaLibs.AioRequests

/-! # Requests in flight

As long as the kernel has a request, the state of the control block says so; then
`l_aiocb_free`, which looks at the state when it has released the last reference, waits
for the kernel before it frees the buffer, and `l_aiocb_index`, which looks at it before
it reads, does not read what the kernel may be writing.

Nobody else submits a request meanwhile: a call that has a pointer to a control block
has a userdata on its stack, and so a reference (`Anchored`).
-/
namespace FluaLibs
namespace Aio

/-! ## A call has a reference to what it works on -/

/-- The pointer of the call is not from an argument. -/
def Pc.collecting : Pc → Bool
  | .waited _ _ | .waitedNew _ _ | .retained _ => true
  | _ => false

/-- The userdata has a reference to the control block. -/
def State.Anchors (s : State) (u a : Nat) : Prop :=
  ∃ x, s.userdata[u]? = some x ∧ x.cb = a ∧ x.releases = 0

/-- For every pointer that a call got from an argument, the userdata has its reference. -/
def Anchored (s : State) : Prop :=
  ∀ c ∈ s.calls, c.pc.collecting = false → ∀ a ∈ c.pc.mentions, ∃ u ∈ c.args, s.Anchors u a

theorem Call.mem_pins {c : Call} {a u : Nat} (ha : a ∈ c.pc.mentions) (hu : u ∈ c.args) :
    u ∈ c.pins := by
  unfold Call.pins
  split
  · rename_i outcome hpc
    rw [hpc] at ha
    cases ha
  · exact hu

theorem Pc.exec_collecting {pc : Pc} {call : Nat} {ok : Bool} {cb : Rcaiocb}
    (h : (pc.exec call ok cb).2.collecting = false) : pc.collecting = false := by
  cases pc <;> first | rfl | exact h

theorem State.Anchors.append {s s' : State} {u a : Nat} {x : Userdata} (h : s.Anchors u a)
    (huserdata : s'.userdata = s.userdata ++ [x]) : s'.Anchors u a := by
  obtain ⟨y, hy, hcb, hreleases⟩ := h
  refine ⟨y, ?_, hcb, hreleases⟩
  rw [huserdata, List.getElem?_append_left (List.getElem?_eq_some_iff.mp hy).1, hy]

section Anchored
variable {s : State} (h : Anchored s)
include h

theorem Anchored.frame {s' : State} (hcalls : s'.calls = s.calls)
    (hanchors : ∀ c ∈ s.calls, ∀ a ∈ c.pc.mentions, ∀ u ∈ c.args, s.Anchors u a → s'.Anchors u a) :
    Anchored s' := by
  intro c hc hcollecting a ha
  rw [hcalls] at hc
  obtain ⟨u, hu, hanchor⟩ := h c hc hcollecting a ha
  exact ⟨u, hu, hanchors c hc a ha u hu hanchor⟩

theorem Anchored.setCall {i : Nat} {c : Call}
    (hc : c.pc.collecting = false → ∀ a ∈ c.pc.mentions, ∃ u ∈ c.args, s.Anchors u a) :
    Anchored (s.setCall i c) := by
  intro d hd
  rcases List.mem_or_eq_of_mem_set hd with hd | rfl
  · exact h d hd
  · exact hc

theorem Anchored.addCall {c : Call}
    (hc : c.pc.collecting = false → ∀ a ∈ c.pc.mentions, ∃ u ∈ c.args, s.Anchors u a) :
    Anchored (s.addCall c) := by
  intro d hd
  rcases List.mem_append.mp hd with hd | hd
  · exact h d hd
  · rw [List.mem_singleton.mp hd]
    exact hc

/-- A call moves on with the pointers it has. -/
theorem Anchored.advance {i : Nat} {c : Call} (hi : s.calls[i]? = some c) {pc : Pc}
    (hcollecting : pc.collecting = false → c.pc.collecting = false)
    (hmentions : ∀ a ∈ pc.mentions, a ∈ c.pc.mentions) :
    Anchored (s.setCall i { c with pc := pc }) :=
  h.setCall (fun hpc a ha =>
    h c (List.mem_of_getElem? hi) (hcollecting hpc) a (hmentions a ha))

theorem Anchored.call (hacc : Accounted s) {f : Invocation} (hf : ∀ u ∈ f.args, s.Usable u) :
    Anchored (s.addCall ⟨f.args, s.start f⟩) := by
  refine h.addCall (fun _ a ha => ?_)
  obtain ⟨u, hu, rfl⟩ := State.mentions_start ha
  obtain ⟨x, hx, haccessible, hcb⟩ := (hf u hu).cookie
  have hxok := hacc.userdata x (List.mem_of_getElem? hx)
  have hone : x.releases ≠ 1 := fun hone => hxok.gone hone haccessible
  have hle := hxok.once
  exact ⟨u, hu, x, hx, hcb, by omega⟩

theorem Anchored.make {i : Nat} {c : Call} : Anchored (s.make i c) := by
  have hnew : ∀ a, Anchored (s.new a) :=
    fun a => h.frame rfl (fun _ _ _ _ _ _ hanchor => hanchor.append rfl)
  unfold State.make
  split
  · exact (hnew _).setCall (fun _ a ha => by cases ha)
  · rename_i a result hpc
    refine (hnew a).setCall (fun _ b hb => ?_)
    rw [Pc.mentions_collected] at hb
    rw [List.mem_singleton.mp hb]
    refine ⟨s.userdata.length, List.mem_singleton.mpr rfl, ⟨a, true, 0, false, .idle⟩, ?_, rfl, rfl⟩
    exact List.getElem?_concat_length
  · exact h

theorem Anchored.lioReturn {i : Nat} {c : Call} (ok : Bool) (hi : s.calls[i]? = some c) :
    Anchored (s.lioReturn i ok c) := by
  unfold State.lioReturn
  split
  · rename_i handled hpc
    refine h.advance hi ?_ ?_
    · rw [hpc]
      exact fun _ => rfl
    · intro a ha
      rw [hpc]
      cases ok with
      | true => cases ha
      | false =>
        rw [if_neg (by simp), Pc.mentions_rollbackStates, List.map_map] at ha
        exact ha
  · exact h

theorem Anchored.waitcomplete {i : Nat} {c : Call} (found : Option Nat) :
    Anchored (s.waitcomplete i c found) := by
  unfold State.waitcomplete
  split
  · exact h.setCall (fun _ a ha => by cases ha)
  · split
    · exact h
    · exact Anchored.setCall (h.frame rfl (fun _ _ _ _ _ _ hanchor => hanchor))
        (fun hcollecting => by cases hcollecting)

/-- A userdata on the stack of a call is not released. -/
theorem Anchored.release {u : Nat} (gc : Bool) {x : Userdata} (hpinned : ¬ s.Pinned u) :
    Anchored (s.release u gc x) := by
  have hset : ∀ (cbs : Nat → Rcaiocb) (x' : Userdata),
      Anchored { s with cbs := cbs, userdata := s.userdata.set u x' } := by
    intro cbs x'
    refine h.frame rfl ?_
    rintro c hc a ha v hv ⟨y, hy, hcb, hreleases⟩
    have hne : u ≠ v := by
      rintro rfl
      exact hpinned ⟨c, hc, Call.mem_pins ha hv⟩
    exact ⟨y, (List.getElem?_set_ne hne).trans hy, hcb, hreleases⟩
  unfold State.release
  split
  · exact hset _ _
  · exact hset _ _

theorem Anchored.freeStep {u : Nat} (ok : Bool) {x : Userdata} (hu : s.userdata[u]? = some x) :
    Anchored (s.freeStep u ok x) := by
  refine h.frame rfl ?_
  rintro c hc a ha v hv ⟨y, hy, hcb, hreleases⟩
  by_cases heq : u = v
  · subst heq
    obtain rfl := Option.some.inj (hu.symm.trans hy)
    refine ⟨{ x with
      cookie := x.cookie && decide (x.freePc ≠ .free)
      freePc := (x.freePc.exec ok (s.cbs x.cb)).2 }, ?_, hcb, hreleases⟩
    exact List.getElem?_set_self (List.getElem?_eq_some_iff.mp hu).1
  · exact ⟨y, (List.getElem?_set_ne heq).trans hy, hcb, hreleases⟩

end Anchored

theorem Anchored.next {s : State} (h : Anchored s) (hacc : Accounted s) (e : Event)
    (hok : InFlightOk s e) (he : Enabled s e) : Anchored (next s e) := by
  cases e with
  | shared lioRead buffer =>
    exact h.frame rfl (fun _ _ _ _ _ _ hanchor => hanchor.append rfl)
  | call f => exact h.call hacc he
  | retain u =>
    obtain ⟨x, hu, _⟩ := he
    simp only [Aio.next, Option.mem_def.mp hu, Option.elim]
    exact Anchored.addCall (h.frame rfl (fun _ _ _ _ _ _ hanchor => hanchor))
      (fun hcollecting => by cases hcollecting)
  | step i ok =>
    obtain ⟨c, hi, _⟩ := he
    simp only [Aio.next, Option.mem_def.mp hi, Option.elim, State.step]
    split
    · exact h
    · rename_i a _
      have hset : Anchored (s.setCb a (c.pc.exec i ok (s.cbs a)).1) :=
        h.frame rfl (fun _ _ _ _ _ _ hanchor => hanchor)
      exact hset.advance hi Pc.exec_collecting (fun b hb => Pc.mentions_exec hb)
  | make i =>
    obtain ⟨c, hi, _⟩ := he
    simp only [Aio.next, Option.mem_def.mp hi, Option.elim]
    exact h.make
  | lioReturn i ok =>
    obtain ⟨c, hi, _⟩ := he
    simp only [Aio.next, Option.mem_def.mp hi, Option.elim]
    exact h.lioReturn ok hi
  | refuse i stray => exact absurd hok id
  | waitcomplete i found =>
    obtain ⟨c, hi, _⟩ := he
    simp only [Aio.next, Option.mem_def.mp hi, Option.elim]
    exact h.waitcomplete found
  | complete a ok => exact h.frame rfl (fun _ _ _ _ _ _ hanchor => hanchor)
  | close u =>
    obtain ⟨⟨x, hu, _⟩, hpinned⟩ := he
    simp only [Aio.next, Option.mem_def.mp hu, Option.elim]
    exact h.release false hpinned
  | gc u =>
    obtain ⟨⟨x, hu, _⟩, hpinned⟩ := he
    simp only [Aio.next, Option.mem_def.mp hu, Option.elim]
    exact h.release true hpinned
  | freeStep u ok =>
    obtain ⟨x, hu, _⟩ := he
    simp only [Aio.next, Option.mem_def.mp hu, Option.elim]
    exact h.freeStep ok hu

/-- Nobody frees what a call works on. -/
theorem Anchored.holders_pos {s : State} (h : Anchored s) {c : Call} (hc : c ∈ s.calls) {a : Nat}
    (ha : a ∈ c.pc.mentions) (hretains : c.pc.retains = none) : 0 < s.holders a := by
  cases hcollecting : c.pc.collecting with
  | false =>
    obtain ⟨u, _, x, hx, rfl, hreleases⟩ := h c hc hcollecting a ha
    exact Nat.add_pos_left (s.unreleased_pos (List.mem_of_getElem? hx) hreleases) _
  | true =>
    have hmakes : c.pc.makes = some a := by
      cases hpc : c.pc <;> rw [hpc] at ha hcollecting hretains <;> cases hcollecting
      · cases hretains
      · rw [List.mem_singleton.mp ha]
        rfl
      · rw [List.mem_singleton.mp ha]
        rfl
    exact Nat.add_pos_right _ (List.countP_pos_iff.mpr ⟨c, hc, decide_eq_true hmakes⟩)

/-! ## The free path -/

/-- What `l_aiocb_free` has achieved when it gets to a place. -/
def Rcaiocb.Drained (cb : Rcaiocb) : FreePc → Prop
  | .aioReturn => cb.running = 0
  | .free => cb.outstanding = 0
  | _ => True

theorem Rcaiocb.Drained.mono {cb cb' : Rcaiocb} {pc : FreePc} (h : cb.Drained pc)
    (hrunning : cb'.running ≤ cb.running) (hout : cb'.outstanding ≤ cb.outstanding) :
    cb'.Drained pc := by
  cases pc with
  | aioReturn => exact Nat.le_zero.mp (h ▸ hrunning)
  | free => exact Nat.le_zero.mp (h ▸ hout)
  | _ => trivial

/-- Cancelling, waiting and collecting get rid of the one request there may be. -/
theorem FreePc.exec_drained {pc : FreePc} {ok : Bool} {cb : Rcaiocb} (h : cb.Drained pc)
    (hone : cb.outstanding ≤ 1) (hload : cb.state ≠ .pending → cb.outstanding = 0)
    (hsuspend : pc = .aioSuspend → cb.running = 0 ∨ cb.complete ≠ []) :
    (pc.exec ok cb).1.Drained (pc.exec ok cb).2 := by
  unfold Rcaiocb.outstanding at hone
  cases pc with
  | idle => trivial
  | load =>
    simp only [FreePc.exec]
    split
    · trivial
    · rename_i hstate
      exact hload hstate
  | aioCancel =>
    cases ok with
    | true => rfl
    | false => trivial
  | aioSuspend =>
    rcases hsuspend rfl with hrunning | hcomplete
    · exact hrunning
    · have hpos := List.length_pos_iff.mpr hcomplete
      show cb.running = 0
      omega
  | aioReturn =>
    have hrunning : cb.running = 0 := h
    show cb.running + cb.complete.tail.length = 0
    rw [List.length_tail]
    omega
  | free => trivial

theorem FreePc.exec_running {pc : FreePc} {ok : Bool} {cb : Rcaiocb} :
    (pc.exec ok cb).1.running ≤ cb.running := by
  cases pc with
  | aioCancel =>
    cases ok with
    | true => exact Nat.zero_le _
    | false => exact Nat.le_refl _
  | _ => exact Nat.le_refl _

/-- What `l_aiocb_free` is about to free, and has freed, the kernel has no request for. -/
structure Drained (s : State) : Prop where
  freeing : ∀ x ∈ s.userdata, (s.cbs x.cb).Drained x.freePc
  freed : ∀ a < s.count, 0 < (s.cbs a).freed → (s.cbs a).outstanding = 0

section Drained
variable {s : State} (h : Drained s)
include h

/-- Requests come to an end, or they are of a control block that nobody is freeing. -/
theorem Drained.frame {s' : State} (hcount : ∀ a < s'.count, a < s.count ∨ (s'.cbs a).freed = 0)
    (huserdata : ∀ x ∈ s'.userdata, x ∈ s.userdata ∨ x.freePc = .idle ∨ x.freePc = .load)
    (hcbs : ∀ a, ((s'.cbs a).running ≤ (s.cbs a).running ∧
        (s'.cbs a).outstanding ≤ (s.cbs a).outstanding ∧ (s'.cbs a).freed = (s.cbs a).freed) ∨
      (s.freeing a = 0 ∧ (s'.cbs a).freed = 0)) : Drained s' where
  freeing x hx := by
    rcases huserdata x hx with hold | hidle | hload
    · rcases hcbs x.cb with ⟨hrunning, hout, _⟩ | ⟨hnone, _⟩
      · exact (h.freeing x hold).mono hrunning hout
      · have hidle : x.freePc = .idle := by
          by_contra hbusy
          have hpos : 0 < s.freeing x.cb :=
            List.countP_pos_iff.mpr ⟨x, hold, by simp [hbusy]⟩
          omega
        rw [hidle]
        trivial
    · rw [hidle]
      trivial
    · rw [hload]
      trivial
  freed a ha hpos := by
    rcases hcbs a with ⟨_, hout, hfreed⟩ | ⟨_, hzero⟩
    · rcases hcount a ha with hlt | hzero
      · have hnone := h.freed a hlt (hfreed ▸ hpos)
        omega
      · omega
    · omega

theorem Drained.same {s' : State} (hcount : s'.count = s.count) (hcbs : s'.cbs = s.cbs)
    (huserdata : ∀ x ∈ s'.userdata, x ∈ s.userdata ∨ x.freePc = .idle ∨ x.freePc = .load) :
    Drained s' := by
  refine h.frame (fun a ha => Or.inl (hcount ▸ ha)) huserdata (fun a => Or.inl ?_)
  rw [hcbs]
  exact ⟨Nat.le_refl _, Nat.le_refl _, rfl⟩

theorem Drained.setCb {a : Nat} {cb : Rcaiocb}
    (hcb : (cb.running ≤ (s.cbs a).running ∧ cb.outstanding ≤ (s.cbs a).outstanding ∧
      cb.freed = (s.cbs a).freed) ∨ (s.freeing a = 0 ∧ cb.freed = 0)) :
    Drained (s.setCb a cb) := by
  refine h.frame (fun b hb => Or.inl hb) (fun x hx => Or.inl hx) (fun b => ?_)
  by_cases heq : b = a
  · subst heq
    simpa [State.setCb] using hcb
  · left
    simp [State.setCb, heq]

theorem Drained.setRefs (a : Nat) (refs : Refcount) :
    Drained (s.setCb a { s.cbs a with refs := refs }) :=
  h.setCb (Or.inl ⟨Nat.le_refl _, Nat.le_refl _, rfl⟩)

theorem Drained.setCall (i : Nat) (c : Call) : Drained (s.setCall i c) :=
  h.same rfl rfl (fun _ hx => Or.inl hx)

theorem Drained.setUserdata {u : Nat} {x : Userdata} (hx : x.freePc = .idle ∨ x.freePc = .load) :
    Drained (s.setUserdata u x) := by
  refine h.same rfl rfl (fun y hy => ?_)
  refine (List.mem_or_eq_of_mem_set hy).imp_right ?_
  rintro rfl
  exact hx

theorem Drained.new (a : Nat) : Drained (s.new a) := by
  refine h.same rfl rfl (fun y hy => ?_)
  refine (List.mem_append.mp hy).imp_right ?_
  intro hy
  rw [List.mem_singleton.mp hy]
  exact Or.inl rfl

theorem Drained.shared (hb : Bounded s) (lioRead : Bool) (buffer : Buffer) :
    Drained (s.shared lioRead buffer) := by
  unfold State.shared
  generalize buffer.check.getD (false, .uninit) = checked
  obtain ⟨vector, state⟩ := checked
  refine Drained.new (h.frame ?_ ?_ ?_) _
  · intro a ha
    by_cases heq : a = s.count
    · right
      subst heq
      simp [State.setCb]
    · have hlt : a < s.count + 1 := ha
      exact Or.inl (by omega)
  · exact fun x hx => Or.inl hx
  · intro a
    by_cases heq : a = s.count
    · subst heq
      exact Or.inr ⟨(hb.none_of_ge (Nat.le_refl _)).2, by simp [State.setCb]⟩
    · left
      simp [State.setCb, heq]

/-- A call makes requests of what it has a reference to, and nobody is freeing that. -/
theorem Drained.step {i : Nat} {c : Call} (ok : Bool) (hb : Bounded s) (hacc : Accounted s)
    (hanchored : Anchored s) (hi : s.calls[i]? = some c) : Drained (s.step i ok c) := by
  unfold State.step
  split
  · exact h
  · rename_i a htarget
    have hc := List.mem_of_getElem? hi
    refine Drained.setCall (h.setCb ?_) i _
    by_cases hretains : c.pc.retains = none
    · right
      have hmem := Pc.mem_mentions_of_target htarget
      have hpos := hanchored.holders_pos hc hmem hretains
      obtain ⟨hfreeing, hfreed⟩ := (hacc.accounts a (hb.calls c hc a hmem)).not_freed hpos
      exact ⟨hfreeing, Pc.exec_account.1.trans hfreed⟩
    · left
      cases hpc : c.pc <;> rw [hpc] at hretains <;> first | exact absurd rfl hretains | skip
      exact ⟨Nat.le_refl _, Nat.le_refl _, rfl⟩

omit h in
/-- Nobody is in `_return` while the control block is freed: who is has a reference. -/
theorem not_returning_of_freeing {a : Nat} (hacc : Accounted s) (hanchored : Anchored s)
    (horder : InOrder s) (ha : a < s.count) (hfreeing : 0 < s.freeing a) :
    (s.cbs a).state ≠ .returning := by
  intro hreturning
  have hpos : 0 < s.total (Pc.returns a) := by
    rw [(horder.held a ha).returning, if_pos hreturning]
    exact Nat.one_pos
  obtain ⟨c, hc, hreturns⟩ := s.exists_of_total_pos hpos
  have hmem : a ∈ c.pc.mentions := by
    by_contra hnot
    rw [(Pc.claims_of_not_mem hnot).2] at hreturns
    cases hreturns
  have hretains : c.pc.retains = none := by
    cases hpc : c.pc <;> rw [hpc] at hreturns <;> first | rfl | cases hreturns
  have hholders := hanchored.holders_pos hc hmem hretains
  have hnone := ((hacc.accounts a ha).not_freed hholders).1
  have hsame : (s.account a).freeing = s.freeing a := rfl
  omega

omit h in
/-- The state is loaded once, and only `CB_PENDING` is waited for: in any other state the kernel
has no request. -/
theorem outstanding_of_freeing {a : Nat} (hacc : Accounted s) (hanchored : Anchored s)
    (horder : InOrder s) (ha : a < s.count) (hfreeing : 0 < s.freeing a)
    (hne : (s.cbs a).state ≠ .pending) : (s.cbs a).outstanding = 0 := by
  have hnot := not_returning_of_freeing hacc hanchored horder ha hfreeing
  have hidle : (s.cbs a).state.idle = true := by
    cases hstate : (s.cbs a).state with
    | uninit | init => rfl
    | pending => exact absurd hstate hne
    | returning => exact absurd hstate hnot
  have hnone := (horder.held a ha).idle hidle
  omega

theorem Drained.freeStep {u : Nat} {x : Userdata} (ok : Bool) (hb : Bounded s)
    (hacc : Accounted s) (hanchored : Anchored s) (horder : InOrder s)
    (hu : s.userdata[u]? = some x) (hbusy : x.freePc ≠ .idle)
    (hsuspend : x.freePc = .aioSuspend → (s.cbs x.cb).running = 0 ∨ (s.cbs x.cb).complete ≠ []) :
    Drained (s.freeStep u ok x) := by
  have hx := List.mem_of_getElem? hu
  have hcb := hb.userdata x hx
  have hheld := horder.held _ hcb
  have hone : (s.cbs x.cb).outstanding ≤ 1 := Nat.le_trans (Nat.le_add_left _ _) hheld.one
  have hfreeing : 0 < s.freeing x.cb := List.countP_pos_iff.mpr ⟨x, hx, by simp [hbusy]⟩
  have hload : (s.cbs x.cb).state ≠ .pending → (s.cbs x.cb).outstanding = 0 :=
    outstanding_of_freeing hacc hanchored horder hcb hfreeing
  generalize hcb' : (x.freePc.exec ok (s.cbs x.cb)).1 = cb
  have hdrained : cb.Drained (x.freePc.exec ok (s.cbs x.cb)).2 := by
    rw [← hcb']
    exact FreePc.exec_drained (h.freeing x hx) hone hload hsuspend
  have hrunning : cb.running ≤ (s.cbs x.cb).running := hcb' ▸ FreePc.exec_running
  have hout : cb.outstanding ≤ (s.cbs x.cb).outstanding := hcb' ▸ FreePc.exec_outstanding
  have hself : (s.setCb x.cb cb).cbs x.cb = cb := by simp [State.setCb]
  have hother : ∀ b ≠ x.cb, (s.setCb x.cb cb).cbs b = s.cbs b := by
    intro b hb
    simp [State.setCb, hb]
  unfold State.freeStep
  rw [hcb']
  constructor
  · intro y hy
    show ((s.setCb x.cb cb).cbs y.cb).Drained y.freePc
    rcases List.mem_or_eq_of_mem_set hy with hold | rfl
    · by_cases heq : y.cb = x.cb
      · rw [heq, hself]
        exact (heq ▸ h.freeing y hold).mono hrunning hout
      · rw [hother _ heq]
        exact h.freeing y hold
    · rw [hself]
      exact hdrained
  · intro a ha hpos
    show ((s.setCb x.cb cb).cbs a).outstanding = 0
    have hpos' : 0 < ((s.setCb x.cb cb).cbs a).freed := hpos
    by_cases heq : a = x.cb
    · subst heq
      rw [hself] at hpos' ⊢
      -- either it was freed before, or this action frees it
      have hnone : (s.cbs x.cb).outstanding = 0 := by
        by_cases hfree : x.freePc = .free
        · have hdone := h.freeing x hx
          rw [hfree] at hdone
          exact hdone
        · rw [← hcb', FreePc.exec_freed, if_neg hfree] at hpos'
          exact h.freed _ hcb hpos'
      omega
    · rw [hother a heq] at hpos' ⊢
      exact h.freed a ha hpos'

end Drained

theorem Drained.next {s : State} (h : Drained s) (hb : Bounded s) (hacc : Accounted s)
    (hanchored : Anchored s) (horder : InOrder s) (e : Event) (hok : InFlightOk s e)
    (he : Enabled s e) : Drained (next s e) := by
  cases e with
  | shared lioRead buffer => exact h.shared hb lioRead buffer
  | call f => exact h.same rfl rfl (fun _ hx => Or.inl hx)
  | retain u =>
    obtain ⟨x, hu, _⟩ := he
    simp only [Aio.next, Option.mem_def.mp hu, Option.elim]
    exact (h.setRefs x.cb _).same rfl rfl (fun _ hx => Or.inl hx)
  | step i ok =>
    obtain ⟨c, hi, _⟩ := he
    simp only [Aio.next, Option.mem_def.mp hi, Option.elim]
    exact h.step ok hb hacc hanchored hi
  | make i =>
    obtain ⟨c, hi, _⟩ := he
    simp only [Aio.next, Option.mem_def.mp hi, Option.elim, State.make]
    split
    · exact (h.new _).setCall i _
    · exact (h.new _).setCall i _
    · exact h
  | lioReturn i ok =>
    obtain ⟨c, hi, _⟩ := he
    simp only [Aio.next, Option.mem_def.mp hi, Option.elim, State.lioReturn]
    split
    · exact h.setCall i _
    · exact h
  | refuse i stray => exact absurd hok id
  | waitcomplete i found =>
    obtain ⟨c, hi, _⟩ := he
    simp only [Aio.next, Option.mem_def.mp hi, Option.elim, State.waitcomplete]
    split
    · exact h.setCall i _
    · split
      · exact h
      · rename_i result rest hcons
        refine Drained.setCall (h.setCb (Or.inl ⟨?_, ?_, ?_⟩)) i _
        · exact Nat.le_refl _
        · simp [Rcaiocb.outstanding, hcons]
        · rfl
  | complete a ok =>
    refine h.setCb (Or.inl ⟨Nat.sub_le _ _, ?_, rfl⟩)
    have hrunning : 0 < (s.cbs a).running := he.2
    simp [Rcaiocb.outstanding]
    omega
  | close u | gc u =>
    obtain ⟨⟨x, hu, _, hidle⟩, _⟩ := he
    simp only [Aio.next, Option.mem_def.mp hu, Option.elim, State.release]
    split
    · refine (h.setRefs x.cb _).setUserdata ?_
      cases (s.cbs x.cb).refs.release.1 with
      | true => exact Or.inr rfl
      | false => exact Or.inl rfl
    · exact h.setUserdata (Or.inl hidle)
  | freeStep u ok =>
    obtain ⟨x, hu, hbusy, hsuspend⟩ := he
    simp only [Aio.next, Option.mem_def.mp hu, Option.elim]
    exact h.freeStep ok hb hacc hanchored horder hu hbusy hsuspend

/-! ## Every run -/

/-- Whenever the kernel has a request of a control block, the state of it is
`CB_PENDING` or `CB_RETURNING`.  No buffer is freed, or about to be freed, that the
kernel may access, and none is read. -/
structure InFlight (s : State) : Prop where
  state : ∀ a < s.count, 0 < (s.cbs a).outstanding →
    (s.cbs a).state = .pending ∨ (s.cbs a).state = .returning
  freeing : ∀ x ∈ s.userdata, x.freePc = .free → (s.cbs x.cb).outstanding = 0
  freed : ∀ a < s.count, 0 < (s.cbs a).freed → (s.cbs a).outstanding = 0
  readable : ∀ a < s.count, s.Copied a → (s.cbs a).outstanding = 0

/-- All the invariants of the module, together. -/
structure Sound (s : State) : Prop where
  accounted : Accounted s
  anchored : Anchored s
  inOrder : InOrder s
  drained : Drained s

theorem reachable_sound {s : State}
    (h : system.ReachableBy (fun s e => InFlightOk s e ∧ ReleasedLast s e) s) : Sound s := by
  induction h with
  | init =>
    refine ⟨accounted_init, fun c hc => (by cases hc), inOrder_init, ?_, ?_⟩
    · exact fun x hx => by cases hx
    · exact fun a ha => absurd ha (Nat.not_lt_zero a)
  | step hs hok he ih =>
    have hb := reachable_bounded hs
    constructor
    · exact ih.accounted.next hb _ hok.2 he
    · exact ih.anchored.next ih.accounted _ hok.1 he
    · exact ih.inOrder.next hb _ hok.1 he
    · exact ih.drained.next hb ih.accounted ih.anchored ih.inOrder _ hok.1 he

/-- **Requests in flight**, in every run whose actions meet the conditions. -/
theorem aio_in_flight (s : State)
    (h : system.ReachableBy (fun s e => InFlightOk s e ∧ ReleasedLast s e) s) : InFlight s := by
  have hsound := reachable_sound h
  constructor
  · intro a ha hpos
    have hheld := hsound.inOrder.held a ha
    cases hstate : (s.cbs a).state with
    | pending => exact Or.inl rfl
    | returning => exact Or.inr rfl
    | uninit | init =>
      have hnone := hheld.idle (by rw [hstate]; rfl)
      omega
  · intro x hx hfree
    have hdrained := hsound.drained.freeing x hx
    rw [hfree] at hdrained
    exact hdrained
  · exact hsound.drained.freed
  · intro a ha hcopied
    have hinit := hsound.inOrder.copied a hcopied
    have hnone := (hsound.inOrder.held a ha).idle (by rw [hinit]; rfl)
    omega

instance (cb : Rcaiocb) (requests : Nat) (copied : Prop) [Decidable copied] (pc : Pc) :
    Decidable (pc.Careful cb requests copied) := by
  unfold Pc.Careful
  split <;> infer_instance

instance (s : State) : (e : Event) → Decidable (InFlightOk s e)
  | .step _ _ | .lioReturn _ _ => by
    unfold InFlightOk
    infer_instance
  | .refuse _ _ => instDecidableFalse
  | .shared _ _ | .call _ | .retain _ | .make _ | .waitcomplete _ _ | .complete _ _ | .close _
  | .gc _ | .freeStep _ _ => instDecidableTrue

/-- A request is submitted by `listio`, and the last userdata is closed while the kernel
has it; the kernel cannot cancel it, and `l_aiocb_free` waits. -/
def closedEvents : List Event :=
  [.shared false (.piece (.string [])), .call (.listio [some 0]), .step 0 true, .step 0 true,
    .lioReturn 0 true, .close 0, .freeStep 0 true, .freeStep 0 false, .complete 0 true,
    .freeStep 0 true, .freeStep 0 true, .freeStep 0 true]

theorem aio_in_flight_closed : ∃ s, system.run closedEvents = some s ∧
    (s.cbs 0).freed = 1 ∧ InFlight s := by
  have hrun : ((system.restrict (fun s e => InFlightOk s e ∧ ReleasedLast s e)
      (fun _ _ => inferInstance)).run closedEvents).map (fun s => (s.cbs 0).freed) = some 1 := by
    decide
  obtain ⟨s, hs, hfreed⟩ := Option.map_eq_some_iff.mp hrun
  exact ⟨s, System.run_of_restrict hs, hfreed, aio_in_flight s (System.run_restrict hs)⟩

/-- `_return` is called while the request is in progress. -/
def returnedEarly : List Event :=
  [.shared false (.piece (.string [])), .call (.write 0 0), .step 0 true, .step 0 true,
    .call (.return_ 0), .step 1 true, .step 1 true, .step 1 true, .step 1 true]

/-- The rollback takes the state back to `CB_INIT` under the request. -/
theorem not_in_flight_returned : ¬ ∀ s, system.Reachable s → InFlight s := by
  intro hall
  have hrun : (system.run returnedEarly).map (fun s => (s.count, (s.cbs 0).outstanding,
      (s.cbs 0).state)) = some (1, 1, .init) := by
    decide
  obtain ⟨s, hs, heq⟩ := Option.map_eq_some_iff.mp hrun
  obtain ⟨hcount, heq⟩ := Prod.mk.inj heq
  obtain ⟨hout, hinit⟩ := Prod.mk.inj heq
  rcases (hall s (System.run_reachable hs)).state 0 (by omega) (by omega) with hstate | hstate
  · rw [hinit] at hstate
    cases hstate
  · rw [hinit] at hstate
    cases hstate

end Aio
end FluaLibs
