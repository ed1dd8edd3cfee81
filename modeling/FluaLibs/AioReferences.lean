import FluaLibs.AioPointers

/-! # The references to a control block

A userdata for a control block has a reference to it until one of its metamethods
releases it, and so does a call between `refcount_retain` and `new`.  The metamethods
are one function, `l_aiocb_free`: with the last reference it frees the control block
and clears the cookie, with another one it only counts down.

What the other actions do cannot be seen here, so the accounts are kept apart from the
rest of the state: a step changes one of them, in one of four ways.
-/
namespace FluaLibs
namespace Aio
open Refcount

/-- A control block as its references see it: its count, how often it was freed, how many
references there should be, and how many metamethods are freeing it. -/
@[ext] structure Account where
  refs : Refcount
  freed : Nat
  holders : Nat
  freeing : Nat

/-- The count is exact, and it is freed once, after it has become zero. -/
structure Account.Balanced (x : Account) : Prop where
  counts : Counts x.refs x.holders
  freed : x.freeing + x.freed = if x.holders = 0 then 1 else 0

namespace Account
variable (x : Account)

def new : Account := ⟨Refcount.init 1, 0, 1, 0⟩

def retain : Account := { x with refs := x.refs.retain, holders := x.holders + 1 }

def release : Account :=
  { x with
    refs := x.refs.release.2
    holders := x.holders - 1
    freeing := x.freeing + if x.refs.release.1 then 1 else 0 }

def free : Account := { x with freed := x.freed + 1, freeing := x.freeing - 1 }

theorem balanced_new : new.Balanced where
  counts := counts_init
  freed := rfl

variable {x} (h : x.Balanced)
include h

theorem Balanced.retain (hpos : 0 < x.holders) (hroom : x.holders + 1 < 2 ^ 64) :
    x.retain.Balanced where
  counts := h.counts.retain hroom
  freed := by
    have hfreed := h.freed
    rw [if_neg (Nat.ne_of_gt hpos)] at hfreed
    exact hfreed

/-- `refcount_release` answers that this was the last reference exactly when it was. -/
theorem Balanced.release_last (hpos : 0 < x.holders) :
    x.refs.release.1 = true ↔ x.holders = 1 := by
  obtain ⟨n, hn⟩ := Nat.exists_eq_succ_of_ne_zero (Nat.ne_of_gt hpos)
  obtain ⟨_, hlast⟩ := (hn ▸ h.counts).release
  rw [hlast, hn]
  omega

theorem Balanced.release (hpos : 0 < x.holders) : x.release.Balanced where
  counts := by
    obtain ⟨n, hn⟩ := Nat.exists_eq_succ_of_ne_zero (Nat.ne_of_gt hpos)
    have hholders : x.release.holders = n := by
      show x.holders - 1 = n
      omega
    rw [hholders]
    exact (hn ▸ h.counts).release.1
  freed := by
    have hfreed := h.freed
    rw [if_neg (Nat.ne_of_gt hpos)] at hfreed
    have hlast := h.release_last hpos
    show x.freeing + (if x.refs.release.1 then 1 else 0) + x.freed =
      if x.holders - 1 = 0 then 1 else 0
    by_cases hone : x.holders = 1
    · rw [if_pos (hlast.mpr hone), if_pos (by omega)]
      omega
    · rw [if_neg (fun h => hone (hlast.mp h)), if_neg (by omega)]
      omega

theorem Balanced.free (hpos : 0 < x.freeing) : x.free.Balanced where
  counts := h.counts
  freed := by
    have hfreed := h.freed
    show x.freeing - 1 + (x.freed + 1) = if x.holders = 0 then 1 else 0
    omega

/-- Nothing is freed as long as somebody has a reference. -/
theorem Balanced.not_freed (hpos : 0 < x.holders) : x.freeing = 0 ∧ x.freed = 0 := by
  have hfreed := h.freed
  rw [if_neg (Nat.ne_of_gt hpos)] at hfreed
  omega

end Account

/-! ## What the actions do to the accounts -/

namespace Pc
variable {pc : Pc} {call : Nat} {ok : Bool} {cb : Rcaiocb}

theorem makes_collected (a : Nat) (source : Source) (result : Bool) :
    (collected a source result).makes = none := by
  cases result <;> rfl

/-- A call frees nothing, and only `waitcomplete` counts a reference. -/
theorem exec_account : (pc.exec call ok cb).1.freed = cb.freed ∧
    (pc.retains = none → (pc.exec call ok cb).1.refs = cb.refs) := by
  cases pc with
  | waited a result => exact ⟨rfl, fun h => by cases h⟩
  | tryRead a l | tryWrite a l | tryReturn a =>
    simp only [exec]
    split
    · rename_i heq
      rw [(cb.compareExchange_eq_some call heq).2]
      exact ⟨rfl, fun _ => rfl⟩
    · exact ⟨rfl, fun _ => rfl⟩
  | aioReturn a =>
    simp only [exec]
    split <;> exact ⟨rfl, fun _ => rfl⟩
  | index a iov =>
    simp only [exec]
    split
    · exact ⟨rfl, fun _ => rfl⟩
    · split <;> exact ⟨rfl, fun _ => rfl⟩
  | submit a state | lio handled a state rest | aioCancel a =>
    cases ok <;> exact ⟨rfl, fun _ => rfl⟩
  | cancel a | suspend a rest =>
    simp only [exec]
    split <;> exact ⟨rfl, fun _ => rfl⟩
  | _ => exact ⟨rfl, fun _ => rfl⟩

theorem exec_makes (htarget : pc.target.isSome = true) (h : pc.retains = none) :
    (pc.exec call ok cb).2.makes = none := by
  cases pc with
  | waited a result => cases h
  | tryRead a l =>
    simp only [exec]
    split
    · exact makes_of_submits (submits_afterBegin _ _ _)
    · rfl
  | tryWrite a l =>
    simp only [exec]
    split
    · exact makes_of_submits (submits_afterBegin _ _ _)
    · exact makes_of_submits (submits_afterRefusal _ _)
  | tryReturn a =>
    simp only [exec]
    split <;> rfl
  | aioReturn a =>
    simp only [exec]
    split
    · rfl
    · exact makes_collected _ _ _
  | index a iov =>
    simp only [exec]
    split
    · rfl
    · split <;> rfl
  | rollback a state rest outcome => exact makes_of_submits (submits_rollbackStates _ _)
  | lio handled a state rest => exact makes_of_submits (submits_lioListio _ _)
  | submit a state => cases ok <;> rfl
  | suspend a rest =>
    simp only [exec]
    split
    · cases rest <;> rfl
    · rfl
  | cancel a =>
    simp only [exec]
    split <;> rfl
  | lioReturn | refused | waitcomplete | waitedNew | retained | done => cases htarget
  | _ => rfl

theorem makes_of_target (htarget : pc.target.isSome = true) : pc.makes = none := by
  cases pc <;> first | rfl | cases htarget

end Pc

theorem FreePc.exec_refs {pc : FreePc} {ok : Bool} {cb : Rcaiocb} :
    (pc.exec ok cb).1.refs = cb.refs := by
  cases pc with
  | aioCancel => cases ok <;> rfl
  | _ => rfl

theorem FreePc.exec_freed {pc : FreePc} {ok : Bool} {cb : Rcaiocb} :
    (pc.exec ok cb).1.freed = cb.freed + if pc = .free then 1 else 0 := by
  cases pc with
  | aioCancel => cases ok <;> rfl
  | _ => rfl

/-- Every step but the last leaves `l_aiocb_free` in the middle. -/
theorem FreePc.exec_ne_idle {pc : FreePc} {ok : Bool} {cb : Rcaiocb} (h : pc ≠ .idle) :
    (pc.exec ok cb).2 = .idle ↔ pc = .free := by
  cases pc with
  | idle => exact absurd rfl h
  | load =>
    simp only [FreePc.exec]
    split <;> simp
  | aioCancel => cases ok <;> simp [FreePc.exec]
  | _ => simp [FreePc.exec]

namespace State
variable (s : State)

/-- The metamethods that are freeing the control block. -/
def freeing (a : Nat) : Nat := s.userdata.countP (fun x => x.cb = a ∧ x.freePc ≠ .idle)

def account (a : Nat) : Account :=
  ⟨(s.cbs a).refs, (s.cbs a).freed, s.holders a, s.freeing a⟩

theorem account_setCb (a : Nat) (cb : Rcaiocb) (b : Nat) : (s.setCb a cb).account b =
    if b = a then { s.account a with refs := cb.refs, freed := cb.freed } else s.account b := by
  by_cases heq : b = a
  · subst heq
    simp [account, setCb, holders, unreleased, making, freeing]
  · simp [account, setCb, holders, unreleased, making, freeing, heq]

/-- What a control block is replaced by is the same to its references. -/
theorem account_setCb_same {a : Nat} {cb : Rcaiocb} (hrefs : cb.refs = (s.cbs a).refs)
    (hfreed : cb.freed = (s.cbs a).freed) (b : Nat) : (s.setCb a cb).account b = s.account b := by
  rw [account_setCb]
  split
  · rename_i heq
    rw [hrefs, hfreed, heq]
    rfl
  · rfl

theorem making_setCall {i : Nat} {c : Call} (h : s.calls[i]? = some c) (c' : Call) (a : Nat) :
    (s.setCall i c').making a + (if c.pc.makes = some a then 1 else 0) =
      s.making a + (if c'.pc.makes = some a then 1 else 0) := by
  have hcount := countP_set_add (fun c => decide (c.pc.makes = some a)) (y := c') h
  simpa [making, setCall] using hcount

/-- A call moves on: what changes is whether it is about to make a userdata. -/
theorem account_setCall {i : Nat} {c : Call} (h : s.calls[i]? = some c)
    (hmakes : c.pc.makes = none) (c' : Call) (a : Nat) : (s.setCall i c').account a =
      { s.account a with
        holders := s.holders a + if c'.pc.makes = some a then 1 else 0 } := by
  have hmaking := s.making_setCall h c' a
  rw [hmakes, if_neg (by simp), Nat.add_zero] at hmaking
  unfold account
  rw [holders, hmaking, ← Nat.add_assoc]
  rfl

/-- The reference of a call becomes the reference of the userdata it makes. -/
theorem account_make {i a : Nat} {c c' : Call} (h : s.calls[i]? = some c)
    (hmakes : c.pc.makes = some a) (hmakes' : c'.pc.makes = none) (b : Nat) :
    ((s.new a).setCall i c').account b = s.account b := by
  have hmaking := (s.new a).making_setCall h c' b
  have hnew : (s.new a).making b = s.making b := rfl
  have hunreleased : (s.new a).unreleased b = s.unreleased b + if a = b then 1 else 0 := by
    simp [unreleased, new, List.countP_append, List.countP_cons]
  have hfreeing : (s.new a).freeing b = s.freeing b := by
    simp [freeing, new, List.countP_append]
  simp only [hmakes, hmakes', hnew, Option.some.injEq, reduceCtorEq, if_false] at hmaking
  have hholders : ((s.new a).setCall i c').holders b = s.holders b := by
    show (s.new a).unreleased b + ((s.new a).setCall i c').making b = s.unreleased b + s.making b
    omega
  unfold account
  rw [hholders]
  exact congrArg (Account.mk _ _ _) hfreeing

theorem account_addCall (c : Call) (a : Nat) : (s.addCall c).account a =
    { s.account a with
      holders := (s.account a).holders + if c.pc.makes = some a then 1 else 0 } := by
  simp [account, addCall, holders, making, unreleased, freeing, List.countP_append,
    List.countP_cons, Nat.add_assoc]

theorem account_new (a b : Nat) : (s.new a).account b =
    { s.account b with holders := (s.account b).holders + if b = a then 1 else 0 } := by
  by_cases heq : b = a
  · subst heq
    simp [account, new, holders, making, unreleased, freeing, List.countP_append]
    omega
  · simp [account, new, holders, making, unreleased, freeing, List.countP_append, heq, Ne.symm heq]

theorem unreleased_setUserdata {u : Nat} {x : Userdata} (h : s.userdata[u]? = some x)
    (x' : Userdata) (a : Nat) :
    (s.setUserdata u x').unreleased a + (if x.cb = a ∧ x.releases = 0 then 1 else 0) =
      s.unreleased a + (if x'.cb = a ∧ x'.releases = 0 then 1 else 0) := by
  have hcount := countP_set_add (fun x => decide (x.cb = a ∧ x.releases = 0)) (y := x') h
  simpa [unreleased, setUserdata] using hcount

theorem freeing_setUserdata {u : Nat} {x : Userdata} (h : s.userdata[u]? = some x)
    (x' : Userdata) (a : Nat) :
    (s.setUserdata u x').freeing a + (if x.cb = a ∧ x.freePc ≠ .idle then 1 else 0) =
      s.freeing a + (if x'.cb = a ∧ x'.freePc ≠ .idle then 1 else 0) := by
  have hcount := countP_set_add (fun x => decide (x.cb = a ∧ x.freePc ≠ .idle)) (y := x') h
  simpa [freeing, setUserdata] using hcount

section Replace
variable {s} {u : Nat} {x x' : Userdata} {cb : Rcaiocb} (h : s.userdata[u]? = some x)
  (hcb : x'.cb = x.cb)
include h hcb

/-- A metamethod moves on: the other control blocks are none of its business, -/
theorem account_replace_of_ne {b : Nat} (hb : b ≠ x.cb) :
    ((s.setCb x.cb cb).setUserdata u x').account b = s.account b := by
  have h' : (s.setCb x.cb cb).userdata[u]? = some x := h
  have hunreleased := unreleased_setUserdata _ h' x' b
  have hfreeing := freeing_setUserdata _ h' x' b
  simp only [hcb, Ne.symm hb, false_and, if_false, Nat.add_zero] at hunreleased hfreeing
  refine Eq.trans ?_ ((s.account_setCb x.cb cb b).trans (if_neg hb))
  unfold account holders
  rw [hunreleased, hfreeing]
  rfl

/-- and to its own it is the reference and the freeing that matter. -/
theorem account_replace {y : Account} (hrefs : y.refs = cb.refs) (hfreed : y.freed = cb.freed)
    (hholders : y.holders + (if x.releases = 0 then 1 else 0) =
      s.holders x.cb + if x'.releases = 0 then 1 else 0)
    (hfreeing : y.freeing + (if x.freePc ≠ .idle then 1 else 0) =
      s.freeing x.cb + if x'.freePc ≠ .idle then 1 else 0) :
    ((s.setCb x.cb cb).setUserdata u x').account x.cb = y := by
  have h' : (s.setCb x.cb cb).userdata[u]? = some x := h
  have hcountUnreleased := unreleased_setUserdata _ h' x' x.cb
  have hcountFreeing := freeing_setUserdata _ h' x' x.cb
  have hunreleased' : (s.setCb x.cb cb).unreleased x.cb = s.unreleased x.cb := rfl
  have hfreeing' : (s.setCb x.cb cb).freeing x.cb = s.freeing x.cb := rfl
  simp only [hcb, true_and, hunreleased', hfreeing'] at hcountUnreleased hcountFreeing
  ext
  · rw [hrefs]
    simp [account, setUserdata, setCb]
  · rw [hfreed]
    simp [account, setUserdata, setCb]
  · have hmaking : ((s.setCb x.cb cb).setUserdata u x').making x.cb = s.making x.cb := rfl
    simp only [account, holders, hmaking] at hholders ⊢
    omega
  · simp only [account]
    omega

end Replace

theorem unreleased_pos {x : Userdata} (h : x ∈ s.userdata) (hx : x.releases = 0) :
    0 < s.unreleased x.cb :=
  List.countP_pos_iff.mpr ⟨x, h, by simp [hx]⟩

end State

/-! ## The accounting -/

/-- A userdata has its reference and can be used, or has released it and cannot. -/
structure Userdata.Ok (x : Userdata) : Prop where
  holds : x.releases = 0 → x.Accessible
  once : x.releases ≤ 1
  gone : x.releases = 1 → ¬ x.Accessible

theorem userdata_ok_new (a : Nat) : Userdata.Ok ⟨a, true, 0, false, .idle⟩ where
  holds _ := ⟨rfl, rfl, rfl⟩
  once := Nat.zero_le 1
  gone hone := by cases hone

structure Accounted (s : State) : Prop where
  accounts : ∀ a < s.count, (s.account a).Balanced
  userdata : ∀ x ∈ s.userdata, x.Ok

/-- The actions after which the accounting still holds: a metamethod called before the
last reference is released leaves the cookie only to `__gc`, and `waitcomplete` retains
what somebody still has a reference to. -/
def ReleasedLast (s : State) : Event → Prop
  | .close u => ∀ x ∈ s.userdata[u]?, x.cookie = true → (s.cbs x.cb).refs = 1
  | .step i _ => ∀ c ∈ s.calls[i]?, ∀ a ∈ c.pc.retains, 0 < s.holders a
  | _ => True

namespace State
variable (s : State)

theorem makes_start (f : Invocation) : (s.start f).makes = none := by
  cases f with
  | suspend us => cases us <;> rfl
  | listio us => exact Pc.makes_of_submits (Pc.submits_nextEntry _ _)
  | _ => rfl

end State

/-- A number that has not been given to a control block has no references. -/
theorem Bounded.none_of_ge {s : State} (hb : Bounded s) {a : Nat} (ha : s.count ≤ a) :
    s.holders a = 0 ∧ s.freeing a = 0 := by
  have hcb : ∀ x ∈ s.userdata, x.cb ≠ a := by
    intro x hx
    have := hb.userdata x hx
    omega
  have hmaking : s.making a = 0 := by
    refine List.countP_eq_zero.mpr (fun c hc => ?_)
    intro hmakes
    have hmem := Pc.mem_mentions_of_makes (of_decide_eq_true hmakes)
    exact Nat.not_lt_of_le ha (hb.calls c hc a hmem)
  have hunreleased : s.unreleased a = 0 :=
    List.countP_eq_zero.mpr (fun x hx => by simp [hcb x hx])
  have hfreeing : s.freeing a = 0 :=
    List.countP_eq_zero.mpr (fun x hx => by simp [hcb x hx])
  exact ⟨by rw [State.holders, hunreleased, hmaking], hfreeing⟩

section Steps
variable {s : State} (h : Accounted s)
include h

/-- What happens to one account leaves the others balanced. -/
theorem Accounted.update {s' : State} (a : Nat) (hcount : s'.count = s.count)
    (hother : ∀ b ≠ a, s'.account b = s.account b)
    (hself : a < s.count → (s'.account a).Balanced)
    (huserdata : ∀ x ∈ s'.userdata, x ∈ s.userdata ∨ x.Ok) : Accounted s' where
  accounts b hb := by
    rw [hcount] at hb
    by_cases heq : b = a
    · rw [heq]
      exact hself (heq ▸ hb)
    · rw [hother b heq]
      exact h.accounts b hb
  userdata x hx := (huserdata x hx).elim (h.userdata x) id

/-- A step that the accounts do not see. -/
theorem Accounted.frame {s' : State} (hcount : s'.count = s.count)
    (haccount : ∀ b, s'.account b = s.account b) (huserdata : s'.userdata = s.userdata) :
    Accounted s' := by
  refine h.update 0 hcount (fun b _ => haccount b) ?_ ?_
  · intro ha
    rw [haccount]
    exact h.accounts 0 ha
  · intro x hx
    exact Or.inl (huserdata ▸ hx)

theorem Accounted.setCall {i : Nat} {c c' : Call} (hi : s.calls[i]? = some c)
    (hmakes : c.pc.makes = none) (hmakes' : c'.pc.makes = none) : Accounted (s.setCall i c') := by
  refine h.frame rfl (fun b => ?_) rfl
  rw [s.account_setCall hi hmakes, hmakes', if_neg (by simp)]
  rfl

theorem Accounted.setCb {a : Nat} {cb : Rcaiocb} (hrefs : cb.refs = (s.cbs a).refs)
    (hfreed : cb.freed = (s.cbs a).freed) : Accounted (s.setCb a cb) :=
  h.frame rfl (s.account_setCb_same hrefs hfreed) rfl

theorem Accounted.addCall {c : Call} (hmakes : c.pc.makes = none) : Accounted (s.addCall c) := by
  refine h.frame rfl (fun b => ?_) rfl
  rw [s.account_addCall, hmakes]
  rfl

theorem Accounted.shared (hb : Bounded s) (lioRead : Bool) (buffer : Buffer) :
    Accounted (s.shared lioRead buffer) where
  accounts a ha := by
    have hnone := hb.none_of_ge (Nat.le_refl s.count)
    unfold State.shared
    generalize buffer.check.getD (false, .uninit) = checked
    rw [State.account_new]
    by_cases heq : a = s.count
    · subst heq
      have haccount : ∀ cb : Rcaiocb,
          State.account { s.setCb s.count cb with count := s.count + 1 } s.count =
            ⟨cb.refs, cb.freed, 0, 0⟩ := by
        intro cb
        have := s.account_setCb s.count cb s.count
        rw [if_pos rfl] at this
        refine this.trans ?_
        simp [State.account, hnone.1, hnone.2]
      rw [haccount, if_pos rfl]
      exact Account.balanced_new
    · have haccount : ∀ cb : Rcaiocb,
          State.account { s.setCb s.count cb with count := s.count + 1 } a = s.account a := by
        intro cb
        have := s.account_setCb s.count cb a
        rwa [if_neg heq] at this
      rw [haccount, if_neg heq]
      exact h.accounts a (by have : a < s.count + 1 := ha; omega)
  userdata x hx := by
    rcases List.mem_append.mp hx with hx | hx
    · exact h.userdata x hx
    · rw [List.mem_singleton.mp hx]
      exact userdata_ok_new _

theorem Accounted.retain (hb : Bounded s) {x : Userdata} (hx : x ∈ s.userdata)
    (hreleases : x.releases = 0) (hroom : s.holders x.cb + 1 < 2 ^ 64) :
    Accounted (s.retain x) := by
  have hpos : 0 < s.holders x.cb := Nat.add_pos_left (s.unreleased_pos hx hreleases) _
  have hmakes : (Pc.retained x.cb).makes = some x.cb := rfl
  refine h.update x.cb rfl ?_ ?_ (fun y hy => Or.inl hy)
  · intro b hb
    rw [State.retain, State.account_addCall, State.account_setCb, if_neg hb, hmakes,
      if_neg (fun heq => hb (Option.some.inj heq).symm)]
    rfl
  · intro _
    rw [State.retain, State.account_addCall, State.account_setCb, if_pos rfl, if_pos hmakes]
    exact (h.accounts _ (hb.userdata x hx)).retain hpos hroom

/-- `refcount_retain` of `waitcomplete`. -/
theorem Accounted.stepRetain (hb : Bounded s) {i a : Nat} {c : Call} {result ok : Bool}
    (hi : s.calls[i]? = some c) (hpc : c.pc = .waited a result) (hpos : 0 < s.holders a)
    (hroom : s.holders a + 1 < 2 ^ 64) : Accounted (s.step i ok c) := by
  have hlt : a < s.count := by
    refine hb.calls c (List.mem_of_getElem? hi) a ?_
    rw [hpc]
    exact List.mem_singleton.mpr rfl
  have hnone : c.pc.makes = none := by rw [hpc]; rfl
  have hmakes : (Pc.waitedNew a result).makes = some a := rfl
  simp only [State.step, hpc, Pc.target, Pc.exec]
  have haccount := fun cb b => (s.setCb a cb).account_setCall (i := i) hi hnone
    { c with pc := .waitedNew a result } b
  refine h.update a rfl ?_ ?_ (fun y hy => Or.inl hy)
  · intro b hb
    rw [haccount, hmakes, if_neg (fun heq => hb (Option.some.inj heq).symm), s.account_setCb,
      if_neg hb]
    rfl
  · intro _
    rw [haccount, if_pos hmakes, s.account_setCb, if_pos rfl]
    exact (h.accounts a hlt).retain hpos hroom

/-- A call takes an action that counts nothing. -/
theorem Accounted.stepOther {i : Nat} {c : Call} (ok : Bool) (hi : s.calls[i]? = some c)
    (hretains : c.pc.retains = none) : Accounted (s.step i ok c) := by
  cases htarget : c.pc.target with
  | none =>
    simp only [State.step, htarget]
    exact h
  | some a =>
    simp only [State.step, htarget]
    have hsome : c.pc.target.isSome = true := by rw [htarget]; rfl
    refine (h.setCb ?_ ?_).setCall hi ?_ ?_
    · exact Pc.exec_account.2 hretains
    · exact Pc.exec_account.1
    · exact Pc.makes_of_target hsome
    · exact Pc.exec_makes hsome hretains

theorem Accounted.make {i : Nat} {c : Call} (hi : s.calls[i]? = some c) :
    Accounted (s.make i c) := by
  -- the two calls that retain differ only in what they do next
  have general : ∀ (a : Nat) (c' : Call), c.pc.makes = some a → c'.pc.makes = none →
      Accounted ((s.new a).setCall i c') := by
    intro a c' hmakes hmakes'
    refine h.update a rfl (fun b _ => s.account_make hi hmakes hmakes' b) ?_ ?_
    · intro ha
      rw [s.account_make hi hmakes hmakes' a]
      exact h.accounts a ha
    · intro x hx
      refine (List.mem_append.mp hx).imp_right ?_
      intro hx
      rw [List.mem_singleton.mp hx]
      exact userdata_ok_new a
  cases hpc : c.pc with
  | retained a =>
    simp only [State.make, hpc]
    exact general a _ (by rw [hpc]; rfl) rfl
  | waitedNew a result =>
    simp only [State.make, hpc]
    exact general a _ (by rw [hpc]; rfl) (Pc.makes_collected _ _ _)
  | _ =>
    simp only [State.make, hpc]
    exact h

/-- A metamethod is called on a userdata, or moves on. -/
theorem Accounted.replace {u : Nat} {x x' : Userdata} {cb : Rcaiocb}
    (hu : s.userdata[u]? = some x) (hcb : x'.cb = x.cb) (hok : x'.Ok)
    {y : Account} (hy : y.Balanced) (hrefs : y.refs = cb.refs) (hfreed : y.freed = cb.freed)
    (hholders : y.holders + (if x.releases = 0 then 1 else 0) =
      s.holders x.cb + if x'.releases = 0 then 1 else 0)
    (hfreeing : y.freeing + (if x.freePc ≠ .idle then 1 else 0) =
      s.freeing x.cb + if x'.freePc ≠ .idle then 1 else 0) :
    Accounted ((s.setCb x.cb cb).setUserdata u x') := by
  refine h.update x.cb rfl (fun b hb => State.account_replace_of_ne hu hcb hb) (fun _ => ?_) ?_
  · rw [State.account_replace hu hcb hrefs hfreed hholders hfreeing]
    exact hy
  · intro z hz
    refine (List.mem_or_eq_of_mem_set hz).imp_right ?_
    rintro rfl
    exact hok

theorem Accounted.release (hb : Bounded s) {u : Nat} {x : Userdata} (gc : Bool)
    (hu : s.userdata[u]? = some x) (hcollected : x.collected = false) (hfreePc : x.freePc = .idle)
    (hlast : gc = false → x.cookie = true → (s.cbs x.cb).refs = 1) :
    Accounted (s.release u gc x) := by
  have hx := List.mem_of_getElem? hu
  have hxok := h.userdata x hx
  have haccount := h.accounts _ (hb.userdata x hx)
  unfold State.release
  by_cases hcookie : x.cookie = true
  · rw [if_pos hcookie]
    have hreleases : x.releases = 0 := by
      have hone : x.releases ≠ 1 := fun hone => hxok.gone hone ⟨hcookie, hcollected, hfreePc⟩
      have := hxok.once
      omega
    have hpos : 0 < s.holders x.cb := Nat.add_pos_left (s.unreleased_pos hx hreleases) _
    refine h.replace hu rfl ?_ (haccount.release hpos) rfl rfl ?_ ?_
    · refine ⟨fun hzero => absurd hzero (Nat.succ_ne_zero _), ?_, ?_⟩
      · show x.releases + 1 ≤ 1
        omega
      · rintro - ⟨-, hnot, hidle⟩
        -- either this is `__gc`, or the last reference was released
        have hgc : gc = false := hnot
        rw [hlast hgc hcookie] at hidle
        cases hidle
    · show s.holders x.cb - 1 + _ = _
      rw [if_pos hreleases, if_neg (Nat.succ_ne_zero x.releases)]
      omega
    · show s.freeing x.cb + (if (s.cbs x.cb).refs.release.1 then 1 else 0) + _ = _
      rw [hfreePc]
      cases (s.cbs x.cb).refs.release.1 <;> rfl
  · rw [if_neg hcookie]
    have hreleases : x.releases = 1 := by
      have hzero : x.releases ≠ 0 := fun hzero => hcookie (hxok.holds hzero).1
      have := hxok.once
      omega
    have hsame : s.setUserdata u { x with collected := gc } =
        (s.setCb x.cb (s.cbs x.cb)).setUserdata u { x with collected := gc } := by
      simp [State.setCb]
    rw [hsame]
    refine h.replace hu rfl ?_ haccount rfl rfl rfl rfl
    refine ⟨?_, hxok.once, fun _ haccessible => hcookie haccessible.1⟩
    intro hzero
    rw [show x.releases = 0 from hzero] at hreleases
    cases hreleases

theorem Accounted.freeStep (hb : Bounded s) {u : Nat} {x : Userdata} (ok : Bool)
    (hu : s.userdata[u]? = some x) (hbusy : x.freePc ≠ .idle) : Accounted (s.freeStep u ok x) := by
  have hx := List.mem_of_getElem? hu
  have hxok := h.userdata x hx
  have haccount := h.accounts _ (hb.userdata x hx)
  have hreleases : x.releases ≠ 0 := fun hzero => hbusy (hxok.holds hzero).2.2
  have hpos : 0 < s.freeing x.cb := List.countP_pos_iff.mpr ⟨x, hx, by simp [hbusy]⟩
  unfold State.freeStep
  have hok : Userdata.Ok { x with
      cookie := x.cookie && decide (x.freePc ≠ .free)
      freePc := (x.freePc.exec ok (s.cbs x.cb)).2 } := by
    refine ⟨fun hzero => absurd hzero hreleases, hxok.once, ?_⟩
    rintro - ⟨hcookie, -, hidle⟩
    -- it is over only when the cookie has been cleared
    have hfree := (FreePc.exec_ne_idle hbusy).mp hidle
    simp [hfree] at hcookie
  by_cases hfree : x.freePc = .free
  · refine h.replace hu rfl hok (haccount.free hpos) FreePc.exec_refs.symm ?_ rfl ?_
    · rw [FreePc.exec_freed, if_pos hfree]
      rfl
    · rw [if_pos hbusy, if_neg (by simp [(FreePc.exec_ne_idle hbusy).mpr hfree])]
      show s.freeing x.cb - 1 + 1 = s.freeing x.cb + 0
      omega
  · refine h.replace hu rfl hok haccount FreePc.exec_refs.symm ?_ rfl ?_
    · rw [FreePc.exec_freed, if_neg hfree]
      rfl
    · rw [if_pos hbusy, if_pos (fun hidle => hfree ((FreePc.exec_ne_idle hbusy).mp hidle))]
      rfl

/-- `lio_listio(2)` has returned, or `listio` has been refused an entry. -/
theorem Accounted.lioReturn {i : Nat} {c : Call} (ok : Bool) (hi : s.calls[i]? = some c) :
    Accounted (s.lioReturn i ok c) := by
  unfold State.lioReturn
  split
  · rename_i handled hpc
    refine h.setCall hi (by rw [hpc]; rfl) ?_
    cases ok with
    | true => rfl
    | false => exact Pc.makes_of_submits (Pc.submits_rollbackStates _ _)
  · exact h

theorem Accounted.refuse {i : Nat} {c : Call} (stray : Option Nat) (hi : s.calls[i]? = some c) :
    Accounted (s.refuse i stray c) := by
  unfold State.refuse
  split
  · rename_i begun observed hpc
    exact h.setCall hi (by rw [hpc]; rfl) (Pc.makes_of_submits (Pc.submits_rollbackStates _ _))
  · exact h

theorem Accounted.waitcomplete {i : Nat} {c : Call} (found : Option Nat)
    (hi : s.calls[i]? = some c) (hpc : c.pc = .waitcomplete) :
    Accounted (s.waitcomplete i c found) := by
  have hmakes : c.pc.makes = none := by rw [hpc]; rfl
  cases found with
  | none => exact h.setCall hi hmakes rfl
  | some a =>
    simp only [State.waitcomplete]
    split
    · exact h
    · refine Accounted.setCall (h.setCb ?_ ?_) hi hmakes rfl
      · rfl
      · rfl

end Steps

/-- **Every step keeps the accounts balanced**, if it meets the condition. -/
theorem Accounted.next {s : State} (h : Accounted s) (hb : Bounded s) (e : Event)
    (hok : ReleasedLast s e) (he : Enabled s e) : Accounted (next s e) := by
  cases e with
  | shared lioRead buffer => exact h.shared hb lioRead buffer
  | call f => exact h.addCall (s.makes_start f)
  | retain u =>
    obtain ⟨x, hu, hreleases, hroom⟩ := he
    simp only [Aio.next, Option.mem_def.mp hu, Option.elim]
    exact h.retain hb (List.mem_of_getElem? hu) hreleases hroom
  | step i ok =>
    obtain ⟨c, hi, _, hroom⟩ := he
    simp only [Aio.next, Option.mem_def.mp hi, Option.elim]
    cases hpc : c.pc with
    | waited a result =>
      have hretains : a ∈ c.pc.retains := by rw [hpc]; rfl
      exact h.stepRetain hb hi hpc (hok c hi a hretains) (hroom a hretains)
    | _ => exact h.stepOther ok hi (by rw [hpc]; rfl)
  | make i =>
    obtain ⟨c, hi, _⟩ := he
    simp only [Aio.next, Option.mem_def.mp hi, Option.elim]
    exact h.make hi
  | lioReturn i ok =>
    obtain ⟨c, hi, _⟩ := he
    simp only [Aio.next, Option.mem_def.mp hi, Option.elim]
    exact h.lioReturn ok hi
  | refuse i stray =>
    obtain ⟨c, hi, _⟩ := he
    simp only [Aio.next, Option.mem_def.mp hi, Option.elim]
    exact h.refuse stray hi
  | waitcomplete i found =>
    obtain ⟨c, hi, hpc, _⟩ := he
    simp only [Aio.next, Option.mem_def.mp hi, Option.elim]
    exact h.waitcomplete found hi hpc
  | complete a ok => exact h.setCb rfl rfl
  | close u =>
    obtain ⟨⟨x, hu, hcollected, hfreePc⟩, _⟩ := he
    simp only [Aio.next, Option.mem_def.mp hu, Option.elim]
    exact h.release hb false hu hcollected hfreePc (fun _ => hok x hu)
  | gc u =>
    obtain ⟨⟨x, hu, hcollected, hfreePc⟩, _⟩ := he
    simp only [Aio.next, Option.mem_def.mp hu, Option.elim]
    exact h.release hb true hu hcollected hfreePc (fun hgc => by cases hgc)
  | freeStep u ok =>
    obtain ⟨x, hu, hbusy, _⟩ := he
    simp only [Aio.next, Option.mem_def.mp hu, Option.elim]
    exact h.freeStep hb ok hu hbusy

theorem accounted_init : Accounted system.init where
  accounts a ha := absurd ha (Nat.not_lt_zero a)
  userdata x hx := by cases hx

theorem reachable_accounted {s : State} (h : system.ReachableBy ReleasedLast s) : Accounted s :=
  h.invariant_under (fun _ => reachable_bounded) accounted_init
    (fun _ e hbounded hs hok he => hs.next hbounded e hok he)

/-- Each userdata releases at most one reference, and cannot be used afterwards.  The
count of a control block is the number of its userdata that have not released theirs and
of the calls that have retained and are about to make one.  Once that is zero, one
metamethod is freeing the control block or it has been freed, once; before, neither. -/
structure RefsExact (s : State) : Prop where
  once : ∀ x ∈ s.userdata, x.releases ≤ 1
  access : ∀ x ∈ s.userdata, 0 < x.releases → ¬ x.Accessible
  count : ∀ a < s.count, (s.cbs a).refs.toNat = s.unreleased a + s.making a
  zero : ∀ a < s.count, (s.cbs a).refs = 0 → s.freeing a + (s.cbs a).freed = 1
  nonzero : ∀ a < s.count, (s.cbs a).refs ≠ 0 → s.freeing a = 0 ∧ (s.cbs a).freed = 0

/-- **References are accounted for**, in every run in which `__close` is only called
with the last reference, and `waitcomplete` finds a control block that is still
referenced. -/
theorem aio_refs_exact (s : State) (h : system.ReachableBy ReleasedLast s) : RefsExact s := by
  have hacc := reachable_accounted h
  have hzero_iff : ∀ a < s.count, ((s.cbs a).refs = 0 ↔ s.holders a = 0) :=
    fun a ha => (hacc.accounts a ha).counts.eq_zero_iff
  constructor
  · exact fun x hx => (hacc.userdata x hx).once
  · intro x hx hpos
    have := (hacc.userdata x hx).once
    exact (hacc.userdata x hx).gone (by omega)
  · exact fun a ha => (hacc.accounts a ha).counts
  · intro a ha hrefs
    have hfreed := (hacc.accounts a ha).freed
    exact hfreed.trans (if_pos ((hzero_iff a ha).mp hrefs))
  · intro a ha hrefs
    refine (hacc.accounts a ha).not_freed (Nat.pos_of_ne_zero ?_)
    exact fun hzero => hrefs ((hzero_iff a ha).mpr hzero)

instance (s : State) : (e : Event) → Decidable (ReleasedLast s e)
  | .close _ | .step _ _ => by
    unfold ReleasedLast
    infer_instance
  | .shared _ _ | .call _ | .retain _ | .make _ | .lioReturn _ _ | .refuse _ _ | .waitcomplete _ _
  | .complete _ _ | .gc _ | .freeStep _ _ => instDecidableTrue

/-- A control block is made and shared, a request is written and collected by
`waitcomplete`, and the userdata are collected. -/
def shareEvents : List Event :=
  [.shared false .nil, .retain 0, .make 0, .call (.write 1 0), .step 1 true, .step 1 true, .gc 0,
    .complete 0 true, .call .waitcomplete, .waitcomplete 2 (some 0), .step 2 true, .make 2,
    .step 2 true, .step 2 true, .gc 1, .close 2, .freeStep 2 true, .freeStep 2 true, .gc 2]

theorem aio_refs_exact_share : ∃ s, system.run shareEvents = some s ∧
    (s.cbs 0).freed = 1 ∧ s.userdata.map Userdata.releases = [1, 1, 1] ∧ RefsExact s := by
  have hrun : ((system.restrict ReleasedLast (fun _ _ => inferInstance)).run shareEvents).map
      (fun s => ((s.cbs 0).freed, s.userdata.map Userdata.releases)) = some (1, [1, 1, 1]) := by
    decide
  obtain ⟨s, hs, heq⟩ := Option.map_eq_some_iff.mp hrun
  obtain ⟨hfreed, hreleases⟩ := Prod.mk.inj heq
  exact ⟨s, System.run_of_restrict hs, hfreed, hreleases,
    aio_refs_exact s (System.run_restrict hs)⟩

/-- `__close` with another reference in place: `__gc` releases once more. -/
def closedTwice : List Event := [.shared false .nil, .retain 0, .make 0, .close 0, .gc 0]

/-- The second release takes the reference of the other userdata. -/
theorem not_refs_exact_closed : ¬ ∀ s, system.Reachable s → RefsExact s := by
  intro hall
  have hrun : (system.run closedTwice).map (fun s => s.userdata.map Userdata.releases) =
      some [2, 0] := by
    decide
  obtain ⟨s, hs, hreleases⟩ := Option.map_eq_some_iff.mp hrun
  have honce := (hall s (System.run_reachable hs)).once
  have htwo : 2 ∈ s.userdata.map Userdata.releases := by
    rw [hreleases]
    exact List.mem_cons_self ..
  obtain ⟨x, hx, heq⟩ := List.mem_map.mp htwo
  have := honce x hx
  omega

end Aio
end FluaLibs
