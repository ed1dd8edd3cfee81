import FluaLibs.AioControlBlock
import Mathlib.Tactic.Tauto

/-! # The pointers of calls and userdata

A call gets its pointers to control blocks from its arguments when it starts, and drops
them one by one; `waitcomplete` gets one from the kernel.  So no call touches a control
block that it does not mention, and none mentions one that has not been made.
-/
namespace FluaLibs
namespace Aio

/-- The control blocks a call has pointers to. -/
def Listing.mentions (l : Listing) : List Nat :=
  l.todo.filterMap (Option.map Prod.fst) ++ l.begun.map Prod.fst

namespace Pc

/-- The control blocks that the rest of a call still works on. -/
def mentions : Pc → List Nat
  | tryRead a l | tryWrite a l => a :: l.elim [] Listing.mentions
  | rollback a _ rest _ => a :: rest.map Prod.fst
  | lio handled a _ rest => handled.map (Prod.fst ∘ Prod.fst) ++ a :: rest.map Prod.fst
  | lioReturn handled => handled.map (Prod.fst ∘ Prod.fst)
  | refused begun _ => begun.map Prod.fst
  | suspend a rest => a :: rest
  | submit a _ | tryReturn a | aioReturn a | failed a _ | restore a _ _ | commit a _ | store a _
  | waited a _ | waitedNew a _ | retained a | index a _ | copying a | cancel a | aioCancel a
  | aioSuspend a => [a]
  | waitcomplete | done _ => []

/-- The call is submitting, rolling back what was refused, or over. -/
def submits : Pc → Bool
  | tryRead _ _ | tryWrite _ _ | submit _ _ | rollback _ _ _ _ | lio _ _ _ _ | lioReturn _
  | refused _ _ | done _ => true
  | _ => false

theorem submits_rollbackStates (outcome : Outcome) (targets : List (Nat × AiocbState)) :
    (rollbackStates outcome targets).submits = true := by
  cases targets <;> rfl

theorem submits_lioListio (handled : List ((Nat × AiocbState) × Bool))
    (rest : List (Nat × AiocbState)) : (lioListio handled rest).submits = true := by
  cases rest <;> rfl

/-- The next entry of a list is submitted, skipped, or ends the list. -/
theorem submits_nextEntry (begun : List (Nat × AiocbState)) (todo : List (Option (Nat × Bool))) :
    (nextEntry begun todo).submits = true := by
  rcases todo with _ | ⟨_ | ⟨a, _ | _⟩, todo⟩
  · exact submits_lioListio [] begun
  · exact submits_rollbackStates _ begun
  · rfl
  · rfl

/-- A transition that went through leads to the submission, or to the next entry. -/
theorem submits_afterBegin (a : Nat) (state : AiocbState) (listing : Option Listing) :
    (afterBegin a state listing).submits = true := by
  cases listing with
  | none => rfl
  | some listing => exact submits_nextEntry _ _

/-- A refused transition ends the call, or the submissions of a list. -/
theorem submits_afterRefusal (observed : AiocbState) (listing : Option Listing) :
    (afterRefusal observed listing).submits = true := by
  cases listing <;> rfl

/-- A call that is submitting makes no userdata. -/
theorem makes_of_submits {pc : Pc} (h : pc.submits = true) : pc.makes = none := by
  cases pc <;> first | rfl | cases h

theorem mentions_rollbackStates (outcome : Outcome) (targets : List (Nat × AiocbState)) :
    (rollbackStates outcome targets).mentions = targets.map Prod.fst := by
  cases targets <;> rfl

theorem mentions_lioListio (handled : List ((Nat × AiocbState) × Bool))
    (rest : List (Nat × AiocbState)) : (lioListio handled rest).mentions =
      handled.map (Prod.fst ∘ Prod.fst) ++ rest.map Prod.fst := by
  cases rest with
  | nil => simp [lioListio, mentions]
  | cons e rest => rfl

/-- A list gets no pointers when it goes on. -/
theorem mentions_nextEntry {a : Nat} {begun : List (Nat × AiocbState)}
    {todo : List (Option (Nat × Bool))} (h : a ∈ (nextEntry begun todo).mentions) :
    a ∈ Listing.mentions ⟨todo, begun⟩ := by
  rcases todo with _ | ⟨_ | ⟨b, _ | _⟩, todo⟩
  · rw [nextEntry, mentions_lioListio] at h
    simpa [Listing.mentions] using h
  · rw [nextEntry, mentions_rollbackStates] at h
    exact List.mem_append_right _ h
  · simpa [nextEntry, mentions, Listing.mentions] using h
  · simpa [nextEntry, mentions, Listing.mentions] using h

/-- After a transition a call has the pointer that it was about, and those of its list. -/
theorem mentions_afterBegin {a b : Nat} {state : AiocbState} {listing : Option Listing}
    (h : b ∈ (afterBegin a state listing).mentions) :
    b = a ∨ b ∈ listing.elim [] Listing.mentions := by
  cases listing with
  | none => simpa [afterBegin, mentions] using h
  | some l =>
    have hnext := mentions_nextEntry h
    simp only [Listing.mentions, List.map_append, List.mem_append, List.map_cons, List.map_nil,
      List.mem_singleton] at hnext
    simp only [Option.elim, Listing.mentions, List.mem_append]
    tauto

theorem mentions_collected (a : Nat) (source : Source) (result : Bool) :
    (collected a source result).mentions = [a] := by
  cases result <;> rfl

variable {pc : Pc}

/-- A call gets no pointers on the way. -/
theorem mentions_exec {call : Nat} {ok : Bool} {cb : Rcaiocb} {b : Nat}
    (h : b ∈ (pc.exec call ok cb).2.mentions) : b ∈ pc.mentions := by
  cases pc with
  | tryRead a l =>
    simp only [exec] at h
    split at h
    · exact List.mem_cons.mpr (mentions_afterBegin h)
    · exact h
  | tryWrite a l =>
    simp only [exec] at h
    split at h
    · exact List.mem_cons.mpr (mentions_afterBegin h)
    · cases l with
      | none => cases h
      | some l => exact List.mem_cons_of_mem _ (List.mem_append_right _ h)
  | tryReturn a | cancel a =>
    simp only [exec] at h
    split at h
    · exact h
    · cases h
  | aioReturn a =>
    simp only [exec] at h
    split at h
    · exact h
    · rwa [mentions_collected] at h
  | rollback a state rest outcome =>
    simp only [exec, mentions_rollbackStates] at h
    exact List.mem_cons_of_mem _ h
  | lio handled a state rest =>
    simp only [exec, mentions_lioListio] at h
    simpa [mentions, or_assoc] using h
  | submit a state =>
    cases ok with
    | true => cases h
    | false => exact h
  | index a iov =>
    simp only [exec] at h
    split at h
    · cases h
    · split at h
      · exact h
      · cases h
  | suspend a rest =>
    simp only [exec] at h
    split at h
    · cases rest with
      | nil => exact h
      | cons c rest => exact List.mem_cons_of_mem _ h
    · cases h
  | restore | store | copying | aioCancel | aioSuspend => cases h
  | _ => exact h

/-- What the next action is about is among the pointers of the call. -/
theorem mem_mentions_of_target {a : Nat} (h : pc.target = some a) : a ∈ pc.mentions := by
  cases pc <;> cases h <;> simp [mentions]

/-- A userdata is made for one of the pointers of the call. -/
theorem mem_mentions_of_makes {a : Nat} (h : pc.makes = some a) : a ∈ pc.mentions := by
  cases pc <;> cases h <;> simp [mentions]

end Pc

/-- What userdata and calls point to has been made. -/
structure Bounded (s : State) : Prop where
  userdata : ∀ x ∈ s.userdata, x.cb < s.count
  calls : ∀ c ∈ s.calls, ∀ a ∈ c.pc.mentions, a < s.count

/-- What a call starts with are the control blocks of its arguments. -/
theorem State.mentions_start {s : State} {f : Invocation} {a : Nat}
    (h : a ∈ (s.start f).mentions) : ∃ u ∈ f.args, s.cookie u = a := by
  cases f with
  | suspend us =>
    cases us with
    | nil => cases h
    | cons u us =>
      have h' : a ∈ (u :: us).map s.cookie := h
      exact List.mem_map.mp h'
  | listio us =>
    have h' := Pc.mentions_nextEntry h
    simp only [Listing.mentions, List.map_nil, List.append_nil, List.mem_filterMap, List.mem_map,
      Option.map_eq_some_iff] at h'
    obtain ⟨_, ⟨entry, hentry, rfl⟩, ⟨b, lioRead⟩, hb, rfl⟩ := h'
    obtain ⟨u, rfl, heq⟩ := Option.map_eq_some_iff.mp hb
    have hu : u ∈ us.filterMap id := List.mem_filterMap.mpr ⟨some u, hentry, rfl⟩
    exact ⟨u, hu, (Prod.mk.inj heq).1⟩
  | waitcomplete => cases h
  | read u flags | write u flags | mlock u | fsync u | return_ u | cancel u | index u iov =>
    exact ⟨u, List.mem_singleton.mpr rfl, (List.mem_singleton.mp h).symm⟩

/-- A userdata that may be used has a control block. -/
theorem State.Usable.cookie {s : State} {u : Nat} (h : s.Usable u) :
    ∃ x, s.userdata[u]? = some x ∧ x.Accessible ∧ x.cb = s.cookie u := by
  obtain ⟨⟨x, hu, hx⟩, _⟩ := h
  refine ⟨x, hu, hx, ?_⟩
  rw [State.cookie, Option.mem_def.mp hu]
  rfl

section Steps
variable {s : State} (h : Bounded s)
include h

theorem Bounded.setCb (a : Nat) (cb : Rcaiocb) : Bounded (s.setCb a cb) := ⟨h.userdata, h.calls⟩

theorem Bounded.setCall {i : Nat} {c : Call} (hc : ∀ a ∈ c.pc.mentions, a < s.count) :
    Bounded (s.setCall i c) where
  userdata := h.userdata
  calls d hd := by
    rcases List.mem_or_eq_of_mem_set hd with hd | rfl
    · exact h.calls d hd
    · exact hc

/-- A new call has pointers to what has been made. -/
theorem Bounded.addCall {c : Call} (hc : ∀ a ∈ c.pc.mentions, a < s.count) :
    Bounded (s.addCall c) where
  userdata := h.userdata
  calls d hd := by
    rcases List.mem_append.mp hd with hd | hd
    · exact h.calls d hd
    · rw [List.mem_singleton.mp hd]
      exact hc

/-- A userdata is made for a control block that has been made. -/
theorem Bounded.new {a : Nat} (ha : a < s.count) : Bounded (s.new a) where
  userdata x hx := by
    rcases List.mem_append.mp hx with hx | hx
    · exact h.userdata x hx
    · rw [List.mem_singleton.mp hx]
      exact ha
  calls := h.calls

theorem Bounded.setUserdata {u : Nat} {x : Userdata} (hx : x.cb < s.count) :
    Bounded (s.setUserdata u x) where
  userdata y hy := by
    rcases List.mem_or_eq_of_mem_set hy with hy | rfl
    · exact h.userdata y hy
    · exact hx
  calls := h.calls

/-- A control block is made with its first userdata. -/
theorem Bounded.shared (lioRead : Bool) (buffer : Buffer) : Bounded (s.shared lioRead buffer) := by
  unfold State.shared
  refine Bounded.new ⟨?_, ?_⟩ (Nat.lt_succ_self s.count)
  · exact fun x hx => Nat.lt_succ_of_lt (h.userdata x hx)
  · exact fun c hc a ha => Nat.lt_succ_of_lt (h.calls c hc a ha)

/-- **A call** gets its pointers from userdata, which have them. -/
theorem Bounded.call {f : Invocation} (hf : ∀ u ∈ f.args, s.Usable u) :
    Bounded (s.addCall ⟨f.args, s.start f⟩) := by
  refine h.addCall ?_
  intro a ha
  obtain ⟨u, hu, rfl⟩ := State.mentions_start ha
  obtain ⟨x, hx, _, hcb⟩ := (hf u hu).cookie
  rw [← hcb]
  exact h.userdata x (List.mem_of_getElem? hx)

/-- A call moves on to what it has pointers to. -/
theorem Bounded.advance {i : Nat} {c : Call} (hi : s.calls[i]? = some c) {pc : Pc}
    (hmentions : ∀ a ∈ pc.mentions, a ∈ c.pc.mentions) (args : List Nat) :
    Bounded (s.setCall i ⟨args, pc⟩) :=
  h.setCall (fun a ha => h.calls c (List.mem_of_getElem? hi) a (hmentions a ha))

/-- **A call goes on** and gets no pointers on the way. -/
theorem Bounded.step {i : Nat} {c : Call} (ok : Bool) (hi : s.calls[i]? = some c) :
    Bounded (s.step i ok c) := by
  unfold State.step
  split
  · exact h
  · exact (h.setCb _ _).advance hi (fun b hb => Pc.mentions_exec hb) c.args

/-- A call makes the userdata for the reference that it has taken. -/
theorem Bounded.make {i : Nat} {c : Call} (hi : s.calls[i]? = some c) : Bounded (s.make i c) := by
  have hbound := h.calls c (List.mem_of_getElem? hi)
  unfold State.make
  split
  · rename_i a hpc
    refine (h.new (hbound a ?_)).setCall (fun b hb => by cases hb)
    rw [hpc]
    exact List.mem_singleton.mpr rfl
  · rename_i a result hpc
    have ha : a < s.count := hbound a (by rw [hpc]; exact List.mem_singleton.mpr rfl)
    refine (h.new ha).setCall (fun b hb => ?_)
    rw [Pc.mentions_collected] at hb
    rw [List.mem_singleton.mp hb]
    exact ha
  · exact h

/-- `lio_listio` returns, and what it refused is rolled back. -/
theorem Bounded.lioReturn {i : Nat} {c : Call} (ok : Bool) (hi : s.calls[i]? = some c) :
    Bounded (s.lioReturn i ok c) := by
  unfold State.lioReturn
  split
  · rename_i handled hpc
    refine h.advance hi (fun a ha => ?_) c.args
    rw [hpc]
    cases ok with
    | true => cases ha
    | false =>
      rw [if_neg (by simp), Pc.mentions_rollbackStates, List.map_map] at ha
      exact ha
  · exact h

/-- What has been begun is rolled back, with a control block that the list did not have. -/
theorem Bounded.refuse {i : Nat} {c : Call} {stray : Option Nat} (hi : s.calls[i]? = some c)
    (hstray : ∀ a ∈ stray, a < s.count) : Bounded (s.refuse i stray c) := by
  unfold State.refuse
  split
  · rename_i begun observed hpc
    refine h.setCall (fun a ha => ?_)
    rw [Pc.mentions_rollbackStates, List.map_append, List.map_map] at ha
    rcases List.mem_append.mp ha with ha | ha
    · exact h.calls c (List.mem_of_getElem? hi) a (by rw [hpc]; exact ha)
    · exact hstray a (by simpa using ha)
  · exact h

/-- The kernel gives back a control block that it was given. -/
theorem Bounded.waitcomplete {i : Nat} {c : Call} {found : Option Nat}
    (hfound : ∀ a ∈ found, a < s.count) : Bounded (s.waitcomplete i c found) := by
  unfold State.waitcomplete
  split
  · exact h.setCall (fun a ha => by cases ha)
  · rename_i a
    split
    · exact h
    · refine (h.setCb _ _).setCall (fun b hb => ?_)
      rw [List.mem_singleton.mp hb]
      exact hfound a rfl

theorem Bounded.release {u : Nat} {x : Userdata} (gc : Bool) (hu : s.userdata[u]? = some x) :
    Bounded (s.release u gc x) := by
  have hx := h.userdata x (List.mem_of_getElem? hu)
  unfold State.release
  split
  · exact (h.setCb _ _).setUserdata hx
  · exact h.setUserdata hx

end Steps

/-- Every step keeps the pointers to what has been made. -/
theorem Bounded.next {s : State} (h : Bounded s) (e : Event) (he : Enabled s e) :
    Bounded (next s e) := by
  cases e with
  | shared lioRead buffer => exact h.shared lioRead buffer
  | call f => exact h.call he
  | retain u =>
    obtain ⟨x, hu, _⟩ := he
    simp only [Aio.next, Option.mem_def.mp hu, Option.elim]
    refine (h.setCb _ _).addCall (fun a ha => ?_)
    rw [List.mem_singleton.mp ha]
    exact h.userdata x (List.mem_of_getElem? hu)
  | step i ok =>
    obtain ⟨c, hi, _⟩ := he
    simp only [Aio.next, Option.mem_def.mp hi, Option.elim]
    exact h.step ok hi
  | make i =>
    obtain ⟨c, hi, _⟩ := he
    simp only [Aio.next, Option.mem_def.mp hi, Option.elim]
    exact h.make hi
  | lioReturn i ok =>
    obtain ⟨c, hi, _⟩ := he
    simp only [Aio.next, Option.mem_def.mp hi, Option.elim]
    exact h.lioReturn ok hi
  | refuse i stray =>
    obtain ⟨c, hi, _, hstray⟩ := he
    simp only [Aio.next, Option.mem_def.mp hi, Option.elim]
    exact h.refuse hi hstray
  | waitcomplete i found =>
    obtain ⟨c, hi, _, hfound⟩ := he
    simp only [Aio.next, Option.mem_def.mp hi, Option.elim]
    exact h.waitcomplete (fun a ha => (hfound a ha).1)
  | complete a ok => exact h.setCb _ _
  | close u =>
    obtain ⟨⟨x, hu, _⟩, _⟩ := he
    simp only [Aio.next, Option.mem_def.mp hu, Option.elim]
    exact h.release false hu
  | gc u =>
    obtain ⟨⟨x, hu, _⟩, _⟩ := he
    simp only [Aio.next, Option.mem_def.mp hu, Option.elim]
    exact h.release true hu
  | freeStep u ok =>
    obtain ⟨x, hu, _⟩ := he
    simp only [Aio.next, Option.mem_def.mp hu, Option.elim]
    exact (h.setCb _ _).setUserdata (h.userdata x (List.mem_of_getElem? hu))

theorem bounded_init : Bounded system.init where
  userdata x hx := by cases hx
  calls c hc := by cases hc

theorem reachable_bounded {ok : State → Event → Prop} {s : State}
    (h : system.ReachableBy ok s) : Bounded s :=
  h.invariant bounded_init (fun _ e hs _ he => hs.next e he)

end Aio
end FluaLibs
