import FluaLibs.AclHandles
import FluaLibs.ListEntries

/-! # No ACL is used after it has been freed

The invariant of the runs: what the script reaches is alive, and its references lead to the
`acl_t` of the ACL that it points into, which has one such userdata.  An `acl_t` whose finalizer
runs is not reached, so nothing that is reached points into its ACL.
-/
namespace FluaLibs
namespace Acl
open References

variable {s t : State}

structure Inv (s : State) : Prop where
  intact : s.misused = false
  backward : Backward s.ref
  bounded : ∀ u ∈ s.held, u < s.userdata.length
  anchored : ∀ u, Reach s.ref s.held u → ∃ d, s.userdata[u]? = some d ∧ d.life = .alive ∧
    ∃ w ∈ chain s.ref u, s.Anchor w d.cookie
  owned : OwnedOnce s.Owns s.Live
  kept : ∀ x ∈ s.memory, x.block = .text ∨ x.block = .orphan → x.there = true
  dropped : ∀ x ∈ s.memory, x.block = .qualifier → x.there = false

/-! ## The checks -/

theorem checkcookie_eq_some {k : Kind} {arg : Arg} {n : Nat} :
    s.checkcookie k arg = some n ↔
      ∃ u d, arg = .userdata u ∧ s.userdata[u]? = some d ∧ d.kind = k ∧ d.cookie = n := by
  constructor
  · intro h
    cases arg with
    | integer | other => cases h
    | userdata u =>
      obtain ⟨d, hd, hcookie⟩ := Option.bind_eq_some_iff.mp h
      by_cases hk : d.kind = k
      · rw [if_pos hk] at hcookie
        exact ⟨u, d, rfl, hd, hk, Option.some.inj hcookie⟩
      · rw [if_neg hk] at hcookie
        cases hcookie
  · rintro ⟨u, d, rfl, hd, hk, hn⟩
    simp [State.checkcookie, hd, hk, hn]

theorem checkself_eq_some {k : Kind} {args : List Arg} {u n : Nat} :
    s.checkself k args = some (u, n) ↔
      args.head? = some (.userdata u) ∧ s.checkcookie k (.userdata u) = some n := by
  cases args with
  | nil => simp [State.checkself]
  | cons arg args =>
    cases arg with
    | integer | other => simp [State.checkself]
    | userdata v =>
      simp only [State.checkself, Option.map_eq_some_iff, Prod.mk.injEq, List.head?_cons,
        Option.some.injEq, Arg.userdata.injEq]
      constructor
      · rintro ⟨m, hm, rfl, rfl⟩
        exact ⟨rfl, hm⟩
      · rintro ⟨rfl, hm⟩
        exact ⟨n, hm, rfl, rfl⟩

theorem there_of_live {n : Nat} (h : s.Live n) : s.There n := by
  have hmemory : s.memory[n]? = some ⟨.acl, true⟩ := h
  simp [State.There, hmemory]

theorem touch_of_there {n : Nat} (h : s.There n) : s.touch n = s := if_pos h

theorem touchAll_of_there {ns : List Nat} (h : ∀ n ∈ ns, s.There n) : s.touchAll ns = s := by
  induction ns with
  | nil => rfl
  | cons n ns ih =>
    obtain ⟨hn, hns⟩ := List.forall_mem_cons.mp h
    rw [State.touchAll, List.foldl_cons, touch_of_there hn]
    exact ih hns

section Checks
variable (h : Inv s)
include h

/-- What the script has points into an ACL. -/
theorem Inv.live_of_held {k : Kind} {arg : Arg} {n : Nat} (hheld : arg.isHeld s.held = true)
    (hcookie : s.checkcookie k arg = some n) : s.Live n := by
  obtain ⟨u, d, rfl, hd, -, rfl⟩ := checkcookie_eq_some.mp hcookie
  have hreach := Reach.of_held h.backward (of_decide_eq_true hheld)
  obtain ⟨d', hd', -, w, -, -, hlive⟩ := h.anchored u hreach
  obtain rfl : d = d' := Option.some.inj (hd.symm.trans hd')
  exact hlive

theorem Inv.live_of_checkcookies {kinds : List Kind} {args : List Arg} {ns : List Nat}
    (hheld : args.all (Arg.isHeld s.held) = true)
    (hcookies : s.checkcookies kinds args = some ns) : ∀ n ∈ ns, s.Live n := by
  induction kinds generalizing args ns with
  | nil =>
    obtain rfl : [] = ns := Option.some.inj hcookies
    simp
  | cons k kinds ih =>
    cases args with
    | nil => cases hcookies
    | cons arg args =>
      rw [List.all_cons, Bool.and_eq_true] at hheld
      obtain ⟨n, hn, hrest⟩ := Option.bind_eq_some_iff.mp hcookies
      obtain ⟨ms, hms, hns⟩ := Option.bind_eq_some_iff.mp hrest
      obtain rfl := Option.some.inj hns
      exact List.forall_mem_cons.mpr ⟨h.live_of_held hheld.1 hn, ih hheld.2 hms⟩

theorem Inv.touchAll_eq {kinds : List Kind} {args : List Arg} {ns : List Nat}
    (hheld : args.all (Arg.isHeld s.held) = true)
    (hcookies : s.checkcookies kinds args = some ns) : s.touchAll ns = s :=
  touchAll_of_there (fun n hn => there_of_live (h.live_of_checkcookies hheld hcookies n hn))

/-- The first argument, and what the script has with it. -/
theorem Inv.self_spec {k : Kind} {args : List Arg} {u n : Nat}
    (hheld : args.all (Arg.isHeld s.held) = true) (hself : s.checkself k args = some (u, n)) :
    u ∈ s.held ∧ s.Live n ∧ ∃ d, s.userdata[u]? = some d ∧ d.kind = k ∧ d.cookie = n := by
  obtain ⟨hhead, hcookie⟩ := checkself_eq_some.mp hself
  have harg : (Arg.userdata u).isHeld s.held = true :=
    List.all_eq_true.mp hheld _ (List.mem_of_mem_head? hhead)
  obtain ⟨v, d, hv, hd, hk, hn⟩ := checkcookie_eq_some.mp hcookie
  obtain rfl := Arg.userdata.inj hv
  exact ⟨of_decide_eq_true harg, h.live_of_held harg hcookie, d, hd, hk, hn⟩

end Checks

/-! ## What the steps do to the invariant -/

section Steps
variable (h : Inv s)
include h

/-- Only memory that is no ACL with a userdata is allocated or freed. -/
theorem Inv.memory (huserdata : t.userdata = s.userdata) (hheld : t.held = s.held)
    (hmisused : t.misused = false) (hlive : ∀ n, t.Live n ↔ s.Live n)
    (hkept : ∀ x ∈ t.memory, x.block = .text ∨ x.block = .orphan → x.there = true)
    (hdropped : ∀ x ∈ t.memory, x.block = .qualifier → x.there = false) : Inv t := by
  have href : t.ref = s.ref := funext (fun u => by rw [State.ref, State.ref, huserdata])
  constructor
  · exact hmisused
  · rw [href]
    exact h.backward
  · rw [huserdata, hheld]
    exact h.bounded
  · intro u hu
    rw [href, hheld] at hu
    obtain ⟨d, hd, hlife, w, hw, hanchor, hn⟩ := h.anchored u hu
    rw [href, huserdata]
    exact ⟨d, hd, hlife, w, hw, by rw [huserdata]; exact hanchor, (hlive _).mpr hn⟩
  · refine h.owned.congr (fun u n => ?_) hlive
    rw [State.Owns, State.Owns, huserdata]
  · exact hkept
  · exact hdropped

/-- A userdata is made for an ACL, or for something in one that the script has. -/
theorem Inv.push (d : Userdata) (huserdata : t.userdata = s.userdata ++ [d])
    (hheld : t.held = s.userdata.length :: s.held) (hmisused : t.misused = false)
    (hd : d.life = .alive) (href : ∀ v, d.ref = some v → v ∈ s.held)
    (hlive : ∀ n, s.Live n → t.Live n) (howned : OwnedOnce t.Owns t.Live)
    (hanchor : t.Anchor s.userdata.length d.cookie ∨
      ∃ v, d.ref = some v ∧ ∃ w ∈ chain s.ref v, s.Anchor w d.cookie)
    (hkept : ∀ x ∈ t.memory, x.block = .text ∨ x.block = .orphan → x.there = true)
    (hdropped : ∀ x ∈ t.memory, x.block = .qualifier → x.there = false) : Inv t := by
  have hrefs : t.ref = Function.update s.ref s.userdata.length d.ref := by
    funext u
    rw [State.ref, huserdata, bind_concat, Function.update_apply]
    rfl
  have hlt : ∀ v, d.ref = some v → v < s.userdata.length := fun v hv => h.bounded v (href v hv)
  have hback : Backward t.ref := hrefs ▸ h.backward.update hlt
  have hold : ∀ (u : Nat) e, s.userdata[u]? = some e → t.userdata[u]? = some e := by
    intro u e he
    rw [huserdata, List.getElem?_append_left (List.getElem?_eq_some_iff.mp he).1]
    exact he
  have holdAnchor : ∀ w n, s.Anchor w n → t.Anchor w n := by
    rintro w n ⟨hw, hn⟩
    obtain ⟨e, he, hfields⟩ := Option.map_eq_some_iff.mp hw
    exact ⟨Option.map_eq_some_iff.mpr ⟨e, hold w e he, hfields⟩, hlive n hn⟩
  constructor
  · exact hmisused
  · exact hback
  · intro u hu
    rw [hheld, List.mem_cons] at hu
    rw [huserdata, List.length_append, List.length_singleton]
    rcases hu with rfl | hu
    · omega
    · exact Nat.lt_succ_of_lt (h.bounded u hu)
  · intro u hu
    rw [hrefs, hheld] at hu
    rcases (reach_update h.backward h.bounded href u).mp hu with rfl | hu
    · refine ⟨d, by rw [huserdata]; exact List.getElem?_concat_length, hd, ?_⟩
      rcases hanchor with hself | ⟨v, hv, w, hw, hwn⟩
      · exact ⟨_, self_mem_chain hback _, hself⟩
      · refine ⟨w, (mem_chain_iff hback).mpr (Or.inr ⟨v, ?_, ?_⟩), holdAnchor w _ hwn⟩
        · rw [hrefs, Function.update_self, hv]
        · rw [hrefs, chain_update h.backward (hlt v hv)]
          exact hw
    · obtain ⟨e, he, hlife, w, hw, hwn⟩ := h.anchored u hu
      refine ⟨e, hold u e he, hlife, w, ?_, holdAnchor w _ hwn⟩
      rw [hrefs, chain_update h.backward (List.getElem?_eq_some_iff.mp he).1]
      exact hw
  · exact howned
  · exact hkept
  · exact hdropped

/-- The script forgets things. -/
theorem Inv.drop {held : List Nat} (hle : ∀ u ∈ held, u ∈ s.held) :
    Inv { s with held := held } where
  intact := h.intact
  backward := h.backward
  bounded u hu := h.bounded u (hle u hu)
  anchored u hu := h.anchored u (hu.mono hle)
  owned := h.owned
  kept := h.kept
  dropped := h.dropped

/-- The script looks up what it reaches. -/
theorem Inv.hold {u : Nat} (hu : Reach s.ref s.held u) : Inv { s with held := u :: s.held } where
  intact := h.intact
  backward := h.backward
  bounded v hv := by
    rcases List.mem_cons.mp hv with rfl | hv
    · obtain ⟨d, hd, -⟩ := h.anchored v hu
      exact (List.getElem?_eq_some_iff.mp hd).1
    · exact h.bounded v hv
  anchored v hv := h.anchored v ((reach_hold h.backward hu v).mp hv)
  owned := h.owned
  kept := h.kept
  dropped := h.dropped

/-- What the script does not reach may change in any way that leaves the references, and the
memory of what is still owned. -/
theorem Inv.unreached {u : Nat} (hu : ¬ Reach s.ref s.held u) (f : Userdata → Userdata)
    (hf : ∀ d, (f d).ref = d.ref) (huserdata : t.userdata = s.userdata.modify u f)
    (hheld : t.held = s.held) (hmisused : t.misused = false)
    (hlive : ∀ w n, s.Owns w n → w ≠ u → t.Live n) (howned : OwnedOnce t.Owns t.Live)
    (hkept : ∀ x ∈ t.memory, x.block = .text ∨ x.block = .orphan → x.there = true)
    (hdropped : ∀ x ∈ t.memory, x.block = .qualifier → x.there = false) : Inv t := by
  have href : t.ref = s.ref := by
    funext v
    rw [State.ref, State.ref, huserdata, bind_modify_same hf]
  have hother : ∀ v, Reach s.ref s.held v → t.userdata[v]? = s.userdata[v]? := by
    intro v hv
    have hne : u ≠ v := by
      rintro rfl
      exact hu hv
    rw [huserdata, List.getElem?_modify]
    simp [hne]
  constructor
  · exact hmisused
  · rw [href]
    exact h.backward
  · rw [huserdata, hheld, List.length_modify]
    exact h.bounded
  · intro v hv
    rw [href, hheld] at hv
    obtain ⟨d, hd, hlife, w, hw, hanchor, hn⟩ := h.anchored v hv
    have hreach := hv.trans h.backward hw
    have hne : w ≠ u := by
      rintro rfl
      exact hu hreach
    obtain ⟨e, he, hfields⟩ := Option.map_eq_some_iff.mp hanchor
    obtain ⟨hkind, hcookie, halive⟩ : e.kind = .acl ∧ e.cookie = d.cookie ∧ e.life = .alive := by
      simpa using hfields
    have hown : s.Owns w d.cookie := ⟨e, he, hkind, by rw [halive]; decide, hcookie⟩
    rw [href, hother v hv]
    refine ⟨d, hd, hlife, w, hw, ?_, hlive w _ hown hne⟩
    rw [hother w hreach]
    exact hanchor
  · exact howned
  · exact hkept
  · exact hdropped

end Steps

/-! ## The collector -/

section Collector
variable (h : Inv s)
include h

theorem Inv.not_reach_of_life {u : Nat} {l : Life}
    (hl : s.userdata[u]?.map Userdata.life = some l) (hne : l ≠ .alive) :
    ¬ Reach s.ref s.held u := by
  intro hu
  obtain ⟨d, hd, hlife, -⟩ := h.anchored u hu
  rw [hd] at hl
  exact hne ((Option.some.inj hl).symm.trans hlife)

theorem Inv.collect {u : Nat} (hu : Enabled s (.collect u)) : Inv (next s (.collect u)) := by
  obtain ⟨halive, hreach⟩ := hu
  refine h.unreached hreach (fun d => { d with life := if d.kind = .acl then .doomed else .gone })
    (fun d => rfl) rfl rfl h.intact (fun w n hw _ => h.owned.live w n hw) ?_ h.kept h.dropped
  -- an `acl_t` still has to free its ACL, and the others have none
  refine h.owned.congr (fun w n => ?_) (fun n => Iff.rfl)
  show (∃ d, (s.userdata.modify u _)[w]? = some d ∧ _) ↔ _
  rw [State.Owns, List.getElem?_modify]
  by_cases huw : u = w
  · subst huw
    obtain ⟨d, hd, hlife⟩ := Option.map_eq_some_iff.mp halive
    by_cases hkind : d.kind = .acl <;> simp [hd, hkind, hlife]
  · simp [huw]

/-- The finalizer frees the ACL of its userdata, which is the only one. -/
theorem Inv.finalize {u : Nat} {a : Answer} (hu : Enabled s (.finalize u a))
    (ha : a.errno = none) : Inv (next s (.finalize u a)) := by
  have hdoomed : s.userdata[u]?.map Userdata.life = some .doomed := hu
  have hreach := h.not_reach_of_life hdoomed (by decide)
  obtain ⟨d, hd, hlife⟩ := Option.map_eq_some_iff.mp hdoomed
  by_cases hkind : d.kind = .acl
  · have hown : s.Owns u d.cookie := ⟨d, hd, hkind, by rw [hlife]; decide, rfl⟩
    have hthere := there_of_live (h.owned.live u _ hown)
    have hgc : (l_acl_gc [.userdata u] a s).2 =
        { s with
          memory := s.memory.modify d.cookie (fun x => { x with there := false }) } := by
      simp [l_acl_gc, State.checkcookies, State.checkcookie, hd, hkind, ha, State.free, hthere]
    have hnext : next s (.finalize u a) =
        { s with
          memory := s.memory.modify d.cookie (fun x => { x with there := false })
          userdata := s.userdata.modify u (fun d => { d with life := .gone }) } := by
      simp only [next, hgc]
    have hlive : ∀ n, (next s (.finalize u a)).Live n ↔ s.Live n ∧ n ≠ d.cookie := by
      intro n
      rw [hnext, State.Live, State.Live, List.getElem?_modify]
      by_cases hn : d.cookie = n
      · rcases hx : s.memory[n]? with _ | ⟨b, there⟩ <;> simp [hn]
      · simp [hn, Ne.symm hn]
    refine h.unreached hreach (fun d => { d with life := .gone }) (fun d => rfl)
      (by rw [hnext]) (by rw [hnext]) (by rw [hnext]; exact h.intact) ?_ ?_ ?_ ?_
    · intro w n hw hne
      refine (hlive n).mpr ⟨h.owned.live w n hw, ?_⟩
      rintro rfl
      exact hne (h.owned.unique w u _ hw hown)
    · refine h.owned.release (fun n => n = d.cookie) (fun w n => ?_) hlive
      rw [hnext, State.Owns, State.Owns, List.getElem?_modify]
      by_cases huw : u = w
      · subst huw
        simp only [hd]
        constructor
        · rintro ⟨e, he, -, hgone, -⟩
          obtain rfl := Option.some.inj he
          exact absurd rfl hgone
        · rintro ⟨⟨e, he, -, -, rfl⟩, hne⟩
          obtain rfl := Option.some.inj he
          exact absurd rfl hne
      · simp only [huw, if_false, id_map']
        refine ⟨fun hw => ⟨hw, ?_⟩, And.left⟩
        rintro rfl
        exact huw (h.owned.unique u w _ hown hw)
    · rw [hnext]
      exact forall_mem_modify h.kept (fun x hx hb => by
        have hlive := h.owned.live u _ hown
        rw [State.Live, hx] at hlive
        obtain rfl := Option.some.inj hlive
        rcases hb with hb | hb <;> cases hb)
    · rw [hnext]
      exact forall_mem_modify h.dropped (fun x _ _ => rfl)
  · have hgc : (l_acl_gc [.userdata u] a s).2 = s := by
      simp [l_acl_gc, State.checkcookies, State.checkcookie, hd, hkind]
    have hnext : next s (.finalize u a) =
        { s with userdata := s.userdata.modify u (fun d => { d with life := .gone }) } := by
      simp only [next, hgc]
    refine h.unreached hreach (fun d => { d with life := .gone }) (fun d => rfl)
      (by rw [hnext]) (by rw [hnext]) (by rw [hnext]; exact h.intact) ?_ ?_ ?_ ?_
    · rw [hnext]
      exact fun w n hw _ => h.owned.live w n hw
    · rw [hnext]
      refine h.owned.congr (fun w n => ?_) (fun n => Iff.rfl)
      rw [State.Owns, State.Owns, List.getElem?_modify]
      by_cases huw : u = w
      · subst huw
        simp [hd, hkind]
      · simp [huw]
    · rw [hnext]
      exact h.kept
    · rw [hnext]
      exact h.dropped

end Collector

/-! ## The functions -/

/-- A function keeps the invariant, whatever it is called with and however the call goes. -/
def Keeps (m : Method) : Prop :=
  ∀ args a s, Inv s → args.all (Arg.isHeld s.held) = true → (a.moved = true → Unshared s args) →
    Inv (m args a s).2

/-- What is only handed to the library stays as it is. -/
theorem uses_eq (kinds : List Kind) (isFatal : Bool) (a : Answer) {args : List Arg} (h : Inv s)
    (hheld : args.all (Arg.isHeld s.held) = true) : (uses kinds isFatal args a s).2 = s := by
  unfold uses
  cases hcookies : s.checkcookies kinds args with
  | none => rfl
  | some ns =>
    dsimp only
    rw [h.touchAll_eq hheld hcookies]
    by_cases hargument : a.argument = true
    · rw [if_pos hargument]
      cases a.errno <;> rfl
    · rw [if_neg hargument]

theorem uses_keeps (kinds : List Kind) (isFatal : Bool) : Keeps (uses kinds isFatal) := by
  intro args a s h hheld _
  rw [uses_eq kinds isFatal a h hheld]
  exact h

/-- The memory when more has been allocated. -/
theorem live_concat {m : List Allocation} {x : Allocation} (hmemory : t.memory = m ++ [x])
    (n : Nat) : t.Live n ↔ m[n]? = some ⟨.acl, true⟩ ∨ n = m.length ∧ x = ⟨.acl, true⟩ := by
  rw [State.Live, hmemory]
  by_cases hn : n = m.length
  · subst hn
    simp
  · rw [getElem?_concat_of_ne hn]
    simp [hn]

/-- The last one of the allocations is relabelled. -/
theorem modify_last (m : List Allocation) (x : Allocation) (f : Allocation → Allocation) :
    (m ++ [x]).modify m.length f = m ++ [f x] := by
  induction m with
  | nil => rfl
  | cons y m ih => simp [List.modify_succ_cons, ih]

/-- Whether the userdata was made or not, the ACL is accounted for. -/
theorem Inv.new (h : Inv s) (a : Answer) : Inv ((s.alloc .acl).new a s.memory.length).2 := by
  by_cases ha : a.memory = true
  · have hnew : ((s.alloc .acl).new a s.memory.length).2 =
        { s with
          userdata := s.userdata ++ [⟨.acl, s.memory.length, none, .alive⟩]
          held := s.userdata.length :: s.held
          memory := s.memory ++ [⟨.acl, true⟩] } := by
      rw [State.new, if_pos ha]
      rfl
    rw [hnew]
    refine h.push ⟨.acl, s.memory.length, none, .alive⟩ rfl rfl h.intact rfl
      (fun v hv => by cases hv) ?_ ?_ (Or.inl ?_) ?_ ?_
    · exact fun n hn => (live_concat rfl n).mpr (Or.inl hn)
    · refine h.owned.acquire s.userdata.length (fun n => n = s.memory.length) ?_ ?_ ?_
      · rintro n rfl hn
        rw [State.Live, List.getElem?_eq_none (Nat.le_refl _)] at hn
        cases hn
      · intro u n
        rw [State.Owns, State.Owns]
        by_cases hu : u = s.userdata.length
        · subst hu
          simp [eq_comm]
        · simp [getElem?_concat_of_ne hu, hu]
      · intro n
        rw [live_concat rfl]
        simp [State.Live]
    · simp [State.Anchor, State.Live]
    · intro x hx hb
      rcases List.mem_append.mp hx with hx | hx
      · exact h.kept x hx hb
      · rw [List.mem_singleton.mp hx]
    · intro x hx hb
      rcases List.mem_append.mp hx with hx | hx
      · exact h.dropped x hx hb
      · rw [List.mem_singleton.mp hx] at hb
        cases hb
  · have hnew : ((s.alloc .acl).new a s.memory.length).2 =
        { s with memory := s.memory ++ [⟨.orphan, true⟩] } := by
      rw [State.new, if_neg ha]
      simp [State.alloc, modify_last]
    rw [hnew]
    refine h.memory rfl rfl h.intact ?_ ?_ ?_
    · intro n
      rw [live_concat rfl]
      simp [State.Live]
    · intro x hx hb
      rcases List.mem_append.mp hx with hx | hx
      · exact h.kept x hx hb
      · rw [List.mem_singleton.mp hx]
    · intro x hx hb
      rcases List.mem_append.mp hx with hx | hx
      · exact h.dropped x hx hb
      · rw [List.mem_singleton.mp hx] at hb
        cases hb

theorem gives_keeps (kinds : List Kind) : Keeps (gives kinds) := by
  intro args a s h hheld _
  unfold gives
  cases hcookies : s.checkcookies kinds args with
  | none => exact h
  | some ns =>
    dsimp only
    rw [h.touchAll_eq hheld hcookies]
    by_cases hargument : a.argument = true
    · rw [if_pos hargument]
      cases a.errno with
      | none => exact h.new a
      | some e => exact h
    · rw [if_neg hargument]
      exact h

/-- A pointer into the ACL that something which the script has points into. -/
theorem Inv.newref (h : Inv s) (a : Answer) {u n : Nat} {d : Userdata} {k : Kind}
    (hu : u ∈ s.held) (hd : s.userdata[u]? = some d) (hn : d.cookie = n) (hk : k ≠ .acl) :
    Inv (s.newref a u n k).2 := by
  by_cases ha : a.memory = true
  · rw [State.newref, if_pos ha]
    obtain ⟨d', hd', -, hanchor⟩ := h.anchored u (.of_held h.backward hu)
    obtain rfl : d = d' := Option.some.inj (hd.symm.trans hd')
    rw [hn] at hanchor
    refine h.push ⟨k, n, some u, .alive⟩ rfl rfl h.intact rfl ?_ (fun m hm => hm) ?_
      (Or.inr ⟨u, rfl, hanchor⟩) h.kept h.dropped
    · intro v hv
      obtain rfl := Option.some.inj hv
      exact hu
    · refine h.owned.congr (fun w m => ?_) (fun m => Iff.rfl)
      show (∃ e, (s.userdata ++ [_])[w]? = some e ∧ _) ↔ _
      rw [State.Owns]
      by_cases hw : w = s.userdata.length
      · subst hw
        simp [hk]
      · rw [getElem?_concat_of_ne hw]
  · rw [State.newref, if_neg ha]
    exact h

theorem points_keeps (k : Kind) {part : Kind} (hpart : part ≠ .acl) : Keeps (points k part) := by
  intro args a s h hheld _
  unfold points
  cases hself : s.checkself k args with
  | none => exact h
  | some un =>
    obtain ⟨u, n⟩ := un
    obtain ⟨hu, hlive, d, hd, -, hn⟩ := h.self_spec hheld hself
    dsimp only
    rw [touch_of_there (there_of_live hlive)]
    by_cases hargument : a.argument = true
    · rw [if_pos hargument]
      cases a.errno with
      | none => exact h.newref a hu hd hn hpart
      | some e => exact h
    · rw [if_neg hargument]
      exact h

/-- The cookie is set to what it was. -/
theorem setcookie_self {u : Nat} {d : Userdata} (hd : s.userdata[u]? = some d) :
    s.setcookie u d.cookie = s := by
  have hsame : s.userdata.modify u (fun e => { e with cookie := d.cookie }) = s.userdata := by
    apply List.ext_getElem?
    intro v
    rw [List.getElem?_modify]
    by_cases huv : u = v
    · subst huv
      simp [hd]
    · simp [huv]
  rw [State.setcookie, hsame]

/-- The ACL has been moved, and the script has nothing else that points into it. -/
theorem Inv.moved (h : Inv s) {u : Nat} {d : Userdata} (hu : u ∈ s.held)
    (hd : s.userdata[u]? = some d) (hkind : d.kind = .acl)
    (hunshared : ∀ (v : Nat) e, v ≠ u → Reach s.ref s.held v → s.userdata[v]? = some e →
      e.cookie ≠ d.cookie)
    (huserdata : t.userdata =
      s.userdata.modify u (fun e => { e with cookie := s.memory.length }))
    (hmemory : t.memory =
      s.memory.modify d.cookie (fun x => { x with there := false }) ++ [⟨.acl, true⟩])
    (hheld : t.held = s.held) (hmisused : t.misused = false) : Inv t := by
  obtain ⟨d', hd', hlife, -⟩ := h.anchored u (.of_held h.backward hu)
  obtain rfl : d = d' := Option.some.inj (hd.symm.trans hd')
  have hown : s.Owns u d.cookie := ⟨d, hd, hkind, by rw [hlife]; decide, rfl⟩
  have hlived : s.memory[d.cookie]? = some ⟨.acl, true⟩ := h.owned.live u _ hown
  have hlive : ∀ n, t.Live n ↔ (s.Live n ∧ n ≠ d.cookie) ∨ n = s.memory.length := by
    intro n
    rw [live_concat hmemory, List.getElem?_modify, List.length_modify]
    by_cases hn : d.cookie = n
    · rcases hx : s.memory[n]? with _ | ⟨b, there⟩ <;> simp [hn]
    · simp [hn, Ne.symm hn, State.Live]
  have hother : ∀ v, v ≠ u → t.userdata[v]? = s.userdata[v]? := by
    intro v hv
    rw [huserdata, List.getElem?_modify]
    simp [Ne.symm hv]
  have hself : t.userdata[u]? = some { d with cookie := s.memory.length } := by
    rw [huserdata, List.getElem?_modify]
    simp [hd]
  have href : t.ref = s.ref := by
    funext v
    rw [State.ref, State.ref, huserdata]
    have hsame : ∀ e : Userdata, ({ e with cookie := s.memory.length } : Userdata).ref = e.ref :=
      fun _ => rfl
    exact bind_modify_same hsame u v
  constructor
  · exact hmisused
  · rw [href]
    exact h.backward
  · intro v hv
    rw [huserdata, List.length_modify]
    rw [hheld] at hv
    exact h.bounded v hv
  · intro v hv
    rw [href, hheld] at hv
    rw [href]
    by_cases hvu : v = u
    · subst hvu
      refine ⟨_, hself, hlife, v, self_mem_chain h.backward v, ?_, (hlive _).mpr (Or.inr rfl)⟩
      rw [hself]
      simp [hkind, hlife]
    · obtain ⟨e, he, helife, w, hw, hanchor, hn⟩ := h.anchored v hv
      have hne := hunshared v e hvu hv he
      -- what leads to another ACL leads to another `acl_t`
      have hwu : w ≠ u := by
        rintro rfl
        rw [hd, Option.map_some, Option.some.injEq, Prod.mk.injEq, Prod.mk.injEq] at hanchor
        exact hne hanchor.2.1.symm
      refine ⟨e, ?_, helife, w, hw, ?_, (hlive _).mpr (Or.inl ⟨hn, hne⟩)⟩
      · exact (hother v hvu).trans he
      · rw [hother w hwu]
        exact hanchor
  · have hreleased : OwnedOnce (fun w n => s.Owns w n ∧ n ≠ d.cookie)
        (fun n => s.Live n ∧ n ≠ d.cookie) :=
      h.owned.release (fun n => n = d.cookie) (fun _ _ => Iff.rfl) (fun _ => Iff.rfl)
    refine hreleased.acquire u (fun n => n = s.memory.length) ?_ (fun w n => ?_) hlive
    · rintro n rfl ⟨hn, -⟩
      rw [State.Live, List.getElem?_eq_none (Nat.le_refl _)] at hn
      cases hn
    · rw [State.Owns, State.Owns]
      by_cases hwu : w = u
      · subst hwu
        simp only [hself, hd]
        constructor
        · rintro ⟨e, he, -, -, hen⟩
          obtain rfl := Option.some.inj he
          exact Or.inr ⟨trivial, hen.symm⟩
        · rintro (⟨⟨e, he, -, -, hen⟩, hne⟩ | ⟨-, rfl⟩)
          · obtain rfl := Option.some.inj he
            exact absurd hen.symm hne
          · exact ⟨_, rfl, hkind, by rw [hlife]; decide, rfl⟩
      · rw [hother w hwu]
        constructor
        · rintro ⟨e, he, hekind, hegone, hen⟩
          refine Or.inl ⟨⟨e, he, hekind, hegone, hen⟩, ?_⟩
          rintro rfl
          exact hwu (h.owned.unique w u _ ⟨e, he, hekind, hegone, hen⟩ hown)
        · rintro (⟨how, -⟩ | ⟨hw, -⟩)
          · exact how
          · exact absurd hw hwu
  · rw [hmemory]
    intro x hx
    rcases List.mem_append.mp hx with hx | hx
    · refine forall_mem_modify (p := fun x => x.block = .text ∨ x.block = .orphan →
        x.there = true) h.kept ?_ x hx
      intro y hy hb
      obtain rfl := Option.some.inj (hlived.symm.trans hy)
      rcases hb with hb | hb <;> cases hb
    · rw [List.mem_singleton.mp hx]
      exact fun _ => rfl
  · rw [hmemory]
    intro x hx
    rcases List.mem_append.mp hx with hx | hx
    · exact forall_mem_modify (p := fun x => x.block = .qualifier → x.there = false) h.dropped
        (fun y _ _ => rfl) x hx
    · rw [List.mem_singleton.mp hx]
      intro hb
      cases hb

/-- The ACL is where the library has left it. -/
theorem Inv.settle (h : Inv s) {a : Answer} {args : List Arg} {u n : Nat}
    (hheld : args.all (Arg.isHeld s.held) = true) (hself : s.checkself .acl args = some (u, n))
    (hmoved : a.moved = true → Unshared s args) :
    Inv (s.settle a u n) ∧ u ∈ (s.settle a u n).held ∧
      ∃ d, (s.settle a u n).userdata[u]? = some d ∧ d.cookie = s.place a n := by
  obtain ⟨hu, hlive, d, hd, hkind, rfl⟩ := h.self_spec hheld hself
  by_cases ha : a.moved = true
  · rw [State.settle, if_pos ha, State.place, if_pos ha, State.free,
      if_pos (there_of_live hlive)]
    refine ⟨h.moved hu hd hkind ?_ rfl rfl rfl h.intact, hu, { d with cookie := _ }, ?_, rfl⟩
    · intro v e hvu hv he heq
      obtain ⟨hhead, -⟩ := checkself_eq_some.mp hself
      obtain ⟨rest, rfl⟩ := List.head?_eq_some_iff.mp hhead
      refine hmoved ha v (List.mem_range.mpr (List.getElem?_eq_some_iff.mp he).1) hvu hv ?_
      rw [he, hd, Option.map_some, Option.map_some, heq]
    · show (s.userdata.modify u _)[u]? = _
      rw [List.getElem?_modify]
      simp [hd]
  · rw [State.settle, if_neg ha, State.place, if_neg ha, setcookie_self hd]
    exact ⟨h, hu, d, hd, rfl⟩

theorem calc_mask_keeps : Keeps l_acl_calc_mask := by
  intro args a s h hheld hmoved
  unfold l_acl_calc_mask
  cases hself : s.checkself .acl args with
  | none => exact h
  | some un =>
    obtain ⟨u, n⟩ := un
    obtain ⟨-, hlive, -⟩ := h.self_spec hheld hself
    dsimp only
    rw [touch_of_there (there_of_live hlive)]
    cases a.errno with
    | none => exact (h.settle hheld hself hmoved).1
    | some e => exact h

theorem create_entry_keeps : Keeps l_acl_create_entry := by
  intro args a s h hheld hmoved
  unfold l_acl_create_entry
  cases hself : s.checkself .acl args with
  | none => exact h
  | some un =>
    obtain ⟨u, n⟩ := un
    obtain ⟨-, hlive, -⟩ := h.self_spec hheld hself
    dsimp only
    rw [touch_of_there (there_of_live hlive)]
    by_cases hargument : a.argument = true
    · rw [if_pos hargument]
      cases a.errno with
      | none =>
        obtain ⟨hsettled, hu, d, hd, hplace⟩ := h.settle hheld hself hmoved
        exact hsettled.newref a hu hd hplace (by decide)
      | some e => exact h
    · rw [if_neg hargument]
      exact h

/-- No argument is an `acl_t` and an entry, so what is not an index is refused. -/
theorem delete_entry_of_not_integer {args : List Arg} (hargs : args[1]? ≠ some .integer)
    (a : Answer) (s : State) : l_acl_delete_entry args a s = (.raised, s) := by
  unfold l_acl_delete_entry
  split
  · next hinteger => exact absurd hinteger hargs
  · split
    · next hacl hentry =>
      obtain ⟨hhead, hacl⟩ := checkself_eq_some.mp hacl
      obtain ⟨hhead', hentry⟩ := checkself_eq_some.mp hentry
      rw [hhead] at hhead'
      obtain rfl := Arg.userdata.inj (Option.some.inj hhead')
      obtain ⟨u, d, hu, hd, hkind, -⟩ := checkcookie_eq_some.mp hacl
      obtain ⟨v, e, hv, he, hkind', -⟩ := checkcookie_eq_some.mp hentry
      obtain rfl := Arg.userdata.inj (hu.symm.trans hv)
      obtain rfl := Option.some.inj (hd.symm.trans he)
      rw [hkind] at hkind'
      cases hkind'
    · rfl

theorem delete_entry_keeps : Keeps l_acl_delete_entry := by
  intro args a s h hheld hmoved
  by_cases hargs : args[1]? = some .integer
  · have huses : l_acl_delete_entry args a s = uses [.acl] false args a s := by
      simp only [l_acl_delete_entry, hargs]
    rw [huses]
    exact uses_keeps [.acl] false args a s h hheld hmoved
  · rw [delete_entry_of_not_integer hargs]
    exact h

/-- What is allocated for something that is no ACL. -/
theorem Inv.text (h : Inv s) : Inv (s.alloc .text) := by
  refine h.memory rfl rfl h.intact (fun n => ?_) ?_ ?_
  · rw [live_concat rfl]
    simp [State.Live]
  · intro x hx hb
    rcases List.mem_append.mp hx with hx | hx
    · exact h.kept x hx hb
    · rw [List.mem_singleton.mp hx]
  · intro x hx hb
    rcases List.mem_append.mp hx with hx | hx
    · exact h.dropped x hx hb
    · rw [List.mem_singleton.mp hx] at hb
      cases hb

theorem to_text_keeps : Keeps l_acl_to_text := by
  intro args a s h hheld _
  have hsame := uses_eq [.acl] false a h hheld
  unfold l_acl_to_text
  split
  · next t heq =>
    rw [heq] at hsame
    rw [show t = s from hsame]
    exact h.text
  · next r t _ heq =>
    rw [heq] at hsame
    rw [show t = s from hsame]
    exact h

/-- A qualifier is read and freed. -/
theorem qualifier_eq (s : State) :
    ((s.alloc .qualifier).touch s.memory.length).free s.memory.length =
      { s with memory := s.memory ++ [⟨.qualifier, false⟩] } := by
  have hthere : (s.alloc .qualifier).There s.memory.length := by
    simp [State.There, State.alloc]
  rw [touch_of_there hthere, State.free, if_pos hthere]
  simp [State.alloc, modify_last]

theorem Inv.qualifier (h : Inv s) :
    Inv { s with memory := s.memory ++ [⟨.qualifier, false⟩] } := by
  refine h.memory rfl rfl h.intact (fun n => ?_) ?_ ?_
  · rw [live_concat rfl]
    simp [State.Live]
  · intro x hx hb
    rcases List.mem_append.mp hx with hx | hx
    · exact h.kept x hx hb
    · rw [List.mem_singleton.mp hx] at hb
      rcases hb with hb | hb <;> cases hb
  · intro x hx hb
    rcases List.mem_append.mp hx with hx | hx
    · exact h.dropped x hx hb
    · rw [List.mem_singleton.mp hx]

theorem get_qualifier_keeps : Keeps l_acl_get_qualifier := by
  intro args a s h hheld _
  have hsame := uses_eq [.entry] false a h hheld
  unfold l_acl_get_qualifier
  split
  · next t heq =>
    rw [heq] at hsame
    rw [show t = s from hsame, qualifier_eq]
    exact h.qualifier
  · next r t _ heq =>
    rw [heq] at hsame
    rw [show t = s from hsame]
    exact h

/-- All functions but the finalizer. -/
theorem registry_keeps (table : Option Kind) :
    ∀ p ∈ registry table, (table = some .acl → p.1 ≠ "__gc") → Keeps p.2 := by
  rcases table with _ | k
  · simp only [registry, l_acl_funcs, List.forall_mem_cons]
    exact ⟨fun _ => uses_keeps [] false, fun _ => uses_keeps [] false,
      fun _ => uses_keeps [] false, fun _ => uses_keeps [] false, fun _ => uses_keeps [] false,
      fun _ => uses_keeps [] false, fun _ => gives_keeps [], fun _ => gives_keeps [],
      fun _ => gives_keeps [], fun _ => gives_keeps [], fun _ => gives_keeps [],
      fun _ => gives_keeps [], fun _ => gives_keeps [], by simp⟩
  · cases k with
    | acl =>
      simp only [registry, l_acl_meta, List.forall_mem_cons]
      exact ⟨fun _ => uses_keeps [.acl, .acl] true, fun hname => absurd rfl (hname trivial),
        fun _ => calc_mask_keeps, fun _ => create_entry_keeps, fun _ => delete_entry_keeps,
        fun _ => gives_keeps [.acl], fun _ => uses_keeps [.acl] false,
        fun _ => uses_keeps [.acl] false, fun _ => points_keeps .acl (by decide),
        fun _ => uses_keeps [.acl] false, fun _ => uses_keeps [.acl] false,
        fun _ => uses_keeps [.acl] false, fun _ => uses_keeps [.acl] false,
        fun _ => uses_keeps [.acl] false, fun _ => gives_keeps [.acl], fun _ => to_text_keeps,
        fun _ => uses_keeps [.acl] false, fun _ => uses_keeps [.acl] false,
        fun _ => uses_keeps [.acl] false, fun _ => uses_keeps [.acl] false, by simp⟩
    | entry =>
      simp only [registry, l_acl_entry_meta, List.forall_mem_cons]
      exact ⟨fun _ => uses_keeps [.entry, .entry] false,
        fun _ => points_keeps .entry (by decide), fun _ => points_keeps .entry (by decide),
        fun _ => get_qualifier_keeps, fun _ => uses_keeps [.entry] false,
        fun _ => uses_keeps [.entry] false, fun _ => uses_keeps [.entry, .flagset] false,
        fun _ => uses_keeps [.entry, .permset] false, fun _ => uses_keeps [.entry] false,
        fun _ => uses_keeps [.entry] false, fun _ => uses_keeps [.entry] false, by simp⟩
    | flagset =>
      simp only [registry, l_acl_flagset_meta, List.forall_mem_cons]
      exact ⟨fun _ => uses_keeps [.flagset] false, fun _ => uses_keeps [.flagset] false,
        fun _ => uses_keeps [.flagset] false, fun _ => uses_keeps [.flagset] false, by simp⟩
    | permset =>
      simp only [registry, l_acl_permset_meta, List.forall_mem_cons]
      exact ⟨fun _ => uses_keeps [.permset] false, fun _ => uses_keeps [.permset] false,
        fun _ => uses_keeps [.permset] false, fun _ => uses_keeps [.permset] false, by simp⟩

/-! ## The runs -/

theorem Inv.init : Inv system.init where
  intact := rfl
  backward u v huv := by cases huv
  bounded u hu := by cases hu
  anchored := by
    rintro u ⟨v, hv, -⟩
    cases hv
  owned := by
    refine .empty ?_ (fun n hn => by cases hn)
    rintro u n ⟨d, hd, -⟩
    cases hd
  kept x hx := by cases hx
  dropped x hx := by cases hx

theorem Inv.call (h : Inv s) {table : Option Kind} {name : String} {args : List Arg} {a : Answer}
    (hcareful : Careful s (.call table name args a))
    (henabled : Enabled s (.call table name args a)) :
    Inv (next s (.call table name args a)) := by
  obtain ⟨hname, hmoved⟩ := hcareful
  cases hm : (registry table).lookup name with
  | none =>
    simp only [next, hm]
    exact h
  | some m =>
    simp only [next, hm]
    have hmem : (name, m) ∈ registry table := by
      obtain ⟨l₁, l₂, hsplit, -⟩ := List.lookup_eq_some_iff.mp hm
      rw [hsplit]
      exact List.mem_append_right l₁ (List.mem_cons_self ..)
    exact registry_keeps table _ hmem hname args a s h henabled hmoved

theorem Inv.next {e : Event} (h : Inv s) (hcareful : Careful s e) (henabled : Enabled s e) :
    Inv (next s e) := by
  cases e with
  | call table name args a => exact h.call hcareful henabled
  | drop u => exact h.drop (fun v hv => List.mem_of_mem_filter hv)
  | hold u => exact h.hold henabled
  | collect u => exact h.collect henabled
  | finalize u a => exact h.finalize henabled hcareful
  | revive u => cases hcareful

theorem Inv.sound (h : Inv s) : Sound s where
  intact := h.intact
  anchored := h.anchored
  owned := h.owned
  left hgone x hx := by
    obtain ⟨n, hn⟩ := List.mem_iff_getElem?.mp hx
    obtain ⟨b, there⟩ := x
    cases b with
    | text => simpa using h.kept _ hx (Or.inl rfl)
    | orphan => simpa using h.kept _ hx (Or.inr rfl)
    | qualifier => simpa using h.dropped _ hx rfl
    | acl =>
      -- an ACL that is there has an owner, which is not gone
      have hfreed : there ≠ true := by
        rintro rfl
        obtain ⟨u, d, hd, -, hlife, -⟩ := h.owned.owned n hn
        exact hlife (hgone d (List.mem_of_getElem? hd))
      simpa using hfreed

/-- **No ACL is used after it has been freed, and none is forgotten.**  In every run in which the
script leaves the finalizer to the collector and gets nothing back from it, in which the library
moves no ACL that something else points into, what the script can reach points into an ACL that is
there.  When everything has been collected, what is left are the texts, and the ACLs that Lua had
no memory for a userdata for. -/
theorem acls_sound (h : system.ReachableBy Careful s) : Sound s :=
  (h.invariant Inv.init (fun _ _ hs hcareful henabled => hs.next hcareful henabled)).sound

/-- The calls of a script that keeps the permissions of an entry after it has lost the rest. -/
def permsetRun : List Event :=
  [.call none "new" [] ⟨true, none, false, true⟩,
    .call (some .acl) "create_entry" [.userdata 0, .other] ⟨true, none, true, true⟩,
    .call (some .entry) "get_permset" [.userdata 1] ⟨true, none, false, true⟩, .drop 0, .drop 1,
    .call (some .permset) "add" [.userdata 2, .integer] ⟨true, none, false, true⟩, .hold 0,
    .call (some .acl) "to_text" [.userdata 0] ⟨true, none, false, true⟩, .drop 0, .drop 2,
    .collect 0, .finalize 0 ⟨true, none, false, true⟩, .collect 2, .collect 1]

/-- The permissions of an entry keep its ACL, which has been moved once; the text stays. -/
theorem acls_sound_permset : ∃ s, system.run permsetRun = some s ∧
    s.memory = [⟨.acl, false⟩, ⟨.acl, false⟩, ⟨.text, true⟩] ∧ Sound s := by
  have hrun : ((system.restrict Careful (fun _ _ => inferInstance)).run permsetRun).map
      (fun s => s.memory) = some [⟨.acl, false⟩, ⟨.acl, false⟩, ⟨.text, true⟩] := by
    decide
  obtain ⟨s, hs, hmemory⟩ := Option.map_eq_some_iff.mp hrun
  exact ⟨s, System.run_of_restrict hs, hmemory, acls_sound (System.run_restrict hs)⟩

/-- A finalizer of the script that still has the entry comes too late. -/
example : (system.run
    [.call none "new" [] ⟨true, none, false, true⟩,
      .call (some .acl) "get_entry" [.userdata 0, .integer] ⟨true, none, false, true⟩, .drop 0,
      .drop 1, .collect 0, .collect 1, .finalize 0 ⟨true, none, false, true⟩, .revive 1,
      .call (some .entry) "get_type" [.userdata 1] ⟨true, none, false, true⟩]).map
    State.misused = some true := by
  decide

end Acl
end FluaLibs
