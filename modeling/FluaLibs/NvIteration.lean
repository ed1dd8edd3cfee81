import FluaLibs.NvReferences

/-! # Iteration over a list of libnv

`nvl:next()` makes a userdata for a cookie and lets `nvlist_next` move a cookie on, but
the cookie that is moved is a local variable of the C function.  The userdata keeps the
cookie it was made with, which is NULL, and the next call with it raises an error.  So
only an empty list is iterated to its end (`iteratesAll_iff`).

A userdata whose cookie was set by somebody else, as `get_parent` does, stays where it is:
`next` returns the successor of its pair, again and again (`next_repeats`).
-/
namespace FluaLibs
namespace Nv

/-- What `next` returns for a pair, in this order. -/
inductive Item where
  | cookie (u : Nat)
  | name (name : String)
  | type (type : NvType)
  deriving DecidableEq

/-- How a call of `next` ends. -/
inductive Yield where
  | values (items : List Item)
  | raised (message : String)
  /-- libnv does not know the cookie. -/
  | aborted
  deriving DecidableEq

namespace Heap
variable (h : Heap)

def nameOf (p : Nat) : String :=
  match h.content p with
  | some (.nvpair name _) => name
  | _ => ""

def typeOf (p : Nat) : NvType :=
  match h.content p with
  | some (.nvpair _ type) => type
  | _ => .plain 0

end Heap

/-- `next`, as a method of both kinds of list: with no cookie (or nil), and with one. -/
def l_nvlist_next (s : State) (u : Nat) : Option Nat → State × Yield
  | none =>
    match s.checkself u with
    | none => (s, .raised "nvlist_t expected")
    | some nvl =>
      -- the reference that is set next is lost: the new userdata has one user value
      match (s.heap.children nvl).head? with
      | none => (s.new none .cnvlist, .values [])
      | some p => (s.new none .cnvlist,
          .values [.cookie s.userdata.length, .name (s.heap.nameOf p), .type (s.heap.typeOf p)])
  | some k =>
    match s.checkself u with
    | none => (s, .raised "nvlist_t expected")
    | some nvl =>
      match s.checkcookie .cnvlist k with
      | none => (s, .raised "cookie expired")
      | some cookie =>
        if s.heap.parent cookie ≠ some nvl then (s, .aborted)
        else
          match after (s.heap.children nvl) cookie with
          | none => (s, .values [])
          | some p => (s.setref k u,
              .values [.cookie k, .name (s.heap.nameOf p), .type (s.heap.typeOf p)])

/-- The states are those of the system. -/
theorem l_nvlist_next_state {s : State} {u : Nat} {cookie : Option Nat}
    (h : Enabled s (.next u cookie)) : (l_nvlist_next s u cookie).1 = next s (.next u cookie) := by
  cases cookie with
  | none =>
    simp only [l_nvlist_next, next]
    cases s.checkself u with
    | none => rfl
    | some nvl =>
      dsimp only
      cases (s.heap.children nvl).head? <;> rfl
  | some k =>
    simp only [l_nvlist_next, next]
    cases hu : s.checkself u with
    | none => rfl
    | some nvl =>
      cases hk : s.checkcookie .cnvlist k with
      | none => rfl
      | some cookie =>
        have hparent : s.heap.parent cookie = some nvl := h nvl hu cookie hk
        dsimp only
        rw [if_neg (not_not.mpr hparent)]
        cases after (s.heap.children nvl) cookie <;> rfl

/-! ## Iterating -/

/-- What a caller is given for a pair; `cookie` is where the returned userdata points. -/
structure Visit where
  name : String
  type : NvType
  cookie : Option Nat
  deriving DecidableEq

inductive Ending where
  | ended
  | raised (message : String)
  | aborted
  | running
  deriving DecidableEq

/-- `next`, until it returns nothing; each call is given the userdata that the last one
returned. -/
def iterate : Nat → State → Nat → Option Nat → List Visit × Ending
  | 0, _, _, _ => ([], .running)
  | calls + 1, s, u, cookie =>
    match l_nvlist_next s u cookie with
    | (s', .values [.cookie k, .name name, .type type]) =>
      let rest := iterate calls s' u (some k)
      (⟨name, type, (s'.pointer k).map Prod.snd⟩ :: rest.1, rest.2)
    | (_, .values _) => ([], .ended)
    | (_, .raised message) => ([], .raised message)
    | (_, .aborted) => ([], .aborted)

/-- The pairs of a list, in its order, each with its cookie. -/
def visits (h : Heap) (n : Nat) : List Visit :=
  (h.children n).map (fun p => ⟨h.nameOf p, h.typeOf p, some p⟩)

/-- The iteration gives every pair once, in the order of the list, and ends. -/
def IteratesAll (s : State) (u n : Nat) : Prop :=
  ∃ calls, iterate calls s u none = (visits s.heap n, .ended)

section Iteration
variable {s : State} {u n : Nat}

/-- A userdata with a NULL cookie is no cookie. -/
theorem checkcookie_new_self (s : State) (kind : Kind) :
    (s.new none kind).checkcookie kind s.userdata.length = none := by
  have hpointer : (s.new none kind).pointer s.userdata.length = none := by
    rw [State.pointer, State.new, s.getElem?_push_self]
    rfl
  rw [State.checkcookie, hpointer]

theorem checkself_new (kind : Kind) (hu : s.checkself u = some n) :
    (s.new none kind).checkself u = some n := by
  obtain ⟨kn, hkn⟩ : ∃ kn, s.pointer u = some kn := by
    rcases State.of_checkself hu with hown | ⟨kind', _, hpointer⟩
    · exact ⟨_, hown⟩
    · exact ⟨_, hpointer⟩
  have hpointer : (s.new none kind).pointer u = s.pointer u := by
    rw [hkn]
    exact s.pointer_push_of_some hkn
  unfold State.checkself State.checkcookie at hu ⊢
  rw [hpointer]
  exact hu

/-- What the first call returns. -/
theorem l_nvlist_next_none (hu : s.checkself u = some n) {p : Nat} {ps : List Nat}
    (hchildren : s.heap.children n = p :: ps) :
    l_nvlist_next s u none = (s.new none .cnvlist,
      .values [.cookie s.userdata.length, .name (s.heap.nameOf p), .type (s.heap.typeOf p)]) := by
  simp [l_nvlist_next, hu, hchildren]

/-- The second call raises an error. -/
theorem iterate_of_nonempty (hu : s.checkself u = some n) {p : Nat} {ps : List Nat}
    (hchildren : s.heap.children n = p :: ps) (calls : Nat) :
    iterate (calls + 2) s u none =
      ([⟨s.heap.nameOf p, s.heap.typeOf p, none⟩], .raised "cookie expired") := by
  have hpointer : ((s.new none .cnvlist).pointer s.userdata.length).map Prod.snd = none := by
    rw [State.pointer, State.new, s.getElem?_push_self]
    rfl
  have hsecond : iterate (calls + 1) (s.new none .cnvlist) u (some s.userdata.length) =
      ([], .raised "cookie expired") := by
    simp [iterate, l_nvlist_next, checkself_new .cnvlist hu, checkcookie_new_self]
  rw [iterate, l_nvlist_next_none hu hchildren]
  dsimp only
  rw [hsecond, hpointer]

/-- **An iteration visits every pair** if there is none. -/
theorem iteratesAll_iff (hu : s.checkself u = some n) :
    IteratesAll s u n ↔ s.heap.children n = [] := by
  constructor
  · rintro ⟨calls, hcalls⟩
    cases hchildren : s.heap.children n with
    | nil => rfl
    | cons p ps =>
      have hend := congrArg Prod.snd hcalls
      match calls with
      | 0 => cases hend
      | 1 =>
        rw [iterate, l_nvlist_next_none hu hchildren] at hend
        cases hend
      | calls + 2 =>
        rw [iterate_of_nonempty hu hchildren] at hend
        cases hend
  · intro hchildren
    refine ⟨1, ?_⟩
    simp [iterate, l_nvlist_next, hu, hchildren, visits]

theorem iteratesAll_iff_empty :
    IteratesAll ⟨[⟨.nvlist 0 false 0, [], 0⟩], [⟨.nvlist, some 0, none, false⟩]⟩ 0 0 :=
  (iteratesAll_iff (by decide)).mpr (by decide)

/-- A list with one pair: the pair is given, and then an error is raised. -/
theorem not_iteratesAll :
    (∃ s, system.run [.create 0, .add 0 "k" 2] = some s ∧
      ∀ calls, iterate (calls + 2) s 0 none =
        ([⟨"k", .plain 2, none⟩], .raised "cookie expired")) ∧
    ¬ ∀ s, system.Reachable s → ∀ u n, s.checkself u = some n → IteratesAll s u n := by
  obtain ⟨s, hs, hself, hchildren⟩ : ∃ s, system.run [.create 0, .add 0 "k" 2] = some s ∧
      s.checkself 0 = some 0 ∧ s.heap.children 0 = [1] ∧
      s.heap.nameOf 1 = "k" ∧ s.heap.typeOf 1 = .plain 2 := ⟨_, rfl, by decide⟩
  obtain ⟨hchildren, hname, htype⟩ := hchildren
  have hcalls (calls : Nat) : iterate (calls + 2) s 0 none =
      ([⟨"k", .plain 2, none⟩], .raised "cookie expired") := by
    rw [iterate_of_nonempty hself hchildren, hname, htype]
  refine ⟨⟨s, hs, hcalls⟩, fun h => ?_⟩
  obtain ⟨calls, hall⟩ := h s (System.run_reachable hs) 0 0 hself
  have hend := congrArg Prod.snd hall
  match calls with
  | 0 => cases hend
  | 1 =>
    rw [iterate, l_nvlist_next_none hself hchildren] at hend
    cases hend
  | calls + 2 =>
    rw [hcalls] at hend
    cases hend

/-- A cookie that was set by somebody else stays where it is. -/
theorem next_repeats {k p q : Nat} (hu : s.checkself u = some n)
    (hk : s.checkcookie .cnvlist k = some p) (hp : s.heap.parent p = some n)
    (hq : after (s.heap.children n) p = some q) :
    l_nvlist_next s u (some k) = (s.setref k u,
        .values [.cookie k, .name (s.heap.nameOf q), .type (s.heap.typeOf q)]) ∧
      (s.setref k u).checkcookie .cnvlist k = some p := by
  constructor
  · simp [l_nvlist_next, hu, hk, hp, hq]
  · rw [State.checkcookie, s.pointer_setref]
    exact hk

end Iteration

end Nv
end FluaLibs
