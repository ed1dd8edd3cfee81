import FluaLibs.NvpairOwnership
import FluaLibs.NvpairValues

/-! # A loop over the pairs of an nvlist

`pairs(nvl)` gives the loop an iterator, the userdata of the list, and a light userdata of the
first nvpair.  The iterator takes the address of a pair, and returns with its name, value and
type the address of the pair after it, which is the control variable of the next round; NULL
is no nil, so the loop goes on after the last pair, and ends when the iterator returns nothing
for NULL.

What follows from this is that the body may remove the pair it has been given: the address that
is kept is already that of the next one (`pairs_visits_all`).  Wrapping lists in userdata is not
looked at here.
-/
namespace FluaLibs
namespace NvpairIteration

open NvpairValues
open LuaArguments (Raised)

/-- An nvpair at its address. -/
structure Cell (C : Type) where
  addr : Nat
  name : CString
  value : Stored C

/-- The pairs of a list, which are at different addresses. -/
structure Nvlist (C : Type) where
  pairs : List (Cell C)
  addr_ne : ∀ p ∈ pairs, p.addr ≠ 0
  nodup : (pairs.map Cell.addr).Nodup

variable {C : Type}

/-- The address of the first of some pairs; 0 is NULL. -/
def address (pairs : List (Cell C)) : Nat := (pairs.head?).elim 0 Cell.addr

/-- What is used of libnvpair, and the numbers of the types. -/
structure Library (C : Type) where
  nvlist_next_nvpair : Nvlist C → Nat → Nat
  first : ∀ nvl, nvlist_next_nvpair nvl 0 = address nvl.pairs
  successor : ∀ nvl before p after, nvl.pairs = before ++ p :: after →
    nvlist_next_nvpair nvl p.addr = address after
  code : DataType → Int

namespace Nvlist
variable (nvl : Nvlist C)

/-- Pairs are freed. -/
def keep (p : Cell C → Bool) : Nvlist C where
  pairs := nvl.pairs.filter p
  addr_ne q hq := nvl.addr_ne q (List.mem_of_mem_filter hq)
  nodup := nvl.nodup.sublist (List.filter_sublist.map Cell.addr)

/-- The pair at an address, if there is one. -/
def at? (addr : Nat) : Option (Cell C) := nvl.pairs.find? (fun p => p.addr = addr)

end Nvlist

/-! ## The code -/

/-- What the iterator returns. -/
inductive Returned (C : Type) where
  | nothing
  | values (control name : Value) (value : Result C) (type : Value)

/-- `lua_touserdata` of a light userdata, which is all that a loop passes. -/
def touserdata : Value → Nat
  | .lightuserdata p => p
  | _ => 0

section Code
variable (lib : Library C) (nvl : Nvlist C)

/-- `l_nvlist_pairs_iter`; no result stands for the use of a pair that is not there. -/
def l_nvlist_pairs_iter (control : Value) : Option (Returned C) :=
  let nvp := touserdata control
  if nvp = 0 then some .nothing
  else (nvl.at? nvp).map (fun p =>
    .values (.lightuserdata (lib.nvlist_next_nvpair nvl nvp)) (.string p.name.bytes)
      (pushvalue p.value) (.integer (lib.code p.value.type)))

/-- The third value that `l_nvlist_pairs` returns, the control variable of the first round. -/
def l_nvlist_pairs : Value := .lightuserdata (lib.nvlist_next_nvpair nvl 0)

def ENOENT : Nat := 2

/-- `nvlist_remove_all` -/
def nvlist_remove_all (name : CString) : Except Nat (Nvlist C) :=
  if nvl.pairs.any (fun p => p.name = name) then .ok (nvl.keep (fun p => p.name ≠ name))
  else .error ENOENT

/-- `nvlist_remove`, of the first pair with the name and the type. -/
def nvlist_remove (name : CString) (type : Int) : Except Nat (Nvlist C) :=
  match nvl.pairs.find? (fun p => p.name = name ∧ lib.code p.value.type = type) with
  | some q => .ok (nvl.keep (fun p => p.addr ≠ q.addr))
  | none => .error ENOENT

/-- `luaL_optinteger(L, 3, -1)`, of an integer. -/
def opttype : Option Value → Except Raised Int
  | none => .ok (-1)
  | some (.integer type) => .ok type
  | some _ => .error (.typeerror 3 "number")

/-- `l_nvlist_remove`, on what a loop gives for the name and the type. -/
def l_nvlist_remove (name : Value) (type : Option Value) : Except Raised (Nvlist C) :=
  match name, opttype type with
  | .string s, .ok type =>
    if type = -1 then (nvlist_remove_all nvl (cstring s)).mapError (.fatal "nvlist_remove_all")
    else (nvlist_remove lib nvl (cstring s) type).mapError (.fatal "nvlist_remove")
  | .string _, .error e => .error e
  | _, _ => .error (.typeerror 2 "string")

/-- What the body is given. -/
structure Visit (C : Type) where
  name : Value
  value : Result C
  type : Value

/-- What the body does with the pair it is given: nothing, `nvl:remove(name)`, or
`nvl:remove(name, type)`. -/
inductive Removal where
  | keep
  | byName
  | byNameAndType
  deriving DecidableEq

def body (r : Removal) (v : Visit C) : Except Raised (Nvlist C) :=
  match r with
  | .keep => .ok nvl
  | .byName => l_nvlist_remove lib nvl v.name none
  | .byNameAndType => l_nvlist_remove lib nvl v.name (some v.type)

inductive Ending where
  | ended
  | raised (e : Raised)
  | undefined
  | running

/-- The rounds of a generic `for`, from round `i` on. -/
def loop (choice : Nat → Removal) : Nat → Nat → Nvlist C → Value → List (Visit C) × Ending
  | 0, _, _, _ => ([], .running)
  | rounds + 1, i, nvl, control =>
    match l_nvlist_pairs_iter lib nvl control with
    | none => ([], .undefined)
    | some .nothing => ([], .ended)
    | some (.values control name value type) =>
      if control = .nil then ([], .ended)
      else
        match body lib nvl (choice i) ⟨name, value, type⟩ with
        | .error e => ([⟨name, value, type⟩], .raised e)
        | .ok nvl =>
          let rest := loop choice rounds (i + 1) nvl control
          (⟨name, value, type⟩ :: rest.1, rest.2)

/-- `for _, name, value, type in pairs(nvl) do … end` -/
def forLoop (choice : Nat → Removal) (rounds : Nat) : List (Visit C) × Ending :=
  loop lib choice rounds 0 nvl (l_nvlist_pairs lib nvl)

/-- What a loop is to give for a pair. -/
def visitOf (p : Cell C) : Visit C :=
  ⟨.string p.name.bytes, pushvalue p.value, .integer (lib.code p.value.type)⟩

end Code

/-! ## The rounds -/

section Rounds
variable (lib : Library C) {nvl : Nvlist C} {before after : List (Cell C)} {p : Cell C}

theorem cstring_bytes (s : CString) : cstring s.bytes = s :=
  CString.ext (cstring_bytes_iff.mpr s.noNul)

theorem at?_split (h : nvl.pairs = before ++ p :: after) : nvl.at? p.addr = some p := by
  have hnodup := nvl.nodup
  rw [h, List.map_append, List.map_cons, List.nodup_append] at hnodup
  unfold Nvlist.at?
  rw [h, List.find?_append, List.find?_eq_none.mpr, Option.none_or, List.find?_cons_of_pos]
  · simp
  · intro q hq
    have hne := hnodup.2.2 q.addr (List.mem_map_of_mem hq) p.addr (List.mem_cons_self ..)
    simpa using hne

/-- A round gives the pair, and the address of the next one. -/
theorem l_nvlist_pairs_iter_split (h : nvl.pairs = before ++ p :: after) :
    l_nvlist_pairs_iter lib nvl (.lightuserdata p.addr) =
      some (.values (.lightuserdata (address after)) (visitOf lib p).name
        (visitOf lib p).value (visitOf lib p).type) := by
  have hne : p.addr ≠ 0 := nvl.addr_ne p (h ▸ List.mem_append_right _ (List.mem_cons_self ..))
  unfold l_nvlist_pairs_iter
  simp only [touserdata, if_neg hne, at?_split h, Option.map_some, lib.successor nvl _ _ _ h]
  rfl

/-- The names of the pairs are different. -/
def Nvlist.UniqueNames (nvl : Nvlist C) : Prop := (nvl.pairs.map Cell.name).Nodup

/-- Removing the pair by its name leaves the others. -/
theorem removed (h : nvl.pairs = before ++ p :: after) (hnames : nvl.UniqueNames)
    {keep : Cell C → Bool} (hp : keep p = false)
    (hkeep : ∀ q, keep q = false → q.name = p.name ∨ q.addr = p.addr) :
    (nvl.keep keep).pairs = before ++ after := by
  have haddr := nvl.nodup
  unfold Nvlist.UniqueNames at hnames
  rw [h, List.map_append, List.map_cons, List.nodup_append, List.nodup_cons] at hnames haddr
  have hother : ∀ q ∈ before ++ after, keep q = true := by
    intro q hq
    by_contra hfalse
    rcases List.mem_append.mp hq with hq | hq
    · rcases hkeep q (by simpa using hfalse) with hname | hname
      · exact hnames.2.2 q.name (List.mem_map_of_mem hq) p.name (List.mem_cons_self ..) hname
      · exact haddr.2.2 q.addr (List.mem_map_of_mem hq) p.addr (List.mem_cons_self ..) hname
    · rcases hkeep q (by simpa using hfalse) with hname | hname
      · exact hnames.2.1.1 (hname ▸ List.mem_map_of_mem hq)
      · exact haddr.2.1.1 (hname ▸ List.mem_map_of_mem hq)
  show nvl.pairs.filter keep = _
  rw [h, List.filter_append, List.filter_cons_of_neg (by simp [hp]), ← List.filter_append,
    List.filter_eq_self.mpr hother]

theorem mem_split (h : nvl.pairs = before ++ p :: after) : p ∈ nvl.pairs := by
  rw [h]
  exact List.mem_append_right _ (List.mem_cons_self ..)

theorem remove_all_split (h : nvl.pairs = before ++ p :: after) (hnames : nvl.UniqueNames) :
    ∃ nvl', nvlist_remove_all nvl p.name = .ok nvl' ∧ nvl'.pairs = before ++ after := by
  have hany : nvl.pairs.any (fun q => q.name = p.name) = true :=
    List.any_eq_true.mpr ⟨p, mem_split h, by simp⟩
  refine ⟨nvl.keep (fun q => q.name ≠ p.name), ?_, removed h hnames (by simp) (fun q hq => ?_)⟩
  · rw [nvlist_remove_all, if_pos hany]
  · exact Or.inl (by simpa using hq)

theorem remove_split (h : nvl.pairs = before ++ p :: after) (hnames : nvl.UniqueNames) :
    ∃ nvl', nvlist_remove lib nvl p.name (lib.code p.value.type) = .ok nvl' ∧
      nvl'.pairs = before ++ after := by
  have hfind : nvl.pairs.find? (fun q =>
      q.name = p.name ∧ lib.code q.value.type = lib.code p.value.type) = some p := by
    unfold Nvlist.UniqueNames at hnames
    rw [h, List.map_append, List.map_cons, List.nodup_append] at hnames
    rw [h, List.find?_append, List.find?_eq_none.mpr, Option.none_or, List.find?_cons_of_pos]
    · simp
    · intro q hq
      have hne := hnames.2.2 q.name (List.mem_map_of_mem hq) p.name (List.mem_cons_self ..)
      simp [hne]
  refine ⟨nvl.keep (fun q => q.addr ≠ p.addr), ?_, removed h hnames (by simp) (fun q hq => ?_)⟩
  · rw [nvlist_remove, hfind]
  · exact Or.inr (by simpa using hq)

theorem uniqueNames_of_sublist {nvl' : Nvlist C} (h : nvl.pairs = before ++ p :: after)
    (h' : nvl'.pairs = before ++ after) (hnames : nvl.UniqueNames) : nvl'.UniqueNames := by
  have hsub : (before ++ after).Sublist (before ++ p :: after) :=
    (List.sublist_cons_self p after).append_left before
  unfold Nvlist.UniqueNames at hnames ⊢
  rw [h] at hnames
  rw [h']
  exact hnames.sublist (hsub.map Cell.name)

/-- The pair is removed by its name, whatever the number of its type. -/
theorem l_nvlist_remove_split (h : nvl.pairs = before ++ p :: after) (hnames : nvl.UniqueNames)
    {type : Option Value} (htype : type = none ∨ type = some (visitOf lib p).type) :
    ∃ nvl', l_nvlist_remove lib nvl (visitOf lib p).name type = .ok nvl' ∧
      nvl'.pairs = before ++ after := by
  have hopt : opttype type = .ok (-1) ∨ opttype type = .ok (lib.code p.value.type) := by
    rcases htype with rfl | rfl
    · exact Or.inl rfl
    · exact Or.inr rfl
  by_cases hall : opttype type = .ok (-1)
  · obtain ⟨nvl', hremove, hpairs⟩ := remove_all_split h hnames
    refine ⟨nvl', ?_, hpairs⟩
    simp only [l_nvlist_remove, visitOf, hall, cstring_bytes, ite_true, hremove]
    rfl
  · obtain ⟨nvl', hremove, hpairs⟩ := remove_split lib h hnames
    have hcode := hopt.resolve_left hall
    have hne : lib.code p.value.type ≠ -1 := fun heq => hall (heq ▸ hcode)
    refine ⟨nvl', ?_, hpairs⟩
    simp only [l_nvlist_remove, visitOf, hcode, cstring_bytes, if_neg hne, hremove]
    rfl

/-- What the body leaves of the list: the pairs that are to come are all there. -/
theorem body_split (h : nvl.pairs = before ++ p :: after) {r : Removal}
    (hnames : r = .keep ∨ nvl.UniqueNames) :
    ∃ nvl' before', body lib nvl r (visitOf lib p) = .ok nvl' ∧ nvl'.pairs = before' ++ after ∧
      (nvl.UniqueNames → nvl'.UniqueNames) := by
  cases r with
  | keep => exact ⟨nvl, before ++ [p], rfl, by simp [h], id⟩
  | byName =>
    obtain ⟨nvl', hremove, hpairs⟩ :=
      l_nvlist_remove_split lib h (hnames.resolve_left nofun) (Or.inl rfl)
    exact ⟨nvl', before, hremove, hpairs, uniqueNames_of_sublist h hpairs⟩
  | byNameAndType =>
    obtain ⟨nvl', hremove, hpairs⟩ :=
      l_nvlist_remove_split lib h (hnames.resolve_left nofun) (Or.inr rfl)
    exact ⟨nvl', before, hremove, hpairs, uniqueNames_of_sublist h hpairs⟩

/-- From any round on, the pairs that are to come are given in their order. -/
theorem loop_split {choice : Nat → Removal} {rounds i : Nat} (before : List (Cell C))
    (h : nvl.pairs = before ++ after) (hnames : (∀ i, choice i = .keep) ∨ nvl.UniqueNames)
    (hrounds : after.length < rounds) :
    loop lib choice rounds i nvl (.lightuserdata (address after)) =
      (after.map (visitOf lib), .ended) := by
  induction after generalizing nvl before rounds i with
  | nil =>
    obtain ⟨rounds, rfl⟩ : ∃ n, rounds = n + 1 := ⟨rounds - 1, by simp at hrounds; omega⟩
    rfl
  | cons p after ih =>
    obtain ⟨rounds, rfl⟩ : ∃ n, rounds = n + 1 := ⟨rounds - 1, by omega⟩
    obtain ⟨nvl', before', hbody, hpairs, hunique⟩ :=
      body_split lib h (hnames.imp (fun hkeep => hkeep i) id)
    have hrest := ih (i := i + 1) before' hpairs (hnames.imp id hunique)
      (Nat.lt_of_succ_lt_succ hrounds)
    unfold loop
    rw [show address (p :: after) = p.addr from rfl, l_nvlist_pairs_iter_split lib h]
    dsimp only
    rw [if_neg nofun]
    show (match body lib nvl (choice i) (visitOf lib p) with
      | .error e => ([visitOf lib p], Ending.raised e)
      | .ok nvl => (visitOf lib p :: (loop lib choice rounds (i + 1) nvl _).1,
          (loop lib choice rounds (i + 1) nvl _).2)) = _
    rw [hbody]
    dsimp only
    rw [hrest]
    rfl

end Rounds

/-! ## The library -/

/-- The numbers of the types. -/
def data_type_t : DataType → Int
  | .BOOLEAN => 1
  | .scalar .byte => 2
  | .scalar .int16 => 3
  | .scalar .uint16 => 4
  | .scalar .int32 => 5
  | .scalar .uint32 => 6
  | .scalar .int64 => 7
  | .scalar .uint64 => 8
  | .scalar .string => 9
  | .array .byte => 10
  | .array .int16 => 11
  | .array .uint16 => 12
  | .array .int32 => 13
  | .array .uint32 => 14
  | .array .int64 => 15
  | .array .uint64 => 16
  | .array .string => 17
  | .scalar .hrtime => 18
  | .scalar .nvlist => 19
  | .array .nvlist => 20
  | .scalar .boolean_value => 21
  | .scalar .int8 => 22
  | .scalar .uint8 => 23
  | .array .boolean => 24
  | .array .int8 => 25
  | .array .uint8 => 26
  | .scalar .double => 27

/-- A library that looks for the pair in the list. -/
def libnvpair : Library C where
  nvlist_next_nvpair nvl p :=
    if p = 0 then address nvl.pairs
    else address (nvl.pairs.dropWhile (fun q => q.addr ≠ p)).tail
  first nvl := if_pos rfl
  successor nvl before p after h := by
    have hnodup := nvl.nodup
    rw [h, List.map_append, List.map_cons, List.nodup_append] at hnodup
    have hbefore : ∀ q ∈ before, decide (q.addr ≠ p.addr) = true := by
      intro q hq
      have hne := hnodup.2.2 q.addr (List.mem_map_of_mem hq) p.addr (List.mem_cons_self ..)
      simpa using hne
    rw [if_neg (nvl.addr_ne p (mem_split h)), h, List.dropWhile_append_of_pos hbefore,
      List.dropWhile_cons_of_neg (by simp), List.tail_cons]
  code := data_type_t

/-- The lists of the ownership model, whose pairs are in the order of their addresses, are
gone through in the same way. -/
theorem heap_next_nvpair (h : Nvpair.Heap) {n p : Nat} {before after : List Nat}
    (hchildren : h.children n = before ++ p :: after) :
    h.nvlist_next_nvpair n p = after.head? := by
  have hsorted : (h.children n).Pairwise (· < ·) := List.pairwise_lt_range.filter _
  have hparent : h.parent p = some n :=
    h.mem_children.mp (hchildren ▸ List.mem_append_right _ (List.mem_cons_self ..))
  rw [hchildren, List.pairwise_append, List.pairwise_cons] at hsorted
  obtain ⟨-, ⟨hafter, -⟩, hbefore⟩ := hsorted
  rw [Nvpair.Heap.nvlist_next_nvpair, if_pos hparent, hchildren, List.find?_append,
    List.find?_eq_none.mpr, Option.none_or, List.find?_cons_of_neg (by simp)]
  · cases after with
    | nil => rfl
    | cons q after => exact List.find?_cons_of_pos (by simpa using hafter q (.head _))
  · intro q hq
    have hlt := hbefore q hq p (List.mem_cons_self ..)
    simp only [decide_eq_true_eq]
    omega

/-- **A loop over the pairs** gives its body every pair once, in the order of the list, and
ends; if the names are different, whatever pairs the body removes when it is given them. -/
theorem pairs_visits_all (lib : Library C) (nvl : Nvlist C) (choice : Nat → Removal)
    (hnames : (∀ i, choice i = .keep) ∨ nvl.UniqueNames) (rounds : Nat)
    (hrounds : nvl.pairs.length < rounds) :
    forLoop lib nvl choice rounds = (nvl.pairs.map (visitOf lib), .ended) := by
  unfold forLoop l_nvlist_pairs
  rw [lib.first]
  exact loop_split lib [] rfl hnames hrounds

/-- Two pairs, a number and an array of strings. -/
def twoPairs : Nvlist Unit where
  pairs := [⟨48, cstring [110], .scalar .uint64, ⟨2 ^ 63, by decide⟩⟩,
    ⟨96, cstring [115], .array .string, [cstring [120], cstring []]⟩]
  addr_ne := by simp
  nodup := by decide

/-- Both are removed. -/
theorem pairs_visits_all_twoPairs :
    forLoop libnvpair twoPairs (fun i => if i = 0 then .byName else .byNameAndType) 3 =
      (twoPairs.pairs.map (visitOf libnvpair), .ended) :=
  pairs_visits_all libnvpair twoPairs _ (Or.inr (by unfold Nvlist.UniqueNames; decide)) 3
    (by decide)

end NvpairIteration
end FluaLibs
