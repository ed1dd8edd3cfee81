import FluaLibs.LuaArguments
import FluaLibs.LuaTables
import FluaLibs.PartialArrays

/-! # The groups of a process

`getgroups` asks how many groups the process has, allocates an array for that many, and
reads them.  If the list has grown in between, the read fails and everything is done again;
if it has shrunk, the rest of the array keeps what was in the memory before.  The table
that is returned has as many entries as were asked for.

`setgroups` allocates an array for the groups in its table, and passes the array on.
-/
namespace FluaLibs
namespace Groups
open LuaArguments
variable {R : Runtime}

abbrev Gid : Type := UInt32

/-- `sizeof(gid_t)` -/
def gidSize : Nat := 4

/-- `EINVAL` -/
def EINVAL : Nat := 22

/-- The groups of the process at the two system calls of each attempt, what fails, and what
is in the memory that is allocated. -/
structure GroupHistory where
  asked : Nat → List Gid
  read : Nat → List Gid
  askFailure : Nat → Option Nat
  readFailure : Nat → Option Nat
  malloc : Nat → Nat → Bool
  fresh : Nat → Nat → Gid

/-! ## The code -/

/-- `getgroups(2)`: the number of groups, and the array. -/
def getgroups (groups : List Gid) (failure : Option Nat) (gidsetlen : Nat)
    (gidset : Nat → Gid) : Except Nat (Nat × (Nat → Gid)) :=
  match failure with
  | some errno => .error errno
  | none =>
    if gidsetlen = 0 then .ok (groups.length, gidset)
    else if gidsetlen < groups.length then .error EINVAL
    else .ok (groups.length, fun i => groups.getD i (gidset i))

/-- `lua_pushinteger` of a group. -/
def gid (g : Gid) : Value := .integer g.toNat

/-- `while (gidsetlen-- > 0)`: the table is filled from its end. -/
def pushGroups (gidset : Nat → Gid) : Nat → Table → Table
  | 0, t => t
  | gidsetlen + 1, t => pushGroups gidset gidsetlen (t.set (gidsetlen + 1) (gid (gidset gidsetlen)))

/-- How a call ends; `attempt` is the number of attempts before the last. -/
inductive Outcome where
  | running
  | raised (e : Raised)
  | failed (errno : Nat)
  | returned (t : Table) (attempt : Nat)

/-- `l_getgroups`, for a number of attempts from the `i`-th on. -/
def l_getgroups (h : GroupHistory) : Nat → Nat → Outcome
  | 0, _ => .running
  | attempts + 1, i =>
    match getgroups (h.asked i) (h.askFailure i) 0 (h.fresh i) with
    | .error errno => .failed errno
    | .ok (gidsetlen, _) =>
      if gidsetlen = 0 then .returned (pushGroups (h.fresh i) 0 (.ofList [])) i
      else if h.malloc i (gidsetlen * gidSize) then
        match getgroups (h.read i) (h.readFailure i) gidsetlen (h.fresh i) with
        | .error errno =>
          -- the list of groups grew
          if errno = EINVAL then l_getgroups h attempts (i + 1) else .failed errno
        | .ok (_, gidset) => .returned (pushGroups gidset gidsetlen (.ofList [])) i
      else .raised (.fatal "malloc" ENOMEM)

/-- What `l_setgroups` needs from outside: the length of tables, memory and what is in it, and
`setgroups(2)`, with an error number for a call that fails. -/
structure SetEnv where
  length : Length
  malloc : Nat → Bool
  fresh : Nat → Gid
  setgroups : Int → List Gid → Option Nat

inductive SetOutcome where
  | success
  | failed (errno : Nat)
  | raised (e : Raised)
  deriving DecidableEq

/-- A call: what is passed to `setgroups(2)`, if it is called, and how the call ends. -/
structure SetCall where
  passed : Option (Int × List Gid)
  outcome : SetOutcome

/-- `ngroups * sizeof(*gidset)`, as a `size_t`. -/
def gidsetSize (ngroups : Int) : Nat :=
  (IntType.uint64.wrap (IntType.uint64.wrap ngroups * gidSize)).toNat

/-- The system call, with the entries of the array. -/
def SetEnv.call (env : SetEnv) (ngroups : Int) (gidset : List Gid) : SetCall :=
  match env.setgroups ngroups gidset with
  | some errno => ⟨some (ngroups, gidset), .failed errno⟩
  | none => ⟨some (ngroups, gidset), .success⟩

/-- `l_setgroups` -/
def l_setgroups (env : SetEnv) (T : TableState R) : SetCall :=
  match T.index 1 with
  | none | some .nil => env.call 0 []
  | some (.table _) =>
    match T.len env.length 1 with
    | .error message => ⟨none, .raised (.metamethod message)⟩
    | .ok len =>
      let ngroups := IntType.int.wrap len
      if ngroups = 0 then env.call 0 []
      else if env.malloc (gidsetSize ngroups) then
        env.call ngroups ((List.range ngroups.toNat).map env.fresh)
      else ⟨none, .raised (.fatal "malloc" ENOMEM)⟩
  | _ => ⟨none, .raised (.typeerror 1 "table")⟩

/-! ## The table of groups -/

/-- The table of a list of groups. -/
def groupTable (gs : List Gid) : Table := .ofList (gs.map gid)

theorem nil_not_mem_gids (gs : List Gid) : Value.nil ∉ gs.map gid := by
  simp [gid]

theorem gid_injective {g g' : Gid} (h : gid g = gid g') : g = g' := by
  rw [gid, gid, Value.integer.injEq, Int.natCast_inj] at h
  exact UInt32.toNat_inj.mp h

theorem groupTable_injective {gs gs' : List Gid} (h : groupTable gs = groupTable gs') :
    gs = gs' := by
  have hvalues := Table.ofList_injective (nil_not_mem_gids gs) (nil_not_mem_gids gs') h
  exact List.map_injective_iff.mpr (fun _ _ => gid_injective) hvalues

theorem pushGroups_get (gidset : Nat → Gid) (n : Nat) (t : Table) (j : Nat) :
    (pushGroups gidset n t).get j =
      if 0 < j ∧ j ≤ n then gid (gidset (j - 1)) else t.get j := by
  induction n generalizing t with
  | zero =>
    rw [pushGroups, if_neg]
    omega
  | succ n ih =>
    rw [pushGroups, ih]
    by_cases hle : 0 < j ∧ j ≤ n
    · rw [if_pos hle, if_pos (by omega)]
    rw [if_neg hle]
    by_cases heq : j = n + 1
    · subst heq
      rw [Table.set_get_self, if_pos (by omega), Nat.add_sub_cancel]
    · rw [Table.set_get_of_ne _ _ heq, if_neg (by omega)]

/-- **The table that is filled from its end.** -/
theorem pushGroups_eq (gidset : Nat → Gid) (n : Nat) :
    pushGroups gidset n (.ofList []) = groupTable ((List.range n).map gidset) := by
  apply Table.ext
  funext j
  rw [pushGroups_get]
  cases j with
  | zero =>
    rw [if_neg (by omega)]
    rfl
  | succ j =>
    by_cases hlt : j < n
    · rw [if_pos (by omega), groupTable, Table.ofList_succ]
      simp [hlt]
    · rw [if_neg (by omega), groupTable, Table.ofList_succ, Table.ofList_succ]
      simp [Nat.le_of_not_lt hlt]

/-- The array after a read of as many groups as it has room for, or fewer. -/
def readInto (groups : List Gid) (n : Nat) (fresh : Nat → Gid) : List Gid :=
  (List.range n).map (fun i => groups.getD i (fresh i))

theorem readInto_eq_self_iff {groups : List Gid} {n : Nat} {fresh : Nat → Gid} :
    readInto groups n fresh = groups ↔ groups.length = n := PartialArray.elements_eq_self_iff

/-! ## Attempts -/

namespace GroupHistory
variable (h : GroupHistory)

/-- The read of an attempt finds more groups than there is room for. -/
def Grew (i : Nat) : Prop :=
  h.askFailure i = none ∧ h.asked i ≠ [] ∧
    h.malloc i ((h.asked i).length * gidSize) = true ∧
    (h.readFailure i = some EINVAL ∨
      h.readFailure i = none ∧ (h.asked i).length < (h.read i).length)

/-- An attempt that succeeds. -/
def Returns (i : Nat) : Prop :=
  h.askFailure i = none ∧ (h.asked i = [] ∨
    h.malloc i ((h.asked i).length * gidSize) = true ∧ h.readFailure i = none ∧
      (h.read i).length ≤ (h.asked i).length)

/-- The last attempt of a call that succeeds. -/
def Last (i : Nat) : Prop := (∀ j < i, h.Grew j) ∧ h.Returns i

/-- The list at the last system call of an attempt: if there are no groups, there is no
read. -/
def inForce (i : Nat) : List Gid := if h.asked i = [] then [] else h.read i

/-- What an attempt returns. -/
def result (i : Nat) : List Gid := readInto (h.read i) (h.asked i).length (h.fresh i)

end GroupHistory

section Attempts
variable {h : GroupHistory} {attempts i j : Nat} {t : Table}

section System
variable {groups : List Gid} {gidset : Nat → Gid} {n : Nat}

theorem getgroups_failed (errno : Nat) :
    getgroups groups (some errno) n gidset = .error errno := rfl

theorem getgroups_zero : getgroups groups none 0 gidset = .ok (groups.length, gidset) := rfl

theorem getgroups_grew (hn : n ≠ 0) (hlt : n < groups.length) :
    getgroups groups none n gidset = .error EINVAL := by
  simp only [getgroups, if_neg hn, if_pos hlt]

theorem getgroups_fits (hn : n ≠ 0) (hle : groups.length ≤ n) :
    getgroups groups none n gidset =
      .ok (groups.length, fun i => groups.getD i (gidset i)) := by
  simp only [getgroups, if_neg hn, if_neg (Nat.not_lt_of_le hle)]

end System

/-- The table after a read that succeeds. -/
theorem pushGroups_read (groups : List Gid) (n : Nat) (fresh : Nat → Gid) :
    pushGroups (fun i => groups.getD i (fresh i)) n (.ofList []) =
      groupTable (readInto groups n fresh) := pushGroups_eq _ n

theorem GroupHistory.Grew.not_returns (hgrew : h.Grew i) : ¬ h.Returns i := by
  rintro ⟨-, hempty | ⟨-, hnone, hle⟩⟩
  · exact hgrew.2.1 hempty
  · rcases hgrew.2.2.2 with hinval | ⟨-, hlt⟩
    · cases hinval.symm.trans hnone
    · omega

/-- An attempt that ends the call without a table. -/
def GroupHistory.Fails (h : GroupHistory) (i : Nat) : Prop := ¬ h.Returns i ∧ ¬ h.Grew i

theorem fails_of_ask {errno : Nat} (hask : h.askFailure i = some errno) : h.Fails i := by
  constructor
  · rintro ⟨hnone, -⟩
    cases hask.symm.trans hnone
  · rintro ⟨hnone, -⟩
    cases hask.symm.trans hnone

theorem fails_of_malloc (hne : h.asked i ≠ [])
    (hmalloc : ¬ h.malloc i ((h.asked i).length * gidSize) = true) : h.Fails i := by
  constructor
  · rintro ⟨-, hempty | ⟨hgrants, -⟩⟩
    · exact hne hempty
    · exact hmalloc hgrants
  · exact fun hgrew => hmalloc hgrew.2.2.1

theorem fails_of_read {errno : Nat} (hne : h.asked i ≠ []) (hread : h.readFailure i = some errno)
    (hinval : errno ≠ EINVAL) : h.Fails i := by
  constructor
  · rintro ⟨-, hempty | ⟨-, hnone, -⟩⟩
    · exact hne hempty
    · cases hread.symm.trans hnone
  · rintro ⟨-, -, -, heinval | ⟨hnone, -⟩⟩
    · exact hinval (Option.some.inj (hread.symm.trans heinval))
    · cases hread.symm.trans hnone

/-- **An attempt** returns, is followed by another, or ends the call without a table. -/
theorem l_getgroups_succ (h : GroupHistory) (attempts i : Nat) :
    (h.Returns i ∧ l_getgroups h (attempts + 1) i = .returned (groupTable (h.result i)) i) ∨
    (h.Grew i ∧ l_getgroups h (attempts + 1) i = l_getgroups h attempts (i + 1)) ∨
    (h.Fails i ∧ ∀ t j, l_getgroups h (attempts + 1) i ≠ .returned t j) := by
  cases hask : h.askFailure i with
  | some errno =>
    refine Or.inr (Or.inr ⟨fails_of_ask hask, fun t j heq => ?_⟩)
    simp only [l_getgroups, hask, getgroups_failed] at heq
    cases heq
  | none =>
    by_cases hnil : h.asked i = []
    · left
      have hzero : (h.asked i).length = 0 := by rw [hnil]; rfl
      refine ⟨⟨hask, Or.inl hnil⟩, ?_⟩
      simp only [l_getgroups, hask, getgroups_zero, if_pos hzero]
      rw [GroupHistory.result, hzero]
      rfl
    have hne : (h.asked i).length ≠ 0 := fun hzero => hnil (List.length_eq_zero_iff.mp hzero)
    by_cases hmalloc : h.malloc i ((h.asked i).length * gidSize) = true
    · cases hread : h.readFailure i with
      | some errno =>
        by_cases hinval : errno = EINVAL
        · subst hinval
          refine Or.inr (Or.inl ⟨⟨hask, hnil, hmalloc, Or.inl hread⟩, ?_⟩)
          simp only [l_getgroups, hask, getgroups_zero, if_neg hne, if_pos hmalloc, hread,
            getgroups_failed, ite_true]
        · refine Or.inr (Or.inr ⟨fails_of_read hnil hread hinval, fun t j heq => ?_⟩)
          simp only [l_getgroups, hask, getgroups_zero, if_neg hne, if_pos hmalloc, hread,
            getgroups_failed, if_neg hinval] at heq
          cases heq
      | none =>
        rcases Nat.lt_or_ge (h.asked i).length (h.read i).length with hlt | hle
        · refine Or.inr (Or.inl ⟨⟨hask, hnil, hmalloc, Or.inr ⟨hread, hlt⟩⟩, ?_⟩)
          simp only [l_getgroups, hask, getgroups_zero, if_neg hne, if_pos hmalloc, hread,
            getgroups_grew hne hlt, ite_true]
        · left
          refine ⟨⟨hask, Or.inr ⟨hmalloc, hread, hle⟩⟩, ?_⟩
          simp only [l_getgroups, hask, getgroups_zero, if_neg hne, if_pos hmalloc, hread,
            getgroups_fits hne hle]
          rw [pushGroups_read]
          rfl
    · refine Or.inr (Or.inr ⟨fails_of_malloc hnil hmalloc, fun t j heq => ?_⟩)
      simp only [l_getgroups, hask, getgroups_zero, if_neg hne, if_neg hmalloc] at heq
      cases heq

/-- A call that succeeds, from an attempt on. -/
theorem returned_of_attempts (hreturned : l_getgroups h attempts i = .returned t j) :
    i ≤ j ∧ (∀ k, i ≤ k → k < j → h.Grew k) ∧ h.Returns j ∧ t = groupTable (h.result j) := by
  induction attempts generalizing i with
  | zero => cases hreturned
  | succ attempts ih =>
    rcases l_getgroups_succ h attempts i with ⟨hreturns, heq⟩ | ⟨hgrew, heq⟩ | ⟨-, hnone⟩
    · cases heq.symm.trans hreturned
      exact ⟨Nat.le_refl _, fun k hle hlt => by omega, hreturns, rfl⟩
    · obtain ⟨hle, hall, hreturns, ht⟩ := ih (heq.symm.trans hreturned)
      refine ⟨by omega, fun k hik hkj => ?_, hreturns, ht⟩
      rcases Nat.eq_or_lt_of_le hik with rfl | hlt
      · exact hgrew
      · exact hall k hlt hkj
    · exact absurd hreturned (hnone t j)

/-- The attempts up to one that succeeds. -/
theorem attempts_of_last {d : Nat} (hgrew : ∀ k, i ≤ k → k < i + d → h.Grew k)
    (hreturns : h.Returns (i + d)) :
    l_getgroups h (d + 1) i = .returned (groupTable (h.result (i + d))) (i + d) := by
  induction d generalizing i with
  | zero =>
    rcases l_getgroups_succ h 0 i with ⟨-, heq⟩ | ⟨hgrew', -⟩ | ⟨hfails, -⟩
    · exact heq
    · exact absurd hreturns hgrew'.not_returns
    · exact absurd hreturns hfails.1
  | succ d ih =>
    have hfirst := hgrew i (Nat.le_refl i) (by omega)
    rcases l_getgroups_succ h (d + 1) i with ⟨hreturns', -⟩ | ⟨-, heq⟩ | ⟨hfails, -⟩
    · exact absurd hreturns' hfirst.not_returns
    · have hshift : i + (d + 1) = i + 1 + d := by omega
      rw [hshift] at hgrew hreturns ⊢
      rw [heq]
      exact ih (fun k hle hlt => hgrew k (by omega) hlt) hreturns
    · exact absurd hfirst hfails.2

/-- **What `getgroups` returns.** -/
theorem returned_iff : (∃ attempts, l_getgroups h attempts 0 = .returned t j) ↔
    h.Last j ∧ t = groupTable (h.result j) := by
  constructor
  · rintro ⟨attempts, hreturned⟩
    obtain ⟨-, hgrew, hreturns, ht⟩ := returned_of_attempts hreturned
    exact ⟨⟨fun k hk => hgrew k (Nat.zero_le k) hk, hreturns⟩, ht⟩
  · rintro ⟨⟨hgrew, hreturns⟩, rfl⟩
    have hattempts : l_getgroups h (j + 1) 0 =
        .returned (groupTable (h.result (0 + j))) (0 + j) :=
      attempts_of_last (fun k _ hk => hgrew k (by omega)) (by rwa [Nat.zero_add])
    rw [Nat.zero_add] at hattempts
    exact ⟨j + 1, hattempts⟩

/-- What is returned is the list at the last system call. -/
def Exact (h : GroupHistory) : Prop :=
  ∀ attempts t i, l_getgroups h attempts 0 = .returned t i → t = groupTable (h.inForce i)

theorem result_eq_inForce_iff (h : GroupHistory) (i : Nat) :
    groupTable (h.result i) = groupTable (h.inForce i) ↔
      h.asked i = [] ∨ (h.read i).length = (h.asked i).length := by
  by_cases hnil : h.asked i = []
  · refine iff_of_true ?_ (Or.inl hnil)
    rw [GroupHistory.result, GroupHistory.inForce, if_pos hnil, hnil]
    rfl
  · rw [GroupHistory.inForce, if_neg hnil]
    constructor
    · intro heq
      exact Or.inr (readInto_eq_self_iff.mp (groupTable_injective heq))
    · rintro (hempty | hlength)
      · exact absurd hempty hnil
      · exact congrArg groupTable (readInto_eq_self_iff.mpr hlength)

/-- **The list in force is returned exactly if** the process has as many groups at the read
as it had when it was asked for their number. -/
theorem exact_iff (h : GroupHistory) :
    Exact h ↔ ∀ i, h.Last i → h.asked i = [] ∨ (h.read i).length = (h.asked i).length := by
  constructor
  · intro hexact i hlast
    obtain ⟨attempts, hreturned⟩ := returned_iff.mpr ⟨hlast, rfl⟩
    exact (result_eq_inForce_iff h i).mp (hexact attempts _ i hreturned)
  · intro hall attempts t i hreturned
    obtain ⟨hlast, rfl⟩ := returned_iff.mp ⟨attempts, hreturned⟩
    exact (result_eq_inForce_iff h i).mpr (hall i hlast)

/-- A list that shrinks. -/
def shrinking : GroupHistory where
  asked _ := [1001, 1002]
  read _ := [1001]
  askFailure _ := none
  readFailure _ := none
  malloc _ _ := true
  fresh _ _ := 0

/-- The second entry is what was in the memory: the group 0. -/
theorem not_exact : ¬ ∀ h : GroupHistory, Exact h := by
  intro hall
  have hlast : shrinking.Last 0 :=
    ⟨fun j hj => absurd hj (Nat.not_lt_zero j), rfl, Or.inr ⟨rfl, rfl, by decide⟩⟩
  obtain ⟨attempts, hreturned⟩ := returned_iff.mpr ⟨hlast, rfl⟩
  have hgroups := groupTable_injective (hall shrinking attempts _ 0 hreturned)
  exact absurd hgroups (by decide)

end Attempts

/-! ## Setting the groups -/

section Set
variable {env : SetEnv} {ids : List Gid}

/-- The call with a table of groups as its first argument. -/
def setgroupsCall (T : TableState R) (ids : List Gid) : TableState R :=
  { T with stack := .table T.tables.length :: T.stack, tables := T.tables ++ [groupTable ids] }

/-- A process whose groups are the same at every system call. -/
def GroupHistory.Constant (h : GroupHistory) (groups : List Gid) : Prop :=
  ∀ i, h.asked i = groups ∧ h.read i = groups

/-- The given groups are passed to the system call, or the call raises an error without it;
and if it succeeds, `getgroups` returns the given groups from then on. -/
structure PassesGiven (c : SetCall) (ids : List Gid) : Prop where
  passed : ∀ ngroups gidset, c.passed = some (ngroups, gidset) →
    ngroups = ids.length ∧ gidset = ids
  raised : c.passed = none → ∃ e, c.outcome = .raised e
  kept : c.outcome = .success → ∀ ngroups gidset, c.passed = some (ngroups, gidset) →
    ∀ h : GroupHistory, h.Constant gidset → ∀ attempts t i,
      l_getgroups h attempts 0 = .returned t i → t = groupTable ids

/-- A constant list is returned as it is. -/
theorem exact_of_constant {h : GroupHistory} {groups : List Gid} (hconstant : h.Constant groups) :
    ∀ attempts t i, l_getgroups h attempts 0 = .returned t i → t = groupTable groups := by
  intro attempts t i hreturned
  obtain ⟨hlast, rfl⟩ := returned_iff.mp ⟨attempts, hreturned⟩
  rw [GroupHistory.result, (hconstant i).1, (hconstant i).2, readInto_eq_self_iff.mpr rfl]

theorem index_setgroupsCall (T : TableState R) (ids : List Gid) :
    (setgroupsCall T ids).index 1 = some (.table T.tables.length) := rfl

theorem len_setgroupsCall (T : TableState R) (ids : List Gid) (length : Length) :
    (setgroupsCall T ids).len length 1 = .ok ids.length := by
  have htable : (setgroupsCall T ids).tableAt 1 = some (T.tables.length, groupTable ids) := by
    apply TableState.tableAt_of_index (index_setgroupsCall T ids)
    simp [setgroupsCall]
  rw [TableState.len, htable]
  have hborder := length.border_ofList (nil_not_mem_gids ids) T.tables.length
  rw [List.length_map] at hborder
  exact congrArg Except.ok hborder

theorem passesGiven_call (env : SetEnv) (ngroups : Int) (gidset : List Gid) :
    PassesGiven (env.call ngroups gidset) ids ↔ ngroups = ids.length ∧ gidset = ids := by
  have hpassed : (env.call ngroups gidset).passed = some (ngroups, gidset) := by
    rw [SetEnv.call]
    split <;> rfl
  constructor
  · exact fun h => h.passed _ _ hpassed
  · rintro ⟨hlength, rfl⟩
    refine ⟨fun n gs heq => ?_, fun hnone => ?_, fun _ n gs heq h hconstant => ?_⟩
    · cases hpassed.symm.trans heq
      exact ⟨hlength, rfl⟩
    · cases hpassed.symm.trans hnone
    · cases hpassed.symm.trans heq
      exact exact_of_constant hconstant

theorem passesGiven_raised (e : Raised) (ids : List Gid) : PassesGiven ⟨none, .raised e⟩ ids :=
  ⟨fun _ _ heq => (nomatch heq), fun _ => ⟨e, rfl⟩, fun hsuccess => nomatch hsuccess⟩

/-- **The given groups are passed exactly if** there are none, or there is no memory for the
array, or the memory happens to hold them. -/
theorem passesGiven_iff (env : SetEnv) (T : TableState R) (ids : List Gid) :
    PassesGiven (l_setgroups env (setgroupsCall T ids)) ids ↔
      ids = [] ∨
      (IntType.int.wrap ids.length ≠ 0 ∧
        env.malloc (gidsetSize (IntType.int.wrap ids.length)) = false) ∨
      (IntType.int.wrap ids.length = ids.length ∧
        (List.range ids.length).map env.fresh = ids) := by
  simp only [l_setgroups, index_setgroupsCall, len_setgroupsCall]
  by_cases hzero : IntType.int.wrap ids.length = 0
  · rw [if_pos hzero, passesGiven_call]
    constructor
    · rintro ⟨-, rfl⟩
      exact Or.inl rfl
    · rintro (rfl | ⟨hne, -⟩ | ⟨hlength, -⟩)
      · exact ⟨rfl, rfl⟩
      · exact absurd hzero hne
      · rw [hzero] at hlength
        have hnil : ids = [] := List.length_eq_zero_iff.mp (by omega)
        exact ⟨hlength, hnil.symm⟩
  rw [if_neg hzero]
  have hne : ids ≠ [] := by
    rintro rfl
    exact hzero rfl
  by_cases hmalloc : env.malloc (gidsetSize (IntType.int.wrap ids.length)) = true
  · rw [if_pos hmalloc, passesGiven_call]
    constructor
    · rintro ⟨hlength, hfresh⟩
      refine Or.inr (Or.inr ⟨hlength, ?_⟩)
      rwa [hlength, Int.toNat_natCast] at hfresh
    · rintro (hnil | ⟨-, hrefused⟩ | ⟨hlength, hfresh⟩)
      · exact absurd hnil hne
      · rw [hmalloc] at hrefused
        cases hrefused
      · rw [hlength, Int.toNat_natCast]
        exact ⟨rfl, hfresh⟩
  · rw [if_neg hmalloc]
    refine iff_of_true (passesGiven_raised _ _) (Or.inr (Or.inl ⟨hzero, ?_⟩))
    simpa using hmalloc

def zeroedEnv : SetEnv where
  length := .least
  malloc _ := true
  fresh _ := 0
  setgroups _ _ := none

/-- `unistd.setgroups{1001}` gives the process the group 0, if that is what is in the memory. -/
theorem not_passesGiven : ¬ ∀ (env : SetEnv) (T : TableState noFunctions) (ids : List Gid),
    PassesGiven (l_setgroups env (setgroupsCall T ids)) ids := by
  intro hall
  have hone : IntType.int.wrap (([1001] : List Gid).length : Nat) = 1 := rfl
  have hpasses := hall zeroedEnv ⟨⟨[], [], 0⟩, []⟩ [1001]
  simp only [l_setgroups, index_setgroupsCall, len_setgroupsCall, hone] at hpasses
  obtain ⟨-, hgidset⟩ := (passesGiven_call zeroedEnv 1 [0]).mp hpasses
  exact absurd hgidset (by decide)

end Set
end Groups
end FluaLibs
