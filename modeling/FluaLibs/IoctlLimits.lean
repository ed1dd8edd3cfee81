import FluaLibs.LuaArguments
import FluaLibs.LuaTables
import FluaLibs.PartialArrays

/-! # Limits on ioctl commands

`cap_ioctls_limit` limits a descriptor to a list of commands, and so does
`caph_ioctls_limit`, which succeeds also on a kernel without capabilities.  Both bindings copy
their arguments to an array that has room for the largest list, and pass the whole array on,
with what was in memory after the arguments.  The descriptor is then limited to the listed
commands and to whatever that was.
-/
namespace FluaLibs
namespace Capsicum
open LuaArguments
variable {R : Runtime}

/-- `cap_ioctl_t` -/
abbrev Cmd : Type := UInt64

def CAP_IOCTLS_LIMIT_MAX : Nat := 256

def EBADF : Nat := 9
def EINVAL : Nat := 22
def ENOSYS : Nat := 78
def ENOTCAPABLE : Nat := 93

/-! ## The kernel -/

/-- A list of commands that is not too long for the kernel. -/
structure CmdList where
  cmds : List Cmd
  bounded : cmds.length ≤ CAP_IOCTLS_LIMIT_MAX

/-- What is allowed on a descriptor; a new descriptor allows all commands. -/
inductive Limit where
  | all
  | only (l : CmdList)

def Limit.allows : Limit → Cmd → Bool
  | all, _ => true
  | only l, c => l.cmds.contains c

/-- The limits of the open descriptors. -/
structure Kernel where
  limit : Int → Option Limit

def Kernel.setLimit (k : Kernel) (fd : Int) (l : Limit) : Kernel where
  limit fd' := if fd' = fd then some l else k.limit fd'

/-- `cap_ioctls_limit(2)`: a limit is never widened. -/
def cap_ioctls_limit (k : Kernel) (fd : Int) (cmds : List Cmd) : Except Nat Kernel :=
  if h : cmds.length ≤ CAP_IOCTLS_LIMIT_MAX then
    match k.limit fd with
    | none => .error EBADF
    | some l =>
      if cmds.all l.allows then .ok (k.setLimit fd (.only ⟨cmds, h⟩)) else .error ENOTCAPABLE
  else .error EINVAL

/-- `caph_ioctls_limit(3)` -/
def caph_ioctls_limit (k : Kernel) (fd : Int) (cmds : List Cmd) : Except Nat Kernel :=
  match cap_ioctls_limit k fd cmds with
  | .ok k' => .ok k'
  | .error errno => if errno = ENOSYS then .ok k else .error errno

/-! ## The code -/

/-- What is outside: how Lua reads numbers, and the memory that the array is in. -/
structure Env where
  host : Host
  stale : Nat → Cmd

inductive Outcome where
  | success
  | failed (errno : Nat)
  | raised (e : Raised)
  deriving DecidableEq

/-- A call: what is passed to the system call, if it is made, the kernel afterwards, and how
the call ends. -/
structure Call where
  passed : Option (Int × List Cmd)
  kernel : Kernel
  outcome : Outcome

/-- `cmds[i] = cmd` -/
def store (cmds : Nat → Cmd) (i : Nat) (cmd : Cmd) : Nat → Cmd :=
  fun j => if j = i then cmd else cmds j

/-- The loop, for a number of arguments after the first `i + 1`. -/
def readCmds (host : Host) (L : LuaState R) : Nat → Nat → (Nat → Cmd) → Except Raised (Nat → Cmd)
  | 0, _, cmds => .ok cmds
  | left + 1, i, cmds => do
    let cmd ← checkinteger host (i + 2 : Nat) (L.index (i + 2 : Nat))
    readCmds host L left (i + 1) (store cmds i (UInt64.ofInt cmd))

/-- `"too many cmds (max %d)"` -/
def tooMany : Raised := .error "too many cmds (max 256)"

/-- A function that limits a descriptor, with its system call. -/
def limitIoctls (systemCall : Kernel → Int → List Cmd → Except Nat Kernel) (env : Env)
    (k : Kernel) (L : LuaState R) : Call :=
  match checkfd env.host 1 (L.index 1) with
  | .error e => ⟨none, k, .raised e⟩
  | .ok fd =>
    if L.gettop - 1 > CAP_IOCTLS_LIMIT_MAX then ⟨none, k, .raised tooMany⟩
    else
      match readCmds env.host L (L.gettop - 1) 0 env.stale with
      | .error e => ⟨none, k, .raised e⟩
      | .ok cmds =>
        let array := (List.range CAP_IOCTLS_LIMIT_MAX).map cmds
        match systemCall k fd array with
        | .error errno => ⟨some (fd, array), k, .failed errno⟩
        | .ok k' => ⟨some (fd, array), k', .success⟩

/-- `l_cap_ioctls_limit` -/
def l_cap_ioctls_limit (env : Env) (k : Kernel) (L : LuaState R) : Call :=
  limitIoctls cap_ioctls_limit env k L

/-- `l_caph_ioctls_limit` -/
def l_caph_ioctls_limit (env : Env) (k : Kernel) (L : LuaState R) : Call :=
  limitIoctls caph_ioctls_limit env k L

/-- `lua_pushinteger` of a command. -/
def cmdValue (c : Cmd) : Value := .integer (IntType.int64.wrap c.toNat)

/-- The table of a list of commands, from the `i`-th on. -/
def pushCmds : List Cmd → Nat → Table → Table
  | [], _, t => t
  | c :: cs, i, t => pushCmds cs (i + 1) (t.set (i + 1) (cmdValue c))

inductive GetOutcome where
  | all
  | only (t : Table)
  | failed (errno : Nat)
  | raised (e : Raised)

/-- `l_cap_ioctls_get` -/
def l_cap_ioctls_get (host : Host) (k : Kernel) (L : LuaState R) : GetOutcome :=
  match checkfd host 1 (L.index 1) with
  | .error e => .raised e
  | .ok fd =>
    match k.limit fd with
    | none => .failed EBADF
    | some .all => .all
    | some (.only l) => .only (pushCmds l.cmds 0 (.ofList []))

/-! ## Lemmas -/

section Kernel
variable {k : Kernel} {fd : Int} {cmds : List Cmd}

@[simp] theorem setLimit_limit (k : Kernel) (fd : Int) (l : Limit) :
    (k.setLimit fd l).limit fd = some l := if_pos rfl

/-- A kernel with capabilities never says that it has none. -/
theorem caph_ioctls_limit_eq (k : Kernel) (fd : Int) (cmds : List Cmd) :
    caph_ioctls_limit k fd cmds = cap_ioctls_limit k fd cmds := by
  have hsys : cap_ioctls_limit k fd cmds ≠ .error ENOSYS := by
    unfold cap_ioctls_limit
    split
    · split
      · simp [EBADF, ENOSYS]
      · split <;> simp [ENOTCAPABLE, ENOSYS]
    · simp [EINVAL, ENOSYS]
  unfold caph_ioctls_limit
  split
  · next hok => exact hok.symm
  · next errno herror =>
    rw [herror, if_neg]
    rintro rfl
    exact hsys herror

/-- A descriptor without a limit takes any list that is not too long. -/
theorem cap_ioctls_limit_all (hall : k.limit fd = some .all)
    (hle : cmds.length ≤ CAP_IOCTLS_LIMIT_MAX) :
    cap_ioctls_limit k fd cmds = .ok (k.setLimit fd (.only ⟨cmds, hle⟩)) := by
  have hallows : cmds.all Limit.all.allows = true := List.all_eq_true.mpr fun _ _ => rfl
  simp only [cap_ioctls_limit, dif_pos hle, hall, if_pos hallows]

end Kernel

section Tables

theorem pushCmds_eq (cs done : List Cmd) :
    pushCmds cs done.length (.ofList (done.map cmdValue)) =
      .ofList ((done ++ cs).map cmdValue) := by
  induction cs generalizing done with
  | nil => rw [pushCmds, List.append_nil]
  | cons c cs ih =>
    have hset := Table.ofList_set_length (done.map cmdValue) (cmdValue c)
    rw [List.length_map] at hset
    have hnext := ih (done ++ [c])
    rw [List.length_append, List.length_singleton, List.append_assoc] at hnext
    rw [pushCmds, hset]
    rw [List.map_append] at hnext
    exact hnext

/-- The table that `get` fills. -/
theorem pushCmds_zero (cs : List Cmd) :
    pushCmds cs 0 (.ofList []) = .ofList (cs.map cmdValue) := pushCmds_eq cs []

end Tables

/-! ## A list of commands -/

/-- A value that is a command. -/
def Reads (host : Host) (v : Value) (c : Cmd) : Prop :=
  ∃ n, LuaNumbers.tointegerx host.cvt v = some n ∧ UInt64.ofInt n = c

/-- The arguments are a descriptor and some commands. -/
structure Listed (host : Host) (L : LuaState R) (fd : Int) (cmds : List Cmd) : Prop where
  descriptor : checkfd host 1 (L.index 1) = .ok fd
  commands : List.Forall₂ (Reads host) (L.stack.drop 1) cmds

section Calls
variable {env : Env} {k : Kernel} {L : LuaState R} {fd : Int} {cmds : List Cmd}

theorem checkinteger_of_reads {host : Host} {v : Value} {c : Cmd} (h : Reads host v c) (arg : Int) :
    ∃ n, checkinteger host arg (some v) = .ok n ∧ UInt64.ofInt n = c := by
  obtain ⟨n, hn, hc⟩ := h
  refine ⟨n, ?_, hc⟩
  simp only [checkinteger, Option.bind_some, hn]

/-- The argument that the loop is at. -/
theorem index_of_drop {i : Nat} {v : Value} {vs : List Value} (h : L.stack.drop (i + 1) = v :: vs) :
    L.index (i + 2 : Nat) = some v ∧ L.stack.drop (i + 2) = vs := by
  constructor
  · have hpos : L.pos (i + 2 : Nat) = i + 1 := by
      rw [LuaState.pos, if_pos (by omega)]
      omega
    rw [LuaState.index, hpos, ← List.head?_drop, h]
    rfl
  · rw [← List.tail_drop, h]
    rfl

/-- **The loop** puts the commands at the start of the array. -/
theorem readCmds_eq {stale : Nat → Cmd} {vs : List Value} {cs : List Cmd} (done : List Cmd)
    (hreads : List.Forall₂ (Reads env.host) vs cs) (hdrop : L.stack.drop (done.length + 1) = vs) :
    readCmds env.host L vs.length done.length (PartialArray.read done stale) =
      .ok (PartialArray.read (done ++ cs) stale) := by
  induction hreads generalizing done with
  | nil =>
    rw [List.append_nil]
    rfl
  | @cons v c vs cs hread _ ih =>
    obtain ⟨hindex, hrest⟩ := index_of_drop hdrop
    obtain ⟨n, hn, rfl⟩ := checkinteger_of_reads hread (done.length + 2 : Nat)
    have hdone : (done ++ [UInt64.ofInt n]).length = done.length + 1 := List.length_append
    have hnext := ih (done ++ [UInt64.ofInt n]) (by rw [hdone]; exact hrest)
    rw [hdone, List.append_assoc] at hnext
    have hstore : store (PartialArray.read done stale) done.length (UInt64.ofInt n) =
        PartialArray.read (done ++ [UInt64.ofInt n]) stale := (PartialArray.read_concat ..).symm
    rw [List.length_cons, readCmds, hindex, hn]
    show readCmds env.host L vs.length (done.length + 1) _ = _
    rw [hstore, hnext]
    rfl

namespace Listed

theorem gettop (h : Listed env.host L fd cmds) : L.gettop - 1 = cmds.length := by
  rw [LuaState.gettop, ← List.length_drop, h.commands.length_eq]

theorem readCmds (h : Listed env.host L fd cmds) :
    readCmds env.host L cmds.length 0 env.stale = .ok (PartialArray.read cmds env.stale) := by
  rw [← h.commands.length_eq]
  exact readCmds_eq [] h.commands rfl

end Listed

/-- The array that is passed. -/
def array (env : Env) (cmds : List Cmd) : List Cmd :=
  PartialArray.elements cmds env.stale CAP_IOCTLS_LIMIT_MAX

theorem array_length (env : Env) (cmds : List Cmd) :
    (array env cmds).length = CAP_IOCTLS_LIMIT_MAX := PartialArray.elements_length ..

section Body
variable {systemCall : Kernel → Int → List Cmd → Except Nat Kernel}

theorem limitIoctls_tooMany (h : Listed env.host L fd cmds)
    (hlt : CAP_IOCTLS_LIMIT_MAX < cmds.length) :
    limitIoctls systemCall env k L = ⟨none, k, .raised tooMany⟩ := by
  have htop : L.gettop - 1 > CAP_IOCTLS_LIMIT_MAX := h.gettop ▸ hlt
  simp only [limitIoctls, h.descriptor, if_pos htop]

theorem limitIoctls_eq (h : Listed env.host L fd cmds)
    (hle : cmds.length ≤ CAP_IOCTLS_LIMIT_MAX) :
    limitIoctls systemCall env k L =
      match systemCall k fd (array env cmds) with
      | .error errno => ⟨some (fd, array env cmds), k, .failed errno⟩
      | .ok k' => ⟨some (fd, array env cmds), k', .success⟩ := by
  have htop : ¬ L.gettop - 1 > CAP_IOCTLS_LIMIT_MAX := by
    rw [h.gettop]
    omega
  have hread : readCmds env.host L (L.gettop - 1) 0 env.stale =
      .ok (PartialArray.read cmds env.stale) := by
    rw [h.gettop]
    exact h.readCmds
  simp only [limitIoctls, h.descriptor, if_neg htop, hread]
  rfl

/-- **What is passed**: the whole array. -/
theorem limitIoctls_passed (h : Listed env.host L fd cmds)
    (hle : cmds.length ≤ CAP_IOCTLS_LIMIT_MAX) :
    (limitIoctls systemCall env k L).passed = some (fd, array env cmds) := by
  rw [limitIoctls_eq h hle]
  split <;> rfl

end Body

end Calls

/-- What is to hold of a function that limits a descriptor to some commands: it passes them
and no others, and refuses too many; the descriptor is then limited to them. -/
structure Exact (host : Host) (limit : Kernel → LuaState R → Call) (k : Kernel) (L : LuaState R)
    (fd : Int) (cmds : List Cmd) : Prop where
  passes : cmds.length ≤ CAP_IOCTLS_LIMIT_MAX → (limit k L).passed = some (fd, cmds)
  refuses : CAP_IOCTLS_LIMIT_MAX < cmds.length →
    (limit k L).passed = none ∧ (limit k L).outcome = .raised tooMany
  gets : cmds.length ≤ CAP_IOCTLS_LIMIT_MAX → k.limit fd = some .all →
    ∀ L' : LuaState R, checkfd host 1 (L'.index 1) = .ok fd →
      ∃ cs : List Cmd, l_cap_ioctls_get host (limit k L).kernel L' =
        .only (.ofList (cs.map cmdValue)) ∧ ∀ c, c ∈ cs ↔ c ∈ cmds

section Limits
variable {env : Env} {k : Kernel} {L : LuaState R} {fd : Int} {cmds : List Cmd}

/-- **The limit afterwards**, of a descriptor that had none: the whole array. -/
theorem get_after_limit {L' : LuaState R} (h : Listed env.host L fd cmds)
    (hle : cmds.length ≤ CAP_IOCTLS_LIMIT_MAX) (hall : k.limit fd = some .all)
    (hfd : checkfd env.host 1 (L'.index 1) = .ok fd) :
    l_cap_ioctls_get env.host (l_cap_ioctls_limit env k L).kernel L' =
      .only (.ofList ((array env cmds).map cmdValue)) := by
  have hfits : (array env cmds).length ≤ CAP_IOCTLS_LIMIT_MAX := Nat.le_of_eq (array_length ..)
  rw [l_cap_ioctls_limit, limitIoctls_eq h hle, cap_ioctls_limit_all hall hfits]
  simp only [l_cap_ioctls_get, hfd, setLimit_limit, pushCmds_zero]

/-- The two functions do the same. -/
theorem l_caph_ioctls_limit_eq (env : Env) (k : Kernel) (L : LuaState R) :
    l_caph_ioctls_limit env k L = l_cap_ioctls_limit env k L := by
  have hcaph : caph_ioctls_limit = cap_ioctls_limit := by
    funext k fd cmds
    exact caph_ioctls_limit_eq k fd cmds
  rw [l_caph_ioctls_limit, l_cap_ioctls_limit, hcaph]

theorem exact_cap_iff (h : Listed env.host L fd cmds) :
    Exact env.host (l_cap_ioctls_limit env) k L fd cmds ↔ CAP_IOCTLS_LIMIT_MAX ≤ cmds.length := by
  constructor
  · intro hexact
    by_contra hlt
    have hle : cmds.length ≤ CAP_IOCTLS_LIMIT_MAX := by omega
    have hpassed := (limitIoctls_passed h hle).symm.trans (hexact.passes hle)
    have hself : array env cmds = cmds := (Prod.mk.inj (Option.some.inj hpassed)).2
    exact hlt (Nat.le_of_eq (PartialArray.elements_eq_self_iff.mp hself).symm)
  · intro hge
    have hself (hle : cmds.length ≤ CAP_IOCTLS_LIMIT_MAX) : array env cmds = cmds :=
      PartialArray.elements_eq_self_iff.mpr (Nat.le_antisymm hle hge)
    constructor
    · intro hle
      rw [l_cap_ioctls_limit, limitIoctls_passed h hle, hself hle]
    · intro hlt
      rw [l_cap_ioctls_limit, limitIoctls_tooMany h hlt]
      exact ⟨rfl, rfl⟩
    · intro hle hall L' hfd
      refine ⟨cmds, ?_, fun c => Iff.rfl⟩
      rw [get_after_limit h hle hall hfd, hself hle]

/-- **When the limit is the list**: there are as many commands as there can be, or more. -/
theorem limits_exact_iff (h : Listed env.host L fd cmds) :
    (Exact env.host (l_cap_ioctls_limit env) k L fd cmds ↔ CAP_IOCTLS_LIMIT_MAX ≤ cmds.length) ∧
    (Exact env.host (l_caph_ioctls_limit env) k L fd cmds ↔
      CAP_IOCTLS_LIMIT_MAX ≤ cmds.length) := by
  have hsame : l_caph_ioctls_limit (R := R) env = l_cap_ioctls_limit env := by
    funext k L
    exact l_caph_ioctls_limit_eq env k L
  rw [hsame]
  exact ⟨exact_cap_iff h, exact_cap_iff h⟩

/-- **What is allowed afterwards**, on a descriptor that had no limit: the commands of the
list, and what was in memory. -/
theorem allowed_after_limit (h : Listed env.host L fd cmds)
    (hle : cmds.length ≤ CAP_IOCTLS_LIMIT_MAX) (hall : k.limit fd = some .all) :
    ∃ l, (l_cap_ioctls_limit env k L).kernel.limit fd = some (.only l) ∧
      ∀ c, c ∈ l.cmds ↔ c ∈ cmds ∨
        ∃ i, cmds.length ≤ i ∧ i < CAP_IOCTLS_LIMIT_MAX ∧ env.stale i = c := by
  have hfits : (array env cmds).length ≤ CAP_IOCTLS_LIMIT_MAX := Nat.le_of_eq (array_length ..)
  refine ⟨⟨array env cmds, hfits⟩, ?_, fun c => ?_⟩
  · rw [l_cap_ioctls_limit, limitIoctls_eq h hle, cap_ioctls_limit_all hall hfits]
    exact setLimit_limit ..
  · exact PartialArray.mem_elements_iff hle

end Limits

/-! ## Examples -/

/-- A machine where the array is all zeros. -/
def zeroedEnv : Env := ⟨.plain, fun _ => 0⟩

/-- A process with the standard descriptors. -/
def standardKernel : Kernel := ⟨fun fd => if 0 ≤ fd ∧ fd ≤ 2 then some .all else none⟩

/-- The call for descriptor 1 with one command. -/
def oneCmd : LuaState noFunctions := ⟨[.integer 1, .integer 2], [], 0⟩

theorem listed_oneCmd : Listed Host.plain oneCmd 1 [2] :=
  ⟨rfl, .cons ⟨2, rfl, rfl⟩ .nil⟩

theorem limits_exact_oneCmd :
    (Exact Host.plain (l_cap_ioctls_limit zeroedEnv) standardKernel oneCmd 1 [2] ↔
      CAP_IOCTLS_LIMIT_MAX ≤ [2].length) ∧
    (Exact Host.plain (l_caph_ioctls_limit zeroedEnv) standardKernel oneCmd 1 [2] ↔
      CAP_IOCTLS_LIMIT_MAX ≤ [2].length) :=
  @limits_exact_iff _ zeroedEnv _ _ _ _ listed_oneCmd

theorem oneCmd_passed : (l_cap_ioctls_limit zeroedEnv standardKernel oneCmd).passed =
    some (1, array zeroedEnv [2]) := limitIoctls_passed listed_oneCmd (by decide)

/-- One command is listed, and 256 are passed. -/
theorem not_limits_exact : ¬ ∀ (env : Env) (k : Kernel) (L : LuaState noFunctions) (fd : Int)
    (cmds : List Cmd), Listed env.host L fd cmds →
      Exact env.host (l_cap_ioctls_limit env) k L fd cmds ∧
        Exact env.host (l_caph_ioctls_limit env) k L fd cmds := by
  intro hall
  have hpasses := (hall zeroedEnv standardKernel oneCmd 1 [2] listed_oneCmd).1.passes (by decide)
  have hpassed := (oneCmd_passed.symm.trans hpasses)
  have hself : array zeroedEnv [2] = [2] := (Prod.mk.inj (Option.some.inj hpassed)).2
  exact absurd (PartialArray.elements_eq_self_iff.mp hself) (by decide)

end Capsicum
end FluaLibs
