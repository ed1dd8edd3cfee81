import FluaLibs.LuaArguments
import Mathlib.Data.List.Count

/-! # Enumerating groups through Casper

`getgrent` asks the group service for the next group, with a buffer of the size of a page.
If the group does not fit in it, it asks again with a buffer of twice the size.  The service
has gone on to the next group by then (`Service.Serves`), so a group that is larger than a
page is never seen.
-/
namespace FluaLibs
namespace CasperGroups
open LuaArguments
variable {R : Runtime}

abbrev Bytes : Type := List UInt8

/-- `struct group` -/
structure Group where
  name : Bytes
  passwd : Bytes
  gid : UInt32
  mem : List Bytes
  deriving DecidableEq

/-- `ERANGE` -/
def ERANGE : Nat := 34

/-- The group service behind a channel.  `cap_setgrent` gives 0 if it fails. -/
structure Service where
  State : Type
  cap_setgrent : State → Int × State
  cap_getgrent_r : State → Nat → Except Nat (Option Group) × State

/-- **What the service does**, on a list of groups with their sizes: `rest` are the groups that
it still has to give.  It goes on to the next group with every call, also if there was not enough
room. -/
structure Service.Serves (svc : Service) (size : Group → Nat) (db : List Group)
    (rest : svc.State → List Group) : Prop where
  setgrent (s : svc.State) : (svc.cap_setgrent s).1 ≠ 0 ∧ rest (svc.cap_setgrent s).2 = db
  next (s : svc.State) (bufsize : Nat) : rest (svc.cap_getgrent_r s bufsize).2 = (rest s).tail
  reply (s : svc.State) (bufsize : Nat) :
    (svc.cap_getgrent_r s bufsize).1 =
      match rest s with
      | [] => .ok none
      | g :: _ => if size g ≤ bufsize then .ok (some g) else .error ERANGE

/-- What is outside the module: the channels of userdata, the service, the size of a page and
whether there is memory. -/
structure Env where
  host : Host
  channel : Nat → Option (Option Nat)
  svc : Service
  pagesize : Nat
  malloc : Nat → Bool
  errno : Nat

/-! ## The code -/

/-- The value of a field of a table. -/
inductive Field where
  | string (s : Bytes)
  | integer (i : Int)
  | strings (l : List Bytes)
  deriving DecidableEq

/-- `pushgroup` -/
def pushgroup (grp : Group) : List (String × Field) :=
  [("name", .string grp.name), ("passwd", .string grp.passwd), ("gid", .integer grp.gid.toNat),
    ("mem", .strings grp.mem)]

/-- How a call ends. -/
inductive Outcome where
  | running
  | raised (e : Raised)
  | failed (errno : Nat)
  | success
  | finished
  | group (t : List (String × Field))
  deriving DecidableEq

/-- `checkcookie` for a channel. -/
def checkcookie (env : Env) (arg : Int) : Option Value → Except Raised Nat
  | some (.userdata u) =>
    match env.channel u with
    | some (some chan) => .ok chan
    | some none => .error (.argerror arg "cookie expired")
    | none => .error (.typeerror arg "cap_channel_t *")
  | _ => .error (.typeerror arg "cap_channel_t *")

/-- `GRP_INITIAL_BUFSIZE` -/
def GRP_INITIAL_BUFSIZE (env : Env) : Nat := env.pagesize

/-- `l_cap_getgrent` from `retry` on, for at most `rounds` requests. -/
def retry (env : Env) : Nat → Nat → env.svc.State → Outcome × env.svc.State
  | 0, _, s => (.running, s)
  | rounds + 1, bufsize, s =>
    if env.malloc bufsize then
      let reply := env.svc.cap_getgrent_r s bufsize
      match reply.1 with
      | .error error =>
        if error = ERANGE then retry env rounds (bufsize * 2 % 2 ^ 64) reply.2
        else (.failed error, reply.2)
      | .ok none => (.finished, reply.2)
      | .ok (some grp) => (.group (pushgroup grp), reply.2)
    else (.raised (.fatal "malloc" ENOMEM), s)

def l_cap_getgrent (env : Env) (rounds : Nat) (L : LuaState R) (s : env.svc.State) :
    Outcome × env.svc.State :=
  match checkcookie env 1 (L.index 1) with
  | .error e => (.raised e, s)
  | .ok _ => retry env rounds (GRP_INITIAL_BUFSIZE env) s

def l_cap_setgrent (env : Env) (L : LuaState R) (s : env.svc.State) : Outcome × env.svc.State :=
  match checkcookie env 1 (L.index 1) with
  | .error e => (.raised e, s)
  | .ok _ =>
    let reply := env.svc.cap_setgrent s
    if reply.1 = 0 then (.failed env.errno, reply.2) else (.success, reply.2)

/-- What some number of calls of `getgrent` give, one after the other. -/
def iterate (env : Env) (rounds : Nat) (L : LuaState R) : Nat → env.svc.State → List Outcome
  | 0, _ => []
  | n + 1, s =>
    let call := l_cap_getgrent env rounds L s
    call.1 :: iterate env rounds L n call.2

/-! ## Which groups are given -/

/-- After `setgrent`, the calls of `getgrent` give all groups in order, and then nothing. -/
def Enumerates (env : Env) (L : LuaState R) (db : List Group) (s : env.svc.State) : Prop :=
  (l_cap_setgrent env L s).1 = .success ∧
    ∃ n, ∀ rounds, n ≤ rounds →
      iterate env rounds L (db.length + 1) (l_cap_setgrent env L s).2 =
        db.map (fun grp => .group (pushgroup grp)) ++ [.finished]

def Outcome.isGroup : Outcome → Bool
  | group _ => true
  | _ => false

section Calls
variable {env : Env} {size : Group → Nat} {db : List Group} {rest : env.svc.State → List Group}
  {s : env.svc.State} {rounds bufsize : Nat}

/-- A request at the end of the list. -/
theorem retry_nil (hsvc : env.svc.Serves size db rest) (hmalloc : env.malloc bufsize = true)
    (h : rest s = []) :
    retry env (rounds + 1) bufsize s = (.finished, (env.svc.cap_getgrent_r s bufsize).2) := by
  have hreply := hsvc.reply s bufsize
  rw [h] at hreply
  simp only [retry, hmalloc, if_true, hreply]

/-- A group that fits. -/
theorem retry_fits (hsvc : env.svc.Serves size db rest) (hmalloc : env.malloc bufsize = true)
    {grp : Group} {grps : List Group} (h : rest s = grp :: grps) (hfits : size grp ≤ bufsize) :
    retry env (rounds + 1) bufsize s =
      (.group (pushgroup grp), (env.svc.cap_getgrent_r s bufsize).2) := by
  have hreply := hsvc.reply s bufsize
  rw [h] at hreply
  simp only [if_pos hfits] at hreply
  simp only [retry, hmalloc, if_true, hreply]

/-- **A group that does not fit** is gone when the service is asked again. -/
theorem retry_large (hsvc : env.svc.Serves size db rest) (hmalloc : env.malloc bufsize = true)
    {grp : Group} {grps : List Group} (h : rest s = grp :: grps) (hlarge : bufsize < size grp) :
    retry env (rounds + 1) bufsize s =
      retry env rounds (bufsize * 2 % 2 ^ 64) (env.svc.cap_getgrent_r s bufsize).2 := by
  have hreply := hsvc.reply s bufsize
  rw [h] at hreply
  simp only [if_neg (Nat.not_le_of_lt hlarge)] at hreply
  simp only [retry, hmalloc, if_true, hreply]

theorem retry_refused (hmalloc : env.malloc bufsize = false) :
    retry env (rounds + 1) bufsize s = (.raised (.fatal "malloc" ENOMEM), s) := by
  rw [retry, hmalloc]
  rfl

/-- The group that a call gives is one of those that are gone afterwards. -/
theorem retry_length (hsvc : env.svc.Serves size db rest) (rounds bufsize : Nat)
    (s : env.svc.State) :
    (retry env rounds bufsize s).1.isGroup.toNat + (rest (retry env rounds bufsize s).2).length ≤
      (rest s).length := by
  induction rounds generalizing bufsize s with
  | zero => exact Nat.le_of_eq (Nat.zero_add _)
  | succ rounds ih =>
    cases hmalloc : env.malloc bufsize with
    | false =>
      rw [retry_refused hmalloc]
      exact Nat.le_of_eq (Nat.zero_add _)
    | true =>
      have hnext := hsvc.next s bufsize
      cases h : rest s with
      | nil =>
        rw [h] at hnext
        rw [retry_nil hsvc hmalloc h]
        dsimp only
        rw [hnext]
        exact Nat.le_refl 0
      | cons grp grps =>
        rw [h] at hnext
        by_cases hfits : size grp ≤ bufsize
        · rw [retry_fits hsvc hmalloc h hfits]
          dsimp only
          rw [hnext]
          exact Nat.le_of_eq (Nat.add_comm ..)
        · have hrest := ih (bufsize * 2 % 2 ^ 64) (env.svc.cap_getgrent_r s bufsize).2
          rw [retry_large hsvc hmalloc h (Nat.lt_of_not_le hfits)]
          rw [hnext, List.tail_cons] at hrest
          exact Nat.le_trans hrest (Nat.le_succ _)

end Calls

section Iteration
variable {env : Env} {size : Group → Nat} {db : List Group} {rest : env.svc.State → List Group}
  {s : env.svc.State} {rounds n : Nat} {L : LuaState R} {chan : Nat}

/-- A call with a channel. -/
theorem getgrent_channel (hchan : checkcookie env 1 (L.index 1) = .ok chan) :
    l_cap_getgrent env rounds L s = retry env rounds env.pagesize s := by
  rw [l_cap_getgrent, hchan]
  rfl

theorem iterate_succ (hchan : checkcookie env 1 (L.index 1) = .ok chan) :
    iterate env rounds L (n + 1) s =
      (retry env rounds env.pagesize s).1 ::
        iterate env rounds L n (retry env rounds env.pagesize s).2 := by
  rw [iterate, getgrent_channel hchan]

/-- The groups that the first call gives, and those that the others give. -/
theorem groups_succ (hchan : checkcookie env 1 (L.index 1) = .ok chan) :
    (iterate env rounds L (n + 1) s).countP Outcome.isGroup =
      (retry env rounds env.pagesize s).1.isGroup.toNat +
        (iterate env rounds L n (retry env rounds env.pagesize s).2).countP Outcome.isGroup := by
  rw [iterate_succ hchan, List.countP_cons, Nat.add_comm]
  cases (retry env rounds env.pagesize s).1.isGroup <;> rfl

/-- No more groups are given than there are. -/
theorem groups_le (hsvc : env.svc.Serves size db rest)
    (hchan : checkcookie env 1 (L.index 1) = .ok chan) (rounds n : Nat) (s : env.svc.State) :
    (iterate env rounds L n s).countP Outcome.isGroup ≤ (rest s).length := by
  induction n generalizing s with
  | zero => exact Nat.zero_le _
  | succ n ih =>
    rw [groups_succ hchan]
    exact Nat.le_trans (Nat.add_le_add_left (ih _) _) (retry_length hsvc rounds env.pagesize s)

/-- **A call with a group ahead that is larger than a page** loses a group, or that group is
still ahead. -/
theorem retry_of_large (hsvc : env.svc.Serves size db rest) (rounds : Nat)
    (hlarge : ∃ grp ∈ rest s, env.pagesize < size grp) :
    (retry env rounds env.pagesize s).1.isGroup.toNat +
        (rest (retry env rounds env.pagesize s).2).length < (rest s).length ∨
      ∃ grp ∈ rest (retry env rounds env.pagesize s).2, env.pagesize < size grp := by
  cases rounds with
  | zero => exact Or.inr hlarge
  | succ rounds =>
    cases hmalloc : env.malloc env.pagesize with
    | false =>
      rw [retry_refused hmalloc]
      exact Or.inr hlarge
    | true =>
      obtain ⟨grp, hgrp, hsize⟩ := hlarge
      have hnext := hsvc.next s env.pagesize
      cases h : rest s with
      | nil =>
        rw [h] at hgrp
        cases hgrp
      | cons first grps =>
        rw [h, List.tail_cons] at hnext
        by_cases hfits : size first ≤ env.pagesize
        · -- the first group is given, so the large one comes later
          rw [retry_fits hsvc hmalloc h hfits]
          refine Or.inr ⟨grp, ?_, hsize⟩
          rw [hnext]
          rw [h] at hgrp
          rcases List.mem_cons.mp hgrp with rfl | hgrp
          · exact absurd hfits (Nat.not_le_of_lt hsize)
          · exact hgrp
        · -- the call gives a later one, or none
          rw [retry_large hsvc hmalloc h (Nat.lt_of_not_le hfits)]
          have hcall := retry_length hsvc rounds (env.pagesize * 2 % 2 ^ 64)
            (env.svc.cap_getgrent_r s env.pagesize).2
          rw [hnext] at hcall
          exact Or.inl (Nat.lt_succ_of_le hcall)

/-- **A group that is larger than a page is missed**: fewer groups are given than there are. -/
theorem groups_lt_of_large (hsvc : env.svc.Serves size db rest)
    (hchan : checkcookie env 1 (L.index 1) = .ok chan) (rounds n : Nat) {s : env.svc.State}
    (hlarge : ∃ grp ∈ rest s, env.pagesize < size grp) :
    (iterate env rounds L n s).countP Outcome.isGroup < (rest s).length := by
  induction n generalizing s with
  | zero =>
    obtain ⟨grp, hgrp, -⟩ := hlarge
    exact List.length_pos_of_mem hgrp
  | succ n ih =>
    rw [groups_succ hchan]
    rcases retry_of_large hsvc rounds hlarge with hlost | hahead
    · have hrest := groups_le hsvc hchan rounds n (retry env rounds env.pagesize s).2
      exact Nat.lt_of_le_of_lt (Nat.add_le_add_left hrest _) hlost
    · have hcall := retry_length hsvc rounds env.pagesize s
      exact Nat.lt_of_lt_of_le (Nat.add_lt_add_left (ih hahead) _) hcall

/-- Groups that fit are all given. -/
theorem iterate_fits (hsvc : env.svc.Serves size db rest)
    (hchan : checkcookie env 1 (L.index 1) = .ok chan) (hmalloc : env.malloc env.pagesize = true)
    {grps : List Group} (h : rest s = grps) (hfits : ∀ grp ∈ grps, size grp ≤ env.pagesize) :
    iterate env (rounds + 1) L (grps.length + 1) s =
      grps.map (fun grp => .group (pushgroup grp)) ++ [.finished] := by
  induction grps generalizing s with
  | nil =>
    rw [List.length_nil, iterate_succ hchan, retry_nil hsvc hmalloc h]
    rfl
  | cons grp grps ih =>
    obtain ⟨hfirst, hlater⟩ := List.forall_mem_cons.mp hfits
    have hnext := hsvc.next s env.pagesize
    rw [h, List.tail_cons] at hnext
    rw [List.length_cons, iterate_succ hchan, retry_fits hsvc hmalloc h hfirst]
    dsimp only
    rw [ih hnext hlater]
    rfl

theorem countP_groups (db : List Group) :
    (db.map (fun grp => Outcome.group (pushgroup grp)) ++ [Outcome.finished]).countP
      Outcome.isGroup = db.length := by
  have hall : (db.map (fun grp => Outcome.group (pushgroup grp))).countP Outcome.isGroup =
      (db.map (fun grp => Outcome.group (pushgroup grp))).length := by
    rw [List.countP_eq_length]
    intro o ho
    obtain ⟨grp, -, rfl⟩ := List.mem_map.mp ho
    rfl
  rw [List.countP_append, hall, List.length_map]
  rfl

theorem setgrent_success (hsvc : env.svc.Serves size db rest)
    (hchan : checkcookie env 1 (L.index 1) = .ok chan) :
    l_cap_setgrent env L s = (.success, (env.svc.cap_setgrent s).2) := by
  rw [l_cap_setgrent, hchan]
  dsimp only
  rw [if_neg (hsvc.setgrent s).1]

/-- **When all groups are enumerated**: none of them is larger than a page. -/
theorem enumerates_iff (hsvc : env.svc.Serves size db rest)
    (hchan : checkcookie env 1 (L.index 1) = .ok chan) :
    Enumerates env L db s ↔
      env.malloc env.pagesize = true ∧ ∀ grp ∈ db, size grp ≤ env.pagesize := by
  have hrest : rest (env.svc.cap_setgrent s).2 = db := (hsvc.setgrent s).2
  rw [Enumerates, setgrent_success hsvc hchan]
  constructor
  · rintro ⟨-, n, hall⟩
    have hn := hall (n + 1) (Nat.le_succ n)
    dsimp only at hn
    refine ⟨?_, ?_⟩
    · by_contra hrefused
      rw [Bool.not_eq_true] at hrefused
      rw [iterate_succ hchan, retry_refused hrefused] at hn
      cases db with
      | nil => cases List.head_eq_of_cons_eq hn
      | cons grp grps => cases List.head_eq_of_cons_eq hn
    · by_contra hlarge
      push Not at hlarge
      rw [← hrest] at hlarge
      have hlt := groups_lt_of_large hsvc hchan (n + 1) (db.length + 1) hlarge
      rw [hn, countP_groups, hrest] at hlt
      exact Nat.lt_irrefl _ hlt
  · rintro ⟨hmalloc, hfits⟩
    refine ⟨rfl, 1, fun rounds hrounds => ?_⟩
    obtain ⟨rounds, rfl⟩ := Nat.exists_eq_succ_of_ne_zero (Nat.ne_of_gt hrounds)
    exact iterate_fits hsvc hchan hmalloc hrest hfits

end Iteration

/-! ## Two databases -/

/-- A service that keeps the groups which it still has to give. -/
def listService (size : Group → Nat) (db : List Group) : Service where
  State := List Group
  cap_setgrent _ := (1, db)
  cap_getgrent_r grps bufsize :=
    match grps with
    | [] => (.ok none, [])
    | g :: grps => (if size g ≤ bufsize then .ok (some g) else .error ERANGE, grps)

theorem listService_serves (size : Group → Nat) (db : List Group) :
    (listService size db).Serves size db id where
  setgrent _ := ⟨Int.one_ne_zero, rfl⟩
  next s _ := by cases s <;> rfl
  reply s _ := by cases s <;> rfl

/-- The strings of a group with their NULs, and the pointers to the members. -/
def groupSize (grp : Group) : Nat :=
  grp.name.length + 1 + (grp.passwd.length + 1) +
    (grp.mem.map (fun m => m.length + 1 + 8)).sum + 8

def channelEnv (db : List Group) : Env where
  host := .plain
  channel _ := some (some 1)
  svc := listService groupSize db
  pagesize := 4096
  malloc _ := true
  errno := 0

def channelCall : LuaState noFunctions := ⟨[.userdata 0], [], 0⟩

/-- `wheel` and `operator` -/
def smallGroups : List Group :=
  [⟨[119, 104, 101, 101, 108], [42], 0, [[114, 111, 111, 116]]⟩,
    ⟨[111, 112, 101, 114, 97, 116, 111, 114], [42], 5, []⟩]

theorem smallGroups_enumerated : Enumerates (channelEnv smallGroups) channelCall smallGroups [] :=
  (enumerates_iff (listService_serves groupSize smallGroups) rfl).mpr ⟨rfl, by decide⟩

/-- `users`, with as many members as do not fit in a page. -/
def users : Group :=
  ⟨[117, 115, 101, 114, 115], [42], 1001, List.replicate 600 [97, 108, 105, 99, 101]⟩

theorem users_large : 4096 < groupSize users := by
  rw [groupSize, users, List.map_replicate, List.sum_replicate]
  decide

theorem users_not_enumerated : ¬ Enumerates (channelEnv [users]) channelCall [users] [] := by
  rintro ⟨-, n, hall⟩
  have hn := hall (n + 1) (Nat.le_succ n)
  have hserves : (channelEnv [users]).svc.Serves groupSize [users] id :=
    listService_serves groupSize [users]
  have hchan : checkcookie (channelEnv [users]) 1 (channelCall.index 1) = .ok 1 := rfl
  have hlt := groups_lt_of_large hserves hchan (n + 1) 2 (s := [users])
    ⟨users, List.mem_singleton_self _, users_large⟩
  have hgroups := congrArg (List.countP Outcome.isGroup) hn
  rw [countP_groups] at hgroups
  exact absurd hgroups (Nat.ne_of_lt hlt)

end CasperGroups
end FluaLibs
