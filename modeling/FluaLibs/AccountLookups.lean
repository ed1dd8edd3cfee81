import FluaLibs.GroupEnumeration
import FluaLibs.ListArguments

/-! # Looking up groups and users

The functions of `grp`, `pwd` and their Casper siblings ask for an entry with a buffer of the size
of a page, and ask again with twice as much for as long as it does not fit.  The buffer holds the
strings of the entry until they are in a table.
-/
namespace FluaLibs
namespace Accounts
open LuaArguments Held ListArguments
open CasperGroups (Group Field pushgroup ERANGE)

abbrev Table : Type := List (String × Field)

/-- `struct passwd` -/
structure Passwd where
  name : Bytes
  passwd : Bytes
  class_ : Bytes
  gecos : Bytes
  dir : Bytes
  shell : Bytes
  uid : UInt32
  gid : UInt32
  change : Int
  expire : Int
  deriving DecidableEq

/-- What a function that ends in `_r` answers when it is given a buffer of some size; a number is
an error. -/
def Ask (σ ρ : Type) : Type := σ → Nat → Except Nat (Option ρ) × σ

/-- A database: the next entry, the one with a name, and the one with a number. -/
structure Database (σ ρ : Type) where
  ent_r : Ask σ ρ
  nam_r : Bytes → Ask σ ρ
  id_r : UInt32 → Ask σ ρ

/-- The databases of the C library, and those that a channel gives access to. -/
structure AccountEnv (σ : Type) extends ListEnv where
  pagesize : Nat
  grp : Database σ Group
  pwd : Database σ Passwd
  cap_grp : Nat → Database σ Group
  cap_pwd : Nat → Database σ Passwd

/-- How a call goes on, or ends. -/
inductive Result where
  | running
  | failed (errno : Nat)
  | finished
  | entry (t : Table)
  deriving DecidableEq

/-- `pushpasswd` -/
def pushpasswd (pwd : Passwd) : Table :=
  [("name", .string pwd.name), ("passwd", .string pwd.passwd), ("class", .string pwd.class_),
    ("gecos", .string pwd.gecos), ("dir", .string pwd.dir), ("shell", .string pwd.shell),
    ("uid", .integer pwd.uid.toNat), ("gid", .integer pwd.gid.toNat),
    ("change", .integer pwd.change), ("expire", .integer pwd.expire)]

section Code
variable {σ ρ : Type} (env : AccountEnv σ) (args : Nat → Option Value)

/-- From `retry` on, for at most `rounds` requests. -/
def retry (push : ρ → Table) (ask : Ask σ ρ) : Nat → Nat → σ → Code Raised (Result × σ)
  | 0, _, s => pure (.running, s)
  | rounds + 1, bufsize, s => do
    match ← Code.malloc (env.malloc 0 bufsize) with
    | none => Code.raise (.fatal "malloc" ENOMEM)
    | some buffer => do
      Code.touch buffer
      match ask s bufsize with
      | (.error error, s) => do
        Code.free buffer
        if error = ERANGE then retry push ask rounds (bufsize * 2 % 2 ^ 64) s
        else pure (.failed error, s)
      | (.ok none, s) => do
        Code.free buffer
        pure (.finished, s)
      | (.ok (some result), s) => do
        -- The strings that are pushed are in the buffer.
        Code.touch buffer
        Code.free buffer
        pure (.entry (push result), s)

/-- The arguments say what is asked for. -/
def lookup (push : ρ → Table) (ask : Except Raised (Ask σ ρ)) (rounds : Nat) (s : σ) :
    Code Raised (Result × σ) := do
  let ask ← Code.ofExcept ask
  retry env push ask rounds env.pagesize s

/-- The name is at `arg`. -/
def byName (db : Database σ ρ) (arg : Nat) : Except Raised (Ask σ ρ) := do
  let name ← checklstring env.host arg (args arg)
  pure (db.nam_r (cstr name))

def byNumber (db : Database σ ρ) (arg : Nat) : Except Raised (Ask σ ρ) := do
  let id ← checkinteger env.host arg (args arg)
  pure (db.id_r (UInt32.ofInt id))

/-- The channel is at 1. -/
def throughChannel (db : Nat → Database σ ρ) (ask : Database σ ρ → Except Raised (Ask σ ρ)) :
    Except Raised (Ask σ ρ) := do
  let chan ← checkcookie env.toListEnv args 1 "cap_channel_t *"
  ask (db chan)

def l_getgrent : Nat → σ → Code Raised (Result × σ) :=
  lookup env pushgroup (.ok env.grp.ent_r)

def l_getgrnam : Nat → σ → Code Raised (Result × σ) :=
  lookup env pushgroup (byName env args env.grp 1)

def l_getgrgid : Nat → σ → Code Raised (Result × σ) :=
  lookup env pushgroup (byNumber env args env.grp 1)

def l_getpwent : Nat → σ → Code Raised (Result × σ) :=
  lookup env pushpasswd (.ok env.pwd.ent_r)

def l_getpwnam : Nat → σ → Code Raised (Result × σ) :=
  lookup env pushpasswd (byName env args env.pwd 1)

def l_getpwuid : Nat → σ → Code Raised (Result × σ) :=
  lookup env pushpasswd (byNumber env args env.pwd 1)

def l_cap_getgrnam : Nat → σ → Code Raised (Result × σ) :=
  lookup env pushgroup (throughChannel env args env.cap_grp fun db => byName env args db 2)

def l_cap_getgrgid : Nat → σ → Code Raised (Result × σ) :=
  lookup env pushgroup (throughChannel env args env.cap_grp fun db => byNumber env args db 2)

def l_cap_getpwent : Nat → σ → Code Raised (Result × σ) :=
  lookup env pushpasswd (throughChannel env args env.cap_pwd fun db => .ok db.ent_r)

def l_cap_getpwnam : Nat → σ → Code Raised (Result × σ) :=
  lookup env pushpasswd (throughChannel env args env.cap_pwd fun db => byName env args db 2)

def l_cap_getpwuid : Nat → σ → Code Raised (Result × σ) :=
  lookup env pushpasswd (throughChannel env args env.cap_pwd fun db => byNumber env args db 2)

end Code

/-! ## What is found -/

/-- What becomes of an answer that ends the loop. -/
def resultOf {ρ : Type} (push : ρ → Table) : Except Nat (Option ρ) → Result
  | .error error => .failed error
  | .ok none => .finished
  | .ok (some result) => .entry (push result)

/-- The answer needs a buffer of some size.  A smaller one, of those from `first` on, is refused,
and nothing has happened then. -/
structure Answers {σ ρ : Type} (first : Nat) (ask : Ask σ ρ) (s : σ) (need : Nat)
    (reply : Except Nat (Option ρ)) (s' : σ) : Prop where
  small (size : Nat) : first ≤ size → size < need → ask s size = (.error ERANGE, s)
  fits (size : Nat) : need ≤ size → ask s size = (reply, s')
  done : reply ≠ .error ERANGE

/-- The answers from a state on, one after the other. -/
def Enumerates {σ ρ : Type} (first : Nat) (ask : Ask σ ρ) (need : ρ → Nat) : σ → List ρ → Prop
  | s, [] => ∃ s', Answers first ask s 0 (.ok none) s'
  | s, r :: rs => ∃ s', Answers first ask s (need r) (.ok (some r)) s' ∧
    Enumerates first ask need s' rs

/-- Some number of calls. -/
def calls {σ : Type} (call : σ → Code Raised (Result × σ)) : Nat → σ → Code Raised (List Result)
  | 0, _ => pure []
  | n + 1, s => do
    let (result, s) ← call s
    let results ← calls call n s
    pure (result :: results)

/-- There is memory for the buffers on the way to one of some size. -/
def HasMemory {σ : Type} (env : AccountEnv σ) (need : Nat) : Prop :=
  ∀ size ≤ max env.pagesize (2 * need), env.malloc 0 size = true

/-- **A function that looks up**, in any memory.  An argument that is refused is an error; otherwise
no buffer is left however the database answers, and if the database has an answer, it is found with
as many requests as the first buffer is to be doubled. -/
structure LooksUp {σ ρ : Type} (env : AccountEnv σ) (push : ρ → Table)
    (asks : Except Raised (Ask σ ρ)) (call : Nat → σ → Code Raised (Result × σ)) : Prop where
  refused (base : List Nat) (rounds : Nat) (s : σ) (e : Raised) : asks = .error e →
    Spec base [] (call rounds s) (fun _ _ => False) (fun e' l => e' = e ∧ l = [])
  kept (base : List Nat) (rounds : Nat) (s : σ) (ask : Ask σ ρ) : asks = .ok ask →
    Spec base [] (call rounds s) (fun _ l => l = [])
      (fun e l => e = .fatal "malloc" ENOMEM ∧ l = [])
  found (base : List Nat) (rounds : Nat) (s s' : σ) (ask : Ask σ ρ) (need : Nat)
      (reply : Except Nat (Option ρ)) : asks = .ok ask → 0 < env.pagesize →
    Answers env.pagesize ask s need reply s' → need ≤ 2 ^ 63 → HasMemory env need →
    need ≤ env.pagesize * 2 ^ rounds →
    Spec base [] (call (rounds + 1) s) (fun r l => r = (resultOf push reply, s') ∧ l = [])
      (fun _ _ => False)

/-- One call after the other gives all entries in their order, and then nothing. -/
def ListsAll {σ ρ : Type} (env : AccountEnv σ) (push : ρ → Table) (ask : Ask σ ρ)
    (call : Nat → σ → Code Raised (Result × σ)) : Prop :=
  ∀ (base : List Nat) (need : ρ → Nat) (rounds size : Nat) (entries : List ρ) (s : σ),
    0 < env.pagesize → size ≤ 2 ^ 63 → HasMemory env size → size ≤ env.pagesize * 2 ^ rounds →
    Enumerates env.pagesize ask need s entries → (∀ r ∈ entries, need r ≤ size) →
    Spec base [] (calls (call (rounds + 1)) (entries.length + 1) s)
      (fun results l => results = entries.map (fun r => .entry (push r)) ++ [.finished] ∧ l = [])
      (fun _ _ => False)

section Runs
variable {σ ρ : Type} {env : AccountEnv σ} {push : ρ → Table} {ask : Ask σ ρ} {base : List Nat}

/-! ### One request -/

section Buffer
variable {x : Nat} {there : Bool} {R : Raised → List Nat → Prop}

theorem free_spec : Spec base [x] (Code.free x : Code Raised Unit) (fun _ l => l = []) R :=
  Spec.free (List.Perm.refl _) rfl

theorem touch_spec : Spec base [x] (Code.touch x : Code Raised Unit) (fun _ l => l = [x]) R :=
  Spec.touch (List.mem_singleton_self _) rfl

theorem malloc_spec :
    Spec base [] (Code.malloc there : Code Raised (Option Nat))
      (fun p l => (there = true ∧ ∃ a, p = some a ∧ l = [a]) ∨ there = false ∧ p = none ∧ l = [])
      R :=
  Spec.malloc (fun h a _ => .inl ⟨h, a, rfl, rfl⟩) (fun h => .inr ⟨h, rfl, rfl⟩)

end Buffer

/-- However the database answers, no buffer is left. -/
theorem retry_kept (rounds : Nat) : ∀ (bufsize : Nat) (s : σ),
    Spec base [] (retry env push ask rounds bufsize s) (fun _ l => l = [])
      (fun e l => e = .fatal "malloc" ENOMEM ∧ l = []) := by
  induction rounds with
  | zero => exact fun _ _ => Spec.pure rfl
  | succ rounds ih =>
    intro bufsize s
    refine Spec.bind malloc_spec ?_
    rintro _ _ (⟨-, buffer, rfl, rfl⟩ | ⟨-, rfl, rfl⟩)
    · refine Spec.bind touch_spec ?_
      rintro _ _ rfl
      rcases hreply : ask s bufsize with ⟨error | _ | result, s'⟩
      · refine Spec.bind free_spec ?_
        rintro _ _ rfl
        by_cases hrange : error = ERANGE
        · simp only [hrange, if_true]
          exact ih _ s'
        · simp only [hrange, if_false]
          exact Spec.pure rfl
      · refine Spec.bind free_spec ?_
        rintro _ _ rfl
        exact Spec.pure rfl
      · refine Spec.bind touch_spec ?_
        rintro _ _ rfl
        refine Spec.bind free_spec ?_
        rintro _ _ rfl
        exact Spec.pure rfl
    · exact Spec.raise ⟨rfl, rfl⟩

/-- The buffer is large enough. -/
theorem retry_fits {bufsize rounds : Nat} {s s' : σ} {reply : Except Nat (Option ρ)}
    (hask : ask s bufsize = (reply, s')) (hdone : reply ≠ .error ERANGE)
    (hthere : env.malloc 0 bufsize = true) :
    Spec base [] (retry env push ask (rounds + 1) bufsize s)
      (fun r l => r = (resultOf push reply, s') ∧ l = []) (fun _ _ => False) := by
  refine Spec.bind malloc_spec ?_
  rintro _ _ (⟨-, buffer, rfl, rfl⟩ | ⟨hnone, -⟩)
  · refine Spec.bind touch_spec ?_
    rintro _ _ rfl
    rw [hask]
    rcases reply with error | _ | result
    · refine Spec.bind free_spec ?_
      rintro _ _ rfl
      have hrange : error ≠ ERANGE := fun h => hdone (congrArg Except.error h)
      simp only [hrange, if_false]
      exact Spec.pure ⟨rfl, rfl⟩
    · refine Spec.bind free_spec ?_
      rintro _ _ rfl
      exact Spec.pure ⟨rfl, rfl⟩
    · refine Spec.bind touch_spec ?_
      rintro _ _ rfl
      refine Spec.bind free_spec ?_
      rintro _ _ rfl
      exact Spec.pure ⟨rfl, rfl⟩
  · rw [hthere] at hnone
    cases hnone

/-- The buffer is too small, and a larger one is tried. -/
theorem retry_small {bufsize rounds : Nat} {s : σ} {Q : Result × σ → List Nat → Prop}
    (hask : ask s bufsize = (.error ERANGE, s)) (hthere : env.malloc 0 bufsize = true)
    (hrest : Spec base [] (retry env push ask rounds (bufsize * 2 % 2 ^ 64) s) Q
      (fun _ _ => False)) :
    Spec base [] (retry env push ask (rounds + 1) bufsize s) Q (fun _ _ => False) := by
  refine Spec.bind malloc_spec ?_
  rintro _ _ (⟨-, buffer, rfl, rfl⟩ | ⟨hnone, -⟩)
  · refine Spec.bind touch_spec ?_
    rintro _ _ rfl
    rw [hask]
    refine Spec.bind free_spec ?_
    rintro _ _ rfl
    simp only [if_true]
    exact hrest
  · rw [hthere] at hnone
    cases hnone

/-! ### The loop -/

/-- Doubling comes to a buffer that is large enough: no size on the way is as large as twice what
is needed, so that none is too large for a `size_t`. -/
theorem retry_found {need : Nat} {s s' : σ} {reply : Except Nat (Option ρ)}
    (h : Answers env.pagesize ask s need reply s') (hneed : need ≤ 2 ^ 63)
    (hmemory : HasMemory env need) (rounds : Nat) : ∀ bufsize : Nat, 0 < bufsize →
      env.pagesize ≤ bufsize → bufsize ≤ max env.pagesize (2 * need) →
      need ≤ bufsize * 2 ^ rounds →
      Spec base [] (retry env push ask (rounds + 1) bufsize s)
        (fun r l => r = (resultOf push reply, s') ∧ l = []) (fun _ _ => False) := by
  induction rounds with
  | zero =>
    intro bufsize _ _ hle hrounds
    rw [pow_zero, Nat.mul_one] at hrounds
    exact retry_fits (h.fits bufsize hrounds) h.done (hmemory bufsize hle)
  | succ rounds ih =>
    intro bufsize hpos hpage hle hrounds
    rcases Nat.lt_or_ge bufsize need with hlt | hge
    -- The next buffer has less than twice what is needed.
    · refine retry_small (h.small bufsize hpage hlt) (hmemory bufsize hle) ?_
      have hdouble : bufsize * 2 % 2 ^ 64 = bufsize * 2 := Nat.mod_eq_of_lt (by omega)
      rw [hdouble]
      refine ih (bufsize * 2) (by omega) (by omega) (by omega) ?_
      rwa [Nat.mul_assoc, ← Nat.pow_succ']
    · exact retry_fits (h.fits bufsize hge) h.done (hmemory bufsize hle)

/-- Whatever is asked for. -/
theorem lookup_looksUp (env : AccountEnv σ) (push : ρ → Table) (asks : Except Raised (Ask σ ρ)) :
    LooksUp env push asks (lookup env push asks) where
  refused base rounds s e h := by
    rw [lookup, h]
    exact Spec.raise ⟨rfl, rfl⟩
  kept base rounds s ask h := by
    rw [lookup, h]
    exact Spec.checked (retry_kept rounds _ s)
  found base rounds s s' ask need reply h hpage hanswers hneed hmemory hrounds := by
    rw [lookup, h]
    exact Spec.checked (retry_found hanswers hneed hmemory rounds env.pagesize hpage (Nat.le_refl _)
      (Nat.le_max_left ..) hrounds)

theorem LooksUp.listsAll {asks : Except Raised (Ask σ ρ)}
    {call : Nat → σ → Code Raised (Result × σ)} (h : LooksUp env push asks call)
    (hask : asks = .ok ask) : ListsAll env push ask call := by
  intro base need rounds size entries s hpage hsize hmemory hrounds hall hle
  have hless {n : Nat} (hn : n ≤ size) : HasMemory env n :=
    fun bytes hbytes => hmemory bytes (by omega)
  induction entries generalizing s with
  | nil =>
    obtain ⟨s', hanswers⟩ := hall
    refine Spec.bind (h.found base rounds s s' ask 0 (.ok none) hask hpage hanswers
      (Nat.zero_le _) (hless (Nat.zero_le _)) (Nat.zero_le _)) ?_
    rintro _ _ ⟨rfl, rfl⟩
    exact Spec.pure ⟨rfl, rfl⟩
  | cons r rs ih =>
    obtain ⟨s', hanswers, hrest⟩ := hall
    have hr : need r ≤ size := hle r (List.mem_cons_self ..)
    refine Spec.bind (h.found base rounds s s' ask (need r) (.ok (some r)) hask hpage hanswers
      (hr.trans hsize) (hless hr) (hr.trans hrounds)) ?_
    rintro _ _ ⟨rfl, rfl⟩
    refine Spec.bind (ih s' hrest fun r' hr' => hle r' (List.mem_cons_of_mem r hr')) ?_
    rintro results _ ⟨rfl, rfl⟩
    exact Spec.pure ⟨rfl, rfl⟩

end Runs

/-- **The functions of `grp` and `pwd`** give the table of the entry that the database has, however
large it is, and leave no buffer behind, also when they fail; and those that go through a database
give all of it, each entry once and in its order, before they give nothing. -/
theorem account_lookups {σ : Type} (env : AccountEnv σ) (args : Nat → Option Value) :
    (LooksUp env pushgroup (.ok env.grp.ent_r) (l_getgrent env) ∧
      LooksUp env pushgroup (byName env args env.grp 1) (l_getgrnam env args) ∧
      LooksUp env pushgroup (byNumber env args env.grp 1) (l_getgrgid env args) ∧
      LooksUp env pushpasswd (.ok env.pwd.ent_r) (l_getpwent env) ∧
      LooksUp env pushpasswd (byName env args env.pwd 1) (l_getpwnam env args) ∧
      LooksUp env pushpasswd (byNumber env args env.pwd 1) (l_getpwuid env args)) ∧
    (LooksUp env pushgroup (throughChannel env args env.cap_grp fun db => byName env args db 2)
        (l_cap_getgrnam env args) ∧
      LooksUp env pushgroup (throughChannel env args env.cap_grp fun db => byNumber env args db 2)
        (l_cap_getgrgid env args) ∧
      LooksUp env pushpasswd (throughChannel env args env.cap_pwd fun db => .ok db.ent_r)
        (l_cap_getpwent env args) ∧
      LooksUp env pushpasswd (throughChannel env args env.cap_pwd fun db => byName env args db 2)
        (l_cap_getpwnam env args) ∧
      LooksUp env pushpasswd (throughChannel env args env.cap_pwd fun db => byNumber env args db 2)
        (l_cap_getpwuid env args)) ∧
    ListsAll env pushgroup env.grp.ent_r (l_getgrent env) ∧
    ListsAll env pushpasswd env.pwd.ent_r (l_getpwent env) ∧
    ∀ chan, checkcookie env.toListEnv args 1 "cap_channel_t *" = .ok chan →
      ListsAll env pushpasswd (env.cap_pwd chan).ent_r (l_cap_getpwent env args) := by
  have hlooks {ρ : Type} (push : ρ → Table) (asks : Except Raised (Ask σ ρ)) :
      LooksUp env push asks (lookup env push asks) := lookup_looksUp env push asks
  refine ⟨⟨hlooks _ _, hlooks _ _, hlooks _ _, hlooks _ _, hlooks _ _, hlooks _ _⟩,
    ⟨hlooks _ _, hlooks _ _, hlooks _ _, hlooks _ _, hlooks _ _⟩,
    (hlooks _ _).listsAll rfl, (hlooks _ _).listsAll rfl, fun chan hchan => ?_⟩
  refine (hlooks _ _).listsAll ?_
  rw [throughChannel, hchan]
  rfl

/-- A group that does not fit into a page. -/
def wheel : Group := ⟨[119], [42], 0, [[114], [116]]⟩

/-- It is in the database alone, and needs 5000 bytes.  There are no users. -/
def sampleGroups : Database Unit Group where
  ent_r _ size := (if 5000 ≤ size then .ok (some wheel) else .error ERANGE, ())
  nam_r name _ size :=
    (if name ≠ wheel.name then .ok none
      else if 5000 ≤ size then .ok (some wheel) else .error ERANGE, ())
  id_r id _ size :=
    (if id ≠ 0 then .ok none else if 5000 ≤ size then .ok (some wheel) else .error ERANGE, ())

def samplePasswds : Database Unit Passwd where
  ent_r _ _ := (.ok none, ())
  nam_r _ _ _ := (.ok none, ())
  id_r _ _ _ := (.ok none, ())

def sampleEnv : AccountEnv Unit where
  host := Host.plain
  len _ := .ok 0
  geti _ _ := .ok .nil
  cookie _ _ := none
  isRights _ := false
  malloc _ _ := true
  nlistSize := 24
  pagesize := 4096
  grp := sampleGroups
  pwd := samplePasswds
  cap_grp _ := sampleGroups
  cap_pwd _ := samplePasswds

/-- `getgrnam("w")` -/
def sampleArgs : Nat → Option Value
  | 1 => some (.string [119])
  | _ => none

/-- The second buffer is large enough. -/
theorem account_lookups_sample :
    Spec [] [] (l_getgrnam sampleEnv sampleArgs 2 ())
      (fun r l => r = (.entry (pushgroup wheel), ()) ∧ l = []) (fun _ _ => False) := by
  have hanswers : Answers sampleEnv.pagesize (sampleGroups.nam_r wheel.name) () 5000
      (.ok (some wheel)) () := by
    refine ⟨fun size _ hlt => ?_, fun size hle => ?_, fun h => by cases h⟩
    · simp only [sampleGroups, ne_eq, not_true_eq_false, if_false, if_neg (Nat.not_le.mpr hlt)]
    · simp only [sampleGroups, ne_eq, not_true_eq_false, if_false, if_pos hle]
  exact (account_lookups sampleEnv sampleArgs).1.2.1.found [] 1 () () _ 5000 _ rfl (by decide)
    hanswers (by decide) (fun _ _ => rfl) (by decide)

end Accounts
end FluaLibs
