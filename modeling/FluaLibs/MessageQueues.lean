import FluaLibs.LuaArguments

/-! # Opening a message queue

`mqueue.open` takes the attributes of a new queue from a table.  After it has read the first
of them it calls `lua_pop(L, -1)`, which leaves nothing on the stack: the index of the table is
not valid any more when the second is read.
-/
namespace FluaLibs
namespace MessageQueue
open LuaArguments
variable {R : Runtime}

abbrev Bytes : Type := List UInt8

/-- `struct mq_attr` -/
structure Attr where
  mq_maxmsg : Int
  mq_msgsize : Int
  deriving DecidableEq

/-- What `mq_open` gets. -/
structure Opening where
  name : Bytes
  oflag : Int
  mode : Option Int
  attr : Option Attr
  deriving DecidableEq

/-- `O_CREAT` -/
def O_CREAT : BitVec 32 := 0x200#32

/-- `(oflag & O_CREAT) != 0` -/
def Creates (oflag : Int) : Prop := BitVec.ofInt 32 oflag &&& O_CREAT ≠ 0#32

instance (oflag : Int) : Decidable (Creates oflag) := inferInstanceAs (Decidable (_ ≠ _))

/-- What is outside the module: what indexing a value gives, the conversion of a float to `long`,
the userdata that is made, and `mq_open`. -/
structure Env where
  host : Host
  gettable : Value → Value → Except Raised Value
  long : UInt64 → Int
  queue : Nat
  mq_open : Opening → Except Nat Int

/-! ## The code -/

/-- `lua_settop` -/
def settop (L : LuaState R) (idx : Int) : LuaState R :=
  if 0 ≤ idx then
    { L with stack := L.stack.take idx.toNat ++ List.replicate (idx.toNat - L.gettop) .nil }
  else { L with stack := L.stack.take (L.gettop + idx + 1).toNat }

/-- `lua_pop` -/
def pop (L : LuaState R) (n : Int) : LuaState R := settop L (-n - 1)

/-- An error, or a call of a function with an index that is not valid. -/
inductive Fault where
  | raised (e : Raised)
  | undefined

/-- `lua_gettable`, with the key on top of the stack. -/
def gettable (env : Env) (L : LuaState R) (idx : Int) : Except Fault (LuaState R) :=
  match L.index idx, L.index (-1) with
  | some t, some key =>
    match env.gettable t key with
    | .ok v => .ok ((L.pop 1).push v)
    | .error e => .error (.raised e)
  | _, _ => .error .undefined

/-- `lua_tonumber(L, -1)`, as a `long`. -/
def longOf (env : Env) (L : LuaState R) : Int :=
  env.long (((L.index (-1)).bind (LuaNumbers.tonumberx env.host.cvt)).getD 0)

/-- A field of the table. -/
def readAttribute (env : Env) (name : String) (L : LuaState R) :
    Except Fault (Int × LuaState R) := do
  let L ← gettable env (L.push (.literal name)) 4
  pure (longOf env L, pop L (-1))

def attributes (env : Env) (L : LuaState R) : Except Fault (Attr × LuaState R) := do
  let (mq_maxmsg, L) ← readAttribute env "maxmsg" L
  let (mq_msgsize, L) ← readAttribute env "msgsize" L
  pure (⟨mq_maxmsg, mq_msgsize⟩, L)

/-- How a call ends; what is returned is on top of the stack, and the descriptor in the
userdata. -/
inductive Outcome where
  | fault (f : Fault)
  | failed (errno : Nat)
  | returned (v : Option Value) (mq : Int)

/-- A call, with what `mq_open` has got, if it has been called. -/
structure Call where
  opening : Option Opening
  outcome : Outcome

def Call.raised (e : Raised) : Call := ⟨none, .fault (.raised e)⟩

/-- `mq_open` and what follows. -/
def conclude (env : Env) (o : Opening) (L : LuaState R) : Call :=
  match env.mq_open o with
  | .error errno => ⟨some o, .failed errno⟩
  | .ok mq => ⟨some o, .returned (L.index (-1)) mq⟩

def l_mq_open (env : Env) (L : LuaState R) : Call :=
  let L := L.push (.userdata env.queue)
  match checklstring env.host 1 (L.index 1) with
  | .error e => .raised e
  | .ok s =>
    let name := cstr s
    match checkinteger env.host 2 (L.index 2) with
    | .error e => .raised e
    | .ok i =>
      let oflag := IntType.int.wrap i
      if Creates oflag then
        match checkinteger env.host 3 (L.index 3) with
        | .error e => .raised e
        | .ok i =>
          let mode := IntType.uint16.wrap i
          if L.gettop = 5 then
            match attributes env L with
            | .error f => ⟨none, .fault f⟩
            | .ok (attr, L) => conclude env ⟨name, oflag, some mode, some attr⟩ L
          else conclude env ⟨name, oflag, some mode, none⟩ L
      else conclude env ⟨name, oflag, none, none⟩ L

/-! ## What is expected -/

/-- A field of the table that is absent or an integer. -/
def IsField (env : Env) (r : Nat) (name : String) : Prop :=
  env.gettable (.table r) (.literal name) = .ok .nil ∨
    ∃ i, env.gettable (.table r) (.literal name) = .ok (.integer i)

/-- The arguments of a call: a name, flags and, for a new queue, a mode and perhaps a table with
attributes. -/
structure Accepted (env : Env) (L : LuaState R) (s : Bytes) (flags mode : Int) : Prop where
  name : 2 ≤ L.gettop ∧ checklstring env.host 1 (L.index 1) = .ok s
  oflag : checkinteger env.host 2 (L.index 2) = .ok flags
  mode : Creates (IntType.int.wrap flags) →
    3 ≤ L.gettop ∧ checkinteger env.host 3 (L.index 3) = .ok mode
  attr : Creates (IntType.int.wrap flags) → 4 ≤ L.gettop →
    ∃ r, L.index 4 = some (.table r) ∧ IsField env r "maxmsg" ∧ IsField env r "msgsize"

/-- There is a new queue, and a table for its attributes. -/
def GivesAttributes (L : LuaState R) (flags : Int) : Prop :=
  Creates (IntType.int.wrap flags) ∧ 4 ≤ L.gettop

/-- The attributes are those of the table, where it has them. -/
def Attr.Are (env : Env) (attr : Attr) (r : Nat) : Prop :=
  (∀ i, env.gettable (.table r) (.literal "maxmsg") = .ok (.integer i) → attr.mq_maxmsg = i) ∧
    ∀ i, env.gettable (.table r) (.literal "msgsize") = .ok (.integer i) → attr.mq_msgsize = i

/-- What `mq_open` is to get. -/
structure Opening.Is (env : Env) (L : LuaState R) (s : Bytes) (flags mode : Int) (o : Opening) :
    Prop where
  name : o.name = cstr s
  oflag : o.oflag = IntType.int.wrap flags
  mode : o.mode =
    if Creates (IntType.int.wrap flags) then some (IntType.uint16.wrap mode) else none
  given : GivesAttributes L flags → ∀ r, L.index 4 = some (.table r) →
    ∃ attr, o.attr = some attr ∧ attr.Are env r
  absent : ¬ GivesAttributes L flags → o.attr = none

/-- **A call is as expected** if `mq_open` gets what the arguments are, and the queue is
returned, or the error. -/
def Conforms (env : Env) (L : LuaState R) (s : Bytes) (flags mode : Int) : Prop :=
  ∃ o, o.Is env L s flags mode ∧ (l_mq_open env L).opening = some o ∧
    (l_mq_open env L).outcome =
      match env.mq_open o with
      | .error errno => .failed errno
      | .ok mq => .returned (some (.userdata env.queue)) mq

section Calls
variable {env : Env} {L : LuaState R} {s : Bytes} {flags mode : Int}

theorem pop_stack (L : LuaState R) : (pop L (-1)).stack = [] := by
  show L.stack.take 0 ++ List.replicate (0 - L.gettop) .nil = []
  rw [Nat.zero_sub]
  rfl

/-- **Nothing is left on the stack after an attribute has been read.** -/
theorem readAttribute_stack {name : String} {i : Int} {L' : LuaState R}
    (h : readAttribute env name L = .ok (i, L')) : L'.stack = [] := by
  unfold readAttribute at h
  cases hget : gettable env (L.push (.literal name)) 4 with
  | error f =>
    rw [hget] at h
    cases h
  | ok L₁ =>
    rw [hget] at h
    cases h
    exact pop_stack L₁

/-- The table is not there for an attribute. -/
theorem readAttribute_undefined {name : String} (h : L.stack = []) :
    readAttribute env name L = .error .undefined := by
  have hindex : (L.push (.literal name)).index 4 = none := by
    rw [LuaState.index, LuaState.push_stack, h]
    rfl
  rw [readAttribute, gettable, hindex]
  rfl

/-- **The attributes are never read.** -/
theorem attributes_fault (env : Env) (L : LuaState R) : ∃ f, attributes env L = .error f := by
  unfold attributes
  cases hmaxmsg : readAttribute env "maxmsg" L with
  | error f => exact ⟨f, rfl⟩
  | ok result =>
    obtain ⟨i, L'⟩ := result
    refine ⟨.undefined, ?_⟩
    show (readAttribute env "msgsize" L' >>= _) = _
    rw [readAttribute_undefined (readAttribute_stack hmaxmsg)]
    rfl

/-- The arguments are where they were when the userdata is on the stack. -/
theorem index_push (idx : Int) (v : Value) (hpos : 0 < idx) (hle : idx ≤ L.gettop) :
    (L.push v).index idx = L.index idx := by
  refine LuaState.index_of_prefix hpos (LuaState.push_stack v) ?_
  have hlt : L.pos idx < L.stack.length := by
    rw [LuaState.pos, if_pos hpos]
    rw [LuaState.gettop] at hle
    omega
  rw [LuaState.index, List.getElem?_eq_getElem hlt]
  exact Option.some_ne_none _

theorem conclude_top (env : Env) (o : Opening) (L : LuaState R) :
    conclude env o (L.push (.userdata env.queue)) =
      ⟨some o,
        match env.mq_open o with
        | .error errno => .failed errno
        | .ok mq => .returned (some (.userdata env.queue)) mq⟩ := by
  rw [conclude, LuaState.index_push_top]
  split <;> rfl

theorem Accepted.pushed (h : Accepted env L s flags mode) :
    checklstring env.host 1 ((L.push (.userdata env.queue)).index 1) = .ok s ∧
      checkinteger env.host 2 ((L.push (.userdata env.queue)).index 2) = .ok flags := by
  obtain ⟨htop, hname⟩ := h.name
  rw [index_push 1 _ (by decide) (by omega), index_push 2 _ (by decide) (by omega)]
  exact ⟨hname, h.oflag⟩

theorem Accepted.pushed_mode (h : Accepted env L s flags mode)
    (hcreates : Creates (IntType.int.wrap flags)) :
    checkinteger env.host 3 ((L.push (.userdata env.queue)).index 3) = .ok mode := by
  obtain ⟨htop, hmode⟩ := h.mode hcreates
  rw [index_push 3 _ (by decide) (by omega)]
  exact hmode

theorem gettop_push (L : LuaState R) (v : Value) : (L.push v).gettop = L.gettop + 1 := by
  rw [LuaState.gettop, LuaState.push_stack, List.length_append]
  rfl

/-- An existing queue is opened. -/
theorem l_mq_open_existing (h : Accepted env L s flags mode)
    (hcreates : ¬ Creates (IntType.int.wrap flags)) :
    l_mq_open env L =
      conclude env ⟨cstr s, IntType.int.wrap flags, none, none⟩
        (L.push (.userdata env.queue)) := by
  obtain ⟨hname, hoflag⟩ := h.pushed
  simp only [l_mq_open, hname, hoflag, if_neg hcreates]

/-- A queue is made, where there are three arguments, or too many. -/
theorem l_mq_open_new (h : Accepted env L s flags mode)
    (hcreates : Creates (IntType.int.wrap flags)) (hfour : L.gettop ≠ 4) :
    l_mq_open env L =
      conclude env ⟨cstr s, IntType.int.wrap flags, some (IntType.uint16.wrap mode), none⟩
        (L.push (.userdata env.queue)) := by
  obtain ⟨hname, hoflag⟩ := h.pushed
  have hmode := h.pushed_mode hcreates
  have hfive : (L.push (.userdata env.queue)).gettop ≠ 5 := by
    rw [gettop_push]
    omega
  simp only [l_mq_open, hname, hoflag, if_pos hcreates, hmode, if_neg hfive]

/-- **With attributes the call ends before `mq_open`.** -/
theorem l_mq_open_attributes (h : Accepted env L s flags mode)
    (hcreates : Creates (IntType.int.wrap flags)) (hfour : L.gettop = 4) :
    (l_mq_open env L).opening = none := by
  obtain ⟨hname, hoflag⟩ := h.pushed
  have hmode := h.pushed_mode hcreates
  have hfive : (L.push (.userdata env.queue)).gettop = 5 := by
    rw [gettop_push, hfour]
  obtain ⟨f, hfault⟩ := attributes_fault env (L.push (.userdata env.queue))
  simp only [l_mq_open, hname, hoflag, if_pos hcreates, hmode, if_pos hfive, hfault]

/-- Without attributes the call is as expected. -/
theorem conforms_of_not_given (h : Accepted env L s flags mode)
    (hgiven : ¬ GivesAttributes L flags) : Conforms env L s flags mode := by
  by_cases hcreates : Creates (IntType.int.wrap flags)
  · have hfour : L.gettop ≠ 4 := fun heq => hgiven ⟨hcreates, Nat.le_of_eq heq.symm⟩
    have hcall := l_mq_open_new h hcreates hfour
    rw [conclude_top] at hcall
    rw [Conforms, hcall]
    exact ⟨_, ⟨rfl, rfl, (if_pos hcreates).symm, fun hgives => absurd hgives hgiven,
      fun _ => rfl⟩, rfl, rfl⟩
  · have hcall := l_mq_open_existing h hcreates
    rw [conclude_top] at hcall
    rw [Conforms, hcall]
    exact ⟨_, ⟨rfl, rfl, (if_neg hcreates).symm, fun hgives => absurd hgives hgiven,
      fun _ => rfl⟩, rfl, rfl⟩

/-- Attributes that are given are not passed. -/
theorem not_conforms_of_given (h : Accepted env L s flags mode)
    (hgiven : GivesAttributes L flags) : ¬ Conforms env L s flags mode := by
  rintro ⟨o, hopening, hcall, -⟩
  obtain ⟨hcreates, htop⟩ := hgiven
  rcases Nat.eq_or_lt_of_le htop with hfour | hlt
  · rw [l_mq_open_attributes h hcreates hfour.symm] at hcall
    cases hcall
  · -- there are more arguments, and the table is not looked at
    rw [l_mq_open_new h hcreates (Nat.ne_of_gt hlt), conclude_top] at hcall
    cases hcall
    obtain ⟨r, hr, -, -⟩ := h.attr hcreates htop
    obtain ⟨attr, hattr, -⟩ := hopening.given ⟨hcreates, htop⟩ r hr
    cases hattr

/-- **When `mqueue.open` is as expected**: no attributes are given for a new queue. -/
theorem open_conforms_iff (h : Accepted env L s flags mode) :
    Conforms env L s flags mode ↔ ¬ GivesAttributes L flags :=
  ⟨fun hconforms hgiven => not_conforms_of_given h hgiven hconforms, conforms_of_not_given h⟩

end Calls

/-! ## Two calls -/

/-- Every table has the attributes of a queue of ten messages. -/
def queueEnv : Env where
  host := .plain
  gettable _ key :=
    if key = .literal "maxmsg" then .ok (.integer 10)
    else if key = .literal "msgsize" then .ok (.integer 128)
    else .ok .nil
  long bits := (Binary64.toInt? bits).getD 0
  queue := 1
  mq_open _ := .ok 3

/-- `O_CREAT | O_RDWR` -/
def creating : Int := 0x202

/-- `mqueue.open("/q", O_CREAT | O_RDWR, 420)` -/
def plainCall : LuaState noFunctions :=
  ⟨[.string [47, 113], .integer creating, .integer 420], [], 0⟩

theorem plainCall_accepted : Accepted queueEnv plainCall [47, 113] creating 420 where
  name := ⟨by decide, rfl⟩
  oflag := rfl
  mode _ := ⟨by decide, rfl⟩
  attr _ hfour := absurd hfour (by decide)

theorem plainCall_conforms : Conforms queueEnv plainCall [47, 113] creating 420 :=
  (open_conforms_iff plainCall_accepted).mpr (fun h => absurd h.2 (by decide))

/-- The same with a table of attributes. -/
def attributesCall : LuaState noFunctions :=
  ⟨[.string [47, 113], .integer creating, .integer 420, .table 0], [], 0⟩

theorem attributesCall_accepted : Accepted queueEnv attributesCall [47, 113] creating 420 where
  name := ⟨by decide, rfl⟩
  oflag := rfl
  mode _ := ⟨by decide, rfl⟩
  attr _ _ := ⟨0, rfl, Or.inr ⟨10, by decide⟩, Or.inr ⟨128, by decide⟩⟩

theorem attributesCall_not_conforms :
    ¬ Conforms queueEnv attributesCall [47, 113] creating 420 :=
  not_conforms_of_given attributesCall_accepted ⟨by decide, by decide⟩

end MessageQueue
end FluaLibs
