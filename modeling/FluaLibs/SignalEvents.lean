import FluaLibs.LuaArguments
import FluaLibs.MachineWords

/-! # Notifications of signal events

A `struct sigevent` is specified by a table and is returned as a table.  The two forms
differ in the field `value`, which is a union: it is given as a pointer or an integer, and
returned as a table with both.  So a table that was returned has to be given its `ptr`, or
its `int` if that is what the value was, before it can be passed on.
-/
namespace FluaLibs
namespace SignalEvents
open LuaArguments
variable {R : Runtime}

abbrev Bytes : Type := List UInt8

/-- `struct sigevent`: the members, and the two unions as bytes.  `sigev_notify_kqueue` is
`sigev_signo`; `sigev_notify_kevent_flags` and `sigev_notify_thread_id` are at the start of
`_sigev_un`. -/
structure Sigevent where
  notify : Int
  signo : Int
  value : Bytes
  un : Bytes
  deriving DecidableEq

/-- After `memset`. -/
def Sigevent.zero : Sigevent := ⟨0, 0, List.replicate 8 0, List.replicate 64 0⟩

/-! ## The code -/

/-- A table, as its fields in the order in which they are set. -/
abbrev Fields : Type := List (String × Value)

/-- What is outside of the module; reading a field of a table may call a metamethod. -/
structure Env where
  host : Host
  order : ByteOrder
  getfield : Nat → String → Except Raised Value

namespace Sigevent
variable (o : ByteOrder) (sig : Sigevent) (v : Int)

def setNotify : Sigevent := { sig with notify := IntType.int.wrap v }

/-- `sigev_signo`, and `sigev_notify_kqueue` -/
def setSigno : Sigevent := { sig with signo := IntType.int.wrap v }

def setKeventFlags : Sigevent := { sig with un := o.store 2 v sig.un }

def setThreadId : Sigevent := { sig with un := o.store 4 v sig.un }

/-- `sigev_value.sival_int` -/
def setInt : Sigevent := { sig with value := o.store 4 v sig.value }

/-- `sigev_value.sival_ptr` -/
def setPtr (p : Nat) : Sigevent := { sig with value := o.store 8 p sig.value }

def keventFlags : Int := o.word sig.un 0 2

def threadId : Int := IntType.int.wrap (o.word sig.un 0 4)

def int : Int := IntType.int.wrap (o.word sig.value 0 4)

def ptr : Nat := o.word sig.value 0 8

end Sigevent

section Checks
variable (env : Env)

/-- `INTFIELD`: a field that is not nil has to be an integer. -/
def intfield (r : Nat) (name : String) (set : Sigevent → Int → Sigevent) (sig : Sigevent) :
    Except Raised Sigevent := do
  match ← env.getfield r name with
  | .nil => pure sig
  | v => return set sig (← checkinteger env.host (-1) (some v))

/-- The field `value`. -/
def valuefield (r : Nat) (sig : Sigevent) : Except Raised Sigevent := do
  match ← env.getfield r "value" with
  | .lightuserdata p => pure (sig.setPtr env.order p)
  | .nil => pure sig
  | v => return sig.setInt env.order (← checkinteger env.host (-1) (some v))

def checksigevent (idx : Int) (v : Option Value) : Except Raised Sigevent :=
  match v with
  | some (.table r) => do
    let sig ← intfield env r "notify" .setNotify .zero
    let sig ← intfield env r "notify_kqueue" .setSigno sig
    let sig ← intfield env r "notify_kevent_flags" (.setKeventFlags env.order) sig
    let sig ← intfield env r "notify_thread_id" (.setThreadId env.order) sig
    let sig ← intfield env r "signo" .setSigno sig
    valuefield env r sig
  | _ => .error (.typeerror idx "table")

/-- The notification of a control block that `l_aiocb_shared` makes, from its fifth argument;
the memory is zero at first. -/
def sharedSigevent (L : LuaState R) : Except Raised Sigevent :=
  if isnoneornil (L.index 5) then .ok .zero else checksigevent env 5 (L.index 5)

end Checks

/-- The two tables that `pushsigevent` makes. -/
structure Pushed where
  fields : Fields
  value : Fields

/-- `pushsigevent`, where the table for the value is `inner`. -/
def pushsigevent (o : ByteOrder) (sig : Sigevent) (inner : Nat) : Pushed where
  fields :=
    [("notify", .integer sig.notify), ("notify_kqueue", .integer sig.signo),
      ("notify_kevent_flags", .integer (sig.keventFlags o)),
      ("notify_thread_id", .integer (sig.threadId o)), ("signo", .integer sig.signo),
      ("value", .table inner)]
  value := [("int", .integer (sig.int o)), ("ptr", .lightuserdata (sig.ptr o))]

/-! ## What is built -/

/-- What holds of every notification that has been built: only the first four bytes of
`_sigev_un` are ever set. -/
structure Sigevent.Built (sig : Sigevent) : Prop where
  notify : IntType.int.Holds sig.notify
  signo : IntType.int.Holds sig.signo
  value : sig.value.length = 8
  un : sig.un.length = 64
  spare : sig.un.drop 4 = List.replicate 60 0

section Building
variable {env : Env} {sig sig' : Sigevent} {r : Nat} {name : String}

theorem built_zero : Sigevent.zero.Built :=
  ⟨by decide, by decide, List.length_replicate, List.length_replicate, List.drop_replicate⟩

theorem built_setNotify (h : sig.Built) (v : Int) : (sig.setNotify v).Built :=
  { h with notify := IntType.wrap_holds IntType.int v }

theorem built_setSigno (h : sig.Built) (v : Int) : (sig.setSigno v).Built :=
  { h with signo := IntType.wrap_holds IntType.int v }

theorem built_store_un (h : sig.Built) (o : ByteOrder) {width : Nat} (hwidth : width ≤ 4)
    (v : Int) : ({ sig with un := o.store width v sig.un } : Sigevent).Built :=
  { h with
    un := (o.store_length (by rw [h.un]; omega)).trans h.un
    spare := (o.drop_store 4 hwidth).trans h.spare }

theorem built_store_value (h : sig.Built) (o : ByteOrder) {width : Nat} (hwidth : width ≤ 8)
    (v : Int) : ({ sig with value := o.store width v sig.value } : Sigevent).Built :=
  { h with value := (o.store_length (by rw [h.value]; exact hwidth)).trans h.value }

/-- A field keeps what its store keeps. -/
theorem intfield_keeps {set : Sigevent → Int → Sigevent} {P : Sigevent → Prop}
    (hset : ∀ v, P (set sig v)) (h : P sig) (hok : intfield env r name set sig = .ok sig') :
    P sig' := by
  obtain ⟨v, -, hv⟩ := bind_eq_ok_iff.mp hok
  split at hv
  · cases hv
    exact h
  · obtain ⟨i, -, hi⟩ := bind_eq_ok_iff.mp hv
    cases hi
    exact hset i

/-- What is built when the value has not been set yet. -/
def Unvalued (sig : Sigevent) : Prop := sig.Built ∧ sig.value = List.replicate 8 0

/-- A conversion ends with the field `value`. -/
theorem checksigevent_steps {idx : Int} {v : Option Value}
    (hok : checksigevent env idx v = .ok sig) :
    ∃ r before, v = some (.table r) ∧ Unvalued before ∧ valuefield env r before = .ok sig := by
  unfold checksigevent at hok
  split at hok
  · next r =>
    obtain ⟨a, ha, hok⟩ := bind_eq_ok_iff.mp hok
    obtain ⟨b, hb, hok⟩ := bind_eq_ok_iff.mp hok
    obtain ⟨c, hc, hok⟩ := bind_eq_ok_iff.mp hok
    obtain ⟨d, hd, hok⟩ := bind_eq_ok_iff.mp hok
    obtain ⟨e, he, hok⟩ := bind_eq_ok_iff.mp hok
    have hzero : Unvalued .zero := ⟨built_zero, rfl⟩
    have hnotify := intfield_keeps (fun v => ⟨built_setNotify hzero.1 v, hzero.2⟩) hzero ha
    have hkqueue := intfield_keeps (fun v => ⟨built_setSigno hnotify.1 v, hnotify.2⟩) hnotify hb
    have hflags := intfield_keeps
      (fun v => ⟨built_store_un hkqueue.1 env.order (by decide) v, hkqueue.2⟩) hkqueue hc
    have hthread := intfield_keeps
      (fun v => ⟨built_store_un hflags.1 env.order (by decide) v, hflags.2⟩) hflags hd
    have hsigno := intfield_keeps (fun v => ⟨built_setSigno hthread.1 v, hthread.2⟩) hthread he
    exact ⟨r, e, rfl, hsigno, hok⟩
  · cases hok

theorem valuefield_built (h : sig.Built) (hok : valuefield env r sig = .ok sig') :
    sig'.Built := by
  obtain ⟨v, -, hv⟩ := bind_eq_ok_iff.mp hok
  split at hv
  · cases hv
    exact built_store_value h env.order (by decide) _
  · cases hv
    exact h
  · obtain ⟨i, -, hi⟩ := bind_eq_ok_iff.mp hv
    cases hi
    exact built_store_value h env.order (by decide) i

/-- An integer leaves the rest of the union as it was. -/
theorem valuefield_rest (hgiven : ∀ p, env.getfield r "value" ≠ .ok (.lightuserdata p))
    (hok : valuefield env r sig = .ok sig') : sig'.value.drop 4 = sig.value.drop 4 := by
  obtain ⟨v, hfield, hv⟩ := bind_eq_ok_iff.mp hok
  split at hv
  · exact absurd hfield (hgiven _)
  · cases hv
    rfl
  · obtain ⟨i, -, hi⟩ := bind_eq_ok_iff.mp hv
    cases hi
    exact env.order.drop_store 4 (Nat.le_refl 4)

end Building

/-! ## What is returned and passed on -/

/-- There is a table with some fields, and no metatable. -/
def IsTable (env : Env) (r : Nat) (t : Fields) : Prop :=
  ∀ key, env.getfield r key = .ok ((t.lookup key).getD .nil)

/-- A table after `t.value = w`. -/
def withValue (t : Fields) (w : Value) : Fields := ("value", w) :: t

section Returning
variable {env : Env} {sig : Sigevent} {r inner : Nat} {name : String} {t : Fields}

theorem intfield_integer {set : Sigevent → Int → Sigevent} {i : Int}
    (h : env.getfield r name = .ok (.integer i)) (f : Sigevent → Except Raised Sigevent) :
    (intfield env r name set sig >>= f) = f (set sig i) := by
  rw [intfield, h]
  rfl

/-- The union that is built from what was read of it. -/
theorem un_again (h : sig.Built) (o : ByteOrder) (flags : Int) :
    o.store 4 (sig.threadId o) (o.store 2 flags (List.replicate 64 0)) = sig.un := by
  have hspare : (List.replicate 64 (0 : UInt8)).drop 4 = sig.un.drop 4 := by
    rw [h.spare]
    exact List.drop_replicate
  rw [o.store_store (by decide), o.store_congr hspare]
  apply o.store_word
  · rw [h.un]
    decide
  · exact IntType.wrap_modEq IntType.int _

/-- **The fields but for the value** are as they were. -/
theorem fields_again (h : sig.Built) {w : Value}
    (ht : IsTable env r (withValue (pushsigevent env.order sig inner).fields w)) (idx : Int) :
    checksigevent env idx (some (.table r)) =
      valuefield env r { sig with value := List.replicate 8 0 } := by
  have hfield (key : String) (i : Int)
      (hlookup : (withValue (pushsigevent env.order sig inner).fields w).lookup key =
        some (.integer i)) :
      env.getfield r key = .ok (.integer i) := by
    rw [ht key, hlookup]
    rfl
  have hnotify : IntType.int.wrap sig.notify = sig.notify := IntType.wrap_of_holds h.notify
  have hsigno : IntType.int.wrap sig.signo = sig.signo := IntType.wrap_of_holds h.signo
  simp only [checksigevent]
  rw [intfield_integer (hfield "notify" sig.notify rfl),
    intfield_integer (hfield "notify_kqueue" sig.signo rfl),
    intfield_integer (hfield "notify_kevent_flags" (sig.keventFlags env.order) rfl),
    intfield_integer (hfield "notify_thread_id" (sig.threadId env.order) rfl),
    intfield_integer (hfield "signo" sig.signo rfl)]
  simp only [Sigevent.setNotify, Sigevent.setSigno, Sigevent.setKeventFlags,
    Sigevent.setThreadId, Sigevent.zero, hnotify, hsigno, un_again h]

theorem getfield_value {w : Value} (ht : IsTable env r (withValue t w)) :
    env.getfield r "value" = .ok w := ht "value"

theorem lookup_withValue {w : Value} (h : t.lookup "value" = some w) (key : String) :
    (withValue t w).lookup key = t.lookup key := by
  rw [withValue, List.lookup_cons]
  split
  · next heq => rw [eq_of_beq heq, h]
  · rfl

/-- The table as it was returned is refused, since its value is a table. -/
theorem checksigevent_table (h : sig.Built)
    (ht : IsTable env r (pushsigevent env.order sig inner).fields) (idx : Int) :
    checksigevent env idx (some (.table r)) = .error (.typeerror (-1) "number") := by
  have hsame : IsTable env r
      (withValue (pushsigevent env.order sig inner).fields (.table inner)) := by
    intro key
    rw [ht key, lookup_withValue rfl]
  rw [fields_again h hsame, valuefield, getfield_value hsame]
  rfl

/-- The pointer of a value that was returned. -/
theorem valuefield_ptr (h : sig.Built)
    (hvalue : env.getfield r "value" = .ok (.lightuserdata (sig.ptr env.order))) :
    valuefield env r { sig with value := List.replicate 8 0 } = .ok sig := by
  have hover : (List.replicate 8 (0 : UInt8)).drop 8 = sig.value.drop 8 := by
    rw [List.drop_of_length_le (Nat.le_of_eq h.value)]
    rfl
  have hstore : env.order.store 8 (sig.ptr env.order) (List.replicate 8 0) = sig.value := by
    rw [env.order.store_congr hover]
    exact env.order.store_word (Nat.le_of_eq h.value.symm) rfl
  rw [valuefield, hvalue]
  show Except.ok (Sigevent.mk _ _ (env.order.store 8 _ _) _) = _
  rw [hstore]

/-- The integer of a value that was returned, if nothing else was in the union. -/
theorem valuefield_int (h : sig.Built) (hrest : sig.value.drop 4 = List.replicate 4 0)
    (hvalue : env.getfield r "value" = .ok (.integer (sig.int env.order))) :
    valuefield env r { sig with value := List.replicate 8 0 } = .ok sig := by
  have hover : (List.replicate 8 (0 : UInt8)).drop 4 = sig.value.drop 4 := by
    rw [hrest]
    exact List.drop_replicate
  have hstore : env.order.store 4 (sig.int env.order) (List.replicate 8 0) = sig.value := by
    rw [env.order.store_congr hover]
    apply env.order.store_word
    · rw [h.value]
      decide
    · exact IntType.wrap_modEq IntType.int _
  rw [valuefield, hvalue]
  show Except.ok (Sigevent.mk _ _ (env.order.store 4 _ _) _) = _
  rw [hstore]

/-- The parts of a returned value that stand for it: its pointer, and its integer where no
pointer was given. -/
inductive StandsFor (env : Env) (v : Option Value) (sig : Sigevent) (w : Value) : Prop where
  | ptr (h : (pushsigevent env.order sig 0).value.lookup "ptr" = some w)
  | int (hgiven : ∀ r p, v = some (.table r) → env.getfield r "value" ≠ .ok (.lightuserdata p))
    (h : (pushsigevent env.order sig 0).value.lookup "int" = some w)

/-- **A notification that was returned is accepted again**, with the same result, once its
value is replaced by one of its parts. -/
theorem checksigevent_again {env' : Env} (horder : env'.order = env.order) {idx : Int}
    {v : Option Value} (hbuilt : checksigevent env idx v = .ok sig) {w : Value}
    (hw : StandsFor env v sig w)
    (ht : IsTable env' r (withValue (pushsigevent env.order sig inner).fields w)) :
    (∀ idx', checksigevent env' idx' (some (.table r)) = .ok sig) ∧
      ∀ L : LuaState R, L.index 5 = some (.table r) → sharedSigevent env' L = .ok sig := by
  obtain ⟨source, before, hsource, ⟨hbefore, hzero⟩, hvaluefield⟩ := checksigevent_steps hbuilt
  have hsig := valuefield_built hbefore hvaluefield
  have hvalue := getfield_value ht
  rw [← horder] at ht
  have hagain : ∀ idx', checksigevent env' idx' (some (.table r)) = .ok sig := by
    intro idx'
    rw [fields_again hsig ht]
    cases hw with
    | ptr h =>
      cases h
      rw [← horder] at hvalue
      exact valuefield_ptr hsig hvalue
    | int hgiven h =>
      cases h
      rw [← horder] at hvalue
      have hrest := valuefield_rest (fun p => hgiven source p hsource) hvaluefield
      rw [hzero] at hrest
      exact valuefield_int hsig hrest hvalue
  refine ⟨hagain, fun L hfifth => ?_⟩
  rw [sharedSigevent, hfifth]
  exact hagain 5

end Returning

/-! ## A table that was returned -/

/-- An environment where all tables have the same fields. -/
def tableEnv (t : Fields) : Env where
  host := .plain
  order := .little
  getfield _ key := .ok ((t.lookup key).getD .nil)

theorem tableEnv_isTable (r : Nat) (t : Fields) : IsTable (tableEnv t) r t := fun _ => rfl

/-- `SIGEV_SIGNAL`, with a signal and an integer. -/
def signalFields : Fields := [("notify", .integer 1), ("signo", .integer 30), ("value", .integer 7)]

def signalEvent : Sigevent := ⟨1, 30, [7, 0, 0, 0, 0, 0, 0, 0], List.replicate 64 0⟩

theorem signalEvent_built (r : Nat) :
    checksigevent (tableEnv signalFields) 5 (some (.table r)) = .ok signalEvent := rfl

def signalReturned : Fields := (pushsigevent .little signalEvent 1).fields

/-- The call with the table that was returned and given its integer. -/
def signalCall : LuaState noFunctions := ⟨[.integer 3, .integer 0, .nil, .nil, .table 0], [], 0⟩

theorem signalEvent_again :
    sharedSigevent (tableEnv (withValue signalReturned (.integer 7))) signalCall =
      .ok signalEvent := by
  have hint : StandsFor (tableEnv signalFields) (some (.table 0)) signalEvent (.integer 7) := by
    refine .int (fun r p _ hpointer => ?_) rfl
    cases hpointer
  have ht : IsTable (tableEnv (withValue signalReturned (.integer 7))) 0
      (withValue (pushsigevent .little signalEvent 1).fields (.integer 7)) :=
    tableEnv_isTable 0 _
  have horder : (tableEnv (withValue signalReturned (.integer 7))).order =
      (tableEnv signalFields).order := rfl
  exact (checksigevent_again horder (signalEvent_built 0) hint ht).2 signalCall rfl

theorem not_accepted : ¬ ∀ (env env' : Env) (idx : Int) (v : Option Value) (sig : Sigevent)
    (r inner : Nat), env'.order = env.order → checksigevent env idx v = .ok sig →
      IsTable env' r (pushsigevent env.order sig inner).fields →
        ∃ sig', checksigevent env' idx (some (.table r)) = .ok sig' := by
  intro h
  have htable := tableEnv_isTable 0 signalReturned
  obtain ⟨sig', haccepted⟩ := h (tableEnv signalFields) (tableEnv signalReturned) 5
    (some (.table 0)) signalEvent 0 1 rfl (signalEvent_built 0) htable
  have hbuilt : signalEvent.Built := ⟨by decide, by decide, rfl, rfl, rfl⟩
  rw [checksigevent_table hbuilt htable] at haccepted
  cases haccepted

end SignalEvents
end FluaLibs
