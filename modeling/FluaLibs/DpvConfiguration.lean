import FluaLibs.LuaArguments

/-! # The configuration of a progress view

`dpv` takes its configuration from a table, one field after the other, each with its own check
and its own default.  An integer in the field `output_type` is stored in the member
`display_type`.
-/
namespace FluaLibs
namespace Dpv
open LuaArguments
variable {R : Runtime}

abbrev Bytes : Type := List UInt8

/-- The members of `struct dpv_config` that are numbers. -/
inductive Number where
  | keep_tite | display_type | output_type | debug | display_limit | label_size | pbar_size
  | dialog_updates_per_second | status_updates_per_second | options
  deriving DecidableEq

/-- The members that are texts. -/
inductive Text where
  | title | backtitle | aprompt | pprompt | msg_done | msg_fail | msg_pending | output
  | status_solo | status_many
  deriving DecidableEq

/-- `struct dpv_config`; the action is always the same function, or `NULL`. -/
structure Config where
  number : Number → Int
  text : Text → Option Bytes
  action : Bool

/-- What `dpv.h` defines: the types of the members that are numbers, and the constants. -/
structure Header where
  type : Number → IntType
  DISPLAY_LIBDIALOG : Int
  DISPLAY_XDIALOG : Int
  OUTPUT_NONE : Int
  STATUS_SOLO : Bytes
  STATUS_MANY : Bytes

/-- Reading a field of a table, which may run code of the caller's. -/
structure Env where
  header : Header
  getfield : Nat → String → Except Raised Value

/-- `{0}` -/
def Config.zero : Config := ⟨fun _ => 0, fun _ => none, false⟩

def Config.setNumber (c : Config) (m : Number) (i : Int) : Config :=
  { c with number := Function.update c.number m i }

def Config.setText (c : Config) (m : Text) (s : Option Bytes) : Config :=
  { c with text := Function.update c.text m s }

def Config.setAction (c : Config) (b : Bool) : Config := { c with action := b }

/-! ## The code -/

section Fields
variable (env : Env) (r : Nat)

/-- A field that is a boolean. -/
def readBoolean (name : String) (m : Number) (c : Config) : Except Raised Config :=
  match env.getfield r name with
  | .error e => .error e
  | .ok .nil => .ok (c.setNumber m 0)
  | .ok (.boolean b) => .ok (c.setNumber m (if b then 1 else 0))
  | .ok _ => .error (.argerror 1 (name ++ ": boolean expected"))

/-- A field that is an integer. -/
def readInteger (name : String) (m : Number) (absent : Int) (c : Config) :
    Except Raised Config :=
  match env.getfield r name with
  | .error e => .error e
  | .ok .nil => .ok (c.setNumber m absent)
  | .ok (.integer i) => .ok (c.setNumber m ((env.header.type m).wrap i))
  | .ok _ => .error (.argerror 1 (name ++ ": integer expected"))

/-- The field `output_type`. -/
def readOutputType (c : Config) : Except Raised Config :=
  match env.getfield r "output_type" with
  | .error e => .error e
  | .ok .nil => .ok (c.setNumber .output_type env.header.OUTPUT_NONE)
  | .ok (.integer i) =>
    -- `config.display_type = lua_tointeger(L, -1)`
    .ok (c.setNumber .display_type ((env.header.type .display_type).wrap i))
  | .ok _ => .error (.argerror 1 "output_type: integer expected")

/-- A field that is a string, which stays on the stack. -/
def readString (name : String) (m : Text) (absent : Option Bytes) (c : Config) :
    Except Raised Config :=
  match env.getfield r name with
  | .error e => .error e
  | .ok .nil => .ok (c.setText m absent)
  | .ok (.string s) => .ok (c.setText m (some s))
  | .ok _ => .error (.argerror 1 (name ++ ": string expected"))

/-- The field `action`. -/
def readAction (c : Config) : Except Raised Config :=
  match env.getfield r "action" with
  | .error e => .error e
  | .ok .nil => .ok (c.setAction false)
  | .ok (.function _) | .ok (.cfunction _) => .ok (c.setAction true)
  | .ok _ => .error (.argerror 1 "action: function expected")

def readNumbers (c : Config) : Except Raised Config := do
  let c ← readBoolean env r "keep_tite" .keep_tite c
  let c ← readInteger env r "display_type" .display_type env.header.DISPLAY_LIBDIALOG c
  let c ← readOutputType env r c
  let c ← readBoolean env r "debug" .debug c
  let c ← readInteger env r "display_limit" .display_limit 0 c
  let c ← readInteger env r "label_size" .label_size 28 c
  let c ← readInteger env r "pbar_size" .pbar_size 17 c
  let c ← readInteger env r "dialog_updates_per_second" .dialog_updates_per_second
    (if c.number .display_type = env.header.DISPLAY_XDIALOG then 4 else 16) c
  let c ← readInteger env r "status_updates_per_second" .status_updates_per_second 2 c
  readInteger env r "options" .options 0 c

def readTexts (c : Config) : Except Raised Config := do
  let c ← readString env r "title" .title none c
  let c ← readString env r "backtitle" .backtitle none c
  let c ← readString env r "aprompt" .aprompt none c
  let c ← readString env r "pprompt" .pprompt none c
  let c ← readString env r "msg_done" .msg_done none c
  let c ← readString env r "msg_fail" .msg_fail none c
  let c ← readString env r "msg_pending" .msg_pending none c
  let c ← readString env r "output" .output none c
  let c ← readString env r "status_solo" .status_solo (some env.header.STATUS_SOLO) c
  readString env r "status_many" .status_many (some env.header.STATUS_MANY) c

def readConfig : Except Raised Config := do
  let c ← readNumbers env r .zero
  let c ← readTexts env r c
  readAction env r c

end Fields

/-- `lua_istable` -/
def istable : Option Value → Bool
  | some (.table _) => true
  | _ => false

/-- `l_dpv` up to the files: the configuration it passes, or `NULL`. -/
def l_dpv (env : Env) (L : LuaState R) : Except Raised (Option Config) :=
  let L := L.remove 1
  if istable (L.index 2) then
    match L.index 1 with
    | some .nil => .ok none
    | some (.table r) => (readConfig env r).map some
    | _ => .error (.typeerror 1 "table or nil")
  else .error (.typeerror 2 "table")

/-! ## What is expected -/

/-- The field that is for a member. -/
def Number.field : Number → String
  | .keep_tite => "keep_tite"
  | .display_type => "display_type"
  | .output_type => "output_type"
  | .debug => "debug"
  | .display_limit => "display_limit"
  | .label_size => "label_size"
  | .pbar_size => "pbar_size"
  | .dialog_updates_per_second => "dialog_updates_per_second"
  | .status_updates_per_second => "status_updates_per_second"
  | .options => "options"

def Text.field : Text → String
  | .title => "title"
  | .backtitle => "backtitle"
  | .aprompt => "aprompt"
  | .pprompt => "pprompt"
  | .msg_done => "msg_done"
  | .msg_fail => "msg_fail"
  | .msg_pending => "msg_pending"
  | .output => "output"
  | .status_solo => "status_solo"
  | .status_many => "status_many"

/-- The members that the code takes a boolean for. -/
def Number.IsFlag (m : Number) : Prop := m = .keep_tite ∨ m = .debug

/-- A value that is right for the field: a boolean or an integer.  The manual page has
an integer for `debug`. -/
def Number.Right (m : Number) (v : Value) : Prop :=
  v = .nil ∨ (m.IsFlag ∧ ∃ b, v = .boolean b) ∨ (m ≠ .keep_tite ∧ ∃ i, v = .integer i)

/-- What is in the fields of a table. -/
structure Fields where
  number : Number → Value
  text : Text → Value
  action : Value

/-- The table has these fields, and their values are of the right types. -/
structure Fields.In (f : Fields) (env : Env) (r : Nat) : Prop where
  number : ∀ m, env.getfield r m.field = .ok (f.number m) ∧ m.Right (f.number m)
  text : ∀ m, env.getfield r m.field = .ok (f.text m) ∧
    (f.text m = .nil ∨ ∃ s, f.text m = .string s)
  action : env.getfield r "action" = .ok f.action ∧
    (f.action = .nil ∨ (∃ g, f.action = .function g) ∨ ∃ g, f.action = .cfunction g)

/-- What a member is with this value in its field. -/
def Number.valueOf (H : Header) (m : Number) (absent : Int) : Value → Int
  | .boolean b => if b then 1 else 0
  | .integer i => (H.type m).wrap i
  | _ => absent

def Text.valueOf (absent : Option Bytes) : Value → Option Bytes
  | .string s => some s
  | _ => absent

section Expected
variable (f : Fields) (H : Header)

def Fields.displayType : Int :=
  Number.valueOf H .display_type H.DISPLAY_LIBDIALOG (f.number .display_type)

/-- The defaults. -/
def Fields.absentNumber : Number → Int
  | .keep_tite | .debug | .display_limit | .options => 0
  | .display_type => H.DISPLAY_LIBDIALOG
  | .output_type => H.OUTPUT_NONE
  | .label_size => 28
  | .pbar_size => 17
  | .dialog_updates_per_second => if f.displayType H = H.DISPLAY_XDIALOG then 4 else 16
  | .status_updates_per_second => 2

def absentText : Text → Option Bytes
  | .status_solo => some H.STATUS_SOLO
  | .status_many => some H.STATUS_MANY
  | _ => none

/-- Each member has the value of its own field, or its default. -/
structure Config.Is (c : Config) : Prop where
  number : ∀ m, c.number m = m.valueOf H (f.absentNumber H m) (f.number m)
  text : ∀ m, c.text m = Text.valueOf (absentText H m) (f.text m)
  action : c.action = true ↔ f.action ≠ .nil

/-- Where an integer for `output_type` does no harm: both it and the display type would have
been the value that is there. -/
def Fields.Harmless : Prop :=
  ∀ i, f.number .output_type = .integer i →
    (H.type .output_type).wrap i = 0 ∧ (H.type .display_type).wrap i = f.displayType H

/-- The condition: `debug` is not an integer, and `output_type` is not there or does no
harm. -/
structure Fields.Mapped : Prop where
  debug : ∀ i, f.number .debug ≠ .integer i
  output_type : f.Harmless H

end Expected

/-! ## What is read -/

/-- The display type once the field `output_type` has been read. -/
def Fields.shownType (f : Fields) (H : Header) : Int :=
  match f.number .output_type with
  | .integer i => (H.type .display_type).wrap i
  | _ => f.displayType H

/-- What reading the field `output_type` does. -/
def Fields.setOutputType (f : Fields) (H : Header) (c : Config) : Config :=
  match f.number .output_type with
  | .integer i => c.setNumber .display_type ((H.type .display_type).wrap i)
  | _ => c.setNumber .output_type H.OUTPUT_NONE

/-- The members, as they are read. -/
def Fields.stored (f : Fields) (H : Header) : Number → Int
  | .display_type => f.shownType H
  | .output_type => if f.number .output_type = .nil then H.OUTPUT_NONE else 0
  | .dialog_updates_per_second =>
    Number.valueOf H .dialog_updates_per_second
      (if f.shownType H = H.DISPLAY_XDIALOG then 4 else 16)
      (f.number .dialog_updates_per_second)
  | m => m.valueOf H (f.absentNumber H m) (f.number m)

section Reads
variable {env : Env} {r : Nat} {f : Fields} {c : Config} {name : String} {v : Value}

theorem readBoolean_ok {m : Number} (hget : env.getfield r name = .ok v)
    (hright : v = .nil ∨ ∃ b, v = .boolean b) :
    readBoolean env r name m c = .ok (c.setNumber m (m.valueOf env.header 0 v)) := by
  rw [readBoolean, hget]
  rcases hright with rfl | ⟨b, rfl⟩ <;> rfl

theorem readInteger_ok {m : Number} {absent : Int} (hget : env.getfield r name = .ok v)
    (hright : v = .nil ∨ ∃ i, v = .integer i) :
    readInteger env r name m absent c =
      .ok (c.setNumber m (m.valueOf env.header absent v)) := by
  rw [readInteger, hget]
  rcases hright with rfl | ⟨i, rfl⟩ <;> rfl

theorem readString_ok {m : Text} {absent : Option Bytes} (hget : env.getfield r name = .ok v)
    (hright : v = .nil ∨ ∃ s, v = .string s) :
    readString env r name m absent c = .ok (c.setText m (Text.valueOf absent v)) := by
  rw [readString, hget]
  rcases hright with rfl | ⟨s, rfl⟩ <;> rfl

theorem Fields.In.boolean (h : f.In env r) (name : String) (m : Number) (hname : m.field = name)
    (hboolean : ∀ i, f.number m ≠ .integer i) :
    readBoolean env r name m c = .ok (c.setNumber m (m.valueOf env.header 0 (f.number m))) := by
  subst hname
  obtain ⟨hget, hright⟩ := h.number m
  refine readBoolean_ok hget ?_
  rcases hright with hnil | ⟨-, b, hb⟩ | ⟨-, i, hinteger⟩
  · exact Or.inl hnil
  · exact Or.inr ⟨b, hb⟩
  · exact absurd hinteger (hboolean i)

theorem Fields.In.keep_tite (h : f.In env r) (i : Int) : f.number .keep_tite ≠ .integer i := by
  intro heq
  rcases (h.number .keep_tite).2 with hnil | ⟨-, b, hb⟩ | ⟨htite, -⟩
  · exact Value.noConfusion (heq.symm.trans hnil)
  · exact Value.noConfusion (heq.symm.trans hb)
  · exact htite rfl

theorem Fields.In.integral (h : f.In env r) {m : Number} (hflag : ¬ m.IsFlag) :
    f.number m = .nil ∨ ∃ i, f.number m = .integer i := by
  rcases (h.number m).2 with hnil | ⟨hm, -⟩ | ⟨-, hinteger⟩
  · exact Or.inl hnil
  · exact absurd hm hflag
  · exact Or.inr hinteger

theorem Fields.In.integer (h : f.In env r) (name : String) (m : Number) {absent : Int}
    (hname : m.field = name) (hflag : ¬ m.IsFlag) :
    readInteger env r name m absent c =
      .ok (c.setNumber m (m.valueOf env.header absent (f.number m))) := by
  subst hname
  exact readInteger_ok (h.number m).1 (h.integral hflag)

theorem Fields.In.string (h : f.In env r) (name : String) (m : Text) {absent : Option Bytes}
    (hname : m.field = name) :
    readString env r name m absent c =
      .ok (c.setText m (Text.valueOf absent (f.text m))) := by
  subst hname
  exact readString_ok (h.text m).1 (h.text m).2

theorem not_isFlag {m : Number} (htite : m ≠ .keep_tite) (hdebug : m ≠ .debug) : ¬ m.IsFlag :=
  fun h => h.elim htite hdebug

/-- **The field `output_type`**: an integer goes to the other member. -/
theorem Fields.In.outputType (h : f.In env r) :
    readOutputType env r c = .ok (f.setOutputType env.header c) := by
  obtain ⟨hget, -⟩ := h.number .output_type
  have hget : env.getfield r "output_type" = .ok (f.number .output_type) := hget
  rw [readOutputType, hget, Fields.setOutputType]
  rcases h.integral (not_isFlag (m := .output_type) (by decide) (by decide)) with
    hnil | ⟨i, hinteger⟩
  · rw [hnil]
  · rw [hinteger]

theorem setNumber_number (c : Config) (m m' : Number) (i : Int) :
    (c.setNumber m i).number m' = if m' = m then i else c.number m' :=
  Function.update_apply ..

theorem setText_text (c : Config) (m m' : Text) (s : Option Bytes) :
    (c.setText m s).text m' = if m' = m then s else c.text m' := Function.update_apply ..

@[simp] theorem setText_number (c : Config) (m : Text) (s : Option Bytes) :
    (c.setText m s).number = c.number := rfl

theorem setOutputType_display (hdisplay : c.number .display_type = f.displayType env.header) :
    (f.setOutputType env.header c).number .display_type = f.shownType env.header := by
  rw [Fields.setOutputType, Fields.shownType]
  split
  · rw [setNumber_number, if_pos rfl]
  · rw [setNumber_number, if_neg (by decide), hdisplay]

theorem setOutputType_output (h : f.In env r) (houtput : c.number .output_type = 0) :
    (f.setOutputType env.header c).number .output_type = f.stored env.header .output_type := by
  rw [Fields.setOutputType, Fields.stored]
  rcases h.integral (not_isFlag (m := .output_type) (by decide) (by decide)) with
    hnil | ⟨i, hinteger⟩
  · rw [hnil, if_pos rfl, setNumber_number, if_pos rfl]
  · have hne : Value.integer i ≠ .nil := fun heq => Value.noConfusion heq
    rw [hinteger, if_neg hne, setNumber_number, if_neg (by decide), houtput]

theorem setOutputType_of_ne {m : Number} (hdisplay : m ≠ .display_type)
    (houtput : m ≠ .output_type) :
    (f.setOutputType env.header c).number m = c.number m := by
  rw [Fields.setOutputType]
  split
  · rw [setNumber_number, if_neg hdisplay]
  · rw [setNumber_number, if_neg houtput]

theorem bind_ok {α β : Type} (a : α) (g : α → Except Raised β) : (Except.ok a >>= g) = g a := rfl

/-- **The members that are numbers are read.** -/
theorem Fields.In.readNumbers (h : f.In env r) (hdebug : ∀ i, f.number .debug ≠ .integer i) :
    ∃ c, Dpv.readNumbers env r .zero = .ok c ∧ ∀ m, c.number m = f.stored env.header m := by
  rw [Dpv.readNumbers, h.boolean "keep_tite" .keep_tite rfl h.keep_tite, bind_ok,
    h.integer "display_type" .display_type rfl (not_isFlag (by decide) (by decide)), bind_ok,
    h.outputType, bind_ok, h.boolean "debug" .debug rfl hdebug, bind_ok,
    h.integer "display_limit" .display_limit rfl (not_isFlag (by decide) (by decide)), bind_ok,
    h.integer "label_size" .label_size rfl (not_isFlag (by decide) (by decide)), bind_ok,
    h.integer "pbar_size" .pbar_size rfl (not_isFlag (by decide) (by decide)), bind_ok,
    h.integer "dialog_updates_per_second" .dialog_updates_per_second rfl
      (not_isFlag (by decide) (by decide)), bind_ok,
    h.integer "status_updates_per_second" .status_updates_per_second rfl
      (not_isFlag (by decide) (by decide)), bind_ok,
    h.integer "options" .options rfl (not_isFlag (by decide) (by decide))]
  refine ⟨_, rfl, fun m => ?_⟩
  cases m with
  | display_type =>
    simp only [setNumber_number, reduceCtorEq, if_false]
    exact setOutputType_display (by simp [setNumber_number, Fields.displayType])
  | output_type =>
    simp only [setNumber_number, reduceCtorEq, if_false]
    exact setOutputType_output h rfl
  | dialog_updates_per_second =>
    simp only [setNumber_number, reduceCtorEq, if_false, if_true]
    rw [setOutputType_display (by simp [setNumber_number, Fields.displayType])]
    rfl
  | keep_tite =>
    simp only [setNumber_number, reduceCtorEq, if_false]
    rw [setOutputType_of_ne (by decide) (by decide)]
    rfl
  | _ => rfl

/-- **The texts are read**, each into its own member. -/
theorem Fields.In.readTexts (h : f.In env r) (c : Config) :
    ∃ c', Dpv.readTexts env r c = .ok c' ∧ c'.number = c.number ∧
      ∀ m, c'.text m = Text.valueOf (absentText env.header m) (f.text m) := by
  rw [Dpv.readTexts, h.string "title" .title rfl, bind_ok,
    h.string "backtitle" .backtitle rfl, bind_ok, h.string "aprompt" .aprompt rfl, bind_ok,
    h.string "pprompt" .pprompt rfl, bind_ok, h.string "msg_done" .msg_done rfl, bind_ok,
    h.string "msg_fail" .msg_fail rfl, bind_ok, h.string "msg_pending" .msg_pending rfl, bind_ok,
    h.string "output" .output rfl, bind_ok, h.string "status_solo" .status_solo rfl, bind_ok,
    h.string "status_many" .status_many rfl]
  refine ⟨_, rfl, rfl, fun m => ?_⟩
  simp only [setText_text]
  cases m <;> rfl

theorem Fields.In.readAction (h : f.In env r) (c : Config) :
    ∃ b, Dpv.readAction env r c = .ok (c.setAction b) ∧ (b = true ↔ f.action ≠ .nil) := by
  obtain ⟨hget, hright⟩ := h.action
  rw [Dpv.readAction, hget]
  rcases hright with hnil | ⟨g, hfunction⟩ | ⟨g, hfunction⟩
  · rw [hnil]
    exact ⟨false, rfl, by simp⟩
  · rw [hfunction]
    exact ⟨true, rfl, by simp⟩
  · rw [hfunction]
    exact ⟨true, rfl, by simp⟩

/-- **What is read**: the texts and the action are right, and the numbers are those of
`stored`. -/
theorem Fields.In.readConfig (h : f.In env r) (hdebug : ∀ i, f.number .debug ≠ .integer i) :
    ∃ c, Dpv.readConfig env r = .ok c ∧ (∀ m, c.number m = f.stored env.header m) ∧
      (∀ m, c.text m = Text.valueOf (absentText env.header m) (f.text m)) ∧
      (c.action = true ↔ f.action ≠ .nil) := by
  obtain ⟨c₁, hnumbers, hnumber⟩ := h.readNumbers hdebug
  obtain ⟨c₂, htexts, hsame, htext⟩ := h.readTexts c₁
  obtain ⟨b, haction, hb⟩ := h.readAction c₂
  refine ⟨c₂.setAction b, ?_, fun m => ?_, htext, hb⟩
  · rw [Dpv.readConfig, hnumbers, bind_ok, htexts, bind_ok, haction]
  · rw [← hnumber m, ← hsame]
    rfl

/-- With an integer for `debug` nothing is read. -/
theorem Fields.In.readConfig_debug (h : f.In env r) {i : Int}
    (hdebug : f.number .debug = .integer i) :
    Dpv.readConfig env r = .error (.argerror 1 "debug: boolean expected") := by
  have hget : env.getfield r "debug" = .ok (.integer i) := by
    rw [← hdebug]
    exact (h.number .debug).1
  rw [Dpv.readConfig, Dpv.readNumbers, h.boolean "keep_tite" .keep_tite rfl h.keep_tite, bind_ok,
    h.integer "display_type" .display_type rfl (not_isFlag (by decide) (by decide)), bind_ok,
    h.outputType, bind_ok, readBoolean, hget]
  rfl

end Reads

section Mapping
variable {env : Env} {r : Nat} {f : Fields} {H : Header}

/-- **The members that are read are those that are expected** where the field `output_type`
does no harm. -/
theorem Fields.stored_eq (hharmless : f.Harmless H)
    (hright : f.number .output_type = .nil ∨ ∃ i, f.number .output_type = .integer i)
    (m : Number) : f.stored H m = m.valueOf H (f.absentNumber H m) (f.number m) := by
  have hshown : f.shownType H = f.displayType H := by
    rw [Fields.shownType]
    split
    · exact (hharmless _ ‹_›).2
    · rfl
  cases m with
  | display_type => exact hshown
  | dialog_updates_per_second => rw [Fields.stored, hshown]; rfl
  | output_type =>
    rw [Fields.stored]
    rcases hright with hnil | ⟨i, hinteger⟩
    · rw [hnil]
      rfl
    · rw [hinteger]
      exact (hharmless i hinteger).1.symm
  | _ => rfl

theorem Fields.harmless_of_stored
    (hstored : ∀ m, f.stored H m = m.valueOf H (f.absentNumber H m) (f.number m)) :
    f.Harmless H := by
  intro i hi
  constructor
  · have houtput := hstored .output_type
    rw [Fields.stored, hi] at houtput
    exact houtput.symm
  · have hdisplay := hstored .display_type
    rw [Fields.stored, Fields.shownType, hi] at hdisplay
    exact hdisplay

/-- A call with a table for the configuration, and one for the files. -/
structure IsCall (L : LuaState R) (r : Nat) : Prop where
  config : (L.remove 1).index 1 = some (.table r)
  files : istable ((L.remove 1).index 2) = true

/-- **A call is as expected** if the configuration it passes has in each member the value of its
own field, or its default. -/
def Conforms (env : Env) (L : LuaState R) (f : Fields) : Prop :=
  ∃ c, l_dpv env L = .ok (some c) ∧ c.Is f env.header

variable {L : LuaState R}

theorem conforms_of_mapped (hcall : IsCall L r) (h : f.In env r) (hmapped : f.Mapped env.header) :
    Conforms env L f := by
  obtain ⟨c, hread, hnumber, htext, haction⟩ := h.readConfig hmapped.debug
  have hright := h.integral (not_isFlag (m := .output_type) (by decide) (by decide))
  refine ⟨c, ?_, fun m => ?_, htext, haction⟩
  · simp only [l_dpv, hcall.files, if_true, hcall.config, hread]
    rfl
  · rw [hnumber m, Fields.stored_eq hmapped.output_type hright]

theorem mapped_of_conforms (hcall : IsCall L r) (h : f.In env r) (hconforms : Conforms env L f) :
    f.Mapped env.header := by
  obtain ⟨c, hdpv, his⟩ := hconforms
  have hread : Dpv.readConfig env r = .ok c := by
    simp only [l_dpv, hcall.files, if_true, hcall.config] at hdpv
    cases hresult : Dpv.readConfig env r with
    | error e =>
      rw [hresult] at hdpv
      cases hdpv
    | ok c' =>
      rw [hresult] at hdpv
      cases hdpv
      rfl
  have hdebug (i : Int) : f.number .debug ≠ .integer i := by
    intro heq
    rw [h.readConfig_debug heq] at hread
    cases hread
  obtain ⟨c', hread', hnumber, -⟩ := h.readConfig hdebug
  cases hread.symm.trans hread'
  exact ⟨hdebug, Fields.harmless_of_stored (fun m => (hnumber m).symm.trans (his.number m))⟩

/-- **When each field sets its own member**: `debug` is not an integer, and `output_type` is not
given, or does no harm. -/
theorem mapped_iff (hcall : IsCall L r) (h : f.In env r) :
    Conforms env L f ↔ f.Mapped env.header :=
  ⟨mapped_of_conforms hcall h, conforms_of_mapped hcall h⟩

end Mapping

/-! ## Two calls -/

/-- Enumerations are unsigned, and the options have 16 bits. -/
def sampleHeader : Header where
  type m := if m = .display_type ∨ m = .output_type then .uint32
    else if m = .options then .uint16 else .int
  DISPLAY_LIBDIALOG := 0
  DISPLAY_XDIALOG := 3
  OUTPUT_NONE := 0
  STATUS_SOLO := [37, 115]
  STATUS_MANY := [37, 100]

/-- A table with these integers and no other fields. -/
def sampleEnv (given : String → Option Int) : Env where
  header := sampleHeader
  getfield _ name := .ok (((given name).map .integer).getD .nil)

def sampleFields (given : String → Option Int) : Fields where
  number m := ((given m.field).map .integer).getD .nil
  text _ := .nil
  action := .nil

def sampleCall : LuaState noFunctions := ⟨[.table 0, .table 1, .table 2], [], 0⟩

theorem sampleCall_isCall : IsCall sampleCall 1 := ⟨by decide, by decide⟩

/-- `{display_type = dpv.display.XDIALOG, options = 1}` -/
def shownOptions (name : String) : Option Int :=
  if name = "display_type" then some 3 else if name = "options" then some 1 else none

theorem shownOptions_in : (sampleFields shownOptions).In (sampleEnv shownOptions) 1 where
  number m := by
    refine ⟨rfl, ?_⟩
    cases m with
    | display_type => exact Or.inr (Or.inr ⟨by decide, 3, by decide⟩)
    | options => exact Or.inr (Or.inr ⟨by decide, 1, by decide⟩)
    | _ => exact Or.inl (by decide)
  text m := ⟨by cases m <;> decide, Or.inl rfl⟩
  action := ⟨by decide, Or.inl rfl⟩

theorem shownOptions_conforms :
    Conforms (sampleEnv shownOptions) sampleCall (sampleFields shownOptions) := by
  refine (mapped_iff sampleCall_isCall shownOptions_in).mpr ⟨fun i heq => ?_, fun i heq => ?_⟩
  · exact Value.noConfusion heq
  · exact Value.noConfusion heq

/-- `{output_type = dpv.output.FILE}` -/
def fileOutput (name : String) : Option Int := if name = "output_type" then some 1 else none

theorem fileOutput_in : (sampleFields fileOutput).In (sampleEnv fileOutput) 1 where
  number m := by
    refine ⟨rfl, ?_⟩
    cases m with
    | output_type => exact Or.inr (Or.inr ⟨by decide, 1, by decide⟩)
    | _ => exact Or.inl (by decide)
  text m := ⟨by cases m <;> decide, Or.inl rfl⟩
  action := ⟨by decide, Or.inl rfl⟩

theorem fileOutput_not_conforms :
    ¬ Conforms (sampleEnv fileOutput) sampleCall (sampleFields fileOutput) := by
  intro h
  have hmapped := mapped_of_conforms sampleCall_isCall fileOutput_in h
  exact absurd (hmapped.output_type 1 (by decide)).1 (by decide)

end Dpv
end FluaLibs
