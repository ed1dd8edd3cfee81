import FluaLibs.FixedWidth
import FluaLibs.LuaArguments
import Mathlib.Data.List.Basic
import Mathlib.Logic.Function.Basic

/-! # The configuration of a dialog

A `struct bsddialog_conf` in a userdata is read and written by field, by `__index` and
`__newindex`; a field of one of its structs has a key with a dot, and `conf.button` is a proxy
that puts the dotted key together.  The strings are copies, which are freed when another value
is written and when the userdata is collected.  What the library needs of them is in another
header, which also has the types of the integers.
-/
namespace FluaLibs
namespace Dialog
open LuaArguments

abbrev Bytes : Type := List UInt8

/-- The bytes of a literal of the source. -/
def literal (s : String) : Bytes := s.toList.map (fun c => UInt8.ofNat c.toNat)

/-! ## The fields -/

/-- The structs in the configuration. -/
inductive Group where
  | key
  | text
  | menu
  | form
  | date
  | button
  deriving DecidableEq

def Group.name : Group → String
  | key => "key"
  | text => "text"
  | menu => "menu"
  | form => "form"
  | date => "date"
  | button => "button"

inductive Field where
  | ascii_lines | auto_minheight | auto_minwidth | auto_topmargin | auto_downmargin
  | bottomtitle | clear | no_lines | shadow | sleep | title | y | x
  | enable_esc | f1_file | f1_message
  | cols_per_row | escape | tablen
  | align_left | no_desc | no_name | shortcut_buttons
  | securech
  | format
  | always_active | left1_label | left2_label | left3_label | without_ok | ok_label | with_extra
  | extra_label | without_cancel | cancel_label | default_cancel | with_help | help_label
  | right1_label | right2_label | right3_label | generic1_label | generic2_label | default_label
  deriving DecidableEq

/-- What the macros `B`, `I` and `S` are for, and the one field that is a character. -/
inductive Kind where
  | boolean
  | integer
  | string
  | char
  deriving DecidableEq

namespace Field

def group : Field → Option Group
  | enable_esc | f1_file | f1_message => some .key
  | cols_per_row | escape | tablen => some .text
  | align_left | no_desc | no_name | shortcut_buttons => some .menu
  | securech => some .form
  | format => some .date
  | always_active | left1_label | left2_label | left3_label | without_ok | ok_label | with_extra
  | extra_label | without_cancel | cancel_label | default_cancel | with_help | help_label
  | right1_label | right2_label | right3_label | generic1_label | generic2_label
  | default_label => some .button
  | _ => none

def name : Field → String
  | ascii_lines => "ascii_lines"
  | auto_minheight => "auto_minheight"
  | auto_minwidth => "auto_minwidth"
  | auto_topmargin => "auto_topmargin"
  | auto_downmargin => "auto_downmargin"
  | bottomtitle => "bottomtitle"
  | clear => "clear"
  | no_lines => "no_lines"
  | shadow => "shadow"
  | sleep => "sleep"
  | title => "title"
  | y => "y"
  | x => "x"
  | enable_esc => "enable_esc"
  | f1_file => "f1_file"
  | f1_message => "f1_message"
  | cols_per_row => "cols_per_row"
  | escape => "escape"
  | tablen => "tablen"
  | align_left => "align_left"
  | no_desc => "no_desc"
  | no_name => "no_name"
  | shortcut_buttons => "shortcut_buttons"
  | securech => "securech"
  | format => "format"
  | always_active => "always_active"
  | left1_label => "left1_label"
  | left2_label => "left2_label"
  | left3_label => "left3_label"
  | without_ok => "without_ok"
  | ok_label => "ok_label"
  | with_extra => "with_extra"
  | extra_label => "extra_label"
  | without_cancel => "without_cancel"
  | cancel_label => "cancel_label"
  | default_cancel => "default_cancel"
  | with_help => "with_help"
  | help_label => "help_label"
  | right1_label => "right1_label"
  | right2_label => "right2_label"
  | right3_label => "right3_label"
  | generic1_label => "generic1_label"
  | generic2_label => "generic2_label"
  | default_label => "default_label"

/-- The key that the field is compared with. -/
def key (f : Field) : Bytes :=
  match f.group with
  | some g => literal g.name ++ literal "." ++ literal f.name
  | none => literal f.name

def kind : Field → Kind
  | ascii_lines | clear | no_lines | shadow | enable_esc | escape | align_left | no_desc | no_name
  | shortcut_buttons | always_active | without_ok | with_extra | without_cancel | default_cancel
  | with_help => .boolean
  | auto_minheight | auto_minwidth | auto_topmargin | auto_downmargin | sleep | y | x
  | cols_per_row | tablen => .integer
  | securech => .char
  | bottomtitle | title | f1_file | f1_message | format | left1_label | left2_label | left3_label
  | ok_label | extra_label | cancel_label | help_label | right1_label | right2_label
  | right3_label | generic1_label | generic2_label | default_label => .string

/-- Some fields are there with one version of the library; `v` says that the major version is
1. -/
def available (v : Bool) : Field → Bool
  | escape | format | left1_label | left2_label | left3_label | right1_label | right2_label
  | right3_label => v
  | generic1_label | generic2_label => !v
  | _ => true

end Field

/-! What each of the three functions looks at, in this order. -/

/-- The fields that `l_bsddialog_conf_index` reads. -/
def indexed (v : Bool) : List Field :=
  List.filter (Field.available v)
    [.ascii_lines, .auto_minheight, .auto_minwidth, .auto_topmargin, .auto_downmargin,
      .bottomtitle, .clear, .no_lines, .shadow, .sleep, .title, .y, .x, .enable_esc, .f1_file,
      .f1_message, .cols_per_row, .escape, .tablen, .align_left, .no_desc, .no_name,
      .shortcut_buttons, .securech, .format, .always_active, .left1_label, .left2_label,
      .left3_label, .without_ok, .ok_label, .with_extra, .extra_label, .without_cancel,
      .cancel_label, .default_cancel, .with_help, .help_label, .right1_label, .right2_label,
      .right3_label, .generic1_label, .generic2_label, .default_label]

/-- The fields that `l_bsddialog_conf_newindex` writes. -/
def assigned (v : Bool) : List Field :=
  List.filter (Field.available v)
    [.ascii_lines, .auto_minheight, .auto_minwidth, .auto_topmargin, .auto_downmargin,
      .bottomtitle, .clear, .no_lines, .shadow, .sleep, .title, .y, .x, .enable_esc, .f1_file,
      .f1_message, .cols_per_row, .escape, .tablen, .align_left, .no_desc, .no_name,
      .shortcut_buttons, .securech, .format, .always_active, .left1_label, .left2_label,
      .left3_label, .without_ok, .ok_label, .with_extra, .extra_label, .without_cancel,
      .cancel_label, .default_cancel, .with_help, .help_label, .right1_label, .right2_label,
      .right3_label, .generic1_label, .generic2_label, .default_label]

/-- The fields that `l_bsddialog_conf_gc` frees. -/
def freed (v : Bool) : List Field :=
  List.filter (Field.available v)
    [.bottomtitle, .title, .f1_file, .f1_message, .format, .left1_label, .left2_label,
      .left3_label, .ok_label, .extra_label, .cancel_label, .help_label, .right1_label,
      .right2_label, .right3_label, .generic1_label, .generic2_label, .default_label]

/-- The keys that have a proxy. -/
def proxied (v : Bool) : List Group :=
  List.filter (fun g => v || g ≠ .date) [.key, .text, .menu, .form, .date, .button]

/-! ## The code -/

/-- `struct bsddialog_conf`; the strings are pointers. -/
structure Conf where
  booleans : Field → Bool
  integers : Field → Int
  strings : Field → Option Nat
  securech : UInt8

/-- A userdata, which may have been collected. -/
structure Userdata where
  conf : Conf
  collected : Bool

/-- The allocator has a C string at each address that is in use; `fault` says that something
was freed or read that is not in use, or that `NULL` was followed. -/
structure State where
  userdata : List Userdata
  heap : Nat → Option Bytes
  fault : Bool

/-- How Lua and the allocator answer when a string is written: where the copy is, that there is
no memory for it, or that Lua has no memory to write a number. -/
inductive Memory where
  | copy (address : Nat)
  | exhausted
  | raised
  deriving DecidableEq

/-- What a call gives. -/
inductive Reply where
  | raised (message : Bytes)
  | nothing
  | value (v : Value)
  | proxy (u : Nat) (parent : Bytes)

/-- The configuration of the build: how Lua reads and writes numbers, whether the library has
the major version 1, and the types of the integers. -/
structure Build where
  host : Host
  v : Bool
  type : Field → IntType

section Code
variable (b : Build)

/-- `lua_toboolean` -/
def toboolean : Value → Bool
  | .nil | .boolean false => false
  | _ => true

/-- `lua_tointeger` -/
def tointeger (x : Value) : Int := (LuaNumbers.tointegerx b.host.cvt x).getD 0

/-- The first character of a C string. -/
def firstChar (s : Bytes) : UInt8 := s.headD 0

/-- A field that is read, and whether this reads what is not there. -/
def readField (heap : Nat → Option Bytes) (c : Conf) (f : Field) : Value × Bool :=
  match f.kind with
  | .boolean => (.boolean (c.booleans f), false)
  | .integer => (.integer (IntType.back (c.integers f)), false)
  | .char => (.string (cstr [c.securech]), false)
  | .string =>
    match c.strings f with
    | none => (.nil, false)
    | some a =>
      match heap a with
      | some s => (.string s, false)
      | none => (.nil, true)

/-- The field with some key; a key counts up to its first NUL. -/
def findField (fields : List Field) (key : Bytes) : Option Field :=
  fields.find? (fun f => f.key = cstr key)

namespace State
variable (s : State)

/-- The configuration in a userdata that is there. -/
def conf (u : Nat) : Option Conf :=
  (s.userdata[u]?).bind (fun d => if d.collected then none else some d.conf)

def setConf (u : Nat) (c : Conf) : State :=
  { s with userdata := s.userdata.set u ⟨c, false⟩ }

/-- `free` -/
def free : Option Nat → State
  | none => s
  | some a =>
    match s.heap a with
    | some _ => { s with heap := Function.update s.heap a none }
    | none => { s with fault := true }

/-- `strdup`, at an address that is not in use. -/
def strdup (a : Nat) (x : Bytes) : State :=
  { s with heap := Function.update s.heap a (some (cstr x)) }

end State

def l_bsddialog_conf_index (s : State) (u : Nat) (c : Conf) (key : Bytes) : State × Reply :=
  match (proxied b.v).find? (fun g => literal g.name = cstr key) with
  | some _ => (s, .proxy u key)
  | none =>
    match findField (indexed b.v) key with
    | some f =>
      let r := readField s.heap c f
      ({ s with fault := s.fault || r.2 }, .value r.1)
    | none => (s, .value .nil)

def noField (key : Bytes) : Bytes :=
  literal "no such config field " ++ [96] ++ cstr key ++ literal "'"

def noMemory : Bytes := literal "not enough memory"

/-- The macro `S`: the old string is freed first. -/
def writeString (s : State) (u : Nat) (c : Conf) (f : Field) (x : Value) (m : Memory) :
    State × Reply :=
  let s := s.free (c.strings f)
  let null := s.setConf u { c with strings := Function.update c.strings f none }
  match m, tolstring b.host x with
  | .raised, _ => (s, .raised noMemory)
  | _, none => (null, .nothing)
  | .exhausted, some _ => (null, .raised (literal "no memory"))
  | .copy a, some x =>
    ((s.strdup a x).setConf u { c with strings := Function.update c.strings f (some a) }, .nothing)

def l_bsddialog_conf_newindex (s : State) (u : Nat) (c : Conf) (key : Bytes) (x : Value)
    (m : Memory) : State × Reply :=
  match findField (assigned b.v) key with
  | none => (s, .raised (noField key))
  | some f =>
    match f.kind with
    | .boolean =>
      (s.setConf u { c with booleans := Function.update c.booleans f (toboolean x) }, .nothing)
    | .integer =>
      (s.setConf u { c with
        integers := Function.update c.integers f ((b.type f).wrap (tointeger b x)) }, .nothing)
    | .string => writeString b s u c f x m
    | .char =>
      match m, tolstring b.host x with
      | .raised, _ => (s, .raised noMemory)
      | _, none => ({ s with fault := true }, .nothing)
      | _, some x => (s.setConf u { c with securech := firstChar x }, .nothing)

def l_bsddialog_conf_gc (s : State) (u : Nat) (c : Conf) : State :=
  let s := (freed b.v).foldl (fun s f => s.free (c.strings f)) s
  { s with userdata := s.userdata.set u ⟨c, true⟩ }

/-- `l_bsddialog_initconf`, with what the library puts in. -/
def l_bsddialog_initconf (s : State) (c : Conf) : State :=
  { s with userdata := s.userdata ++ [⟨c, false⟩] }

/-! A proxy calls the configuration with `parent.child`. -/

def dotted (parent child : Bytes) : Bytes := cstr parent ++ literal "." ++ cstr child

def l_bsddialog_conf_proxy_index (s : State) (u : Nat) (c : Conf) (parent child : Bytes) :
    State × Reply :=
  l_bsddialog_conf_index b s u c (dotted parent child)

def l_bsddialog_conf_proxy_newindex (s : State) (u : Nat) (c : Conf) (parent child : Bytes)
    (x : Value) (m : Memory) : State × Reply :=
  l_bsddialog_conf_newindex b s u c (dotted parent child) x m

end Code

/-! ## The keys -/

/-- No key is there twice, and none has a NUL. -/
theorem indexed_keys (v : Bool) : ((indexed v).map Field.key).Nodup := by
  cases v <;> decide +kernel

theorem cstr_key {v : Bool} {f : Field} (hf : f ∈ indexed v) : cstr f.key = f.key := by
  revert f
  cases v <;> decide +kernel

/-- No field has the key of a proxy. -/
theorem find_proxied_key {v : Bool} {f : Field} (hf : f ∈ indexed v) :
    (proxied v).find? (fun g => literal g.name = cstr f.key) = none := by
  revert f
  cases v <;> decide +kernel

theorem find_proxied_name {v : Bool} {g : Group} (hg : g ∈ proxied v) :
    (proxied v).find? (fun g' => literal g'.name = cstr (literal g.name)) = some g := by
  revert g
  cases v <;> decide +kernel

theorem freed_eq (v : Bool) : freed v = (indexed v).filter (fun f => f.kind = .string) := by
  cases v <;> decide

/-- The key of a field of a struct is that of the proxy, a dot, and a name. -/
theorem dotted_group {v : Bool} {f : Field} (hf : f ∈ indexed v) : ∀ g ∈ f.group,
    g ∈ proxied v ∧ dotted (literal g.name) (literal f.name) = f.key := by
  revert f
  cases v <;> decide +kernel

theorem findField_key {v : Bool} {f : Field} (hf : f ∈ indexed v) :
    findField (indexed v) f.key = some f := by
  have hkey : ∀ g ∈ indexed v, g.key = f.key → g = f := by
    intro g hg heq
    exact List.inj_on_of_nodup_map (indexed_keys v) hg hf heq
  rw [findField, cstr_key hf]
  cases hfind : (indexed v).find? (fun g => g.key = f.key) with
  | none =>
    have hnone := List.find?_eq_none.mp hfind f hf
    simp at hnone
  | some g =>
    have heq : g.key = f.key := by simpa using List.find?_some hfind
    rw [hkey g (List.mem_of_find?_eq_some hfind) heq]

end Dialog
end FluaLibs
