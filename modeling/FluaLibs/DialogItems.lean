import FluaLibs.CountedReads
import FluaLibs.DialogFields

/-! # The items of a dialog

A dialog with items makes an array of structs from a table of tables, with copies of the strings
in it, shows them, and frees them.  The items are read in the middle of the arguments, and an
element that is no table, a field that raises an error or an argument behind them ends the
function with all that has been read.  The labels of `mixedgauge` are the ones that are not
looked at after `strdup`.
-/
namespace FluaLibs
namespace Dialog
open LuaArguments Held

/-- What a dialog reads.  A table is known by the place that it is found at: `[]` is the table in
the arguments, `[i]` what is at `i + 1` in it, and with the items of a group `[g]` is their table
and `[g, i]` one of them. -/
structure ItemEnv where
  host : Host
  /-- There is a `struct bsddialog_conf` in the userdata. -/
  isConf : Nat → Bool
  /-- The version of the library is 1 or later. -/
  v : Bool
  type : String → IntType
  len : List Nat → Except Raised Int
  geti : List Nat → Nat → Except Raised Value
  getfield : List Nat → String → Except Raised Value
  calloc : List Nat → Bool
  strdup : List Nat → String → Bool

/-- The members of a struct that are read from the fields with their names. -/
structure Layout where
  texts : List String
  booleans : List String
  numbers : List String

/-- `struct bsddialog_menuitem` -/
def menuitem : Layout := ⟨["prefix", "name", "desc", "bottomdesc"], ["on"], ["depth"]⟩

/-- `struct bsddialog_formitem` -/
def formitem : Layout :=
  ⟨["label", "init", "bottomdesc"], [],
    ["ylabel", "xlabel", "yfield", "xfield", "fieldlen", "maxvaluelen", "flags"]⟩

structure Item where
  texts : List (Option Copy)
  booleans : List Bool
  numbers : List Int

/-- What the library sees of an item. -/
structure ItemView where
  texts : List (Option Bytes)
  booleans : List Bool
  numbers : List Int
  deriving DecidableEq

def copyAddresses (c : Option Copy) : List Nat := (c.map Copy.address).toList

def Item.view (item : Item) : ItemView :=
  ⟨item.texts.map (fun c => c.map Copy.text), item.booleans, item.numbers⟩

def Item.addresses (item : Item) : List Nat := item.texts.flatMap copyAddresses

structure Items where
  array : Nat
  items : List Item

/-- The number is kept in an `unsigned int`. -/
def Items.nitems (items : Items) : Nat := items.items.length % 2 ^ 32

/-- The items that the library is told of. -/
def Items.handed (items : Items) : List Item := items.items.take items.nitems

def Items.addresses (items : Items) : List Nat :=
  items.array :: items.items.flatMap Item.addresses

/-! ## Reading -/

section Check
variable (env : ItemEnv)

/-- `luaL_checktype(L, arg, LUA_TTABLE)` -/
def checktable (arg : Int) : Option Value → Except Raised Unit
  | some (.table _) => .ok ()
  | _ => .error (.typeerror arg "table")

def noMemoryError : Raised := .error "no memory"

/-- The macro `COPYSTRING`. -/
def COPYSTRING (place : List Nat) (field : String) : Code Raised (Option Copy) := do
  let v ← Code.ofExcept (env.getfield place field)
  match tolstring env.host v with
  | none => pure none
  | some s =>
    match ← Code.malloc (env.strdup place field) with
    | some a => pure (some ⟨a, cstr s⟩)
    | none => Code.raise noMemoryError

def fieldInteger (field : String) (v : Value) : Int :=
  (env.type field).wrap ((LuaNumbers.tointegerx env.host.cvt v).getD 0)

def getboolean (place : List Nat) (field : String) : Except Raised Bool :=
  (env.getfield place field).map toboolean

def getinteger (place : List Nat) (field : String) : Except Raised Int :=
  (env.getfield place field).map (fieldInteger env field)

def checkitem (layout : Layout) (place : List Nat) : Code Raised Item := do
  let texts ← Code.forEach (COPYSTRING env place) layout.texts
  let booleans ← Code.forEach (fun f => Code.ofExcept (getboolean env place f)) layout.booleans
  let numbers ← Code.forEach (fun f => Code.ofExcept (getinteger env place f)) layout.numbers
  pure ⟨texts, booleans, numbers⟩

/-- A length, and whether there is memory for an array of it. -/
def callocFits (place : List Nat) (len : Int) : Bool := decide (0 ≤ len) && env.calloc place

/-- The element at `i + 1`, which is to be a table. -/
def gettable (place : List Nat) (i : Nat) : Except Raised Unit := do
  let v ← env.geti place (i + 1)
  checktable (-1) (some v)

/-- `checkmenuitems` and `checkformitems` -/
def checkitems (layout : Layout) (arg : Int) (place : List Nat) (v : Option Value) :
    Code Raised Items := do
  Code.ofExcept (checktable arg v)
  let len ← Code.ofExcept (env.len place)
  match ← Code.malloc (callocFits env place len) with
  | none => Code.raise noMemoryError
  | some array =>
    let items ← Code.forEach (fun i => do
      Code.ofExcept (gettable env place i)
      checkitem env layout (place ++ [i])) (List.range len.toNat)
    pure ⟨array, items⟩

/-- A group has a type, and its items. -/
structure MenuGroup where
  type : Int
  items : Items

structure MenuGroups where
  array : Nat
  groups : List MenuGroup

def MenuGroups.handed (groups : MenuGroups) : List MenuGroup :=
  groups.groups.take (groups.groups.length % 2 ^ 32)

def MenuGroups.addresses (groups : MenuGroups) : List Nat :=
  groups.array :: groups.groups.flatMap (fun g => g.items.addresses)

def checkmenugroups (arg : Int) (v : Option Value) : Code Raised MenuGroups := do
  Code.ofExcept (checktable arg v)
  let len ← Code.ofExcept (env.len [])
  match ← Code.malloc (callocFits env [] len) with
  | none => Code.raise noMemoryError
  | some array =>
    let groups ← Code.forEach (fun g => do
      Code.ofExcept (gettable env [] g)
      let type ← Code.ofExcept (getinteger env [g] "type")
      let v ← Code.ofExcept (env.getfield [g] "items")
      let items ← checkitems env menuitem (-1) [g] (some v)
      pure (⟨type, items⟩ : MenuGroup)) (List.range len.toNat)
    pure ⟨array, groups⟩

/-- A label and a percentage. -/
structure Minibar where
  label : Option Copy
  perc : Int

structure Minibars where
  labels : Nat
  percs : Nat
  bars : List Minibar

def Minibars.handed (bars : Minibars) : List Minibar :=
  bars.bars.take (bars.bars.length % 2 ^ 32)

def Minibars.addresses (bars : Minibars) : List Nat :=
  bars.labels :: bars.percs :: bars.bars.flatMap (fun b => copyAddresses b.label)

def getlabel (i : Nat) : Except Raised Bytes := do
  let v ← env.geti [i] 1
  checklstring env.host (-1) (some v)

def getperc (i : Nat) : Except Raised Int := do
  let v ← env.geti [i] 2
  let perc ← checkinteger env.host (-1) (some v)
  pure (IntType.int.wrap perc)

/-- The two arrays are asked for before either is looked at. -/
def checkminibars (arg : Int) (v : Option Value) : Code Raised Minibars := do
  Code.ofExcept (checktable arg v)
  let len ← Code.ofExcept (env.len [])
  let labels ← Code.malloc (callocFits env [0] len)
  let percs ← Code.malloc (callocFits env [1] len)
  match labels, percs with
  | some labels, some percs =>
    let bars ← Code.forEach (fun i => do
      Code.ofExcept (gettable env [] i)
      let s ← Code.ofExcept (getlabel env i)
      let p ← Code.malloc (env.strdup [i] "label")
      let perc ← Code.ofExcept (getperc env i)
      pure (⟨p.map (fun a => ⟨a, cstr s⟩), perc⟩ : Minibar)) (List.range len.toNat)
    pure ⟨labels, percs, bars⟩
  | _, _ => Code.raise noMemoryError

end Check

/-! ## Freeing -/

/-- `freemenuitems` -/
def freemenuitems (items : Items) : Code Raised Unit := do
  Code.freeAll (items.handed.reverse.flatMap Item.addresses)
  Code.free items.array

/-- The values are the ones that the library has put into the items. -/
def freeformitems (items : Items) (values : List (Option Copy)) : Code Raised Unit := do
  Code.freeAll ((values.zip items.handed).reverse.flatMap
    (fun p => copyAddresses p.1 ++ p.2.addresses))
  Code.free items.array

def freemenugroups (groups : MenuGroups) : Code Raised Unit := do
  Code.forAll (fun g => freemenuitems g.items) groups.handed.reverse
  Code.free groups.array

def freeminibars (bars : Minibars) : Code Raised Unit := do
  Code.freeAll (bars.handed.reverse.flatMap (fun b => copyAddresses b.label))
  Code.free bars.labels
  Code.free bars.percs

/-! ## The dialogs -/

/-- The arguments of a dialog: the text, and two numbers, and another one. -/
structure DialogArgs where
  text : Bytes
  rows : Int
  cols : Int
  number : Int

/-- The dialogs that a menu is shown in. -/
inductive ListDialog where
  | checklist | menu | radiolist
  deriving DecidableEq

def ListDialog.name : ListDialog → String
  | .checklist => "bsddialog_checklist"
  | .menu => "bsddialog_menu"
  | .radiolist => "bsddialog_radiolist"

/-- What is returned for the item that has the focus. -/
def ListDialog.focus : ListDialog → Int → Int
  | .checklist, i => i + 1
  | .menu, i => i + 1
  | .radiolist, i => i

/-- What the library says when it is shown some items.  A form may have a value for each item. -/
structure DialogLibrary where
  ERROR : Int
  geterror : String
  list : ListDialog → DialogArgs → List ItemView → Int → Int × Int
  form : DialogArgs → List ItemView → Option Int → Int × (Nat → Option Bytes) × Int
  mixedgauge : DialogArgs → List (Option Bytes × Int) → Int
  mixedlist : DialogArgs → List (Int × List ItemView) → Int → Int → Int × Int × Int

/-- A value that is returned; a table has strings, and nothing where there is none. -/
inductive Pushed where
  | integer (i : Int)
  | strings (s : List (Option Bytes))
  deriving DecidableEq

section Dialogs
variable (env : ItemEnv) (lib : DialogLibrary) (args : Nat → Option Value)

def checkconf : Except Raised Unit :=
  match args 1 with
  | some (.userdata u) =>
    if env.isConf u = true then .ok () else .error (.typeerror 1 "struct bsddialog_conf *")
  | _ => .error (.typeerror 1 "struct bsddialog_conf *")

def checkargs : Except Raised DialogArgs := do
  checkconf env args
  let text ← checklstring env.host 2 (args 2)
  let rows ← checkinteger env.host 3 (args 3)
  let cols ← checkinteger env.host 4 (args 4)
  let number ← checkinteger env.host 5 (args 5)
  pure ⟨cstr text, IntType.int.wrap rows, IntType.int.wrap cols, IntType.uint32.wrap number⟩

/-- An error of the library. -/
def libraryError (name : String) : Raised := .error (name ++ ": " ++ lib.geterror)

/-- `checklist`, `menu` and `radiolist`: the arguments. -/
def readlist : Code Raised (DialogArgs × Items × Int) := do
  let a ← Code.ofExcept (checkargs env args)
  let items ← checkitems env menuitem 6 [] (args 6)
  let i ← Code.ofExcept (checkinteger env.host 7 (args 7))
  pure (a, items, IntType.int.wrap (i - 1))

/-- `checklist`, `menu` and `radiolist`. -/
def listDialog (d : ListDialog) : Code Raised (List Pushed) := do
  let (a, items, focus) ← readlist env args
  Code.touchAll items.addresses
  let (rv, focus) := lib.list d a (items.handed.map Item.view) focus
  freemenuitems items
  if rv = lib.ERROR then Code.raise (libraryError lib d.name)
  else pure [.integer rv, .integer (d.focus focus)]

def l_bsddialog_checklist : Code Raised (List Pushed) := listDialog env lib args .checklist

def l_bsddialog_menu : Code Raised (List Pushed) := listDialog env lib args .menu

def l_bsddialog_radiolist : Code Raised (List Pushed) := listDialog env lib args .radiolist

def readform : Code Raised (DialogArgs × Items × Option Int) := do
  let a ← Code.ofExcept (checkargs env args)
  let items ← checkitems env formitem 6 [] (args 6)
  if env.v = true then do
    let i ← Code.ofExcept (checkinteger env.host 7 (args 7))
    pure (a, items, some (IntType.int.wrap (i - 1)))
  else pure (a, items, none)

/-- The library makes a value. -/
def newvalue : Option Bytes → Code Raised (Option Copy)
  | none => pure none
  | some s => do
    match ← Code.malloc true with
    | some a => pure (some ⟨a, s⟩)
    | none => pure none

def l_bsddialog_form : Code Raised (List Pushed) := do
  let (a, items, focus) ← readform env args
  Code.touchAll items.addresses
  let (rv, made, focus') := lib.form a (items.handed.map Item.view) focus
  let values ← Code.forEach (fun i => newvalue (made i)) (List.range items.handed.length)
  if rv = lib.ERROR then do
    freeformitems items values
    Code.raise (libraryError lib "bsddialog_form")
  else do
    Code.touchAll (values.flatMap copyAddresses)
    let pushed := values.map (fun c => c.map Copy.text)
    freeformitems items values
    pure ([.integer rv, .strings pushed] ++ if env.v = true then [.integer (focus' + 1)] else [])

def readgauge : Code Raised (DialogArgs × Minibars) := do
  let a ← Code.ofExcept (checkargs env args)
  let bars ← checkminibars env 6 (args 6)
  pure (a, bars)

def l_bsddialog_mixedgauge : Code Raised (List Pushed) := do
  let (a, bars) ← readgauge env args
  Code.touchAll bars.addresses
  let rv := lib.mixedgauge a (bars.handed.map (fun b => (b.label.map Copy.text, b.perc)))
  freeminibars bars
  if rv = lib.ERROR then Code.raise (libraryError lib "bsddialog_mixedgauge")
  else pure [.integer rv]

def readmixedlist : Code Raised (DialogArgs × MenuGroups × Int × Int) := do
  let a ← Code.ofExcept (checkargs env args)
  let groups ← checkmenugroups env 6 (args 6)
  let list ← Code.ofExcept (checkinteger env.host 7 (args 7))
  let item ← Code.ofExcept (checkinteger env.host 8 (args 8))
  pure (a, groups, IntType.int.wrap list, IntType.int.wrap item)

def l_bsddialog_mixedlist : Code Raised (List Pushed) := do
  let (a, groups, focuslist, focusitem) ← readmixedlist env args
  Code.touchAll groups.addresses
  let (rv, focuslist, focusitem) := lib.mixedlist a
    (groups.handed.map (fun g => (g.type, g.items.handed.map Item.view))) focuslist focusitem
  freemenugroups groups
  if rv = lib.ERROR then Code.raise (libraryError lib "bsddialog_mixedlist")
  else pure [.integer rv, .integer focuslist, .integer focusitem]

end Dialogs

end Dialog
end FluaLibs
