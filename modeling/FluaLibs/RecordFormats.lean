import FluaLibs.RecordTables

/-! # The records of fcntl and netdb, and the theme of a dialog

`struct flock`, `struct spacectl_range` and the hints of `getaddrinfo` are read from tables whose
fields are checked, and written to tables with the same fields; a `struct addrinfo` that the
resolver returns has its address in another one.  The theme of bsddialog is a record for each part
of a dialog, in tables that are made when they are missing.

The tables have no metamethods that raise an error or answer for a field.
-/
namespace FluaLibs
namespace Records
open LuaArguments

/-- A record from an argument, which has to be a table. -/
def Format.checkArgument (fmt : Format) (arg : Int) : Entry → Except Raised Record
  | .value _ => .error (.typeerror arg "table")
  | .table t => fmt.check arg t

/-! ## fcntl -/

/-- `FLOCK_FIELDS` -/
def flockFields : List (String × IntType) :=
  [("start", .int64), ("len", .int64), ("pid", .int32), ("type", .int16), ("whence", .int16),
    ("sysid", .int)]

theorem flockFields_distinct : (flockFields.map Prod.fst).Nodup := by decide

theorem flockFields_narrow : ∀ p ∈ flockFields, p.2.bits ≤ 64 := by decide

def flock : Format := ⟨"invalid flock ", flockFields, flockFields_distinct, flockFields_narrow⟩

def checkflock : Int → Entry → Except Raised Record := flock.checkArgument

def pushflock : Record → Table := flock.push

/-- `SR_FIELDS` -/
def srFields : List (String × IntType) := [("offset", .int64), ("len", .int64)]

theorem srFields_distinct : (srFields.map Prod.fst).Nodup := by decide

theorem srFields_narrow : ∀ p ∈ srFields, p.2.bits ≤ 64 := by decide

def spacectl_range : Format :=
  ⟨"invalid spacectl_range ", srFields, srFields_distinct, srFields_narrow⟩

def checksr : Int → Entry → Except Raised Record := spacectl_range.checkArgument

def pushsr : Record → Table := spacectl_range.push

/-! ## netdb -/

def aiFields : List (String × IntType) :=
  [("flags", .int), ("family", .int), ("socktype", .int), ("protocol", .int)]

theorem aiFields_distinct : (aiFields.map Prod.fst).Nodup := by decide

theorem aiFields_narrow : ∀ p ∈ aiFields, p.2.bits ≤ 64 := by decide

def addrinfo : Format := ⟨"invalid ", aiFields, aiFields_distinct, aiFields_narrow⟩

def checkai : Int → Entry → Except Raised Record := addrinfo.checkArgument

/-- The address is what `pushaddr` makes of it. -/
def pushai (ai : Record) (addr : Value) : Table := Function.update (addrinfo.push ai) "addr" addr

/-- The check only looks at the fields of the format. -/
theorem check_congr (fmt : Format) (arg : Int) {t u : Table}
    (h : ∀ n ∈ fmt.types.map Prod.fst, t n = u n) : fmt.check arg t = fmt.check arg u := by
  have general : ∀ (types : List (String × IntType)) (r : Record),
      (∀ p ∈ types, t p.1 = u p.1) →
      types.foldlM (fmt.checkField arg t) r = types.foldlM (fmt.checkField arg u) r := by
    intro types
    induction types with
    | nil => exact fun _ _ => rfl
    | cons p types ih =>
      intro r h
      obtain ⟨hp, h⟩ := List.forall_mem_cons.mp h
      have hfield : fmt.checkField arg t r p = fmt.checkField arg u r p := by
        rw [Format.checkField, Format.checkField, hp]
      rw [List.foldlM_cons, List.foldlM_cons, hfield]
      exact bind_congr (fun r' => ih r' h)
  exact general fmt.types _ (fun p hp => h p.1 (List.mem_map_of_mem hp))

/-- **What is written for a record is read again, and a table that is accepted comes back when
its fields are integers that the record can hold.**  A table that is not accepted is refused for
the first field that is neither missing nor an integer, by its name. -/
theorem checked_records :
    (∀ (arg : Int) r, Represents flock.members r →
      checkflock arg (.table (pushflock r)) = .ok r) ∧
    (∀ (arg : Int) r, Represents spacectl_range.members r →
      checksr arg (.table (pushsr r)) = .ok r) ∧
    (∀ (arg : Int) r addr, Represents addrinfo.members r →
      checkai arg (.table (pushai r addr)) = .ok r) ∧
    ∀ fmt ∈ [flock, spacectl_range, addrinfo], ∀ (arg : Int) (t : Table),
      (∀ n i, t n = .integer i → IntType.int64.Holds i) →
      fmt.checkArgument arg (.table t) = (fmt.types.find? (refuses t)).elim
        (.ok (readAll .plain fmt.members t))
        (fun p => .error (.argerror arg (fmt.complaint ++ p.1))) ∧
      ∀ r, fmt.checkArgument arg (.table t) = .ok r →
        ((∀ p ∈ fmt.types, fmt.push r p.1 = t p.1) ↔
          ∀ p ∈ fmt.types, ∃ i, t p.1 = .integer i ∧ (p.2.Holds i ∨ p.2.bits = 64)) := by
  refine ⟨fun arg r hr => Format.check_push hr arg, fun arg r hr => Format.check_push hr arg,
    fun arg r addr hr => ?_, fun fmt _ arg t ht => ⟨Format.check_eq arg .plain t, ?_⟩⟩
  · -- the address is in a field that is not read
    have hother : ∀ n ∈ addrinfo.types.map Prod.fst, pushai r addr n = addrinfo.push r n := by
      intro n hn
      have hne : n ≠ "addr" := by
        rintro rfl
        revert hn
        decide
      exact Function.update_of_ne hne ..
    exact (check_congr addrinfo arg hother).trans (Format.check_push hr arg)
  · intro r hr
    exact Format.push_check_iff hr ht

/-- A lock of one byte. -/
def sampleLock : Record := fun n => if n = "start" then 5 else if n = "len" then 1 else 0

theorem sampleLock_represents : Represents flock.members sampleLock where
  holds m hm := by
    obtain ⟨p, hp, rfl⟩ := List.mem_map.mp hm
    simp only [flock, flockFields, List.mem_cons, List.not_mem_nil, or_false] at hp
    rcases hp with rfl | rfl | rfl | rfl | rfl | rfl
    · exact (by decide : IntType.int64.Holds 5)
    · exact (by decide : IntType.int64.Holds 1)
    all_goals exact Kind.holds_zero _
  others n hn := by
    have hstart : n ≠ "start" := by
      rintro rfl
      revert hn
      decide
    have hlen : n ≠ "len" := by
      rintro rfl
      revert hn
      decide
    rw [sampleLock, if_neg hstart, if_neg hlen]

theorem checked_records_lock : checkflock 3 (.table (pushflock sampleLock)) = .ok sampleLock :=
  checked_records.1 3 sampleLock sampleLock_represents

/-- A field that is not an integer is named. -/
example : checkflock 3 (.table (Function.update (pushflock sampleLock) "whence" (.boolean true))) =
    .error (.argerror 3 "invalid flock whence") := by
  rfl

/-! ## The theme -/

/-- The integer types of the theme, which are in another header. -/
structure ThemeTypes where
  color : IntType
  offset : IntType
  margin : IntType
  delim : IntType

structure ThemeTypes.Documented (types : ThemeTypes) : Prop where
  color : types.color.bits ≤ 64
  offset : types.offset.bits ≤ 64
  margin : types.margin.bits ≤ 64
  delim : types.delim.bits = 8

section Theme
variable (types : ThemeTypes)

/-- Members that are colors. -/
def colors (names : List String) : List Member :=
  names.map (fun n => ⟨n, .integer types.color⟩)

/-- The records that `pushtheme` writes; a recent library has more in its menus. -/
def pushedGroups (isRecent : Bool) : List Group :=
  [⟨"screen", colors types ["color"]⟩,
    ⟨"shadow", colors types ["color"] ++
      [⟨"y", .integer types.offset⟩, ⟨"x", .integer types.offset⟩]⟩,
    ⟨"dialog", colors types ["color"] ++ [⟨"delimtitle", .boolean⟩] ++
      colors types ["titlecolor", "lineraisecolor", "linelowercolor", "bottomtitlecolor",
        "arrowcolor"]⟩,
    ⟨"menu", colors types ((if isRecent then ["f_prefixcolor", "prefixcolor"] else []) ++
      ["f_selectorcolor", "selectorcolor", "f_namecolor", "namecolor", "f_desccolor", "desccolor",
        "f_shortcutcolor", "shortcutcolor", "bottomdesccolor"] ++
      (if isRecent then ["sepnamecolor", "sepdesccolor"] else []))⟩,
    ⟨"form", colors types ["f_fieldcolor", "fieldcolor", "readonlycolor", "bottomdesccolor"]⟩,
    ⟨"bar", colors types ["f_color", "color"]⟩,
    ⟨"button", [⟨"minmargin", .integer types.margin⟩, ⟨"maxmargin", .integer types.margin⟩,
        ⟨"leftdelim", .char types.delim⟩, ⟨"rightdelim", .char types.delim⟩] ++
      colors types ["f_delimcolor", "delimcolor", "f_color", "color", "f_shortcutcolor",
        "shortcutcolor"]⟩]

def pushtheme (isRecent : Bool) (theme : String → Record) : Tables :=
  pushGroups (pushedGroups types isRecent) theme

/-- The records that `checktheme` reads. -/
def checkedGroups (isRecent : Bool) : List Group :=
  [⟨"screen", colors types ["color"]⟩,
    ⟨"shadow", colors types ["color"] ++
      [⟨"y", .integer types.offset⟩, ⟨"x", .integer types.offset⟩]⟩,
    ⟨"dialog", colors types ["color"] ++ [⟨"delimtitle", .boolean⟩] ++
      colors types ["titlecolor", "lineraisecolor", "linelowercolor", "bottomtitlecolor",
        "arrowcolor"]⟩,
    ⟨"menu", colors types ((if isRecent then ["f_prefixcolor", "prefixcolor"] else []) ++
      ["f_selectorcolor", "selectorcolor", "f_namecolor", "namecolor", "f_desccolor", "desccolor",
        "f_shortcutcolor", "shortcutcolor", "bottomdesccolor"] ++
      (if isRecent then ["sepnamecolor", "sepdesccolor"] else []))⟩,
    ⟨"form", colors types ["f_fieldcolor", "fieldcolor", "readonlycolor", "bottomdesccolor"]⟩,
    ⟨"bar", colors types ["f_color", "color"]⟩,
    ⟨"button", [⟨"minmargin", .integer types.margin⟩, ⟨"maxmargin", .integer types.margin⟩,
        ⟨"leftdelim", .char types.delim⟩, ⟨"rightdelim", .char types.delim⟩] ++
      colors types ["f_delimcolor", "delimcolor", "f_color", "color", "f_shortcutcolor",
        "shortcutcolor"]⟩]

def checktheme (host : Host) (isRecent : Bool) (t : Tables) : (String → Record) × Tables :=
  readGroups host (checkedGroups types isRecent) t

/-- What is written is read, in the same order. -/
theorem checkedGroups_eq (isRecent : Bool) :
    checkedGroups types isRecent = pushedGroups types isRecent := rfl

/-- A theme of the library. -/
structure IsTheme (isRecent : Bool) (theme : String → Record) : Prop where
  members : ∀ g ∈ pushedGroups types isRecent, Represents g.members (theme g.name)
  others : ∀ n, n ∉ (pushedGroups types isRecent).map Group.name → theme n = fun _ => 0

theorem pushedGroups_distinct (isRecent : Bool) :
    ((pushedGroups types isRecent).map Group.name).Nodup := by
  show ["screen", "shadow", "dialog", "menu", "form", "bar", "button"].Nodup
  decide

theorem colors_fit {types : ThemeTypes} (htypes : types.Documented) (names : List String) :
    ∀ m ∈ colors types names, m.kind.Fits := by
  intro m hm
  obtain ⟨n, -, rfl⟩ := List.mem_map.mp hm
  exact htypes.color

theorem pushedGroups_members {types : ThemeTypes} (htypes : types.Documented) (isRecent : Bool) :
    ∀ g ∈ pushedGroups types isRecent,
      (g.members.map Member.name).Nodup ∧ ∀ m ∈ g.members, m.kind.Fits := by
  have hcolors := colors_fit htypes
  have hoffset : (Kind.integer types.offset).Fits := htypes.offset
  have hmargin : (Kind.integer types.margin).Fits := htypes.margin
  have hdelim : (Kind.char types.delim).Fits := htypes.delim
  have hboolean : Kind.boolean.Fits := trivial
  simp only [pushedGroups, List.forall_mem_cons, List.forall_mem_append]
  refine ⟨⟨?_, hcolors _⟩, ⟨?_, hcolors _, hoffset, hoffset, by simp⟩,
    ⟨?_, ⟨hcolors _, hboolean, by simp⟩, hcolors _⟩, ⟨?_, hcolors _⟩, ⟨?_, hcolors _⟩,
    ⟨?_, hcolors _⟩, ⟨?_, ⟨hmargin, hmargin, hdelim, hdelim, by simp⟩, hcolors _⟩, by simp⟩
  · simp [colors]
  · simp [colors]
  · simp [colors]
  · cases isRecent <;> simp [colors]
  · simp [colors]
  · simp [colors]
  · simp [colors]

/-- **A theme that is given back is the theme that was given**, and the table stays as it is.  When
one field has been changed, so has that member of the theme and no other; a table that a theme
does not have is made, empty, in the table that was given. -/
theorem theme_round_trip {types : ThemeTypes} (htypes : types.Documented) (host : Host)
    (isRecent : Bool) :
    (∀ theme, IsTheme types isRecent theme →
      checktheme types host isRecent (pushtheme types isRecent theme) =
        (theme, pushtheme types isRecent theme) ∧
      ∀ g ∈ pushedGroups types isRecent, ∀ m ∈ g.members, ∀ v,
        (checktheme types host isRecent
          (changed (pushtheme types isRecent theme) g.name m.name v)).1 =
        Function.update theme g.name
          (Function.update (theme g.name) m.name (m.kind.read host v))) ∧
    ∀ (t : Tables) n, (checktheme types host isRecent t).2 n =
      if n ∈ (checkedGroups types isRecent).map Group.name then .table (t n).fields else t n := by
  have hnames := pushedGroups_distinct types isRecent
  have hmembers := pushedGroups_members htypes isRecent
  rw [checkedGroups_eq]
  simp only [pushtheme, checktheme, checkedGroups_eq]
  refine ⟨fun theme htheme => ⟨?_, fun g hg m hm v => ?_⟩, fun t n => ?_⟩
  · exact readGroups_pushGroups hnames hmembers host htheme.members htheme.others
  · exact readGroups_changed hnames hmembers host htheme.members htheme.others hg hm v
  · rw [readGroups_eq hnames]
    exact completed_apply hnames t n

/-- A theme that is all zeros, and gets another color. -/
theorem theme_round_trip_screen :
    (checktheme ⟨.int, .uint32, .uint32, .int8⟩ .plain true
      (changed (pushtheme ⟨.int, .uint32, .uint32, .int8⟩ true (fun _ _ => 0)) "screen" "color"
        (.integer 7))).1 =
      Function.update (fun _ _ => 0) "screen" (Function.update (fun _ => 0) "color" 7) := by
  have htypes : (⟨.int, .uint32, .uint32, .int8⟩ : ThemeTypes).Documented :=
    ⟨by decide, by decide, by decide, by decide⟩
  have htheme : IsTheme ⟨.int, .uint32, .uint32, .int8⟩ true (fun _ _ => 0) :=
    ⟨fun g _ => ⟨fun m _ => m.kind.holds_zero, fun _ _ => rfl⟩, fun _ _ => rfl⟩
  exact ((theme_round_trip htypes .plain true).1 _ htheme).2 _ (List.mem_cons_self ..)
    ⟨"color", .integer .int⟩ (List.mem_cons_self ..) (.integer 7)

end Theme
end Records
end FluaLibs
