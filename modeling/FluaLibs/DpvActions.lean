import FluaLibs.DpvFiles

/-! # What a progress view leaves behind

A view of a node is what it says, without the memory that it says it in.  The script changes
views (`View.act`), and the code changes nodes in step with it (`action_spec`): each node has its
own copies, and nothing is freed that is in use.  When the files are accepted everything is
released in the end, whatever the script does and whether there is memory or not; when they are
not, `filesOf` says what stays allocated.

The script is to leave strings in the fields `name` and `path`, and to raise errors that are
strings: `lua_tostring` gives `NULL` otherwise, and `strdup` follows it.  The six fields of the
table that it leaves are to be readable without an error.
-/
namespace FluaLibs
namespace Dpv
open LuaArguments Held

/-- What a node says. -/
structure View where
  number : FileNumber → Int
  msg : Option Bytes
  name : Bytes
  path : Bytes
  streamed : Bool

def FileNode.view (node : FileNode) : View :=
  ⟨node.number, node.msg.map Copy.text, node.name.text, node.path.text, node.outref.isSome⟩

/-! ## What is expected -/

section Expected
variable (env : FileEnv)

/-- Why a file is refused: a field raises an error when it is read, or it has a wrong value. -/
inductive Refusal where
  | metamethod (e : Raised)
  | refused (e : Raised)

def readNumber (r : Nat) (m : FileNumber) (absent : Int) : Except Refusal Int :=
  match env.getfield r m.field with
  | .error e => .error (.metamethod e)
  | .ok .nil => .ok absent
  | .ok (.integer i) => .ok ((env.type m).wrap i)
  | .ok _ => .error (.refused (.argerror 2 (m.field ++ ": integer expected")))

def readCopy (i : Nat) (m : FileText) (s : Bytes) : Except Refusal Bytes :=
  if env.strdup i m = true then .ok (cstr s) else .error (.refused (.fatal "strdup" ENOMEM))

def readText (i r : Nat) (m : FileText) : Except Refusal Bytes :=
  match env.getfield r m.field with
  | .error e => .error (.metamethod e)
  | .ok (.string s) => readCopy env i m s
  | .ok _ => .error (.refused (.argerror 2 (m.field ++ ": string expected")))

def readMsg (i r : Nat) : Except Refusal (Option Bytes) :=
  match env.getfield r FileText.msg.field with
  | .error e => .error (.metamethod e)
  | .ok .nil => .ok none
  | .ok (.string s) => (readCopy env i .msg s).map some
  | .ok _ => .error (.refused (.argerror 2 (FileText.msg.field ++ ": string expected")))

/-- A file, or why it is refused and how many strings have been copied by then. -/
def fileOf (i r : Nat) : Except (Refusal × Nat) View :=
  match readNumber env r .status env.STATUS_RUNNING with
  | .error e => .error (e, 0)
  | .ok status =>
    match readMsg env i r with
    | .error e => .error (e, 0)
    | .ok msg =>
      match readText env i r .name with
      | .error e => .error (e, msg.toList.length)
      | .ok name =>
        match readText env i r .path with
        | .error e => .error (e, msg.toList.length + 1)
        | .ok path =>
          match readNumber env r .length (-1), readNumber env r .read 0 with
          | .error e, _ | .ok _, .error e => .error (e, msg.toList.length + 2)
          | .ok length, .ok read => .ok ⟨numbers status length read, msg, name, path, false⟩

/-- The strings of a file. -/
def View.copies (v : View) : Nat := v.msg.toList.length + 2

/-- The files from the one after `i` on, or the error with what stays allocated: the strings of
the file that is refused, and everything if the table raises. -/
def filesFrom : Nat → Nat → Nat → Except (Raised × Nat) (List View)
  | 0, _, _ => .ok []
  | n + 1, i, had =>
    match env.geti (i + 1) with
    | .error e => .error (e, had + 1)
    | .ok (.table r) =>
      match fileOf env i r with
      | .error (.metamethod e, k) => .error (e, k + (had + 1))
      | .error (.refused e, k) => .error (e, k)
      | .ok v => (filesFrom n (i + 1) (had + v.copies)).map (v :: ·)
    | .ok _ => .error (.argerror 2 "tables expected", 0)

def filesOf : Except (Raised × Nat) (List View) :=
  match env.len with
  | .error e => .error (e, 0)
  | .ok n =>
    if n = 0 then .ok []
    else if env.calloc = true ∧ 0 < n then filesFrom env n.toNat 0 0
    else .error (.fatal "calloc" ENOMEM, 0)

end Expected

section Act
variable (env : FileEnv) (inv : Invocation)

def View.setNumber (v : View) (m : FileNumber) (i : Int) : View :=
  { v with number := Function.update v.number m i }

def View.shown (v : View) (stream : Bool) : Shown := ⟨v.number, v.msg, v.name, v.path, stream⟩

/-- All is given up, with a message if there is memory for one. -/
def View.abort (v : View) (shown : Option Shown) (message : String) : View × Report :=
  let v := v.setNumber .status env.STATUS_FAILED
  (if inv.asprintf = true then { v with msg := some (cstr (env.explain message)) } else v,
    ⟨shown, -1, true⟩)

def View.failed (v : View) (shown : Shown) (message : Value) : View × Report :=
  if inv.strdup .msg = true then
    ({ v.setNumber .status env.STATUS_FAILED with
        msg := (tolstring env.host message).map cstr }, ⟨some shown, -1, true⟩)
  else v.abort env inv (some shown) "strdup: %m"

/-- A field of the table, as it is left. -/
def fieldOf (field : String → Except Raised Value) (name : String) : Value :=
  match field name with
  | .ok v => v
  | .error _ => .nil

/-- The string in a field. -/
def textOf (v : Value) : Bytes := cstr ((tolstring env.host v).getD [])

def View.setMsg (v : View) (x : Value) : View :=
  match x with
  | .string s => { v with msg := some (cstr s) }
  | _ => v

/-- There is memory for a new message, if there is one. -/
def msgFits (x : Value) : Bool :=
  match x with
  | .string _ => inv.strdup .msg
  | _ => true

def View.returned (v : View) (shown : Shown) (pct : Value) (field : String → Except Raised Value) :
    View × Report :=
  let v := v.setNumber .status (tointeger env .status (fieldOf field "status"))
  if msgFits inv (fieldOf field "msg") = true then
    let v := v.setMsg (fieldOf field "msg")
    if inv.strdup .name = true then
      let v : View := { v with name := textOf env (fieldOf field "name") }
      if inv.strdup .path = true then
        let v : View := { v with path := textOf env (fieldOf field "path") }
        let v := v.setNumber .length (tointeger env .length (fieldOf field "length"))
        let v := v.setNumber .read (tointeger env .read (fieldOf field "read"))
        (v, ⟨some shown, IntType.int.wrap ((LuaNumbers.tointegerx env.host.cvt pct).getD 0), false⟩)
      else v.abort env inv (some shown) "strdup: %m"
    else v.abort env inv (some shown) "strdup: %m"
  else v.abort env inv (some shown) "strdup: %m"

/-- The stream can be had. -/
def View.streams (v : View) : Bool := !decide (0 < inv.out) || v.streamed || inv.fdopen

/-- **What a call does to what a node says.** -/
def View.act (v : View) : View × Report :=
  if v.streams inv = true then
    let v : View := { v with streamed := v.streamed || decide (0 < inv.out) }
    let shown := v.shown (0 < inv.out)
    match inv.script shown with
    | .raises message => v.failed env inv shown message
    | .returns pct field => v.returned env inv shown pct field
  else v.abort env inv none "fdopen: %m"

def runViews : List Invocation → List View → List View × List Report
  | [], vs => (vs, [])
  | inv :: invs, vs =>
    match vs[inv.node]? with
    | none => runViews invs vs
    | some v =>
      let r := runViews invs (vs.set inv.node (v.act env inv).1)
      (r.1, (v.act env inv).2 :: r.2)

/-- Without files there is nothing to call the action for. -/
theorem runViews_nil (invs : List Invocation) : (runViews env invs []).2 = [] := by
  induction invs with
  | nil => rfl
  | cons inv invs ih => exact ih

/-- The script raises strings, and leaves strings where there were some; and a table that can
be read. -/
def Ending.Careful : Ending → Prop
  | .raises message => (tolstring env.host message).isSome = true
  | .returns _ field =>
    (∀ name ∈ ["status", "msg", "name", "path", "length", "read"], (field name).isOk = true) ∧
      ∀ name ∈ ["name", "path"], (tolstring env.host (fieldOf field name)).isSome = true

end Act

/-! ## Memory of a node -/

section Action
variable {base rest l : List Nat} {R : Raised → List Nat → Prop} {env : FileEnv} {inv : Invocation}
  {node : FileNode}

theorem copyText_spec {there : Bool} {s : Bytes} {Q : Option Copy → List Nat → Prop}
    (hsome : there = true → ∀ a, Q (some ⟨a, cstr s⟩) (a :: l))
    (hnone : there = false → Q none l) : Spec base l (copyText there s) Q R := by
  refine Spec.bind (Q := fun p l' => p.elim (there = false ∧ l' = l)
    (fun a => there = true ∧ l' = a :: l)) (Spec.malloc ?_ ?_) ?_
  · exact fun h a _ => ⟨h, rfl⟩
  · exact fun h => ⟨h, rfl⟩
  · intro p l' hp
    cases p with
    | some a =>
      obtain ⟨hthere, rfl⟩ := hp
      exact Spec.pure (hsome hthere a)
    | none =>
      obtain ⟨hthere, rfl⟩ := hp
      exact Spec.pure (hnone hthere)

theorem copyValue_spec {there : Bool} {x : Value} {Q : Option Copy → List Nat → Prop}
    (hx : (tolstring env.host x).isSome = true)
    (hsome : there = true → ∀ a, Q (some ⟨a, textOf env x⟩) (a :: l))
    (hnone : there = false → Q none l) : Spec base l (copyValue env there x) Q R := by
  obtain ⟨s, hs⟩ := Option.isSome_iff_exists.mp hx
  have htext : textOf env x = cstr s := by rw [textOf, hs, Option.getD_some]
  rw [htext] at hsome
  simp only [copyValue, hs]
  exact copyText_spec hsome hnone

theorem freeCopy_spec {c : Option Copy} {l' : List Nat}
    (hp : l.Perm ((c.map Copy.address).toList ++ l')) {Q : Unit → List Nat → Prop} (h : Q () l') :
    Spec base l (freeCopy c) Q R := by
  cases c with
  | none => exact (Spec.pure h).perm hp
  | some c => exact Spec.free hp h

/-- The node in the end, with the memory that it has, and what it says. -/
def Becomes (rest : List Nat) (x : View × Report) (r : FileNode × Report) (l : List Nat) : Prop :=
  l.Perm (r.1.held ++ rest) ∧ (r.1.view, r.2) = x

/-- The memory of a node, counted. -/
theorem perm_held_iff {l : List Nat} {node : FileNode} : l.Perm (node.held ++ rest) ↔
    ∀ a, l.count a = node.outref.toList.count a + (node.msg.map Copy.address).toList.count a +
      [node.name.address].count a + [node.path.address].count a + rest.count a := by
  rw [List.perm_iff_count]
  refine forall_congr' (fun a => ?_)
  rw [FileNode.held, FileNode.copies]
  simp only [List.count_append, List.count_cons, List.count_nil]
  omega

/-- A new message: the old one is freed. -/
theorem setMsg_spec (hl : l.Perm (node.held ++ rest)) {c : Copy} {α : Type}
    {f : FileNode → α} {Q : α → List Nat → Prop}
    (h : ∀ l' : List Nat, l'.Perm (({ node with msg := some c } : FileNode).held ++ rest) →
      Q (f { node with msg := some c }) l') :
    Spec base (c.address :: l) (do
      freeCopy node.msg
      pure (f { node with msg := some c })) Q R := by
  have hcount := perm_held_iff.mp hl
  refine Spec.bind (Q := fun _ l' =>
    l'.Perm (({ node with msg := some c } : FileNode).held ++ rest)) ?_ ?_
  · refine freeCopy_spec ?_ (List.Perm.refl _)
    rw [List.perm_iff_count]
    intro a
    have ha := hcount a
    simp only [FileNode.held, FileNode.copies, List.count_append, List.count_cons, List.count_nil,
      Option.map_some, Option.toList_some] at ha ⊢
    omega
  · exact fun _ l' hl' => Spec.pure (h l' hl')

theorem abortWith_spec (hl : l.Perm (node.held ++ rest)) (shown : Option Shown)
    (message : String) : Spec base l (abortWith env inv node shown message)
      (Becomes rest (node.view.abort env inv shown message)) R := by
  refine Spec.bind (Q := fun c l' => c.elim (inv.asprintf = false ∧ l' = l)
    (fun c => inv.asprintf = true ∧ c.text = cstr (env.explain message) ∧ l' = c.address :: l))
    (copyText_spec ?_ ?_) ?_
  · exact fun h a => ⟨h, rfl, rfl⟩
  · exact fun h => ⟨h, rfl⟩
  · intro c l' hc
    cases c with
    | none =>
      obtain ⟨hthere, rfl⟩ := hc
      exact Spec.pure ⟨hl, by simp [View.abort, hthere]; rfl⟩
    | some c =>
      obtain ⟨hthere, htext, rfl⟩ := hc
      have hfailed : l.Perm ((node.setNumber .status env.STATUS_FAILED).held ++ rest) := hl
      refine setMsg_spec hfailed (f := fun n => (n, (⟨shown, -1, true⟩ : Report))) ?_
      intro l' hl'
      refine ⟨hl', ?_⟩
      simp [View.abort, hthere, FileNode.view, FileNode.setNumber, View.setNumber, htext]

theorem failed_spec (hl : l.Perm (node.held ++ rest)) (shown : Shown) {message : Value}
    (hmessage : (tolstring env.host message).isSome = true) :
    Spec base l (failed env inv node shown message)
      (Becomes rest (node.view.failed env inv shown message)) R := by
  refine Spec.bind (Q := fun c l' => c.elim (inv.strdup .msg = false ∧ l' = l)
    (fun c => inv.strdup .msg = true ∧ c.text = textOf env message ∧ l' = c.address :: l))
    (copyValue_spec hmessage ?_ ?_) ?_
  · exact fun h a => ⟨h, rfl, rfl⟩
  · exact fun h => ⟨h, rfl⟩
  · intro c l' hc
    cases c with
    | none =>
      obtain ⟨hthere, rfl⟩ := hc
      have hfailed : l'.Perm ((node.setNumber .status env.STATUS_FAILED).held ++ rest) := hl
      refine (abortWith_spec hfailed (some shown) "strdup: %m").mono ?_ (fun _ _ h => h)
      rintro r l' ⟨hl', hr⟩
      refine ⟨hl', ?_⟩
      rw [hr]
      simp [View.failed, hthere, View.abort, FileNode.view, FileNode.setNumber, View.setNumber]
    | some c =>
      obtain ⟨hthere, htext, rfl⟩ := hc
      have hfailed : l.Perm ((node.setNumber .status env.STATUS_FAILED).held ++ rest) := hl
      refine setMsg_spec hfailed (f := fun n => (n, (⟨some shown, -1, true⟩ : Report))) ?_
      intro l' hl'
      obtain ⟨s, hs⟩ := Option.isSome_iff_exists.mp hmessage
      refine ⟨hl', ?_⟩
      simp [View.failed, hthere, FileNode.view, FileNode.setNumber, View.setNumber, htext, textOf,
        hs]

theorem getfield_spec {field : String → Except Raised Value} {name : String}
    (h : (field name).isOk = true) :
    Spec base l (getfield field name) (fun v l' => v = fieldOf field name ∧ l' = l) R := by
  rw [getfield, fieldOf]
  cases hf : field name with
  | ok v => exact Spec.pure ⟨rfl, rfl⟩
  | error e =>
    rw [hf] at h
    cases h

/-- The node with one string replaced, if there was memory for it. -/
def Replaced (rest : List Nat) (fits : Bool) (before after : FileNode → Prop)
    (r : Option FileNode) (l : List Nat) : Prop :=
  r.elim (fits = false ∧ ∃ n, before n ∧ l.Perm (n.held ++ rest))
    (fun n => fits = true ∧ after n ∧ l.Perm (n.held ++ rest))

theorem updateMsg_spec (hl : l.Perm (node.held ++ rest)) (x : Value) :
    Spec base l (updateMsg inv node x) (Replaced rest (msgFits inv x) (· = node)
      (fun n => n.view = node.view.setMsg x)) R := by
  by_cases hx : ∃ s, x = .string s
  · obtain ⟨s, rfl⟩ := hx
    refine Spec.bind (Q := fun c l' => c.elim (inv.strdup .msg = false ∧ l' = l)
      (fun c => inv.strdup .msg = true ∧ c.text = cstr s ∧ l' = c.address :: l))
      (copyText_spec ?_ ?_) ?_
    · exact fun h a => ⟨h, rfl, rfl⟩
    · exact fun h => ⟨h, rfl⟩
    · intro c l' hc
      cases c with
      | none =>
        obtain ⟨hthere, rfl⟩ := hc
        exact Spec.pure ⟨hthere, node, rfl, hl⟩
      | some c =>
        obtain ⟨hthere, htext, rfl⟩ := hc
        refine setMsg_spec (f := some) hl ?_
        intro l' hl'
        refine ⟨hthere, ?_, hl'⟩
        simp [View.setMsg, FileNode.view, htext]
  · have hpure : updateMsg inv node x = pure (some node) := by
      cases x with
      | string s => exact absurd ⟨s, rfl⟩ hx
      | _ => rfl
    have hview : node.view.setMsg x = node.view ∧ msgFits inv x = true := by
      cases x with
      | string s => exact absurd ⟨s, rfl⟩ hx
      | _ => exact ⟨rfl, rfl⟩
    rw [hpure]
    exact Spec.pure ⟨hview.2, hview.1.symm, hl⟩

/-- A string that is copied first, and then takes the place of another one. -/
theorem replaceCopy_spec (hl : l.Perm (node.held ++ rest)) {x : Value} {there : Bool} {old : Nat}
    {f : Copy → FileNode} {g : Option Copy → Code Raised (Option FileNode)} {y : View}
    (hsome : ∀ c, g (some c) = do
      Code.free old
      pure (some (f c)))
    (hnone : g none = pure none) (hx : (tolstring env.host x).isSome = true)
    (hheld : ∀ c : Copy, (c.address :: node.held).Perm (old :: (f c).held))
    (hview : ∀ c : Copy, c.text = textOf env x → (f c).view = y) :
    Spec base l (copyValue env there x >>= g)
      (Replaced rest there (· = node) (fun n => n.view = y)) R := by
  refine Spec.bind (Q := fun c l' => c.elim (there = false ∧ l' = l)
    (fun c => there = true ∧ c.text = textOf env x ∧ l' = c.address :: l))
    (copyValue_spec hx ?_ ?_) ?_
  · exact fun h a => ⟨h, rfl, rfl⟩
  · exact fun h => ⟨h, rfl⟩
  · intro c l' hc
    cases c with
    | none =>
      obtain ⟨hthere, rfl⟩ := hc
      rw [hnone]
      exact Spec.pure ⟨hthere, node, rfl, hl⟩
    | some c =>
      obtain ⟨hthere, htext, rfl⟩ := hc
      rw [hsome]
      have hp : (c.address :: l).Perm (old :: ((f c).held ++ rest)) :=
        (hl.cons c.address).trans ((hheld c).append_right rest)
      refine Spec.bind (Q := fun _ l' => l' = (f c).held ++ rest) (Spec.free hp rfl) ?_
      rintro _ l' rfl
      exact Spec.pure ⟨hthere, hview c htext, List.Perm.refl _⟩

theorem updateName_spec (hl : l.Perm (node.held ++ rest)) {x : Value}
    (hx : (tolstring env.host x).isSome = true) :
    Spec base l (updateName env inv node x) (Replaced rest (inv.strdup .name) (· = node)
      (fun n => n.view = { node.view with name := textOf env x })) R := by
  refine replaceCopy_spec hl (f := fun c => { node with name := c }) (fun c => rfl) rfl hx ?_ ?_
  · intro c
    rw [List.perm_iff_count]
    intro a
    simp only [FileNode.held, FileNode.copies, List.count_append, List.count_cons, List.count_nil]
    omega
  · intro c htext
    simp [FileNode.view, htext]

theorem updatePath_spec (hl : l.Perm (node.held ++ rest)) {x : Value}
    (hx : (tolstring env.host x).isSome = true) :
    Spec base l (updatePath env inv node x) (Replaced rest (inv.strdup .path) (· = node)
      (fun n => n.view = { node.view with path := textOf env x })) R := by
  refine replaceCopy_spec hl (f := fun c => { node with path := c }) (fun c => rfl) rfl hx ?_ ?_
  · intro c
    rw [List.perm_iff_count]
    intro a
    simp only [FileNode.held, FileNode.copies, List.count_append, List.count_cons, List.count_nil]
    omega
  · intro c htext
    simp [FileNode.view, htext]

/-- The rest of a call after a string may have been replaced. -/
theorem replaced_bind {fits : Bool} {after : FileNode → Prop} {c : Code Raised (Option FileNode)}
    {f : Option FileNode → Code Raised (FileNode × Report)}
    {x y : View × Report} (h : Spec base l c (Replaced rest fits (· = node) after) R)
    (hnone : ∀ l', l'.Perm (node.held ++ rest) → Spec base l' (f none) (Becomes rest x) R)
    (hsome : ∀ n l', after n → l'.Perm (n.held ++ rest) →
      Spec base l' (f (some n)) (Becomes rest y) R) :
    Spec base l (c >>= f) (Becomes rest (if fits = true then y else x)) R := by
  refine h.bind ?_
  intro r l' hr
  cases r with
  | none =>
    obtain ⟨rfl, n, rfl, hp⟩ := hr
    exact hnone l' hp
  | some n =>
    obtain ⟨rfl, hafter, hp⟩ := hr
    exact hsome n l' hafter hp

theorem returned_spec (hl : l.Perm (node.held ++ rest)) (shown : Shown) (pct : Value)
    {field : String → Except Raised Value} (hcareful : (Ending.returns pct field).Careful env) :
    Spec base l (returned env inv node shown pct field)
      (Becomes rest (node.view.returned env inv shown pct field)) R := by
  obtain ⟨hread, htext⟩ := hcareful
  have hfield {name : String} (hname : name ∈ ["status", "msg", "name", "path", "length", "read"])
      {l : List Nat} : Spec base l (getfield field name)
        (fun v l' => v = fieldOf field name ∧ l' = l) R := getfield_spec (hread name hname)
  refine (hfield (by simp)).bind ?_
  rintro _ _ ⟨rfl, rfl⟩
  refine (hfield (by simp)).bind ?_
  rintro _ l₀ ⟨rfl, rfl⟩
  set status := node.setNumber .status (tointeger env .status (fieldOf field "status"))
  have hstatus : l₀.Perm (status.held ++ rest) := hl
  refine replaced_bind (updateMsg_spec hstatus _)
    (fun l' hl' => abortWith_spec hl' _ _) ?_
  intro named l₁ hmsg hl₁
  refine (hfield (by simp)).bind ?_
  rintro _ _ ⟨rfl, rfl⟩
  have hview₁ : (node.view.setNumber .status
      (tointeger env .status (fieldOf field "status"))).setMsg (fieldOf field "msg") =
      named.view := hmsg.symm
  dsimp only
  rw [hview₁]
  refine replaced_bind (updateName_spec hl₁ (htext "name" (by simp)))
    (fun l' hl' => abortWith_spec hl' _ _) ?_
  intro pathed l₂ hname hl₂
  refine (hfield (by simp)).bind ?_
  rintro _ _ ⟨rfl, rfl⟩
  refine replaced_bind (updatePath_spec hl₂ (htext "path" (by simp))) ?_ ?_
  · intro l' hl'
    rw [← hname]
    exact abortWith_spec hl' _ _
  intro last l₃ hpath hl₃
  refine (hfield (by simp)).bind ?_
  rintro _ _ ⟨rfl, rfl⟩
  refine (hfield (by simp)).bind ?_
  rintro _ _ ⟨rfl, rfl⟩
  refine Spec.pure ⟨hl₃, ?_⟩
  have hlast : last.view = { named.view with
      name := textOf env (fieldOf field "name"), path := textOf env (fieldOf field "path") } := by
    rw [hpath, hname]
  show ((last.view.setNumber _ _).setNumber _ _, _) = _
  rw [hlast]

theorem stream_spec (hl : l.Perm (node.held ++ rest)) :
    Spec base l (stream inv node) (Replaced rest (node.view.streams inv) (· = node)
      (fun n => n.view = { node.view with
        streamed := node.view.streamed || decide (0 < inv.out) })) R := by
  by_cases hout : 0 < inv.out
  · cases href : node.outref with
    | some ref =>
      have hrun : stream inv node = pure (some node) := by simp only [stream, hout, href, if_true]
      rw [hrun]
      refine Spec.pure ⟨?_, ?_, hl⟩
      · simp [View.streams, FileNode.view, href]
      · simp [FileNode.view, href]
    | none =>
      rcases Bool.eq_false_or_eq_true inv.fdopen with hopen | hopen
      · simp only [stream, hout, href, hopen, if_true]
        refine Spec.bind (Q := fun p l' => ∃ ref, p = some ref ∧ l' = ref :: l)
          (Spec.malloc (fun _ a _ => ⟨a, rfl, rfl⟩) (by simp)) ?_
        rintro _ _ ⟨ref, rfl, rfl⟩
        refine Spec.pure ⟨?_, ?_, ?_⟩
        · simp [View.streams, hopen]
        · simp [FileNode.view]
        · refine (hl.cons ref).trans ?_
          simp [FileNode.held, href, FileNode.copies]
      · have hrun : stream inv node = pure none := by
          simp only [stream, hout, href, hopen, if_true, Bool.false_eq_true, if_false]
        rw [hrun]
        refine Spec.pure ⟨?_, node, rfl, hl⟩
        simp [View.streams, hout, FileNode.view, href, hopen]
  · have hrun : stream inv node = pure (some node) := by simp only [stream, hout, if_false]
    rw [hrun]
    refine Spec.pure ⟨?_, ?_, hl⟩
    · simp [View.streams, hout]
    · simp [FileNode.view, hout]

theorem touchCopies_spec (hl : l.Perm (node.held ++ rest)) :
    Spec base l (touchCopies node) (fun _ l' => l' = l) R := by
  have hmem {a : Nat} (ha : a ∈ node.copies) : a ∈ l :=
    hl.mem_iff.mpr (List.mem_append_left _ (List.mem_append_right _ ha))
  refine Spec.bind (Q := fun _ l' => l' = l) ?_ ?_
  · cases hmsg : node.msg with
    | none => exact Spec.pure rfl
    | some c => exact Spec.touch (hmem (by simp [FileNode.copies, hmsg])) rfl
  · rintro _ l₁ rfl
    refine Spec.bind (Q := fun _ l' => l' = l₁) ?_ ?_
    · exact Spec.touch (x := node.name.address) (hmem (by simp [FileNode.copies])) rfl
    · rintro _ l₂ rfl
      exact Spec.touch (x := node.path.address) (hmem (by simp [FileNode.copies])) rfl

/-- A call that the script is careful in. -/
def Invocation.Careful (env : FileEnv) (inv : Invocation) (v : View) : Prop :=
  v.streams inv = true → (inv.script (({ v with
    streamed := v.streamed || decide (0 < inv.out) } : View).shown (0 < inv.out))).Careful env

/-- **A call changes a node as it changes what the node says**, and the node keeps the only
copies. -/
theorem action_spec (hl : l.Perm (node.held ++ rest)) (hcareful : inv.Careful env node.view) :
    Spec base l (action env inv node) (Becomes rest (node.view.act env inv)) R := by
  refine (touchCopies_spec hl).bind ?_
  rintro _ _ rfl
  refine (stream_spec hl).bind ?_
  intro r l₁ hr
  cases r with
  | none =>
    obtain ⟨hno, n, hn, hl₁⟩ := hr
    rw [hn] at hl₁
    have hact : node.view.act env inv = node.view.abort env inv none "fdopen: %m" := by
      rw [View.act, if_neg (by simp [hno])]
    rw [hact]
    exact abortWith_spec hl₁ _ _
  | some n =>
    obtain ⟨hyes, hview, hl₁⟩ := hr
    have hscript := hcareful hyes
    have hshown : n.shown (0 < inv.out) = n.view.shown (0 < inv.out) := rfl
    rw [View.act, if_pos hyes]
    rw [← hview] at hscript ⊢
    dsimp only
    rw [hshown]
    cases hends : inv.script (n.view.shown (0 < inv.out)) with
    | raises message =>
      rw [hends] at hscript
      exact failed_spec hl₁ _ hscript
    | returns pct field =>
      rw [hends] at hscript
      exact returned_spec hl₁ _ _ hscript

end Action

/-! ## All calls -/

/-- The script is careful in all calls. -/
def CarefulRun (env : FileEnv) : List Invocation → List View → Prop
  | [], _ => True
  | inv :: invs, vs =>
    match vs[inv.node]? with
    | none => CarefulRun env invs vs
    | some v => inv.Careful env v ∧ CarefulRun env invs (vs.set inv.node (v.act env inv).1)

/-- One node among the others. -/
theorem perm_set {nodes : List FileNode} {i : Nat} {node : FileNode}
    (h : nodes[i]? = some node) : ∃ others : List Nat,
      (nodes.flatMap FileNode.held).Perm (node.held ++ others) ∧
      ∀ node' : FileNode,
        ((nodes.set i node').flatMap FileNode.held).Perm (node'.held ++ others) := by
  obtain ⟨hlt, hget⟩ := List.getElem?_eq_some_iff.mp h
  refine ⟨(nodes.take i ++ nodes.drop (i + 1)).flatMap FileNode.held, ?_, ?_⟩
  · have hsplit : nodes = nodes.take i ++ node :: nodes.drop (i + 1) := by
      rw [← hget, List.cons_getElem_drop_succ, List.take_append_drop]
    conv_lhs => rw [hsplit]
    rw [List.flatMap_append, List.flatMap_append, List.flatMap_cons]
    exact List.perm_append_comm_assoc ..
  · intro node'
    rw [List.set_eq_take_append_cons_drop, if_pos hlt]
    rw [List.flatMap_append, List.flatMap_append, List.flatMap_cons]
    exact List.perm_append_comm_assoc ..

/-- **The calls change the nodes as they change what the nodes say.** -/
theorem runActions_spec {env : FileEnv} {base rest : List Nat} {R : Raised → List Nat → Prop}
    (invs : List Invocation) : ∀ (nodes : List FileNode) (l : List Nat),
      l.Perm (nodes.flatMap FileNode.held ++ rest) →
      CarefulRun env invs (nodes.map FileNode.view) →
      Spec base l (runActions env invs nodes) (fun r l' =>
        l'.Perm (r.1.flatMap FileNode.held ++ rest) ∧
        (r.1.map FileNode.view, r.2) = runViews env invs (nodes.map FileNode.view)) R := by
  induction invs with
  | nil =>
    intro nodes l hl _
    exact Spec.pure ⟨hl, rfl⟩
  | cons inv invs ih =>
    intro nodes l hl hcareful
    cases hnode : nodes[inv.node]? with
    | none =>
      have hview : (nodes.map FileNode.view)[inv.node]? = none := by simp [hnode]
      simp only [CarefulRun, hview] at hcareful
      simp only [runActions, runViews, hnode, hview]
      exact ih nodes l hl hcareful
    | some node =>
      have hview : (nodes.map FileNode.view)[inv.node]? = some node.view := by simp [hnode]
      simp only [CarefulRun, hview] at hcareful
      simp only [runActions, runViews, hnode, hview]
      obtain ⟨others, hold, hnew⟩ := perm_set hnode
      have hl' : l.Perm (node.held ++ (others ++ rest)) := by
        refine hl.trans ?_
        rw [← List.append_assoc]
        exact hold.append_right rest
      refine (action_spec hl' hcareful.1).bind ?_
      rintro ⟨node', report⟩ l₁ ⟨hl₁, hact⟩
      have hviews : node'.view = (node.view.act env inv).1 := congrArg Prod.fst hact
      have hreport : report = (node.view.act env inv).2 := congrArg Prod.snd hact
      have hset : (nodes.map FileNode.view).set inv.node (node.view.act env inv).1 =
          (nodes.set inv.node node').map FileNode.view := by
        rw [List.map_set, ← hviews]
      have hl₂ : l₁.Perm ((nodes.set inv.node node').flatMap FileNode.held ++ rest) := by
        refine hl₁.trans ?_
        rw [← List.append_assoc]
        exact ((hnew node').append_right rest).symm
      have hrest := hcareful.2
      rw [hset] at hrest ⊢
      refine (ih (nodes.set inv.node node') l₁ hl₂ hrest).bind ?_
      rintro ⟨nodes', reports⟩ l₂ ⟨hheld, hviews'⟩
      refine Spec.pure ⟨hheld, ?_⟩
      rw [← hreport, ← hviews']

/-! ## The check of the files -/

section Check
variable (env : FileEnv) (base : List Nat) {extra l : List Nat} {array : Nat} {done : List FileNode}

/-- What is held for the nodes so far. -/
def heldFor (array : Nat) (done : List FileNode) : List Nat :=
  array :: done.flatMap FileNode.held

omit env in
theorem freenodes_spec (hl : l.Perm (extra ++ heldFor array done))
    {Q : Unit → List Nat → Prop} {R : Raised → List Nat → Prop} (h : Q () extra) :
    Spec base l (freenodes array done) Q R := by
  refine Spec.bind (Q := fun _ l' => l' = array :: extra) (Spec.freeAll ?_ rfl) ?_
  · exact (hl.trans List.perm_append_comm).trans List.perm_middle.symm
  · rintro _ _ rfl
    exact Spec.free (List.Perm.refl _) h

/-- A check has ended with an error: everything so far is left, or it is freed. -/
def Gone {α : Type} (x : Except Refusal α) (extra : List Nat) (array : Nat)
    (done : List FileNode) (e : Raised) (l : List Nat) : Prop :=
  x = .error (.metamethod e) ∧ l.Perm (extra ++ heldFor array done) ∨
    x = .error (.refused e) ∧ l.Perm extra

omit env in
theorem giveUp_spec (hl : l.Perm (extra ++ heldFor array done)) {α β : Type} {e : Raised}
    {x : Except Refusal β} (hx : x = .error (.refused e)) {Q : α → List Nat → Prop} :
    Spec base l (giveUp array done e) Q (Gone x extra array done) :=
  (freenodes_spec base hl (Q := fun _ l' => l' = extra) rfl).bind
    (fun _ _ hl' => Spec.raise (Or.inr ⟨hx, hl' ▸ List.Perm.refl _⟩))

theorem checkNumber_spec (hl : l.Perm (extra ++ heldFor array done)) (r : Nat) (m : FileNumber)
    (absent : Int) : Spec base l (checkNumber env array done r m absent)
      (fun i l' => readNumber env r m absent = .ok i ∧ l' = l)
      (Gone (readNumber env r m absent) extra array done) := by
  cases hv : env.getfield r m.field with
  | error e =>
    simp only [checkNumber, readNumber, hv]
    exact Spec.raise (Or.inl ⟨rfl, hl⟩)
  | ok v =>
    cases v with
    | nil | integer =>
      simp only [checkNumber, readNumber, hv]
      exact Spec.pure ⟨rfl, rfl⟩
    | _ =>
      simp only [checkNumber, readNumber, hv]
      exact giveUp_spec base hl rfl

theorem checkCopy_spec (hl : l.Perm (extra ++ heldFor array done)) (i : Nat) (m : FileText)
    (s : Bytes) : Spec base l (checkCopy env array done i m s)
      (fun c l' => readCopy env i m s = .ok c.text ∧ l' = c.address :: l)
      (Gone (readCopy env i m s) extra array done) := by
  refine Spec.bind (Q := fun c l' => c.elim (env.strdup i m = false ∧ l' = l)
    (fun c => env.strdup i m = true ∧ c.text = cstr s ∧ l' = c.address :: l))
    (copyText_spec ?_ ?_) ?_
  · exact fun h a => ⟨h, rfl, rfl⟩
  · exact fun h => ⟨h, rfl⟩
  · intro c l' hc
    cases c with
    | none =>
      obtain ⟨hthere, rfl⟩ := hc
      exact giveUp_spec base hl (by simp [readCopy, hthere])
    | some c =>
      obtain ⟨hthere, htext, rfl⟩ := hc
      exact Spec.pure ⟨by simp [readCopy, hthere, htext], rfl⟩

theorem checkText_spec (hl : l.Perm (extra ++ heldFor array done)) (i r : Nat) (m : FileText) :
    Spec base l (checkText env array done i r m)
      (fun c l' => readText env i r m = .ok c.text ∧ l' = c.address :: l)
      (Gone (readText env i r m) extra array done) := by
  cases hv : env.getfield r m.field with
  | error e =>
    simp only [checkText, readText, hv]
    exact Spec.raise (Or.inl ⟨rfl, hl⟩)
  | ok v =>
    cases v with
    | string s =>
      simp only [checkText, readText, hv]
      exact checkCopy_spec env base hl i m s
    | _ =>
      simp only [checkText, readText, hv]
      exact giveUp_spec base hl rfl

theorem checkMsg_spec (hl : l.Perm (extra ++ heldFor array done)) (i r : Nat) :
    Spec base l (checkMsg env array done i r)
      (fun c l' => readMsg env i r = .ok (c.map Copy.text) ∧
        l' = (c.map Copy.address).toList ++ l)
      (Gone (readMsg env i r) extra array done) := by
  cases hv : env.getfield r FileText.msg.field with
  | error e =>
    simp only [checkMsg, readMsg, hv]
    exact Spec.raise (Or.inl ⟨rfl, hl⟩)
  | ok v =>
    cases v with
    | nil =>
      simp only [checkMsg, readMsg, hv]
      exact Spec.pure ⟨rfl, rfl⟩
    | string s =>
      simp only [checkMsg, readMsg, hv]
      refine Spec.bind ((checkCopy_spec env base hl i .msg s).mono (fun _ _ h => h) ?_) ?_
      · rintro e l' (⟨hx, hl'⟩ | ⟨hx, hl'⟩)
        · exact Or.inl ⟨by rw [hx]; rfl, hl'⟩
        · exact Or.inr ⟨by rw [hx]; rfl, hl'⟩
      · rintro c _ ⟨hx, rfl⟩
        exact Spec.pure ⟨by rw [hx]; rfl, rfl⟩
    | _ =>
      simp only [checkMsg, readMsg, hv]
      exact giveUp_spec base hl rfl

/-- What a file that is refused leaves. -/
def FileGone (x : Except (Refusal × Nat) View) (all : Nat) (e : Raised) (l : List Nat) : Prop :=
  ∃ k, x = .error (.metamethod e, k) ∧ l.length = k + all ∨
    x = .error (.refused e, k) ∧ l.length = k

theorem Gone.file {α : Type} {x : Except Refusal α} {y : Except (Refusal × Nat) View} {e : Raised}
    (h : Gone x extra array done e l)
    (hy : ∀ refusal, x = .error refusal → y = .error (refusal, extra.length)) :
    FileGone y (heldFor array done).length e l := by
  rcases h with ⟨hx, hl⟩ | ⟨hx, hl⟩
  · refine ⟨extra.length, Or.inl ⟨hy _ hx, ?_⟩⟩
    rw [hl.length_eq, List.length_append]
  · exact ⟨extra.length, Or.inr ⟨hy _ hx, hl.length_eq⟩⟩

/-- **A file is accepted or refused**, and what is left is what `fileOf` says. -/
theorem checkFile_spec (hl : l.Perm (heldFor array done)) (i r : Nat) :
    Spec base l (checkFile env array done i r)
      (fun node l' => fileOf env i r = .ok node.view ∧ l'.Perm (node.held ++ heldFor array done))
      (FileGone (fileOf env i r) (heldFor array done).length) := by
  have hl₀ : l.Perm ([] ++ heldFor array done) := hl
  have hcheck := checkNumber_spec env base hl₀ r .status env.STATUS_RUNNING
  refine Spec.bind (hcheck.mono (fun _ _ h => h) ?_) ?_
  · exact fun e l' h => h.file (fun refusal hx => by simp [fileOf, hx])
  rintro status l₀ ⟨hstatus, rfl⟩
  have hcheck := checkMsg_spec env base hl₀ i r
  refine Spec.bind (hcheck.mono (fun _ _ h => h) ?_) ?_
  · exact fun e l' h => h.file (fun refusal hx => by simp [fileOf, hstatus, hx])
  rintro msg _ ⟨hmsg, rfl⟩
  set held := (msg.map Copy.address).toList with hheld
  have hlen : held.length = (msg.map Copy.text).toList.length := by
    rw [hheld]
    cases msg <;> rfl
  have hl₁ : (held ++ l₀).Perm (held ++ heldFor array done) := hl.append_left held
  have hcheck := checkText_spec env base hl₁ i r .name
  refine Spec.bind (hcheck.mono (fun _ _ h => h) ?_) ?_
  · exact fun e l' h => h.file (fun refusal hx => by simp [fileOf, hstatus, hmsg, hx, hlen])
  rintro name _ ⟨hname, rfl⟩
  have hl₂ : (name.address :: (held ++ l₀)).Perm
      ((name.address :: held) ++ heldFor array done) := hl₁.cons _
  have hcheck := checkText_spec env base hl₂ i r .path
  refine Spec.bind (hcheck.mono (fun _ _ h => h) ?_) ?_
  · exact fun e l' h => h.file (fun refusal hx => by
      simp [fileOf, hstatus, hmsg, hname, hx, hlen])
  rintro path _ ⟨hpath, rfl⟩
  have hl₃ : (path.address :: name.address :: (held ++ l₀)).Perm
      ((path.address :: name.address :: held) ++ heldFor array done) := hl₂.cons _
  have hcheck := checkNumber_spec env base hl₃ r .length (-1)
  refine Spec.bind (hcheck.mono (fun _ _ h => h) ?_) ?_
  · exact fun e l' h => h.file (fun refusal hx => by
      simp [fileOf, hstatus, hmsg, hname, hpath, hx, hlen])
  rintro length _ ⟨hlength, rfl⟩
  have hcheck := checkNumber_spec env base hl₃ r .read 0
  refine Spec.bind (hcheck.mono (fun _ _ h => h) ?_) ?_
  · exact fun e l' h => h.file (fun refusal hx => by
      simp [fileOf, hstatus, hmsg, hname, hpath, hlength, hx, hlen])
  rintro read _ ⟨hread, rfl⟩
  refine Spec.pure ⟨?_, ?_⟩
  · simp [fileOf, hstatus, hmsg, hname, hpath, hlength, hread, FileNode.view]
  · refine hl₃.trans (List.Perm.append_right _ ?_)
    rw [List.perm_iff_count]
    intro a
    simp only [FileNode.held, FileNode.copies, hheld, List.count_append, List.count_cons,
      List.count_nil, Option.toList_none]
    omega

variable {env} in
theorem streamed_of_fileOf {i r : Nat} {v : View} (h : fileOf env i r = .ok v) :
    v.streamed = false := by
  unfold fileOf at h
  repeat' split at h
  all_goals cases h
  rfl

/-- The strings of a node that has no stream. -/
theorem held_length {node : FileNode} (h : node.view.streamed = false) :
    node.held.length = node.view.copies := by
  have href : node.outref = none := Option.isSome_eq_false_iff.mp h |> Option.isNone_iff_eq_none.mp
  simp [FileNode.held, FileNode.copies, href, View.copies, FileNode.view]
  cases node.msg <;> rfl

/-- What is held for the nodes that have been accepted. -/
theorem heldFor_length {had : Nat} (h : had = (done.flatMap FileNode.held).length) :
    (heldFor array done).length = had + 1 := by
  rw [h, heldFor, List.length_cons]

/-- **The files are accepted, and everything is held for them, or it is left as `filesFrom`
says.** -/
theorem checkFiles_spec (n : Nat) : ∀ (i : Nat) (done : List FileNode) (l : List Nat) (had : Nat),
    had = (done.flatMap FileNode.held).length → l.Perm (heldFor array done) →
    Spec base l (checkFiles env array n i done)
      (fun nodes l' => l'.Perm (heldFor array nodes) ∧ ∃ views, filesFrom env n i had = .ok views ∧
        nodes.map FileNode.view = done.map FileNode.view ++ views)
      (fun e l' => filesFrom env n i had = .error (e, l'.length)) := by
  induction n with
  | zero =>
    intro i done l had _ hl
    exact Spec.pure ⟨hl, [], rfl, (List.append_nil _).symm⟩
  | succ n ih =>
    intro i done l had hhad hl
    cases hv : env.geti (i + 1) with
    | error e =>
      simp only [checkFiles, filesFrom, hv]
      exact Spec.raise (by rw [hl.length_eq, heldFor_length hhad])
    | ok v =>
      cases v with
      | table r =>
        simp only [checkFiles, filesFrom, hv]
        refine Spec.bind ((checkFile_spec env base hl i r).mono (fun _ _ h => h) ?_) ?_
        · rintro e l' ⟨k, ⟨hfile, hleft⟩ | ⟨hfile, hleft⟩⟩
          · rw [hfile, hleft, heldFor_length hhad]
          · rw [hfile, hleft]
        · rintro node l' ⟨hfile, hl'⟩
          -- The node is one of those that `freenodes` is told of from now on.
          have hlen : had + node.view.copies =
              ((done ++ [node]).flatMap FileNode.held).length := by
            rw [List.flatMap_append, List.length_append, ← hhad, List.flatMap_singleton,
              held_length (streamed_of_fileOf hfile)]
          have hheld : l'.Perm (heldFor array (done ++ [node])) := by
            refine hl'.trans ?_
            rw [heldFor, heldFor, List.flatMap_append, List.flatMap_singleton]
            exact List.perm_middle.trans (List.perm_append_comm.cons array)
          simp only [hfile]
          refine (ih (i + 1) (done ++ [node]) l' _ hlen hheld).mono ?_ ?_
          · rintro nodes l'' ⟨hl'', views, hviews, hmap⟩
            refine ⟨hl'', node.view :: views, by rw [hviews]; rfl, ?_⟩
            rw [hmap, List.map_append, List.append_assoc]
            rfl
          · intro e l'' hrest
            rw [hrest]
            rfl
      | _ =>
        simp only [checkFiles, filesFrom, hv]
        have hl₀ : l.Perm ([] ++ heldFor array done) := hl
        exact (freenodes_spec base hl₀ (Q := fun _ l' => l' = []) rfl).bind
          (fun _ l' hl' => Spec.raise (by rw [hl']; rfl))

end Check

/-! ## The whole view -/

/-- **A progress view releases what it has acquired.**  When the files are accepted, every copy
and every reference in the registry is released exactly once, whatever the library calls and
whatever there is memory for, and the script has been shown each file as it was left last.  When
they are not, what stays behind is what `filesOf` says. -/
theorem dpv_files (env : FileEnv) (invs : List Invocation) (result : Bool) (base : List Nat)
    (hcareful : ∀ views, filesOf env = .ok views → CarefulRun env invs views) :
    Spec base [] (l_dpv_files env invs result)
      (fun out held => held = [] ∧ ∃ views, filesOf env = .ok views ∧
        out = (result, (runViews env invs views).2))
      (fun e held => filesOf env = .error (e, held.length)) := by
  cases hlen : env.len with
  | error e =>
    simp only [l_dpv_files, filesOf, hlen]
    exact Spec.raise rfl
  | ok n =>
    by_cases hzero : n = 0
    · -- There are no nodes, so the library has nothing to call the action for.
      simp only [l_dpv_files, filesOf, hlen, hzero, if_true]
      exact Spec.pure ⟨rfl, [], rfl, by rw [runViews_nil]⟩
    · simp only [l_dpv_files, filesOf, hlen, hzero, if_false] at hcareful ⊢
      have hthere : (env.calloc && decide (0 < n)) = true ↔ env.calloc = true ∧ 0 < n := by
        rw [Bool.and_eq_true, decide_eq_true_iff]
      refine Spec.bind (Q := fun p l => p.elim (¬(env.calloc = true ∧ 0 < n) ∧ l = [])
        (fun a => (env.calloc = true ∧ 0 < n) ∧ l = [a])) (Spec.malloc ?_ ?_) ?_
      · exact fun h a _ => ⟨hthere.mp h, rfl⟩
      · exact fun h => ⟨fun h' => Bool.false_ne_true (h.symm.trans (hthere.mpr h')), rfl⟩
      intro p l hp
      cases p with
      | none =>
        obtain ⟨hno, rfl⟩ := hp
        exact Spec.raise (by rw [if_neg hno]; rfl)
      | some array =>
        obtain ⟨hyes, rfl⟩ := hp
        simp only [if_pos hyes] at hcareful ⊢
        refine Spec.bind (checkFiles_spec env base n.toNat 0 [] [array] 0 rfl (List.Perm.refl _)) ?_
        rintro nodes l ⟨hl, views, hviews, hmap⟩
        rw [List.map_nil, List.nil_append] at hmap
        subst hmap
        have hheld : l.Perm (nodes.flatMap FileNode.held ++ [array]) :=
          hl.trans (List.perm_append_singleton array _).symm
        refine Spec.bind (runActions_spec invs nodes l hheld (hcareful _ hviews)) ?_
        rintro ⟨nodes', reports⟩ l' ⟨hl', hrun⟩
        have hlast : l'.Perm ([] ++ heldFor array nodes') :=
          hl'.trans (List.perm_append_singleton array _)
        refine Spec.bind (freenodes_spec base hlast (Q := fun _ l => l = []) rfl) ?_
        rintro _ _ rfl
        exact Spec.pure ⟨rfl, _, hviews, by rw [← hrun]⟩

/-- Two files, of which the first one has a message. -/
def sampleFiles : FileEnv where
  host := Host.plain
  type _ := IntType.int
  STATUS_RUNNING := 0
  STATUS_FAILED := 2
  len := .ok 2
  geti i := .ok (.table i)
  getfield r name :=
    .ok (if name = "name" ∨ name = "path" ∨ name = "msg" ∧ r = 1 then .string [97] else .nil)
  calloc := true
  strdup _ _ := true
  explain _ := []

/-- The action renames the first file; called again, with the same stream, it raises an error. -/
def sampleCalls : List Invocation :=
  [⟨0, 3, true, fun _ => true, true, fun _ => .returns (.integer 50) (fun name =>
      .ok (if name = "name" ∨ name = "path" then .string [98] else .nil))⟩,
    ⟨0, 3, false, fun _ => true, true, fun _ => .raises (.string [115])⟩]

theorem dpv_files_two :
    Spec [] [] (l_dpv_files sampleFiles sampleCalls true)
      (fun out held => held = [] ∧ out.2.map Report.pct = [50, -1] ∧
        out.2.map (fun r => r.shown.map Shown.name) = [some [97], some [98]])
      (fun _ _ => False) := by
  have hfiles : ∃ views, filesOf sampleFiles = .ok views := ⟨_, rfl⟩
  obtain ⟨views, hviews⟩ := hfiles
  have hcareful : ∀ views, filesOf sampleFiles = .ok views →
      CarefulRun sampleFiles sampleCalls views := by
    rintro _ ⟨⟩
    exact ⟨fun _ => ⟨by decide, by decide⟩, fun _ => rfl, trivial⟩
  refine (dpv_files sampleFiles sampleCalls true [] hcareful).mono ?_ ?_
  · rintro _ held ⟨hheld, _, ⟨⟩, rfl⟩
    exact ⟨hheld, by decide, by decide⟩
  · intro e held he
    rw [hviews] at he
    cases he

/-- A table in the place of the name: the action ends on a pointer that is `NULL`. -/
example : ((l_dpv_files sampleFiles [⟨0, 0, true, fun _ => true, true, fun _ =>
    .returns (.integer 50) (fun _ => .ok (.table 7))⟩] true).run ⟨0, [], false⟩).2.fault =
    true := by
  decide +kernel

end Dpv
end FluaLibs
