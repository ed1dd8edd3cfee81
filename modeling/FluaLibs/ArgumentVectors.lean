import FluaLibs.ListArguments

/-! # The vectors of a new program

`mac.execve` makes an array of the arguments in a list, and an array of strings of the fields of a
table, which is the environment.  The table is walked twice, once to count and once to write the
strings, and on the second walk the key that `lua_next` is to go on from has been made a string in
its place on the stack.
-/
namespace FluaLibs
namespace ArgumentVectors
open LuaArguments Held ListArguments

/-- The fields of a table in the order in which `lua_next` gives them. -/
structure Fields where
  list : List (Value × Value)
  nodup : (list.map Prod.fst).Nodup
  ne_nil : ∀ f ∈ list, f.1 ≠ .nil

/-- `asprintf` is asked with the number of the string and its text, and says what error there
is. -/
structure VectorEnv extends ListEnv where
  fields : Nat → Fields
  asprintf : Nat → Bytes → Option Nat

/-! ## Walks -/

/-- What comes behind a key, if it is one. -/
def rest (fs : List (Value × Value)) (key : Value) : Option (List (Value × Value)) :=
  if key = .nil then some fs
  else if key ∈ fs.map Prod.fst then some (fs.dropWhile (fun f => f.1 ≠ key)).tail
  else none

/-- `lua_next`: the field behind the one with the key; nothing at the end. -/
def next (fs : List (Value × Value)) (key : Value) : Except Raised (Option (Value × Value)) :=
  match rest fs key with
  | some behind => .ok behind.head?
  | none => .error (.error "invalid key to 'next'")

/-- The first walk of `l_mac_execve`, which counts: each key is left as it is. -/
def countFields (fs : List (Value × Value)) : Nat → Value → Nat → Except Raised Nat
  | 0, _, envc => .ok envc
  | fuel + 1, key, envc => do
    match ← next fs key with
    | none => pure envc
    | some (k, _) => countFields fs fuel k (envc + 1)

section Code
variable (env : VectorEnv) (args : Nat → Option Value)

/-! ## The strings -/

/-- What `%.*s` prints of a string: the precision is an `int`, and ignored if it is negative. -/
def printed (s : Bytes) : Bytes :=
  let precision := IntType.int.wrap s.length
  if precision < 0 then cstr s else (cstr s).take precision.toNat

/-- `"%.*s=%.*s"` -/
def pair (name value : Bytes) : Bytes := printed name ++ 61 :: printed value

/-- What `mac_execve` is given.  An element of the list that has no string is a null pointer, and
no `envv` stands for `environ`. -/
structure Execve where
  fname : Bytes
  argv : List (Option Bytes)
  envv : Option (List Bytes)
  label : Nat
  deriving DecidableEq

/-- `freeenvv`, and the end of `argv`. -/
def freeVectors (envv : Option (Nat × List Copy)) (argv : Nat) : Code Raised Unit := do
  match envv with
  | some (array, strings) => Code.freeAll (strings.map Copy.address ++ [array])
  | none => pure ()
  Code.free argv

/-- The strings of the environment from the `i`-th on, when `key` is on the stack. -/
def readEnvv (fs : List (Value × Value)) (argv envv : Nat) :
    Nat → Nat → Value → List Copy → Code Raised (List Copy)
  | 0, _, _, done => pure done
  | n + 1, i, key, done => do
    match ← Code.ofExcept (next fs key) with
    | none => do
      -- The walk has come to its end, and there is no field on the stack.
      Code.demand false
      pure done
    | some (k, v) =>
      match tolstring env.host k, tolstring env.host v with
      | some name, some value => do
        let text := pair name value
        match ← Code.malloc (env.asprintf i text).isNone with
        | none => do
          freeVectors (some (envv, done)) argv
          Code.raise (.fatal "asprintf" ((env.asprintf i text).getD 0))
        | some string => readEnvv fs argv envv n (i + 1) (.string name) (done ++ [⟨string, text⟩])
      | _, _ => do
        freeVectors (some (envv, done)) argv
        Code.raise (.argerror 4 "string conversion failed")

/-- The strings of an environment that is a table: the fields are counted, and written. -/
def writeEnvv (fs : List (Value × Value)) (argv : Nat) :
    Code Raised (Option (Nat × List Copy)) := do
  let envc ← Code.ofExcept (countFields fs (fs.length + 1) .nil 0)
  Code.demand (decide (envc + 1 < 2 ^ 31))
  match ← Code.malloc (env.malloc 1 ((envc + 1) * 8)) with
  | none => do
    Code.free argv
    Code.raise (.fatal "malloc" ENOMEM)
  | some envv => do
    let strings ← readEnvv env fs argv envv envc 0 .nil []
    pure (some (envv, strings))

/-- Both walks have a key on the stack, and a value if there is a field; what is below them takes
`below` slots. -/
def makeEnvv (fs : List (Value × Value)) (argv below : Nat) :
    Code Raised (Option (Nat × List Copy)) := do
  Code.demand (decide (below + (if fs.isEmpty then 1 else 2) ≤ minstack))
  writeEnvv env fs argv

/-- The environment, and the slots that it takes: a key stays. -/
def getEnvv (argv below : Nat) : Code Raised (Option (Nat × List Copy) × Nat) := do
  match args 4 with
  | some (.table e) => do
    let envv ← makeEnvv env (env.fields e).list argv below
    pure (envv, below + 1)
  | _ => pure (none, below)

/-- The call itself, which returns only if it fails. -/
def callExecve (mac_execve : Execve → Nat) (label : Nat) (fname : Bytes)
    (argv : Nat × List (Option Bytes)) (envv : Option (Nat × List Copy)) (slots : Nat) :
    Code Raised (Execve × Nat) := do
  let given : Execve := ⟨fname, argv.2, envv.map (fun e => e.2.map Copy.text), label⟩
  Code.touchAll (argv.1 :: (envv.elim [] fun e => e.1 :: e.2.map Copy.address))
  freeVectors envv argv.1
  Code.demand (decide (slots + 3 ≤ minstack))
  pure (given, mac_execve given)

/-- `l_mac_execve` with an array of some size for the arguments. -/
def execveArray (mac_execve : Execve → Nat) (label : Nat) (fname : Bytes) (t : Nat) (argc : Int)
    (size array : Nat) : Code Raised (Execve × Nat) := do
  let argv ← readList env.toListEnv (argvReading env.toListEnv t argc.toNat size) [array]
    argc.toNat 0 []
  -- `argv[argc]` is written.
  Code.demand (decide (0 ≤ argc))
  let (envv, slots) ← getEnvv env args array argc.toNat
  callExecve mac_execve label fname (array, argv) envv slots

/-- `l_mac_execve` from the length of the list on. -/
def execveWith (mac_execve : Execve → Nat) (label : Nat) (fname : Bytes) (t : Nat) (argc : Int) :
    Code Raised (Execve × Nat) := do
  Code.demand (decide (argc + 1 < 2 ^ 31))
  let size := sizeT ((argc + 1) * 8)
  match ← Code.malloc (env.malloc 0 size) with
  | none => Code.raise (.fatal "malloc" ENOMEM)
  | some array => execveArray env args mac_execve label fname t argc size array

def l_mac_execve (mac_execve : Execve → Nat) : Code Raised (Execve × Nat) := do
  let label ← Code.ofExcept (checkcookie env.toListEnv args 1 "mac_t")
  let fname ← Code.ofExcept (checklstring env.host 2 (args 2))
  let t ← Code.ofExcept (checktable args 3)
  let len ← Code.ofExcept (env.len t)
  execveWith env args mac_execve label (cstr fname) t (IntType.int.wrap len)

end Code

end ArgumentVectors
end FluaLibs
