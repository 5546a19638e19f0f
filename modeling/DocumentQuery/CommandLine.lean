import DocumentQuery.Expression.Document
import DocumentQuery.Json.Reader
import DocumentQuery.Run.Engine
import DocumentQuery.Settings.Environment

/-!
# The command line

The program runs a query over fixture documents, or explains what a run would do. Model, query and
fixtures are files; parameters are given as `name=value`, where a value that is no document text stands
for itself.

What the program does depends on its arguments, the contents of the files they name, and the variables
of the environment, and on nothing else.

## Main definitions

* `Invocation.ofArguments?` — the arguments, read
* `Invocation.run` — what the program prints, or why it fails
-/

namespace DocumentQuery

/-- What the program is asked to do. -/
inductive Task where
  | run
  | explain
deriving DecidableEq, Inhabited

/-- The task of a name. -/
def Task.ofName? : String → Option Task
  | "run" => some .run
  | "explain" => some .explain
  | _ => none

/-- The options of an invocation as they are met; an option that is met twice is refused. -/
structure Options where
  config : Option String
  task : Option Task
  model : Option String
  query : Option String
  data : Option String
  params : Bindings
deriving Inhabited

namespace Options

/-- No options at all. -/
def none : Options := ⟨.none, .none, .none, .none, .none, []⟩

/-- The name and the value of a parameter. -/
def parameter? (text : String) : Option (String × Json) :=
  let chars := text.toList
  match chars.dropWhile (· != '=') with
  | [] => .none
  | _ :: rest =>
    let value := String.ofList rest
    some (String.ofList (chars.takeWhile (· != '=')), (Json.ofText? value).getD (.str value))

/-- Takes an option with its value. -/
def set (o : Options) (name value : String) : Option Options :=
  match name with
  | "--config" => if o.config.isSome then .none else some { o with config := some value }
  | "--model" =>
    if o.task.isNone || o.model.isSome then .none else some { o with model := some value }
  | "--query" =>
    if o.task.isNone || o.query.isSome then .none else some { o with query := some value }
  | "--data" => if o.task.isNone || o.data.isSome then .none else some { o with data := some value }
  | "--param" =>
    if o.task.isNone then .none
    else (parameter? value).map fun (name, value) => { o with params := o.params.insert name value }
  | _ => .none

/-- Whether an argument is an option and no value. -/
def isOption (argument : String) : Bool :=
  argument.startsWith "-" && argument != "-"

/-- Reads arguments in order. -/
def read (o : Options) : List String → Option Options
  | [] => some o
  | argument :: rest =>
    if isOption argument then
      let chars := argument.toList
      let name := String.ofList (chars.takeWhile (· != '='))
      match chars.dropWhile (· != '=') with
      | _ :: value => do read (← o.set name (String.ofList value)) rest
      | [] =>
        match rest with
        | value :: rest => if isOption value then .none else do read (← o.set name value) rest
        | [] => .none
    else if o.task.isSome then .none
    else do read { o with task := some (← Task.ofName? argument) } rest

end Options

/-- What the program is asked to do, and with what. -/
structure Invocation where
  /-- The folder of the settings file. -/
  config : String
  task : Task
  model : String
  query : String
  data : Option String
  params : Bindings
deriving Inhabited

namespace Invocation

/-- The arguments, read; none if they cannot be used. The task comes first, and the files it needs must all be
named. -/
def ofArguments? (arguments : List String) : Option Invocation := do
  let o ← Options.none.read arguments
  return ⟨o.config.getD ".", ← o.task, ← o.model, ← o.query, o.data, o.params⟩

/-- The path of the settings file. -/
def settingsPath (i : Invocation) : String :=
  i.config ++ "/docql.toml"

/-- The paths of the files that are read. -/
def paths (i : Invocation) : List String :=
  [i.settingsPath, i.model, i.query] ++ i.data.toList

/-- Why the program fails. -/
inductive Fault where
  | unreadable (path : String)
  /-- A file does not hold what it should. -/
  | malformed (path : String)
  | failure (failure : Failure)
deriving Inhabited

/-- The wording of why the program fails. -/
def Fault.message : Fault → String
  | unreadable path => s!"reading {path}"
  | malformed path => s!"parsing {path}"
  | failure f => f.message

/-- Reads a file as typed data. -/
def decodeFile {α : Type} (files : Table String) (path : String) (value : Decoder α) :
    Except Fault α :=
  match files.lookup path with
  | none => .error (.unreadable path)
  | some text =>
    match (RawJson.ofText? text).bind value with
    | some a => .ok a
    | none => .error (.malformed path)

/-- The store with the fixtures of a file. -/
def loadFixtures (files : Table String) (path : String) : Except Failure Store :=
  match files.lookup path with
  | none => .error .io
  | some text =>
    match Json.ofText? text with
    | none => .error .json
    | some fixtures =>
      match (Store.empty true).load fixtures with
      | (.ok _, store) => .ok store
      | (.error fault, _) => .error (.config fault)

/-- The store of an invocation. -/
def store (i : Invocation) (files : Table String) : Except Failure Store :=
  match i.data with
  | some path => loadFixtures files path
  | none => .ok (.empty true)

/-- The document an engine gives for a template. -/
def answer (i : Invocation) (engine : Engine) (store : Store) (template : Template) :
    Except Failure Json :=
  match i.task with
  | .explain => (engine.explain template i.params store).map Explanation.toJson
  | .run =>
    let plans := PlanCache.ofCapacity engine.settings.execution.planCacheCapacity
    let start := Engine.start (.ofStore store) plans
    let (outcome, state) := (engine.execute template i.params).run start
    outcome.map (·.toJson state.workspace.graph)

/-- What the program prints, or why it fails. The files are given with their contents, and nothing is read
besides, so an invocation on the same files has the same result. -/
def run (i : Invocation) (files : Table String) (env : Environment) : Except Fault String := do
  let settings ← (Settings.load (files.lookup i.settingsPath) env).mapError Fault.failure
  let model ← decodeFile files i.model Model.decode
  let pipeline ← decodeFile files i.query Pipeline.decode
  let store ← (i.store files).mapError Fault.failure
  let engine : Engine := ⟨model, settings⟩
  let template ← (engine.compile pipeline).mapError (Fault.failure ∘ Failure.query)
  let answer ← (i.answer engine store template).mapError Fault.failure
  return answer.pretty

end Invocation

end DocumentQuery
