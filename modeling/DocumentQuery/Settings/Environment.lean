import DocumentQuery.Error.Failure
import DocumentQuery.Settings.Toml
import DocumentQuery.Text.Blank

/-!
# Settings from the environment

Variables of the environment take precedence over the settings file. A variable that cannot be read is
ignored.

## Main definitions

* `Settings.override` — settings with the variables that are set
* `Settings.load` — the settings of a file and an environment
-/

namespace DocumentQuery

/-- The variables of the environment. -/
abbrev Environment := Table String

namespace Environment

/-- The truth value of a variable. -/
def bool? (env : Environment) (name : String) : Option Bool := do
  match Text.trimmed (← env.lookup name) with
  | "true" => some true
  | "false" => some false
  | _ => none

/-- The count of a text of digits, which may follow a plus sign. -/
def countOf? (text : String) : Option Nat :=
  let digits := match text.toList with
    | '+' :: rest => rest
    | rest => rest
  if digits.isEmpty || digits.any (!·.isDigit) then none
  else
    let n := Json.Reader.naturalOf digits
    if n ≤ Number.maxCount then some n else none

/-- The count of a variable. -/
def count? (env : Environment) (name : String) : Option Nat := do
  countOf? (Text.trimmed (← env.lookup name))

/-- The text of a variable, unless it is empty. -/
def text? (env : Environment) (name : String) : Option String :=
  (env.lookup name).filter (· != "")

end Environment

namespace Settings

/-- Settings with the variables that are set. -/
def override (env : Environment) (s : Settings) : Settings where
  limits :=
    { s.limits with
      maxIn := (env.count? "DOCQL_MAX_IN_VALUES").getD s.limits.maxIn
      maxNotIn := (env.count? "DOCQL_MAX_NOT_IN_VALUES").getD s.limits.maxNotIn }
  execution :=
    { s.execution with
      parallelIncludes := (env.bool? "DOCQL_PARALLEL_INCLUDES").getD s.execution.parallelIncludes }
  logFilter := (env.text? "DOCQL_LOG").or s.logFilter

/-- The settings of a file, which may be missing, and an environment. -/
def load (file : Option String) (env : Environment) : Except Failure Settings :=
  match file with
  | none => .ok (standard.override env)
  | some text => ((ofToml text).map (·.override env)).mapError Failure.config

end Settings

end DocumentQuery
