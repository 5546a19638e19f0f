import DocumentQuery.Bound.Document

/-!
# Settings

Settings hold the limits of the store, how queries are run, and what is logged. Every setting has a
standard value.

Branches of one run may be started together: the queries that a disjunction is emulated with, and the
navigations that are loaded for one instance. As long as every call is answered at once, this makes no
difference, because the branches are taken up in the order of the list and the first failure ends them all.
It makes one when the run is left waiting for a call, since the other branches then go on (`together`).
-/

namespace DocumentQuery

/-- How queries are run. -/
structure ExecutionSettings where
  /-- Whether the navigations of an instance are loaded together. -/
  parallelIncludes : Bool
  /-- Whether the queries of a disjunction are sent together. -/
  parallelDisjunctions : Bool
  /-- How many plans for making instances are kept. -/
  planCacheCapacity : Nat
deriving DecidableEq, Inhabited

/-- All settings. -/
structure Settings where
  limits : QueryLimits
  execution : ExecutionSettings
  logFilter : Option String
deriving DecidableEq, Inhabited

namespace ExecutionSettings

/-- The standard way to run queries. -/
def standard : ExecutionSettings := ⟨false, true, 1000⟩

/-- The exchange form of how queries are run. -/
def toJson (e : ExecutionSettings) : Json :=
  Json.mkObj [("parallel_includes", .bool e.parallelIncludes),
    ("parallel_disjunctions", .bool e.parallelDisjunctions),
    ("plan_cache_capacity", Json.count e.planCacheCapacity)]

/-- Reads how queries are run. -/
def decode : Decoder ExecutionSettings := fun j => do
  return {
    parallelIncludes :=
      ← Decoder.fieldOr "parallel_includes" standard.parallelIncludes Decoder.bool j
    parallelDisjunctions :=
      ← Decoder.fieldOr "parallel_disjunctions" standard.parallelDisjunctions Decoder.bool j
    planCacheCapacity :=
      ← Decoder.fieldOr "plan_cache_capacity" standard.planCacheCapacity Decoder.count j }

end ExecutionSettings

namespace Settings

/-- The standard settings. -/
def standard : Settings := ⟨.standard, .standard, none⟩

/-- The log filter when none is set. -/
def standardLogFilter : String := "docql=info"

/-- The log filter in effect. -/
def effectiveLogFilter (s : Settings) : String :=
  s.logFilter.getD standardLogFilter

/-- The exchange form of settings. -/
def toJson (s : Settings) : Json :=
  Json.mkObj <|
    [("limits", s.limits.toJson), ("execution", s.execution.toJson)]
    ++ Json.given "log_filter" Json.str s.logFilter

/-- Reads settings. -/
def decode : Decoder Settings := fun j => do
  return {
    limits := ← Decoder.fieldOr "limits" QueryLimits.standard QueryLimits.decode j
    execution := ← Decoder.fieldOr "execution" ExecutionSettings.standard ExecutionSettings.decode j
    logFilter := ← Decoder.optional "log_filter" Decoder.string j }

end Settings

end DocumentQuery
