import DocumentQuery.Error.Failure
import DocumentQuery.Settings.Basic
import DocumentQuery.Settings.Toml.Entry
import DocumentQuery.Settings.Toml.Literal

/-!
# The settings file

Settings are kept in a text of lines. A line is empty, opens a table by its name between brackets, opens
the next table of a series by its name between double brackets, or sets a key to a number, a truth
value, a string or a table between braces. A number sign starts a comment.

## Main definitions

* `Toml.read?` — the table of a text
* `Settings.ofToml`, `Settings.toToml` — settings from a text, and the text of settings
* `Settings.survivesSaving` — whether settings are the same when they are written and read again
-/

namespace DocumentQuery

namespace Toml

/-- How many keys may be joined. -/
def maxKeys : Nat := 79

/-- How many tables between braces may enclose a value. -/
def maxNesting : Nat := 79

/-- Reads joined keys as the way to the last one and the last one. -/
def readWay (chars : List Char) : Option ((List String × String) × List Char) := do
  let (keys, rest) ← readKeys (chars.length + 1) chars
  if keys.length ≤ maxKeys then return ((keys.dropLast, ← keys.getLast?), rest) else none

mutual

/-- Reads a value; `nesting` tables between braces may still be opened. -/
def readValue : Nat → Nat → List Char → Option (RawJson × List Char)
  | 0, _, _ => none
  | fuel + 1, nesting, chars =>
    match chars with
    | '"' :: rest => do
      let (s, rest) ← readString (rest.length + 1) [] rest
      return (.str s, rest)
    | '\x7b' :: rest =>
      match nesting with
      | 0 => none
      | nesting + 1 =>
        match skipBlanks rest with
        | '\x7d' :: rest => some (.obj [], rest)
        | rest => do
          let (entries, rest) ← readPairs fuel nesting [] rest
          return (.obj (Entry.rawAll entries), rest)
    | chars => do
      let value ← literalOf? (chars.takeWhile isLiteralChar)
      return (value, chars.dropWhile isLiteralChar)

/-- Reads the keys and values of a table up to its closing brace into the entries read so far. -/
def readPairs : Nat → Nat → Entries → List Char → Option (Entries × List Char)
  | 0, _, _, _ => none
  | fuel + 1, nesting, entries, chars => do
    let ((way, name), rest) ← readWay chars
    match rest with
    | '=' :: rest =>
      let (value, rest) ← readValue fuel nesting (skipBlanks rest)
      let entries ← setKey name value way entries
      match skipBlanks rest with
      | ',' :: rest => readPairs fuel nesting entries rest
      | '\x7d' :: rest => some (entries, rest)
      | _ => none
    | _ => none

end

/-- What has been read so far. -/
structure Progress where
  entries : Entries
  /-- The path of the table that is open. -/
  path : List String

/-- Reads the rest of a line that opens a table or, with `series`, the next table of a series. -/
def readHeader (series : Bool) (p : Progress) (chars : List Char) : Option Progress := do
  let ((way, name), rest) ← readWay chars
  let rest ← match series, rest with
    | false, ']' :: rest => some rest
    | true, ']' :: ']' :: rest => some rest
    | _, _ => none
  if isFinished rest then
    let entries ← changeAt (if series then openNext name else openTable name) way p.entries
    return ⟨entries, way ++ [name]⟩
  else none

/-- Reads a line that sets a key. -/
def readSetting (p : Progress) (chars : List Char) : Option Progress := do
  let ((way, name), rest) ← readWay chars
  match rest with
  | '=' :: rest =>
    let (value, rest) ← readValue (rest.length + 1) maxNesting (skipBlanks rest)
    if isFinished rest then
      return { p with entries := ← changeAt (setKey name value way) p.path p.entries }
    else none
  | _ => none

/-- Reads a line. -/
def readLine (p : Progress) (line : List Char) : Option Progress :=
  if isFinished line then some p
  else
    match skipBlanks line with
    | '[' :: '[' :: rest => readHeader true p rest
    | '[' :: rest => readHeader false p rest
    | chars => readSetting p chars

/-- A line without the carriage return at its end. -/
def withoutReturn (line : List Char) : List Char :=
  if line.getLast? = some '\r' then line.dropLast else line

/-- The lines of a text. A carriage return belongs to the line break that follows it, and a mark of the
encoding may stand at the start. -/
def lines (text : String) : List (List Char) :=
  let chars := match text.toList with
    | '\ufeff' :: rest => rest
    | chars => chars
  let parts := Text.splitChars '\n' chars
  parts.dropLast.map withoutReturn ++ parts.getLast?.toList

/-- The table of a text. -/
def read? (text : String) : Option RawJson := do
  let p ← (lines text).foldlM readLine ⟨[], []⟩
  return .obj (Entry.rawAll p.entries)

/-- One character of a string between quotes. -/
def escapeChar (c : Char) : List Char :=
  match c with
  | '"' => ['\\', '"']
  | '\\' => ['\\', '\\']
  | c =>
    if c < ' ' || c == '\x7f' then
      ['\\', 'u', '0', '0', Nat.digitChar (c.toNat / 16), Nat.digitChar (c.toNat % 16)]
    else [c]

/-- A string between quotes. -/
def quote (s : String) : String :=
  String.ofList ('"' :: s.toList.flatMap escapeChar ++ ['"'])

/-- The line that sets a key. -/
def line (key value : String) : String :=
  key ++ " = " ++ value ++ "\n"

/-- The text of a truth value. -/
def boolText (b : Bool) : String :=
  if b then "true" else "false"

/-- The text of settings. -/
def write (s : Settings) : String :=
  let l := s.limits
  let e := s.execution
  (match s.logFilter with
    | some filter => line "log_filter" (quote filter)
    | none => "")
  ++ "[limits]\n" ++ line "max_in_values" l.maxIn.repr
  ++ line "max_not_in_values" l.maxNotIn.repr ++ line "max_disjunctions" l.maxDisjunctions.repr
  ++ "[execution]\n" ++ line "parallel_includes" (boolText e.parallelIncludes)
  ++ line "parallel_disjunctions" (boolText e.parallelDisjunctions)
  ++ line "plan_cache_capacity" e.planCacheCapacity.repr

end Toml

namespace Settings

/-- The counts among settings. -/
def counts (s : Settings) : List Nat :=
  [s.limits.maxIn, s.limits.maxNotIn, s.limits.maxDisjunctions, s.execution.planCacheCapacity]

/-- The text of settings; a count that is no integer of the text is a fault. -/
def toToml (s : Settings) : Except ConfigFault String :=
  if s.counts.all (fun n => (n : Int) < Number.signedBound) then .ok (Toml.write s)
  else .error .countTooLarge

/-- The settings of a text. -/
def ofToml (text : String) : Except ConfigFault Settings :=
  match (Toml.read? text).bind decode with
  | some s => .ok s
  | none => .error .settings

/-- Whether settings are the same when they are written and read again. -/
def survivesSaving (s : Settings) : Except ConfigFault Bool := do
  match ofToml (← s.toToml) with
  | .ok saved => return saved = s
  | .error _ => return false

end Settings

end DocumentQuery
