import WorkGraph.Json.Printer
import WorkGraph.World

/-!
# Log lines

Operators read events as lines, either documents or plain text. Events below the threshold leave no line. The fields of
an event follow what every line has; some names are taken and may not be used for fields.
-/

namespace WorkGraph

namespace Level

def severity : Level → Nat
  | debug => 10
  | info => 20
  | warning => 30
  | error => 40
  | critical => 50

/-- The level of a name in capitals; two levels have a second name. -/
def ofName? : String → Option Level
  | "DEBUG" => some debug
  | "INFO" => some info
  | "WARNING" | "WARN" => some warning
  | "ERROR" => some error
  | "CRITICAL" | "FATAL" => some critical
  | _ => none

theorem ofName?_name (level : Level) : ofName? level.name = some level := by
  cases level <;> rfl

end Level

namespace Log

/-- The name of the whole log, of which the logs of components are parts. -/
def rootName : String := "flowrunner"

/-- How lines are written. -/
structure Settings where
  /-- The least level that leaves a line; without one, the surroundings decide. -/
  threshold : Option Level
  /-- Whether lines are documents. -/
  document : Bool
  deriving DecidableEq, Repr

/-- A letter as a capital, where that is a letter of the Latin alphabet. -/
def capital (c : Char) : Char :=
  if c == 'ı' then 'I' else if c == 'ſ' then 'S' else c.toUpper

/-- What a name in capitals stands for as a threshold: a level, none at all, or, of an unknown name, the level of
information. Two names stand for other things than levels. -/
def thresholdOf (name : String) : Except Fault (Option Level) :=
  match name with
  | "NOTSET" => .ok none
  | "BASIC_FORMAT" => .error (.unconvertible (.stated ("Unknown level")))
  | "_STYLES" => .error (.misuse (.arguments "Level not an integer or a valid string"))
  | _ => .ok ((Level.ofName? name).getD .info)

/-- The settings for a level and a format by name. -/
def configure (level format : Value) : Except Fault Settings :=
  match level with
  | .str name => do
    return { threshold := ← thresholdOf (name.map capital), document := format.str? == some "json" }
  | v => .error (.noMember v.kindName "upper")

/-- The name of the threshold. -/
def Settings.thresholdName (s : Settings) : String :=
  s.threshold.elim "NOTSET" Level.name

/-- Whether events of a level leave lines. -/
def Settings.shows (s : Settings) (level : Level) : Bool :=
  decide ((s.threshold.getD .warning).severity ≤ level.severity)

/-- What an event says of itself and no field may. -/
def takenNames : List String :=
  ["message", "asctime", "name", "msg", "args", "levelname", "levelno", "pathname", "filename", "module", "exc_info",
    "exc_text", "stack_info", "lineno", "funcName", "created", "msecs", "relativeCreated", "thread", "threadName",
    "processName", "process"]

/-- Fields that are accepted but not written. -/
def hiddenNames : List String := ["taskName"]

/-- The level that an event is logged at, and whether it is one about a fault. -/
def eventLevel? (name : String) : Option (Level × Bool) :=
  if name == "exception" then some (.error, true)
  else (Level.ofName? (name.map Char.toUpper)).map (·, false)

/-- What a log has under a name in small letters besides its levels. -/
def memberNames : List String :=
  ["name", "level", "parent", "root", "manager", "handlers", "filters", "propagate", "disabled", "log", "_log",
    "handle", "filter", "_cache"]

/-- The level that a name in any case tells of, and whether it is one about a fault. What else a log has under a name
takes no events. -/
def readLevel : Value → Except Fault (Level × Bool)
  | .str name =>
    let name := name.map Char.toLower
    match eventLevel? name with
    | some found => .ok found
    | none =>
      if memberNames.contains name then .error (.misuse (.arguments ("'" ++ name ++ "' takes no events")))
      else .error (.noMember "Logger" name)
  | v => .error (.noMember v.kindName "lower")

/-- An event of a component. Some names are those of the arguments and not of fields. -/
def event (component name : String) (level : Value) (fields : Entries Value) : Except Fault LogEvent :=
  match ["logger", "event", "level"].find? fields.has with
  | some key => .error (.misuse (.arguments ("got multiple values for argument '" ++ key ++ "'")))
  | none => do
    let (level, exception) ← readLevel level
    return { component, level, message := name, fields, exception }

/-- The account of a fault in a line where there is none. -/
def noAccount : String := "NoneType: None"

/-- The name of the log of a component. -/
def componentName (component : String) : String :=
  rootName ++ "." ++ component

/-- An event as a document. -/
def document (c : Clock) (e : LogEvent) : Value :=
  let own : Entries Value :=
    [("timestamp", .str (c.stamp ++ "Z")), ("level", .str e.level.name), ("logger", .str (componentName e.component)),
      ("message", .str e.message)] ++ if e.exception then [("exception", .str noAccount)] else []
  .map (own.merge (e.fields.filter fun entry => !hiddenNames.contains entry.1))

/-- An event as plain text. An account starts on a line of its own. -/
def plain (c : Clock) (e : LogEvent) : String :=
  let text := c.written "-" " " ":" ++ " - " ++ componentName e.component ++ " - " ++ e.level.name ++ " - " ++ e.message
  if e.exception then text ++ (if text.toList.getLast? == some '\n' then "" else "\n") ++ noAccount else text

/-- The line of an event, with its line break; empty below the threshold. -/
def line (s : Settings) (c : Clock) (e : LogEvent) : Except Fault String :=
  if !s.shows e.level then .ok ""
  else match (Entries.keys e.fields).find? takenNames.contains with
    | some key => .error (.noKey (.str ("Attempt to overwrite '" ++ key ++ "' in LogRecord")))
    | none => .ok ((if s.document then Json.Style.line.render (document c e) else plain c e) ++ "\n")

end Log

end WorkGraph
