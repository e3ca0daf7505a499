/-
  Log lines.

  A line is a mapping: what its writer gave, and over or under that the logger, the level, the
  service, the span in progress and the context.  Lines below the level of the log are left out.
-/
import Rulebook.Data.Percent
import Rulebook.Json.Writer
import Rulebook.Log.Context
import Rulebook.Span
import Rulebook.Text.CaseMap

namespace Rulebook

/-! ## Levels -/

/-- The levels of log lines. -/
inductive LogLevel where
  | unset | debug | info | warning | error | critical
  deriving DecidableEq, Repr

namespace LogLevel

/-- The rank of a level. -/
def rank : LogLevel → Nat
  | unset => 0
  | debug => 10
  | info => 20
  | warning => 30
  | error => 40
  | critical => 50

/-- The name of a level in lines. -/
def name : LogLevel → String
  | unset => "notset"
  | debug => "debug"
  | info => "info"
  | warning => "warning"
  | error => "error"
  | critical => "critical"

/-- The level of a name, capitals or not. -/
def ofName? (s : String) : Option LogLevel :=
  match Text.upper s with
  | "NOTSET" => some unset
  | "DEBUG" => some debug
  | "INFO" => some info
  | "WARNING" | "WARN" => some warning
  | "ERROR" => some error
  | "CRITICAL" | "FATAL" => some critical
  | _ => none

end LogLevel

/-! ## Events -/

/-- The entries of a line. -/
abbrev LogEvent := List (Data × Data)

namespace LogEvent

/-- Writes an entry, over one of the same name. -/
def set (e : LogEvent) (name : String) (d : Data) : LogEvent :=
  Data.insertEntry e (.text name) d

/-- Writes an entry unless there is one of the same name. -/
def default (e : LogEvent) (name : String) (d : Data) : LogEvent :=
  if (Data.entry? e name).isSome then e else e.set name d

/-- Writes an entry if there is something to write. -/
def set? (e : LogEvent) (name : String) (text : Option String) : LogEvent :=
  match text with
  | some s => e.set name (.text s)
  | none => e

/-- An event with the service, the span in progress, the context and the time. -/
def complete (e : LogEvent) (service : String) (span : Option Span) (context : LogContext)
    (now : Data) : LogEvent :=
  let e := e.default "service" (.text service)
  let e := (e.set? "trace_id" (span.bind Span.trace?)).set? "span_id" (span.bind Span.span?)
  let e := LogKey.values.foldl
    (fun e k => if (context.get k).truth then e.default k.name (context.get k) else e) e
  e.set "timestamp_epoch" now

end LogEvent

/-! ## Lines -/

/-- A log and what it is told once. -/
structure Log where
  service : String
  level : LogLevel := .info
  name : String := "rules"

namespace Log

/-- The name of the logger of all loggers. -/
def rootName : String := "root"

/-- The text of an event with its arguments: a single mapping gives them by name. -/
def worded (event : Data) (args : List Data) : Except Fault Data :=
  match event, args with
  | _, [] => .ok event
  | .text s, [.mapping (e :: es)] => (Data.Percent.format s (.mapping (e :: es))).map .text
  | .text s, args => (Data.Percent.format s (.tuple args)).map .text
  | d, _ => .error (.unsupportedOperands "%" d.typeName "tuple")

/-- The entries of a line; none if its level is too low. -/
def event? (log : Log) (span : Option Span) (context : LogContext) (clock : Data)
    (level : LogLevel) (event : Data) (args : List Data) (fields : LogEvent) :
    Except Fault (Option LogEvent) :=
  if (Data.entry? fields "event").isSome then .error (.repeatedArgument level.name "event")
  else if level.rank < log.level.rank then .ok none
  else do
    let text ← worded event args
    let e := fields ++ [(.text "event", text)]
    let e := e.set "logger" (.text (if log.name.isEmpty then rootName else log.name))
    let e := (e.set "level" (.text level.name)).set "timestamp" clock
    return some (LogEvent.complete e log.service span context clock)

/-- The text of a line. -/
def line (e : LogEvent) : Except Fault String :=
  Json.write Json.inLog (.mapping e)

end Log

end Rulebook
