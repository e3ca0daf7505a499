/-
  The handler that runs scripts.

  A script reads the names of its context and works on a copy of them, so the entity stays as it is.
  It has a time of its own within the time of the action.
-/
import Rulebook.Config
import Rulebook.Handler.Basic
import Rulebook.Script.Guard

namespace Rulebook.Handler

/-- The language of scripts. -/
def scriptLanguage : String := "script"

/-- A time in whole milliseconds, as it is told to the author of a script. -/
def millisecondText (seconds : Float) : String :=
  match Data.roundedFloat Binary64.nearest (seconds * 1000.0) with
  | .ok n => toString (max 0 n)
  | .error _ => "0"

/-- What is told of a script that was stopped. -/
def stopMessage (seconds : Float) : Script.Stop → String
  | .timedOut => s!"timed out after {millisecondText seconds}ms"
  | .error e => e.message
  | .fault f => f.kind.name ++ ": " ++ f.message
  | .leaveLoop | .nextItem | .finish _ => Script.Error.strayLoopControl.message

/-- The time by which a script has to be done, at most that of its action. -/
def scriptEnd (setting : Data) (now deadline : Float) : Except Fault Float := do
  match setting.number? with
  | none => throw (.unsupportedOperands "/" setting.typeName "float")
  | some n => do
    match ← n.div (.float 1000.0) with
    | .float x => return if now + x < deadline then now + x else deadline
    | .int _ => return deadline

/-- Runs a script beside the action, which waits for it. -/
def executeScript (config : Config) (stamps : Stamps) : Handler :=
  requiring "EXECUTE_SCRIPT" ["script"] fun ps c deadline => do
    let language := ps.parameter "language" (.text scriptLanguage)
    match language with
    | .text s =>
      if s ≠ scriptLanguage then Act.refuse ("Unsupported script language: " ++ s)
      else do
        let started := (← get).now
        let stop ← Act.lift
          (scriptEnd (ps.parameter "scriptTimeout" (.int config.scriptTimeout)) started deadline)
        let seconds := stop - started
        let source ← Act.load (ps.parameter "script")
        let fail (stop : Script.Stop) : Act Value :=
          Act.refuse ("Script execution failed: " ++ stopMessage seconds stop)
        match c.names (← Act.heap) with
        | .error f => fail (.fault f)
        | .ok (names, h) => do
          let s' ← get
          let scope : Script.Scope :=
            { names, functions := [("log", .log)], budget := config.scriptSteps
              deadline := s'.lastStep seconds, charNames := s'.charNames }
          let outcome := Script.runScript h scope source
          Act.setHeap outcome.heap
          Act.wait
          match outcome.result with
          | .error stop => fail stop
          | .ok d => do
            let result ← Act.load d
            let log ← Act.load (.list (outcome.log.map .text))
            Act.give [("result", result), ("language", .text s), ("logs", log),
              ("executed_at", stamps.timeOf)]
    | d => do Act.refuse ("Unsupported script language: " ++ (← Act.lift d.asText))

end Rulebook.Handler
