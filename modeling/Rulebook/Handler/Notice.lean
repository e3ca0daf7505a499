/-
  Handlers that tell someone of something: notifications, mail, workflows and events of the log.

  Their effects stay outside, so all they do is put together what they were told.
-/
import Rulebook.Handler.Basic
import Rulebook.Text.CaseMap

namespace Rulebook.Handler

/-- How urgent something is unless it is told. -/
def usualUrgency : Data := .text "normal"

/-- Sends a notification. -/
def sendNotification (stamps : Stamps) : Handler :=
  requiring "SEND_NOTIFICATION" ["recipient"] fun ps c _ => do
    let recipient ← Act.resolve c (ps.parameter "recipient")
    let subject ← Act.resolve c (ps.parameter "subject")
    let message ← Act.resolve c (ps.parameter "message")
    Act.give [("notification_id", stamps.idOf "notif"), ("recipient", recipient),
      ("subject", subject), ("message", message),
      ("priority", ← Act.load (ps.parameter "priority" usualUrgency)), ("sent_at", stamps.timeOf)]

/-- Sends mail. -/
def sendEmail (stamps : Stamps) : Handler :=
  requiring "SEND_EMAIL" ["to", "subject"] fun ps c _ => do
    let receiver ← Act.resolve c (ps.parameter "to")
    let subject ← Act.resolve c (ps.parameter "subject")
    let message ← Act.resolve c (ps.parameter "message")
    let templateData ← Act.resolve c (ps.parameter "templateData" (.mapping []))
    let cc ← Act.resolve c (ps.parameter "cc" (.list []))
    let bcc ← Act.resolve c (ps.parameter "bcc" (.list []))
    Act.give [("email_id", stamps.idOf "email"), ("to", receiver), ("cc", cc), ("bcc", bcc),
      ("subject", subject), ("message", message),
      ("template", ← Act.load (ps.parameter "template")), ("template_data", templateData),
      ("priority", ← Act.load (ps.parameter "priority" usualUrgency)), ("sent", .bool true),
      ("sent_at", stamps.timeOf)]

/-- Starts a workflow. -/
def triggerWorkflow (stamps : Stamps) : Handler :=
  requiring "TRIGGER_WORKFLOW" ["workflowId"] fun ps c _ => do
    let workflow ← Act.resolve c (ps.parameter "workflowId")
    let input ← Act.resolve c (ps.parameter "input" (.mapping []))
    Act.give [("workflow_id", workflow), ("workflow_instance_id", stamps.idOf "workflow"),
      ("input", input), ("priority", ← Act.load (ps.parameter "priority" usualUrgency)),
      ("triggered_at", stamps.timeOf)]

/-- The levels of events of the log. -/
def eventLevels : List String := ["debug", "info", "warning", "error", "critical"]

/-- The level that data names, the usual one if it names none. -/
def eventLevel (d : Data) : Except Fault String := do
  let level := Text.lower (← d.asText)
  return if eventLevels.contains level then level else "info"

/-- Writes an event to the log. -/
def logEvent (stamps : Stamps) : Handler :=
  requiring "LOG_EVENT" ["message"] fun ps c _ => do
    let level ← Act.lift (eventLevel (ps.parameter "level" (.text "info")))
    let message ← Act.resolve c (ps.parameter "message")
    let details ← Act.resolve c (ps.parameter "details" (.mapping []))
    let tags ← Act.resolve c (ps.parameter "tags" (.list []))
    let _ ← Act.lift ((← Act.heap).asText message)
    Act.give [("log_id", stamps.idOf "log"), ("level", .text level), ("message", message),
      ("details", details), ("tags", tags), ("logged_at", stamps.timeOf)]

end Rulebook.Handler
