/-
  Handlers that decide about the entity: it is approved, rejected or passed on to someone above.
-/
import Rulebook.Handler.Basic

namespace Rulebook.Handler

/-- A reason, or the one that is given for data that counts as false. -/
def reasonOr (c : Context) (d : Data) (usual : String) : Act Value := do
  let v ← Act.resolve c d
  return if (← Act.heap).truth v then v else .text usual

/-- Approves the entity. -/
def approve (stamps : Stamps) : Handler :=
  requiring "APPROVE" [] fun ps c _ => do
    let reason ← reasonOr c (ps.parameter "reason") "Auto-approved"
    let approver ← Act.resolve c (ps.parameter "approver" (.text "system"))
    let conditions ← Act.resolve c (ps.parameter "conditions")
    Act.give [("approval_id", stamps.idOf "approval"), ("approved", .bool true),
      ("approver", approver), ("reason", reason), ("conditions", conditions),
      ("approved_at", stamps.timeOf)]

/-- Rejects the entity. -/
def reject (stamps : Stamps) : Handler :=
  requiring "REJECT" [] fun ps c _ => do
    let reason ← reasonOr c (ps.parameter "reason") "Auto-rejected"
    let rejector ← Act.resolve c (ps.parameter "rejector" (.text "system"))
    let conditions ← Act.resolve c (ps.parameter "conditions")
    Act.give [("rejection_id", stamps.idOf "rejection"), ("rejected", .bool true),
      ("rejector", rejector), ("reason", reason), ("conditions", conditions),
      ("rejected_at", stamps.timeOf)]

/-- Passes the entity on to someone above. -/
def escalate (stamps : Stamps) : Handler :=
  requiring "ESCALATE" ["escalateTo"] fun ps c _ => do
    let receiver ← Act.resolve c (ps.parameter "escalateTo")
    let reason ← Act.resolve c (ps.parameter "reason")
    let deadline ← Act.resolve c (ps.parameter "deadline")
    let emails ← Act.resolve c (ps.parameter "notifyEmails" (.list []))
    Act.give [("escalation_id", stamps.idOf "escalation"), ("escalated", .bool true),
      ("escalate_to", receiver), ("reason", reason), ("deadline", deadline),
      ("notify_emails", emails), ("escalated_at", stamps.timeOf)]

end Rulebook.Handler
