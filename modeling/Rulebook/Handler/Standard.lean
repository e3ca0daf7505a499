/-
  The handlers that every engine starts with, by the types of their actions.
-/
import Rulebook.Handler.Decision
import Rulebook.Handler.Field
import Rulebook.Handler.Notice
import Rulebook.Handler.Script
import Rulebook.Handler.Service
import Rulebook.Keyed

namespace Rulebook.Handler

/-- The type of actions that call services. -/
def callServiceType : String := "CALL_API"

/-- The handlers by type, in the order in which types are listed. -/
def standard (config : Config) (stamps : Stamps) (database : Option Database) :
    Keyed String Handler where
  entries :=
    [(setFieldType, setField),
      ("SEND_NOTIFICATION", sendNotification stamps),
      ("SEND_EMAIL", sendEmail stamps),
      ("TRIGGER_WORKFLOW", triggerWorkflow stamps),
      (callServiceType, callService config stamps),
      ("EXECUTE_SCRIPT", executeScript config stamps),
      ("APPROVE", approve stamps),
      ("REJECT", reject stamps),
      ("ESCALATE", escalate stamps),
      ("LOG_EVENT", logEvent stamps),
      ("UPDATE_DATABASE", updateDatabase stamps database),
      (calculateType, calculate stamps)]

end Rulebook.Handler
