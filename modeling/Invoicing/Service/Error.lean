import Invoicing.Block.Check
import Invoicing.Index.Record
import Invoicing.Storage.Log
import Invoicing.Text.Quoted

set_option autoImplicit false

/-! # Errors of the data service -/

namespace Invoicing

/-- Why the data service gives no answer. -/
inductive ServiceError where
  | notReady
  | alreadyReady
  | invalidTopics (topics : List String)
  | malformedAnswer (reason : String)
  | block (error : BlockError)
  | storage (error : StorageError)
  | index (error : IndexError)
deriving DecidableEq, Repr

def ServiceError.message : ServiceError → String
  | notReady => "DataAccess must be initialized"
  | alreadyReady => "already initialized"
  | invalidTopics topics =>
    "The following topics are not well formatted: " ++ Quoted.quoteList topics
  | malformedAnswer reason => s!"data from storage do not follow the standard: {reason}"
  | block error => error.message
  | storage error => error.message
  | index error => error.message

end Invoicing
