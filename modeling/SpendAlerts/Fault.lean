import SpendAlerts.Decimal.Digits

/-!
What can go wrong while alerts are evaluated and notifications are delivered. Each
constructor is one cause with the data that its message shows; the wording is in one
function. Two classes matter to callers: malformed alerts, which are never retried,
and results that do not fit the request they answer.
-/

namespace SpendAlerts

inductive Fault where
  | invalidAlert (id reason : String)
  | invalidCondition (value : String)
  | invalidOperator (value : String)
  | invalidMetric (value : String)
  | invalidInterval (value : String)
  | unsupportedInterval (interval : String)
  | invalidCell (index : Nat) (reason : String)
  | invalidRow (reason : String)
  | noForecastRows
  | invalidLabelId (id reason : String)
  | notFound (collection key : String)
  | transactionConflict (key : String)
  | store (reason : String)
  | query (reason : String)
  | access (reason : String)
  | dispatch (reason : String)
  | mail (reason : String)
  | queue (reason : String)
  | cancelled
  | serialization (reason : String)
  /-- A text that is not a document, or not one of the expected shape. -/
  | malformedText
  /-- A date shift left the range of dates; nothing catches it but the worker. -/
  | dateOutOfRange
  deriving DecidableEq, Repr

namespace Fault

def message : Fault → String
  | invalidAlert id reason => "invalid alert " ++ id ++ ": " ++ reason
  | invalidCondition value => "invalid condition: " ++ value
  | invalidOperator value => "invalid operator: " ++ value
  | invalidMetric value => "invalid metric: " ++ value
  | invalidInterval value => "invalid time interval: " ++ value
  | unsupportedInterval interval => "invalid alert time interval: " ++ interval
  | invalidCell index reason =>
      "invalid table cell at index " ++ Decimal.natText index ++ ": " ++ reason
  | invalidRow reason => "invalid row: " ++ reason
  | noForecastRows => "no forecast rows"
  | invalidLabelId id reason => "invalid label id " ++ id ++ ": " ++ reason
  | notFound collection key => collection ++ "/" ++ key ++ " not found"
  | transactionConflict key => "transaction conflict on " ++ key
  | store reason => "store error: " ++ reason
  | query reason => "query failed: " ++ reason
  | access reason => "access check failed: " ++ reason
  | dispatch reason => "webhook dispatch failed: " ++ reason
  | mail reason => "mail delivery failed: " ++ reason
  | queue reason => "queue error: " ++ reason
  | cancelled => "operation cancelled"
  | serialization reason => "serialization error: " ++ reason
  | malformedText => "serialization error"
  | dateOutOfRange => "date out of range"

/-- The alert itself is malformed. -/
def isValidation : Fault → Bool
  | invalidAlert .. | invalidCondition _ | invalidOperator _ | invalidMetric _
  | invalidInterval _ => true
  | _ => false

/-- The result does not fit the request, or the alert cannot be laid out as one. -/
def isCellInterpretation : Fault → Bool
  | invalidCell .. | invalidRow _ | unsupportedInterval _ | noForecastRows
  | invalidLabelId .. => true
  | _ => false

end Fault

end SpendAlerts
