import SpendAlerts.Alert.Basic
import SpendAlerts.Document.Outline
import SpendAlerts.Query.Cell
import SpendAlerts.Settings

/-!
The files that commands take: settings, definitions of alerts, and results of queries by
alert id. Each has an outline, which says for which fields its text is read, in the
order in which a list would give them.
-/

namespace SpendAlerts

namespace Command

open Outline in
def filterOutline : Outline :=
  record [("id", any), ("key", any), ("type", choice), ("values", any), ("inverse", any),
    ("limit", record [("limit", any), ("order", choice), ("metric", any)])]

open Outline in
def configOutline : Outline :=
  record [("condition", any), ("operator", any), ("values", any), ("metric", any),
    ("extendedMetric", any), ("calculatedMetric", record [("id", any), ("name", any)]),
    ("timeInterval", any), ("rows", any), ("filters", list filterOutline), ("scope", any),
    ("currency", any), ("ignoreValuesRange", record [("lowerBound", any), ("upperBound", any)]),
    ("dataSource", any)]

open Outline in
def alertOutline : Outline :=
  record [("id", any), ("name", any), ("customerId", any), ("config", configOutline),
    ("recipients", any), ("etag", any), ("organization", any), ("timeCreated", any),
    ("timeModified", any), ("timeLastAlerted", any), ("isValid", any)]

open Outline in
def resultOutline : Outline :=
  record [("rows", list (list cell)), ("forecastRows", list (list cell))]

/-- Reads a text for an outline and decodes what it says. -/
def readAs? {α : Type} (o : Outline) (decode : Decoder α) (text : String) : Option α :=
  (Value.ofTextWithin? o text).bind fun v => (decode v).toOption

def settings? : String → Option Settings := readAs? Settings.outline Settings.decode

def alerts? : String → Option (List Alert) :=
  readAs? (.list alertOutline) (Decode.list Alert.decode)

def results? : String → Option (Table QueryResult) :=
  readAs? (.table resultOutline) (Decode.table QueryResult.decode)

end Command

end SpendAlerts
