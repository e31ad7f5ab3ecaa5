import SpendAlerts.Terms
import SpendAlerts.Text.Base64

/-!
Dimensions of billing data and filters on them. A dimension id is a type and a key with
one colon between them. Keys that come from user data are stored in base64, and their
label is the decoded text; other keys are fields of the bill, some of which have a
label of their own. A filter selects values of a dimension or excludes them, and may
limit the result to its first rows.
-/

namespace SpendAlerts

inductive DimensionType where
  | fixed
  | datetime
  | label
  | tag
  | projectLabel
  | systemLabel
  | gke
  | gkeLabel
  | attribution
  | attributionGroup
  deriving DecidableEq, Repr

namespace DimensionType

def name : DimensionType → String
  | fixed => "fixed"
  | datetime => "datetime"
  | label => "label"
  | tag => "tag"
  | projectLabel => "project_label"
  | systemLabel => "system_label"
  | gke => "gke"
  | gkeLabel => "gke_label"
  | attribution => "attribution"
  | attributionGroup => "attribution_group"

def all : List DimensionType :=
  [fixed, datetime, label, tag, projectLabel, systemLabel, gke, gkeLabel, attribution,
    attributionGroup]

def choices : List (String × DimensionType) := all.map fun t => (t.name, t)

def ofName? (s : String) : Except Fault DimensionType :=
  match Entries.find? s choices with
  | some t => .ok t
  | none => .error (.invalidLabelId s "unknown dimension type")

/-- The key is text that users chose, in base64. -/
def hasEncodedKey : DimensionType → Bool
  | label | tag | projectLabel | systemLabel | gkeLabel => true
  | _ => false

end DimensionType

namespace Dimension

/-- The type and the key of a dimension id. -/
def split? (id : String) : Except Fault (DimensionType × String) :=
  match Text.pieces ':' id.toList with
  | [type, key] => match DimensionType.ofName? (String.ofList type) with
    | .ok t => .ok (t, String.ofList key)
    | .error _ =>
        .error (.invalidLabelId id ("unknown dimension type " ++ String.ofList type))
  | _ => .error (.invalidLabelId id "expected type:key")

def keyLabels : List (String × String) :=
  [("year", "Year"), ("quarter", "Quarter"), ("month", "Month"), ("week", "Week"),
    ("day", "Day"), ("cloud_provider", "Cloud"), ("billing_account_id", "Billing Account"),
    ("project_ancestry_names", "Folder"), ("project_id", "Project/Account ID"),
    ("project_number", "Project/Account number"), ("project_name", "Project/Account name"),
    ("service_description", "Service"), ("sku_description", "SKU"),
    ("service_id", "Service ID"), ("sku_id", "SKU ID"), ("operation", "Operation"),
    ("resource_id", "Resource"), ("resource_global_id", "Global Resource"),
    ("country", "Country"), ("region", "Region"), ("zone", "Zone"),
    ("cost_type", "Cost Type"), ("pricing_unit", "Unit"), ("credit", "Credit"),
    ("savings_description", "Savings Type"), ("customer_type", "Customer Type"),
    ("is_marketplace", "Marketplace"), ("invoice_month", "Invoice month"),
    ("feature", "Feature"), ("attribution", "Attribution"),
    ("attribution_group", "Attribution Group")]

def keyLabel? (key : String) : Option String :=
  Entries.find? key keyLabels

def textOfBytes? (bytes : List UInt8) : Option String :=
  String.fromUTF8? ⟨bytes.toArray⟩

/-- What readers see for a dimension. -/
def label? (id : String) : Except Fault String :=
  match split? id with
  | .error e => .error e
  | .ok (type, key) =>
      if type.hasEncodedKey then
        match Text.Base64.decode .standard key.toList with
        | none => .error (.invalidLabelId id "failed to decode key")
        | some bytes => match textOfBytes? bytes with
          | some s => .ok s
          | none => .error (.invalidLabelId id "decoded key is not utf-8")
      else .ok ((keyLabel? key).getD key)

end Dimension

structure FilterLimit where
  limit : Nat
  order : LimitOrder
  metric : Metric
  deriving DecidableEq

structure DimensionFilter where
  id : String
  key : String
  type : DimensionType
  values : List String
  /-- Excludes the values instead of selecting them. -/
  inverse : Bool
  limit : Option FilterLimit
  deriving DecidableEq

namespace FilterLimit

def reading : Reading FilterLimit :=
  FilterLimit.mk <$> .field "limit" (Decode.natBelow UInt64.size "usize")
    <*> .field "order" (Decode.choice LimitOrder.choices)
    <*> .field "metric" (Decode.named Metric.ofName?)

def decode : Decoder FilterLimit := reading.decode "FilterLimit"

def encode (l : FilterLimit) : Value :=
  .record [("limit", .int l.limit), ("metric", .string l.metric.name),
    ("order", .string l.order.name)]

end FilterLimit

namespace DimensionFilter

def reading : Reading DimensionFilter :=
  DimensionFilter.mk <$> .field "id" Decode.text
    <*> .field "key" Decode.text
    <*> .field "type" (Decode.choice DimensionType.choices)
    <*> .fieldOr "values" (Decode.list Decode.text) (some [])
    <*> .fieldOr "inverse" Decode.bool (some false)
    <*> .optional "limit" FilterLimit.decode

def decode : Decoder DimensionFilter := reading.decode "ConfigFilter"

def encode (f : DimensionFilter) : Value :=
  .record ([("id", .string f.id), ("inverse", .bool f.inverse), ("key", .string f.key)] ++
    Value.present "limit" FilterLimit.encode f.limit ++
    [("type", .string f.type.name), ("values", .strings f.values)])

/-- Selects values of the dimension with a type and a key. -/
def select (type : DimensionType) (key : String) (values : List String) : DimensionFilter where
  id := type.name ++ ":" ++ key
  key := key
  type := type
  values := values
  inverse := false
  limit := none

/-- Selects nothing yet on the dimension with an id. -/
def ofDimension? (id : String) : Except Fault DimensionFilter :=
  match Dimension.split? id with
  | .ok (type, key) => .ok ⟨id, key, type, [], false, none⟩
  | .error e => .error e

def excluding (f : DimensionFilter) : DimensionFilter := { f with inverse := true }

def limitedTo (f : DimensionFilter) (l : FilterLimit) : DimensionFilter :=
  { f with limit := some l }

end DimensionFilter

end SpendAlerts
