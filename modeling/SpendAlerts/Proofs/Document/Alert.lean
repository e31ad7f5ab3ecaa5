import SpendAlerts.Alert.Basic
import SpendAlerts.Proofs.Document.Config

/-!
Documents of alerts. Whatever is read from the document of an alert is the alert itself, so
writing an alert again with another time never changes its version or its configuration.
-/

namespace SpendAlerts

namespace Alert

theorem yields (a : Alert) : Decode.Yields decode a.encode a := by
  refine Reading.Yields.decode _ ?_
  refine ((((((((((Reading.Yields.map Alert.mk
    (.present (.text a.id) ?_)).seq
    (.present (.text a.name) ?_)).seq
    (.present (.text a.customerId) ?_)).seq
    (.present a.config.yields ?_)).seq
    (.present (.strings a.recipients) ?_)).seq
    (.present (.text a.etag) ?_)).seq
    (.optional (f := Value.string) (fun s => ⟨rfl, .text s⟩) ?_)).seq
    (.present (.instant a.created) ?_)).seq
    (.present (.instant a.modified) ?_)).seq
    (.present (.of_eq (Decode.option_instant a.lastAlerted)) ?_)).seq
    (.present (.bool a.isValid) ?_)
  all_goals simp [fields, Entries.find?, Entries.find?_append, Value.find?_present]

theorem eq_of_decode_encode {a b : Alert} (h : decode a.encode = .ok b) : b = a :=
  a.yields b h

end Alert

end SpendAlerts
