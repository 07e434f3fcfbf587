import PostCall.Python.Json

/-!
# Redaction

`src/security/pii.py`: what the audit log and the log lines show of their metadata. The keys of an
object are distinct, so the new object has its entries in the same order.
-/

namespace PostCall.Model
open PostCall.Python

def REDACTED : String := "[REDACTED]"

/-- `settings.PII_LOG_FIELDS`, as it stands in the source. -/
def piiLogFields : List String :=
  ["phone", "lead_phone", "email", "name", "transcript", "transcript_text", "recording_url"]

/-- `str(key).lower() in {field.lower() for field in settings.PII_LOG_FIELDS}`. -/
def isPii (text : Text) (fields : List String) (key : String) : Bool :=
  (fields.map text.lower).contains (text.lower key)

mutual

def redactPii (text : Text) (fields : List String) : Json → Json
  | .dict items => .dict (redactEntries text fields items)
  | .list items => .list (redactItems text fields items)
  | value => value

/-- The list comprehension. -/
def redactItems (text : Text) (fields : List String) : List Json → List Json
  | [] => []
  | item :: items => redactPii text fields item :: redactItems text fields items

/-- The loop over the entries of a mapping. -/
def redactEntries (text : Text) (fields : List String) :
    List (String × Json) → List (String × Json)
  | [] => []
  | (key, item) :: items =>
    (key, if isPii text fields key then .str REDACTED else redactPii text fields item) ::
      redactEntries text fields items

end

end PostCall.Model
