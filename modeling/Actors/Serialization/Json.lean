import Actors.Message

/-!
# JSON values

`serde_json::Value`, with the two ways in which the remote code reads one:
indexing by a key, and `as_str`.  The text of a value, `to_string` and
`from_str`, belongs to the library and is a parameter (`JsonText`).

`Reject` derives `Serialize` and `Deserialize`.  The derived code writes an
object with one member for each field, and reads such an object, with any other
members, or an array of the fields in order.
-/

namespace Actors

/-- `serde_json::Number`.  A float is given by its bits. -/
inductive Number where
  | posInt (n : UInt64)
  | negInt (n : Int64)
  | float (bits : UInt64)
  deriving DecidableEq, Repr

/-- `serde_json::Value`.  The members of an object are sorted by their keys. -/
inductive Value where
  | null
  | bool (b : Bool)
  | number (n : Number)
  | string (s : String)
  | array (elems : List Value)
  | object (members : List (String × Value))

namespace Value

/-- `value[key]`.  A missing key gives `null`, and so does a value that is not
an object. -/
def index (v : Value) (key : String) : Value :=
  match v with
  | .object members => (members.lookup key).getD .null
  | _ => .null

/-- `Value::as_str`. -/
def asStr : Value → Option String
  | .string s => some s
  | _ => none

/-- The value of an `Option<String>` in `json!`. -/
def ofOption : Option String → Value
  | some s => .string s
  | none => .null

@[simp] theorem asStr_string (s : String) : (string s).asStr = some s := rfl

@[simp] theorem asStr_ofOption (o : Option String) : (ofOption o).asStr = o := by
  cases o <;> rfl

end Value

/-- `to_string` and `from_str` of `serde_json`. -/
structure JsonText where
  toString : Value → String
  /-- `none` is `Err`. -/
  fromStr : String → Option Value

namespace JsonText

/-- The text of the value is read as the value. -/
def RoundTrips (json : JsonText) (v : Value) : Prop :=
  json.fromStr (json.toString v) = some v

/-- `serde_json`, as far as one text and its value go. -/
def ofPair (text : String) (v : Value) : JsonText where
  toString _ := text
  fromStr t := if t = text then some v else none

theorem roundTrips_ofPair (text : String) (v : Value) :
    (ofPair text v).RoundTrips v := if_pos rfl

end JsonText

namespace Reject

/-- `serde_json::to_value` of a `Reject`. -/
def toValue (r : Reject) : Value :=
  .object [("message_type", .string r.messageType), ("reason", .string r.reason),
    ("rejected_by", .string r.rejectedBy)]

/-- `serde_json::from_value::<Reject>`.  `none` is `Err`. -/
def fromValue : Value → Option Reject
  | .object members =>
    match members.lookup "message_type", members.lookup "reason",
      members.lookup "rejected_by" with
    | some (.string messageType), some (.string reason),
      some (.string rejectedBy) => some { messageType, reason, rejectedBy }
    | _, _, _ => none
  | .array [.string messageType, .string reason, .string rejectedBy] =>
    some { messageType, reason, rejectedBy }
  | _ => none

@[simp] theorem fromValue_toValue (r : Reject) : fromValue r.toValue = some r :=
  rfl

end Reject

end Actors
