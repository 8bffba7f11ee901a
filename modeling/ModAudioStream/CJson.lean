import ModAudioStream.CStrings

namespace ModAudioStream

/-- A parsed JSON value, as cJSON keeps it: a number with its `valueint` and the text that it
prints as, strings and names as C strings. -/
inductive CJson where
  | null
  | bool (b : Bool)
  | number (valueint : Int) (text : List UInt8)
  | string (valuestring : List UInt8)
  | array (items : List CJson)
  | object (members : List (List UInt8 × CJson))

/-- cJSON looks a name up without regard to case. -/
def sameName (a b : List UInt8) : Bool := a.map toLower == b.map toLower

namespace CJson

/-- The items of an array or the members of an object; only members have a name. -/
def child : CJson → List (Option (List UInt8) × CJson)
  | .array items => items.map fun item => (none, item)
  | .object members => members.map fun m => (some m.1, m.2)
  | _ => []

def asString : CJson → Option (List UInt8)
  | .string value => some value
  | _ => none

def getObjectItem (json : CJson) (name : List UInt8) : Option CJson :=
  match json with
  | .object members => (members.find? fun m => sameName name m.1).map (·.2)
  | _ => none

def getObjectCstr (json : CJson) (name : List UInt8) : Option (List UInt8) :=
  (json.getObjectItem name).bind asString

/-- `cJSON_DetachItemFromObject`: what is left of the value. -/
def detachItem (json : CJson) (name : List UInt8) : CJson :=
  match json with
  | .object members => .object (members.eraseP fun m => sameName name m.1)
  | json => json

/-- `valueint`, which cJSON leaves at 0 unless the value is a number or true. -/
def valueint : CJson → Int
  | .number n _ => n
  | .bool true => 1
  | _ => 0

/-- The members of an object that are strings. -/
def stringMembers : CJson → List (List UInt8 × List UInt8)
  | .object members => members.filterMap fun m => m.2.asString.map (m.1, ·)
  | _ => []

def isArrayWithString : CJson → Bool
  | .array items => items.any fun item => item.asString.isSome
  | _ => false

end CJson

end ModAudioStream
