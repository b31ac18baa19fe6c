import SchemaForge.Foundation.Binary64

/-!
# JSON values

The value model of `serde_json`. A number is a non-negative integer, a negative
integer or a finite binary64; the type carries finiteness, because no JSON text
spells an infinity or a `NaN`. Objects are read through `get` only, so they are
association lists.
-/

namespace SchemaForge.Json

inductive Number where
  | posInt (value : UInt64)
  | negInt (value : Int64)
  | float (value : { x : F64 // x.isFinite = true })

inductive Value where
  | null
  | bool (value : Bool)
  | number (value : Number)
  | string (value : Str)
  | array (values : List Value)
  | object (fields : List (Str × Value))

/-- The members of an object. -/
abbrev Fields := List (Str × Value)

namespace Fields

/-- `Map::get`. -/
def get (fields : Fields) (key : Str) : Option Value :=
  match fields with
  | [] => none
  | (name, value) :: rest => if name = key then some value else get rest key

end Fields

namespace Value

/-- The form of an `f64`; what is not finite is written as `null`. -/
def ofF64 (x : F64) : Value :=
  if finite : x.isFinite = true then .number (.float ⟨x, finite⟩) else .null

def ofU32 (n : UInt32) : Value := .number (.posInt n.toUInt64)

def isNull : Value → Bool
  | null => true
  | _ => false

def asStr : Value → Option Str
  | string value => some value
  | _ => none

def asBool : Value → Option Bool
  | bool value => some value
  | _ => none

def asU64 : Value → Option UInt64
  | number (.posInt value) => some value
  | _ => none

def asF64 : Value → Option F64
  | number (.posInt value) => some (.ofInt value.toNat)
  | number (.negInt value) => some (.ofInt value.toInt)
  | number (.float value) => some value.val
  | _ => none

def asArray : Value → Option (List Value)
  | array values => some values
  | _ => none

def asObject : Value → Option Fields
  | object fields => some fields
  | _ => none

end Value

end SchemaForge.Json
