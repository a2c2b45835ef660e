/-
# JSON documents, identifiers and times

The event payloads, the task outputs and the stored snapshots of the program are
`serde_json::Value`s.  `Value` is that type, with its three kinds of numbers kept
apart as `serde_json` keeps them: `as_u64` reads a non-negative integer and no
double, however round.  An object is the list of its fields, looked up by name.

Identifiers are UUIDs, ordered as the numbers they are.  In documents and in the
text columns of the store they are written out (`to_string`) and read back
(`parse`), so a string is a `Text`: the canonical spelling of a UUID, or any
other text.  Times are only carried around and stay in their RFC 3339 spelling;
a finite double is its exact value.
-/

import Mathlib

namespace PersonalAgent

/-- `std::collections::BTreeMap`. -/
abbrev BTreeMap (K V : Type) [Ord K] := Std.ExtTreeMap K V compare

/-- `uuid::Uuid`, by its 128-bit value. -/
abbrev Uuid := ℕ

/-- A string, with the canonical spelling of a UUID told apart from the rest. -/
inductive Text where
  | uuid (id : Uuid)
  | plain (text : String)
  deriving DecidableEq, Repr

/-- `Uuid::to_string`. -/
def Uuid.toText (id : Uuid) : Text := .uuid id

/-- `str::parse::<Uuid>`. -/
def Text.parse : Text → Option Uuid
  | .uuid id => some id
  | .plain _ => none

/-- The lowercase hexadecimal digits of `n`, `width` of them. -/
def hexText (width n : ℕ) : String :=
  String.ofList ((List.range width).reverse.map fun i =>
    "0123456789abcdef".toList.getD (n / 16 ^ i % 16) '0')

def Uuid.spelling (id : Uuid) : String :=
  "-".intercalate [hexText 8 (id / 2 ^ 96), hexText 4 (id / 2 ^ 80), hexText 4 (id / 2 ^ 64),
    hexText 4 (id / 2 ^ 48), hexText 12 id]

/-- The characters of a string. -/
def Text.spelling : Text → String
  | .uuid id => id.spelling
  | .plain text => text

/-- `chrono::DateTime<Utc>`, by its RFC 3339 spelling. -/
structure DateTime where
  rfc3339 : String
  deriving DecidableEq, Repr

/-- A finite double, by its exact value. -/
abbrev F64 := ℚ

/-- `serde_json::Value`. -/
inductive Value where
  | null
  | bool (b : Bool)
  | u64 (n : ℕ)
  | i64 (n : ℤ)
  | f64 (x : F64)
  | string (text : Text)
  | array (items : List Value)
  | object (fields : List (String × Value))

namespace Value

/-- `Value::get`: a field of an object; nothing else has fields. -/
def get (v : Value) (name : String) : Option Value :=
  match v with
  | .object fields => fields.lookup name
  | _ => none

/-- `Value::as_bool`. -/
def asBool : Value → Option Bool
  | .bool b => some b
  | _ => none

/-- `Value::as_u64`. -/
def asU64 : Value → Option ℕ
  | .u64 n => some n
  | _ => none

/-- `Value::as_str`. -/
def asStr : Value → Option Text
  | .string text => some text
  | _ => none

/-- `Value::as_object`. -/
def asObject : Value → Option (List (String × Value))
  | .object fields => some fields
  | _ => none

/-- `Value::as_f64`. -/
def asF64 : Value → Option F64
  | .u64 n => some n
  | .i64 n => some n
  | .f64 x => some x
  | _ => none

/-- `payload.get(name).and_then(Value::as_bool)`. -/
def boolAt (v : Value) (name : String) : Option Bool := (v.get name).bind asBool

/-- `payload.get(name).and_then(Value::as_u64)`. -/
def u64At (v : Value) (name : String) : Option ℕ := (v.get name).bind asU64

/-- `payload.get(name).and_then(Value::as_str)`. -/
def strAt (v : Value) (name : String) : Option Text := (v.get name).bind asStr

/-- `json!(s)` of a string of the program. -/
def ofStr (s : String) : Value := .string (.plain s)

/-- `json!(id)` of a UUID. -/
def ofUuid (id : Uuid) : Value := .string id.toText

/-- `json!(value)` of an optional value: `None` is `null`. -/
def ofOption (encode : α → Value) : Option α → Value
  | none => .null
  | some a => encode a

end Value

end PersonalAgent
