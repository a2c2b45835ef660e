/-
# Reading and writing JSON

`serde_json` is not part of the repository.  Where the program reads a document from a text it
is the parameter `SerdeJson`: a value, or the text of the parser's error.  Where it reads and
writes bytes it is the parameter `JsonBytes`.
-/

import PersonalAgent.Contracts.Value

namespace PersonalAgent

/-- `serde_json::from_str::<Value>`; the error as its text. -/
class SerdeJson where
  fromStr : String → Except String Value

/-- `serde_json::from_slice::<Value>`, the error as its text, and `serde_json::to_vec`, which
succeeds on every value. -/
class JsonBytes where
  fromSlice : List UInt8 → Except String Value
  toVec : Value → List UInt8

end PersonalAgent
