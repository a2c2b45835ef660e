/-
# Libraries

What several components take from the crates they are linked with, as parameters: the model fixes
the laws it uses and nothing else.  The types of a parameter are its own where the program only
hands the values on.
-/

import Mathlib

namespace PersonalAgent

/-- `sha2::Sha256`. -/
class Sha256 where
  digest : List UInt8 → List UInt8

/-- The bytes of a text. -/
def asBytes (text : String) : List UInt8 := text.toByteArray.data.toList

/-- `{:02x}` of every byte. -/
def hex (bytes : List UInt8) : String :=
  String.ofList (bytes.flatMap fun byte =>
    let digits := "0123456789abcdef".toList
    [digits.getD (byte.toNat / 16) '0', digits.getD (byte.toNat % 16) '0'])

/-- A digest, as it is written. -/
def Sha256.hexDigest [Sha256] (bytes : List UInt8) : String := hex (digest bytes)

/-- `url::Url`; errors as their texts.  A query does not change where a URL leads. -/
class UrlLibrary where
  Url : Type
  Origin : Type
  [decideOrigin : DecidableEq Origin]
  parse : String → Except String Url
  scheme : Url → String
  hostStr : Url → Option String
  origin : Url → Origin
  join : Url → String → Except String Url
  extendPairs : Url → List (String × String) → Url
  origin_extendPairs : ∀ url query, origin (extendPairs url query) = origin url

instance [UrlLibrary] : DecidableEq UrlLibrary.Origin := UrlLibrary.decideOrigin

end PersonalAgent
