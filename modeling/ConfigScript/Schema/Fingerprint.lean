import ConfigScript.Digest.Sha256
import ConfigScript.Json.Printer
import ConfigScript.Schema.Codec

/-!
# Fingerprints

A fingerprint tells schemas apart by the hash of their canonical text.
-/

namespace ConfigScript.Schema

/-- The compact text of the written form; the order of names and fields makes it the only one. -/
def canonicalText (schema : Schema) : String :=
  schema.toJson.compact

def fingerprint (schema : Schema) : String :=
  Sha256.hexDigest schema.canonicalText.toUTF8.toList

end ConfigScript.Schema
