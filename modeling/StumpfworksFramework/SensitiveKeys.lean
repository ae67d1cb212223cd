import StumpfworksFramework.ByteStrings

/-!
# Sensitive keys

The classification of field names that conventionally hold credentials. Lower
casing is that of the `strings` package, which also knows letters beyond ASCII,
and is a parameter.
-/

namespace SensitiveKeys

open ByteStrings

def sensitiveKeys : List Bytes := ["password", "passwd", "secret", "token", "authorization",
  "cookie", "api_key", "database_url", "dsn", "private_key"].map ascii

/-- `strings.ReplaceAll` for single bytes. -/
def replaceByte (old new : UInt8) (text : Bytes) : Bytes :=
  text.map fun b => if b = old then new else b

def normalized (toLower : Bytes → Bytes) (key : Bytes) : Bytes :=
  toLower (replaceByte 46 95 (replaceByte 45 95 key))

def isSensitiveKey (toLower : Bytes → Bytes) (key : Bytes) : Bool :=
  sensitiveKeys.any fun sensitive =>
    normalized toLower key = sensitive || (95 :: sensitive).isSuffixOf (normalized toLower key)

end SensitiveKeys
