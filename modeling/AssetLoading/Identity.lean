import AssetLoading.Text.Quoted

/-! # Asset identities

  An asset is addressed by a 64-bit id, usually the hash of a name such as a
  file path. The hash is Bernstein's: starting from 5381, each byte multiplies
  the value by 33 and adds itself, modulo 2^64. A key is an id together with
  the name it was hashed from, if there was one.
-/

namespace AssetLoading

/-- Continue the hash over more bytes. -/
def hashFrom (seed : UInt64) (bytes : List UInt8) : UInt64 :=
  bytes.foldl (fun h b => (h <<< 5) + h + b.toUInt64) seed

/-- The hash of a byte string. -/
def hashBytes (bytes : List UInt8) : UInt64 :=
  hashFrom 5381 bytes

/-- The bytes of a text in UTF-8. -/
def utf8Bytes (text : String) : List UInt8 :=
  text.toUTF8.data.toList

/-- The hash of a text. -/
def hashText (text : String) : UInt64 :=
  hashBytes (utf8Bytes text)

/-- The id an asset is addressed by. -/
structure AssetId where
  /-- The raw word. -/
  value : UInt64
deriving DecidableEq, Repr, Inhabited

namespace AssetId

/-- The id of a name. -/
def ofName (name : String) : AssetId :=
  ⟨hashText name⟩

/-- Sixteen hexadecimal digits. -/
def display (id : AssetId) : String :=
  Text.hexPadded 16 id.value.toNat

/-- The diagnostic form. -/
def debug (id : AssetId) : String :=
  s!"AssetId({id.display})"

end AssetId

/-- An id and the name it stands for, if known. -/
structure Key where
  /-- The id. -/
  id : AssetId
  /-- The name the id is the hash of. -/
  name : Option String
deriving DecidableEq, Repr, Inhabited

namespace Key

/-- The key of a name. -/
def ofName (name : String) : Key :=
  ⟨AssetId.ofName name, some name⟩

/-- The key of a bare id. -/
def ofId (id : AssetId) : Key :=
  ⟨id, none⟩

/-- The diagnostic form. -/
def debug (k : Key) : String :=
  "AssetKey \x7b id: " ++ k.id.debug ++ ", name: " ++ Text.quotedOption k.name ++ " \x7d"

end Key

end AssetLoading
