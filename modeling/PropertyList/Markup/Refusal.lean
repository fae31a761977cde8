import PropertyList.Text.Quoted

/-!
Why a document is not read: it is not well-formed, it declares an entity, or it names an encoding
that cannot be used.
-/
namespace PropertyList.Markup

inductive Refusal where
  | malformed
  | entityDeclared (name : Text) (systemId publicId : Option Text)
  | unknownEncoding (name : Text)
  | nonTextEncoding (name : Text)
  | multiByteEncoding
  | uselessEncoding (name reason : Text)
  | asciiOnlyEncoding
  deriving DecidableEq, Repr

/-- An identifier as messages show it. -/
def quotedOrNone : Option Text → Text
  | none => text "None"
  | some id => id.quoted

def Refusal.message : Refusal → Text
  | .malformed => text "not well-formed"
  | .entityDeclared name systemId publicId =>
    text "EntitiesForbidden(name='" ++ name ++ text "', system_id=" ++ quotedOrNone systemId ++
      text ", public_id=" ++ quotedOrNone publicId ++ text ")"
  | .unknownEncoding name => text "unknown encoding: " ++ name
  | .nonTextEncoding name =>
    ch '\'' :: name ++
      text "' is not a text encoding; use codecs.decode() to handle arbitrary codecs"
  | .multiByteEncoding => text "multi-byte encodings are not supported"
  | .uselessEncoding name reason =>
    text "decoding with '" ++ name ++ text "' codec failed (UnicodeError: " ++ reason ++ text ")"
  | .asciiOnlyEncoding =>
    text "'ascii' codec can't decode byte 0x80 in position 82: ordinal not in range(128)"

end PropertyList.Markup
