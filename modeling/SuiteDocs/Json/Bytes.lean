import SuiteDocs.Text.Utf8
import SuiteDocs.Text.Wide

/-!
The text of bytes that spell a value.

A value starts with ASCII characters, so that the zeros among its first bytes tell how many bytes
a character has, and in which order.
-/

set_option autoImplicit false

namespace SuiteDocs.Json

open SuiteDocs.Text

/-- The text of bytes in UTF-8. A mark of the byte order at its start is not part of it. -/
def narrowText (bytes : List UInt8) : Option Text :=
  match Utf8.decode bytes with
  | .ok (.char '\ufeff' :: text) => some text
  | .ok text => some text
  | .error _ => none

/-- The text of bytes that spell a value, if they are a text. -/
def textOfBytes (bytes : List UInt8) : Option Text :=
  match bytes with
  | [0, _] => Wide.decodePairs .bigEndian bytes
  | [_, 0] => Wide.decodePairs .littleEndian bytes
  | 0 :: 0 :: _ :: _ :: _ => Wide.decodeQuads .bigEndian bytes
  | 0 :: _ :: _ :: _ :: _ => Wide.decodePairs .bigEndian bytes
  | _ :: 0 :: 0 :: 0 :: _ => Wide.decodeQuads .littleEndian bytes
  | _ :: 0 :: _ :: _ :: _ => Wide.decodePairs .littleEndian bytes
  | _ => narrowText bytes

end SuiteDocs.Json
