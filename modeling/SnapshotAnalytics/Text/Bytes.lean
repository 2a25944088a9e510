/-!
# Texts as bytes

What leaves the program as bytes is encoded in UTF-8.
-/

namespace SnapshotAnalytics.Text

def utf8 (s : List Char) : List UInt8 :=
  s.flatMap String.utf8EncodeChar

def bytes (s : String) : List UInt8 :=
  utf8 s.toList

end SnapshotAnalytics.Text
