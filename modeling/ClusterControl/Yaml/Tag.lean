/-!
# Tags of YAML nodes

A tag is a string of bytes, for its escapes give bytes that need not make up characters. A zero byte
ends it.
-/

namespace ClusterControl.Yaml

abbrev Tag := List UInt8

namespace Tag

def ofString (s : String) : Tag := s.toList.flatMap String.utf8EncodeChar

/-- The tag of a type that belongs to YAML itself. -/
def core (type : String) : Tag := ofString ("tag:yaml.org,2002:" ++ type)

/-- What stands before the first zero byte. -/
def upToZero (bytes : List UInt8) : Tag := bytes.takeWhile (· != 0)

/-- The name in a tag that starts with a mark of its own; nothing when it is not a text. -/
def localName? : Tag → Option String
  | mark :: name => if mark = 0x21 then String.fromUTF8? name.toByteArray else none
  | [] => none

end Tag

end ClusterControl.Yaml
