import ShardLoad.Power

/-!
# Bytes

Keys, values, tokens and encoded messages are lists of octets; `utf8` is the
octet form of a text.
-/

namespace ShardLoad

/-- A string of octets. -/
abbrev Bytes := List UInt8

namespace Bytes

/-- The UTF-8 form of a text. -/
def utf8 (s : String) : Bytes := s.toUTF8.data.toList

/-- The text whose UTF-8 form the octets are, if they are one. -/
def toText? (bs : Bytes) : Option String := String.fromUTF8? ⟨bs.toArray⟩

end Bytes
end ShardLoad
