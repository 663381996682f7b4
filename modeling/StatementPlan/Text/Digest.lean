/-
A digest of 64 bits that stands for a text where texts are only told apart: each byte of the
text in turn is joined to the digest so far by exclusive or, and the result is multiplied by
an odd constant.  Different texts may share a digest, and then they count as one.
-/
namespace StatementPlan

/-- The digest with one more byte. -/
def Digest.addByte (soFar : UInt64) (byte : UInt8) : UInt64 :=
  (soFar ^^^ byte.toUInt64) * 0x100000001b3

/-- The digest of the bytes of a text. -/
def digest (text : String) : UInt64 :=
  (text.toList.flatMap String.utf8EncodeChar).foldl Digest.addByte 0xcbf29ce484222325

end StatementPlan
