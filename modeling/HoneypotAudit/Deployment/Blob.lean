import HoneypotAudit.Text.Hex

/-!
# Argument blobs

The raw constructor arguments of a deployment, as bytes or as a hexadecimal text that may have
blanks around it and `0x` in front.
-/

namespace HoneypotAudit.Deployment

open HoneypotAudit.Text

/-- Raw constructor arguments. -/
inductive Blob where
  | none
  | bytes (bs : Bytes)
  | text (s : String)
  deriving Repr, DecidableEq, Inhabited

/-- The bytes of raw arguments, or the position in the text, counted behind the mark, of the first
character that is not hexadecimal. -/
def Blob.toBytes : Blob → Except Nat Bytes
  | .none => .ok []
  | .bytes bs => .ok bs
  | .text s => Hex.decode (Hex.dropMark (strip s.toList))

end HoneypotAudit.Deployment
