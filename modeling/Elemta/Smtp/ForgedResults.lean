import Elemta.Foundation.WhiteSpace
import Elemta.Smtp.Loop

/-!
# Forged Authentication-Results

A field that names this server as its author may come from this server only. The code
looks at the lines of the header section in the bounded front of a message, one by one,
and writes another name of the same length over the name of such a line.

A reader unfolds the fields of a header (`headerFields`) and reads them without their
comments (`claimsResults`). On a field with the name of its author on the first line and no
comment in front the two readings agree, and `StoredApart` says what follows for the fields
in the front of every message. Other fields, and those behind the front, are not found by
the code.
-/

namespace Elemta.Smtp

open Bytes

def crlf : Bytes :=
  lit "\r\n"

/-! ## How a reader sees the fields -/

variable {hostname line : Bytes} {f : Bytes → Bytes} {cfg : Config}

/-- The header section in the front of a message, and what follows it there. -/
abbrev front (content : Bytes) : Bytes × Bytes :=
  headerSection (content.take defaultHeadSize)

end Elemta.Smtp
