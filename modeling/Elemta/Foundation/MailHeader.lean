import Elemta.Foundation.Bytes

/-!
# Header blocks

How a mail reader of the standard library takes the fields from the front of a message.
Lines end with a line feed, before which one carriage return is dropped, and the last one
need not end. A line that begins with a blank continues the field before it. Reading stops
at an empty line; a line without a colon makes the whole block unreadable.
-/

namespace MailHeader

open Bytes

def isBlank (b : UInt8) : Bool :=
  b == 32 || b == 9

def trimLeft (s : Bytes) : Bytes :=
  s.dropWhile isBlank

def trim (s : Bytes) : Bytes :=
  ((trimLeft s).reverse.dropWhile isBlank).reverse

def dropCR (line : Bytes) : Bytes :=
  if line.getLast? = some 13 then line.dropLast else line

def lines (data : Bytes) : List Bytes :=
  let parts := split (lit "\n") data
  parts.dropLast.map dropCR ++ (parts.getLast?.filter fun line => line ≠ []).toList

def isTokenByte (b : UInt8) : Bool :=
  isDigit b || (65 ≤ b && b ≤ 90) || (97 ≤ b && b ≤ 122) || b ∈ lit "!#$%&'*+-.^_\x60|~"

/-- Capital letters at the start of a name and behind hyphens, small ones elsewhere. -/
def capitalize : Bool → Bytes → Bytes
  | _, [] => []
  | upper, b :: r => (if upper then upperByte b else lowerByte b) :: capitalize (b == 45) r

def canonicalKey (name : Bytes) : Bytes :=
  if name.all isTokenByte then capitalize true name else name

abbrev Fields := List (Bytes × Bytes)

/-- One unfolded line; a field without a name is skipped. -/
def readField (text : Bytes) : Option Fields :=
  (cut (lit ":") text).map fun (name, value) =>
    if name = [] then [] else [(canonicalKey name, trimLeft value)]

/-- The lines are read from the one that is being unfolded. -/
def readFields : Option Bytes → List Bytes → Option Fields
  | none, [] => some []
  | some text, [] => readField text
  | none, line :: rest => if line = [] then some [] else readFields (some (trim line)) rest
  | some text, line :: rest =>
    if line.head?.any isBlank then readFields (some (text ++ lit " " ++ trim line)) rest
    else
      (readField text).bind fun field =>
        if line = [] then some field else (readFields (some (trim line)) rest).map (field ++ ·)

/-- `ReadMessage`; nothing for a text that cannot be read. -/
def readMessage (data : Bytes) : Option Fields :=
  if data.head?.any isBlank then none
  else
    (readFields none (lines data)).filter fun fields => fields ≠ [] ∨ [] ∈ lines data

def Fields.values (fields : Fields) (name : Bytes) : List Bytes :=
  (fields.filter fun f => f.1 == name).map Prod.snd

end MailHeader
