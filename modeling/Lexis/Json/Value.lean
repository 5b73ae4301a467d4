/-
JSON values in printable ASCII, one element to a line.

In a string the characters from the space to the tilde stand as they are, except for the quote and
the backslash, which have short escapes, as five controls have. Any other character is written by
its UTF-16 units, four lower-case digits each. A nonempty list or object opens a block whose
elements stand two spaces further in.
-/
import Lexis.Text.Hex

namespace Lexis.Json

/-- A JSON value of the kinds that tokens need. -/
inductive Value where
  | text (s : String)
  | number (n : Int)
  | list (items : List Value)
  | object (fields : List (String × Value))

/-- The escape of one UTF-16 unit. -/
def unitEscape (u : Nat) : List Char :=
  '\\' :: 'u' :: Text.fixedHex 4 u

/-- A character as it stands in a JSON string. -/
def escape (c : Char) : List Char :=
  let n := c.toNat
  if c = '\x22' then ['\\', '\x22']
  else if c = '\\' then ['\\', '\\']
  else if c = '\n' then ['\\', 'n']
  else if c = '\r' then ['\\', 'r']
  else if c = '\t' then ['\\', 't']
  else if n = 0x8 then ['\\', 'b']
  else if n = 0xC then ['\\', 'f']
  else if 0x20 ≤ n ∧ n ≤ 0x7E then [c]
  else if n < 0x10000 then unitEscape n
  else unitEscape (0xD800 + (n - 0x10000) / 0x400) ++ unitEscape (0xDC00 + (n - 0x10000) % 0x400)

/-- A string between its quotes. -/
def writeText (s : String) : List Char :=
  '\x22' :: (s.toList.flatMap escape ++ ['\x22'])

/-- The start of a line at a depth. -/
def newLine (depth : Nat) : List Char :=
  '\n' :: List.replicate (2 * depth) ' '

/-- The elements of a block at a depth, with commas between them. -/
def writeBlock (opening closing : Char) (depth : Nat) (elements : List (List Char)) : List Char :=
  match elements with
  | [] => [opening, closing]
  | _ =>
    opening :: ((elements.map (newLine (depth + 1) ++ ·)).intersperse [',']).flatten ++
      newLine depth ++ [closing]

/-- A value, in a block at a depth. -/
def Value.write (depth : Nat) (v : Value) : List Char :=
  match v with
  | .text s => writeText s
  | .number n => (toString n).toList
  | .list items => writeBlock '[' ']' depth (items.map fun item => item.write (depth + 1))
  | .object fields =>
    writeBlock '\x7b' '\x7d' depth
      (fields.map fun field => writeText field.1 ++ ':' :: ' ' :: field.2.write (depth + 1))
termination_by v
decreasing_by
  · decreasing_tactic
  · rename_i h
    have h₁ := List.sizeOf_lt_of_mem h
    obtain ⟨name, value⟩ := field
    simp only [Value.object.sizeOf_spec, Prod.mk.sizeOf_spec] at *
    omega

/-- The text of a value. -/
def Value.print (v : Value) : String :=
  String.ofList (v.write 0)

end Lexis.Json
