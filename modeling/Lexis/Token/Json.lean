/-
Tokens as JSON.

A token is an object of its kind's name, its text, its line and its column; the name of the source
is left out. A list of tokens is a list of such objects.
-/
import Lexis.Json.Value
import Lexis.Token.Basic

namespace Lexis

/-- The object of a token. -/
def Token.toJson (t : Token) : Json.Value :=
  .object [("type", .text t.kind.name), ("text", .text t.text), ("line", .number t.line),
    ("column", .number t.column)]

/-- The list of all tokens. -/
def tokensToJson (tokens : List Token) : Json.Value :=
  .list (tokens.map Token.toJson)

end Lexis
