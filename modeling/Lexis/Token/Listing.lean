/-
Listings of tokens.

A listing has one line for each token, an empty line, and the count of the tokens listed. The
token at the end of the input is listed on request only.
-/
import Lexis.Token.Basic

namespace Lexis

/-- The tokens that a listing shows. -/
def listed (tokens : List Token) (showEnd : Bool) : List Token :=
  tokens.filter fun t => showEnd || !t.isEnd

/-- The lines of a listing. -/
def listingLines (tokens : List Token) (showEnd : Bool) : List String :=
  let shown := listed tokens showEnd
  shown.map Token.print ++ ["", "Total tokens: " ++ toString shown.length]

/-- A listing, without a line feed at its end. -/
def listing (tokens : List Token) (showEnd : Bool := false) : String :=
  "\n".intercalate (listingLines tokens showEnd)

end Lexis
