/-
The spellings of the reserved words.

A word is reserved when it equals one of the spellings, letter case included. The spelling of the
print statement holds two dots, which no identifier has; the table lists it all the same, for
readers that look it up as a whole.
-/
import Lexis.Token.Kind

namespace Lexis

/-- The spelling of a reserved word. -/
def Keyword.spelling : Keyword → String
  | .classKw => "class"
  | .publicKw => "public"
  | .staticKw => "static"
  | .voidKw => "void"
  | .mainKw => "main"
  | .stringKw => "String"
  | .extendsKw => "extends"
  | .returnKw => "return"
  | .intKw => "int"
  | .booleanKw => "boolean"
  | .ifKw => "if"
  | .elseKw => "else"
  | .whileKw => "while"
  | .printKw => "System.out.println"
  | .lengthKw => "length"
  | .trueKw => "true"
  | .falseKw => "false"
  | .thisKw => "this"
  | .newKw => "new"

/-- The reserved word of a given spelling. -/
def Keyword.lookup? (text : String) : Option Keyword :=
  Keyword.all.find? (·.spelling = text)

/-- The kind of a word: the reserved word that it spells, or an identifier. -/
def Kind.ofWord (text : String) : Kind :=
  match Keyword.lookup? text with
  | some k => .keyword k
  | none => .identifier

end Lexis
