/-
Line endings.

Text that is read from a file or a stream has one kind of line ending: a carriage return with the
line feed after it, and a carriage return alone, both become a line feed.
-/
namespace Lexis.Text

/-- Goes over a text with the result so far, in reverse, in front. -/
def foldLineEndings : List Char → List Char → List Char
  | done, '\r' :: '\n' :: r => foldLineEndings ('\n' :: done) r
  | done, '\r' :: r => foldLineEndings ('\n' :: done) r
  | done, c :: r => foldLineEndings (c :: done) r
  | done, [] => done.reverse

/-- A text with every line ending written as a line feed. -/
def withLineFeeds (s : List Char) : List Char :=
  foldLineEndings [] s

end Lexis.Text
