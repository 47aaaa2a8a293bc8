-- White space as Unicode sees it, and trimming by it. A title, a program's
-- messages and a number's text are trimmed by this one class.

namespace Dialect.Text

-- The 25 characters with the White_Space property, and the four separators
-- U+001C to U+001F, which count as blank as well.
def isBlank (c : Char) : Bool :=
  let n := c.toNat
  (9 ≤ n && n ≤ 13) || (28 ≤ n && n ≤ 32) || n == 0x85 || n == 0xA0 || n == 0x1680 ||
    (0x2000 ≤ n && n ≤ 0x200A) || n == 0x2028 || n == 0x2029 || n == 0x202F ||
    n == 0x205F || n == 0x3000

-- Drop the blanks at the end of a character list.
def trimRight (s : List Char) : List Char :=
  (s.reverse.dropWhile isBlank).reverse

-- Drop the blanks at both ends of a character list.
def trimChars (s : List Char) : List Char :=
  trimRight (s.dropWhile isBlank)

def trim (s : String) : String :=
  String.ofList (trimChars s.toList)

-- The characters that end a line when text is cut into lines.
def isLineEnd (c : Char) : Bool :=
  let n := c.toNat
  (10 ≤ n && n ≤ 13) || (28 ≤ n && n ≤ 30) || n == 0x85 || n == 0x2028 || n == 0x2029

-- What stands before the first line end; the whole text if it has none.
def firstLine (s : String) : String :=
  String.ofList (s.toList.takeWhile fun c => !isLineEnd c)

-- Line ends as a text file is read: a carriage return, with or without the line
-- feed behind it, counts as one line feed.
def unifyNewlines : List Char → List Char
  | [] => []
  | '\r' :: '\n' :: rest => '\n' :: unifyNewlines rest
  | c :: rest => (if c = '\r' then '\n' else c) :: unifyNewlines rest

end Dialect.Text
