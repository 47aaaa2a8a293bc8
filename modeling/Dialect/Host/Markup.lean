import Dialect.Text.Blank
import Dialect.Text.Letter

-- Text with tags in square brackets, which only say how the text looks. A tag that opens
-- needs no end, but one that closes needs one to close. A backslash in front takes a tag
-- literally.

namespace Dialect.Host.Markup

open Text (isAsciiSmall smallLetter trimChars)

-- What a tag may start with.
def startsTag (c : Char) : Bool :=
  isAsciiSmall c || c == '#' || c == '/' || c == '@'

-- The text of a tag whose opening bracket was read, and what follows the closing one. There
-- is no other opening bracket inside.
def tag? : List Char → Option (List Char × List Char)
  | [] => none
  | c :: rest =>
    let inner := rest.takeWhile fun d => d != '[' && d != ']'
    match rest.drop inner.length with
    | ']' :: after => if startsTag c then some (c :: inner, after) else none
    | _ => none

-- Looks that have a short name.
def shortNames : List (String × String) :=
  [("d", "dim"), ("b", "bold"), ("i", "italic"), ("u", "underline"), ("uu", "underline2"),
    ("r", "reverse"), ("c", "conceal"), ("s", "strike"), ("o", "overline")]

-- The name of a look: small letters, in full.
def lookName (s : List Char) : List Char :=
  let name := (trimChars s).map smallLetter
  match shortNames.find? fun p => p.1.toList == name with
  | some (_, full) => full.toList
  | none => name

-- What a tag says in front of its value.
def tagHead (inner : List Char) : List Char :=
  inner.takeWhile (· != '=')

-- The tags that are open after one more, the latest in front; none if it closes nothing.
def follow? (opened : List (List Char)) (inner : List Char) : Option (List (List Char)) :=
  match tagHead inner with
  | '/' :: name =>
    match lookName name with
    | [] => match opened with
      | [] => none
      | _ :: rest => some rest
    | name => if opened.contains name then some (opened.erase name) else none
  | name => some (lookName name :: opened)

-- The text without its tags. `slashes` backslashes stand directly in front. The fuel is the
-- length of the text.
def plainFrom (opened : List (List Char)) (slashes : Nat) : Nat → List Char → Option (List Char)
  | 0, _ => some (List.replicate slashes '\\')
  | _ + 1, [] => some (List.replicate slashes '\\')
  | fuel + 1, c :: rest =>
    if c = '\\' then plainFrom opened (slashes + 1) fuel rest
    else if c = '[' then
      match tag? rest with
      | some (inner, after) =>
        let front := List.replicate (slashes / 2) '\\'
        if slashes % 2 = 1 then
          (plainFrom opened 0 fuel after).map fun s => front ++ '[' :: inner ++ ']' :: s
        else
          (follow? opened inner).bind fun opened =>
            (plainFrom opened 0 fuel after).map (front ++ ·)
      | none =>
        (plainFrom opened 0 fuel rest).map fun s =>
          List.replicate (slashes - 1) '\\' ++ '[' :: s
    else
      (plainFrom opened 0 fuel rest).map fun s => List.replicate slashes '\\' ++ c :: s

-- The text without its tags; none if one closes what is not open.
def plain? (s : List Char) : Option (List Char) :=
  plainFrom [] 0 (s.length + 1) s

end Dialect.Host.Markup
