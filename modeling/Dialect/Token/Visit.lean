import Dialect.Token.Basic

-- Walking a tree without knowing anything about single tags: a token is visited, then its
-- payload, and lists are walked item by item. Maps and plain values are opaque.

namespace Dialect

namespace Value

mutual

-- The tokens of a value in document order, each before those in its payload.
def tokens : Value → List Token
  | .token tag payload => ⟨tag, payload⟩ :: tokens payload
  | .list items => itemTokens items
  | _ => []

def itemTokens : List Value → List Token
  | [] => []
  | v :: rest => tokens v ++ itemTokens rest

end

mutual

-- The plain text of a value: that of its Str tokens and a blank for each Space token, in
-- document order. What a Str or a Space holds beside that is not looked at.
def text : Value → Text
  | .token tag payload =>
    if tag = "Str" then
      match payload with
      | .str s => s
      | _ => []
    else if tag = "Space" then " "
    else text payload
  | .list items => itemText items
  | _ => []

def itemText : List Value → Text
  | [] => []
  | v :: rest => text v ++ itemText rest

end

end Value

namespace Token

-- Every token that is reachable from a sequence of roots.
def visit (roots : List Value) : List Token :=
  Value.itemTokens roots

-- The text of a sequence of roots, without separators.
def collectText (roots : List Value) : Text :=
  Value.itemText roots

-- The reachable tokens with a tag, in document order.
def find (roots : List Value) (tag : Text) : List Token :=
  (visit roots).filter fun t => t.isTagged tag

end Token

end Dialect
