import Dialect.Json.Bytes
import Dialect.Json.Writer
import Dialect.Token.FromJson
import Dialect.Token.Visit

-- Whole documents: their blocks, their metadata, and the version of the tree format.

namespace Dialect

structure Document where
  blocks : List Token
  apiVersion : List Int
  metadata : Value
deriving DecidableEq, Repr

-- What is wrong with a text or a value that should be a document.
inductive Malformed where
  | unreadable (error : Json.SyntaxError)
  | notObject (found : Json)
  | noBlocks (found : Json)
  | metadataNotObject (found : Json)
  | badVersion (found : Json)
  | tagNotText (tag : Json)
  | untaggedBlock (found : Value)
deriving DecidableEq, Repr

namespace Malformed

def message : Malformed → String
  | unreadable error => "Invalid pandoc JSON: " ++ error.message
  | notObject found => "pandoc document must be an object, got " ++ found.kind
  | noBlocks _ => "pandoc document has no 'blocks' list"
  | metadataNotObject _ => "pandoc document 'meta' must be an object"
  | badVersion _ => "pandoc document 'pandoc-api-version' must be a list of integers"
  | tagNotText tag => "Token tag must be a string, got " ++ tag.kind
  | untaggedBlock _ => "pandoc document blocks must be tagged objects"

-- The value that is to blame; null where there is none to show.
def culprit : Malformed → Json
  | unreadable _ => .null
  | notObject _ => .null
  | noBlocks found => found
  | metadataNotObject found => found
  | badVersion found => found
  | tagNotText tag => tag
  | untaggedBlock found => found.toJson

end Malformed

namespace Document

def blocksKey : Text := "blocks"
def metadataKey : Text := "meta"
def versionKey : Text := "pandoc-api-version"
def titleKey : Text := "title"

-- The whole numbers of a list that holds nothing else.
def wholeNumbers? : List Json → Option (List Int)
  | [] => some []
  | .int i :: rest => (wholeNumbers? rest).map (i :: ·)
  | _ :: _ => none

def versionOf : Option Json → Except Malformed (List Int)
  | none => .ok []
  | some found =>
    match found with
    | .arr items =>
      match wholeNumbers? items with
      | some version => .ok version
      | none => .error (.badVersion found)
    | _ => .error (.badVersion found)

-- Every block is a token.
def blocksOf : List Value → Except Malformed (List Token)
  | [] => .ok []
  | v :: rest =>
    match v.token? with
    | some t => (blocksOf rest).map (t :: ·)
    | none => .error (.untaggedBlock v)

-- The document that a JSON value writes. Of several faults the first in the order below
-- is told: the shape of the members, then the blocks, then the metadata.
def ofJson (data : Json) : Except Malformed Document := do
  let .obj entries := data | throw (.notObject data)
  let blocks ← match Entries.get? blocksKey entries with
    | some (.arr items) => pure items
    | found => throw (.noBlocks (found.getD .null))
  let metadata ← match Entries.get? metadataKey entries with
    | none => pure (.obj [])
    | some (.obj members) => pure (.obj members)
    | some found => throw (.metadataNotObject found)
  let apiVersion ← versionOf (Entries.get? versionKey entries)
  let values ← (Value.ofJsonItems blocks).mapError .tagNotText
  let blocks ← blocksOf values
  let metadata ← (Value.ofJson metadata).mapError .tagNotText
  return { blocks, apiVersion, metadata }

def toJson (d : Document) : Json :=
  .obj [(versionKey, .arr (d.apiVersion.map .int)), (metadataKey, d.metadata.toJson),
    (blocksKey, .arr (Value.toJsonItems (d.blocks.map Token.toValue)))]

-- Read a document from text.
def ofText (text : Text) : Except Malformed Document :=
  match Json.read text with
  | .error e => .error (.unreadable e)
  | .ok data => ofJson data

-- Why bytes are no document: they are no text, or the text is no document.
inductive BytesError where
  | undecodable
  | malformed (cause : Malformed)
deriving DecidableEq, Repr

-- Read a document from bytes in any encoding of Unicode.
def ofBytes (bytes : List UInt8) : Except BytesError Document :=
  match Json.readBytes bytes with
  | .error .undecodable => .error .undecodable
  | .error (.malformed e) => .error (.malformed (.unreadable e))
  | .ok data => (ofJson data).mapError .malformed

def text (d : Document) (indent : Option Nat) : Text :=
  d.toJson.render ⟨indent, false⟩

-- The roots of the tree.
def roots (d : Document) : List Value :=
  d.blocks.map Token.toValue

-- Metadata that is a token has no entries to look the title up in.
inductive TitleError where
  | metadataIsToken
deriving DecidableEq, Repr

-- The plain text of the title entry; empty if there is none.
def title (d : Document) : Except TitleError Text :=
  match d.metadata with
  | .map entries =>
    match Entries.get? titleKey entries with
    | some (.token tag payload) =>
      if tag = "MetaString" then
        match payload with
        | .str s => .ok s
        | _ => .ok []
      else .ok (Token.collectText [.token tag payload])
    | _ => .ok []
  | _ => .error .metadataIsToken

end Document

end Dialect
