import Dialect.Number.Double
import Dialect.Text.Code

-- The tree of a document. An element is a token: a tag and a payload. A payload may hold
-- further tokens in lists or directly; everything else in it is opaque.

namespace Dialect

inductive Value where
  | null
  | bool (value : Bool)
  | int (value : Int)
  | double (value : Double)
  | str (text : Text)
  | list (items : List Value)
  | map (entries : List (Text × Value))
  | token (tag : Text) (payload : Value)
deriving Repr, Inhabited

-- A token on its own. A payload of null means that there is none.
structure Token where
  tag : Text
  payload : Value
deriving Repr, Inhabited

namespace Token

def toValue (t : Token) : Value :=
  .token t.tag t.payload

def hasPayload (t : Token) : Bool :=
  match t.payload with
  | .null => false
  | _ => true

-- A list may hold tokens.
def hasChildren (t : Token) : Bool :=
  match t.payload with
  | .list _ => true
  | _ => false

def isTagged (t : Token) (tag : Text) : Bool :=
  t.tag == tag

-- The tags that have a name in this library. Others are as good: the trees that an
-- engine writes grow over time.
def knownTags : List String :=
  ["Str", "Space", "Strong", "Emph", "Code", "Superscript", "Subscript", "Strikeout",
    "SmallCaps", "Quoted", "RawInline", "RawBlock", "LineBlock", "Para", "Plain", "Header",
    "CodeBlock", "BlockQuote", "BulletList", "OrderedList", "DefinitionList", "Image", "Link",
    "Note", "Cite", "Table", "AlignRight", "AlignLeft", "AlignDefault", "AlignCenter",
    "HorizontalRule", "LineBreak", "SoftBreak", "Math", "InlineMath", "DisplayMath", "Div",
    "Span", "Null"]

end Token

namespace Value

-- The token that a value is, if it is one.
def token? : Value → Option Token
  | .token tag payload => some ⟨tag, payload⟩
  | _ => none

mutual

-- Structural equality.
def beq : Value → Value → Bool
  | null, null => true
  | bool a, bool b => a == b
  | int a, int b => a == b
  | double a, double b => a == b
  | str a, str b => a == b
  | list a, list b => beqItems a b
  | map a, map b => beqEntries a b
  | token t a, token u b => t == u && beq a b
  | _, _ => false

def beqItems : List Value → List Value → Bool
  | [], [] => true
  | a :: as, b :: bs => beq a b && beqItems as bs
  | _, _ => false

def beqEntries : List (Text × Value) → List (Text × Value) → Bool
  | [], [] => true
  | (k, a) :: as, (l, b) :: bs => k == l && beq a b && beqEntries as bs
  | _, _ => false

end

mutual

theorem eq_of_beq : (a b : Value) → beq a b = true → a = b
  | null, b, h => by cases b <;> simp_all [beq]
  | bool _, b, h => by cases b <;> simp_all [beq]
  | int _, b, h => by cases b <;> simp_all [beq]
  | double _, b, h => by cases b <;> simp_all [beq]
  | str _, b, h => by cases b <;> simp_all [beq]
  | list as, b, h => by
    cases b with
    | list bs => exact congrArg list (eq_of_beqItems as bs (by simpa [beq] using h))
    | _ => simp [beq] at h
  | map as, b, h => by
    cases b with
    | map bs => exact congrArg map (eq_of_beqEntries as bs (by simpa [beq] using h))
    | _ => simp [beq] at h
  | token t a, b, h => by
    cases b with
    | token u b =>
      simp only [beq, Bool.and_eq_true, beq_iff_eq] at h
      rw [h.1, eq_of_beq a b h.2]
    | _ => simp [beq] at h

theorem eq_of_beqItems : (as bs : List Value) → beqItems as bs = true → as = bs
  | [], bs, h => by cases bs <;> simp_all [beqItems]
  | a :: as, bs, h => by
    cases bs with
    | nil => simp [beqItems] at h
    | cons b bs =>
      simp only [beqItems, Bool.and_eq_true] at h
      rw [eq_of_beq a b h.1, eq_of_beqItems as bs h.2]

theorem eq_of_beqEntries : (as bs : List (Text × Value)) → beqEntries as bs = true → as = bs
  | [], bs, h => by cases bs <;> simp_all [beqEntries]
  | (k, a) :: as, bs, h => by
    cases bs with
    | nil => simp [beqEntries] at h
    | cons b bs =>
      obtain ⟨l, b⟩ := b
      simp only [beqEntries, Bool.and_eq_true, beq_iff_eq] at h
      rw [h.1.1, eq_of_beq a b h.1.2, eq_of_beqEntries as bs h.2]

end

mutual

theorem beq_self : (a : Value) → beq a a = true
  | null => by simp [beq]
  | bool _ => by simp [beq]
  | int _ => by simp [beq]
  | double _ => by simp [beq]
  | str _ => by simp [beq]
  | list as => by simp [beq, beqItems_self as]
  | map as => by simp [beq, beqEntries_self as]
  | token _ a => by simp [beq, beq_self a]

theorem beqItems_self : (as : List Value) → beqItems as as = true
  | [] => by simp [beqItems]
  | a :: as => by simp [beqItems, beq_self a, beqItems_self as]

theorem beqEntries_self : (as : List (Text × Value)) → beqEntries as as = true
  | [] => by simp [beqEntries]
  | (_, a) :: as => by simp [beqEntries, beq_self a, beqEntries_self as]

end

instance : DecidableEq Value := fun a b =>
  if h : beq a b = true then isTrue (eq_of_beq a b h)
  else isFalse fun e => h (e ▸ beq_self a)

end Value

deriving instance DecidableEq for Token

end Dialect
