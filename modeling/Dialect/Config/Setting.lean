import Dialect.Json.Basic

-- The values that configuration files give. Beside those of JSON there are dates, times, bytes
-- and sets, and the keys of a mapping need not be texts.

namespace Dialect

-- A key that is no text, such as a number or a date, is known by how it is shown; keys that are
-- equal are shown alike.
inductive Key where
  | text (t : Text)
  | other (shown : String)
deriving DecidableEq, Repr, Inhabited

instance : Coe String Key := ⟨fun s => .text (Text.of s)⟩

-- A value of another sort, by all that is asked of it.
structure Thing where
  kind : String
  -- the kind with the module it is from
  fullKind : String
  literal : String
  text : String
  truthy : Bool
  -- what it is as a double: nothing if it is no number and writes none, and a failure inside if
  -- it might write one and does not
  number? : Option (Option Double)
deriving DecidableEq, Repr

inductive Setting where
  | null
  | bool (value : Bool)
  | int (value : Int)
  | double (value : Double)
  | str (text : Text)
  | arr (items : List Setting)
  | obj (entries : List (Key × Setting))
  | other (thing : Thing)
deriving Repr, Inhabited

namespace Setting

-- The word for a value's kind in messages.
def kind : Setting → String
  | null => "NoneType"
  | bool _ => "bool"
  | int _ => "int"
  | double _ => "float"
  | str _ => "str"
  | arr _ => "list"
  | obj _ => "dict"
  | other thing => thing.kind

-- The word for it in the messages of the operators.
def fullKind : Setting → String
  | other thing => thing.fullKind
  | v => v.kind

-- Zero, the empty ones and null count as false, everything else as true.
def truthy : Setting → Bool
  | null => false
  | bool b => b
  | int i => i != 0
  | double d => !d.isZero
  | str s => !s.isEmpty
  | arr items => !items.isEmpty
  | obj entries => !entries.isEmpty
  | other thing => thing.truthy

def member? (key : Key) : Setting → Option Setting
  | obj entries => Entries.get? key entries
  | _ => none

mutual

-- Structural equality.
def beq : Setting → Setting → Bool
  | null, null => true
  | bool a, bool b => a == b
  | int a, int b => a == b
  | double a, double b => a == b
  | str a, str b => a == b
  | arr a, arr b => beqItems a b
  | obj a, obj b => beqEntries a b
  | other a, other b => a == b
  | _, _ => false

def beqItems : List Setting → List Setting → Bool
  | [], [] => true
  | a :: as, b :: bs => beq a b && beqItems as bs
  | _, _ => false

def beqEntries : List (Key × Setting) → List (Key × Setting) → Bool
  | [], [] => true
  | (k, a) :: as, (l, b) :: bs => k == l && beq a b && beqEntries as bs
  | _, _ => false

end

mutual

theorem eq_of_beq : (a b : Setting) → beq a b = true → a = b
  | null, b, h => by cases b <;> simp_all [beq]
  | bool _, b, h => by cases b <;> simp_all [beq]
  | int _, b, h => by cases b <;> simp_all [beq]
  | double _, b, h => by cases b <;> simp_all [beq]
  | str _, b, h => by cases b <;> simp_all [beq]
  | other _, b, h => by cases b <;> simp_all [beq]
  | arr as, b, h => by
    cases b with
    | arr bs => exact congrArg arr (eq_of_beqItems as bs (by simpa [beq] using h))
    | _ => simp [beq] at h
  | obj as, b, h => by
    cases b with
    | obj bs => exact congrArg obj (eq_of_beqEntries as bs (by simpa [beq] using h))
    | _ => simp [beq] at h

theorem eq_of_beqItems : (as bs : List Setting) → beqItems as bs = true → as = bs
  | [], bs, h => by cases bs <;> simp_all [beqItems]
  | a :: as, bs, h => by
    cases bs with
    | nil => simp [beqItems] at h
    | cons b bs =>
      simp only [beqItems, Bool.and_eq_true] at h
      rw [eq_of_beq a b h.1, eq_of_beqItems as bs h.2]

theorem eq_of_beqEntries : (as bs : List (Key × Setting)) → beqEntries as bs = true → as = bs
  | [], bs, h => by cases bs <;> simp_all [beqEntries]
  | (k, a) :: as, bs, h => by
    cases bs with
    | nil => simp [beqEntries] at h
    | cons b bs =>
      obtain ⟨l, b⟩ := b
      simp only [beqEntries, Bool.and_eq_true, beq_iff_eq] at h
      rw [h.1.1, eq_of_beq a b h.1.2, eq_of_beqEntries as bs h.2]

end

mutual

theorem beq_self : (a : Setting) → beq a a = true
  | null => by simp [beq]
  | bool _ => by simp [beq]
  | int _ => by simp [beq]
  | double _ => by simp [beq]
  | str _ => by simp [beq]
  | other _ => by simp [beq]
  | arr as => by simp [beq, beqItems_self as]
  | obj as => by simp [beq, beqEntries_self as]

theorem beqItems_self : (as : List Setting) → beqItems as as = true
  | [] => by simp [beqItems]
  | a :: as => by simp [beqItems, beq_self a, beqItems_self as]

theorem beqEntries_self : (as : List (Key × Setting)) → beqEntries as as = true
  | [] => by simp [beqEntries]
  | (_, a) :: as => by simp [beqEntries, beq_self a, beqEntries_self as]

end

instance : DecidableEq Setting := fun a b =>
  if h : beq a b = true then isTrue (eq_of_beq a b h)
  else isFalse fun e => h (e ▸ beq_self a)

mutual

-- A JSON value as one of a configuration.
def ofJson : Json → Setting
  | .null => null
  | .bool b => bool b
  | .int i => int i
  | .double d => double d
  | .str s => str s
  | .arr items => arr (ofJsonItems items)
  | .obj entries => obj (ofJsonMembers entries)

def ofJsonItems : List Json → List Setting
  | [] => []
  | a :: rest => ofJson a :: ofJsonItems rest

def ofJsonMembers : List (Text × Json) → List (Key × Setting)
  | [] => []
  | (name, a) :: rest => (.text name, ofJson a) :: ofJsonMembers rest

end

-- A number, or a boolean that stands for one.
inductive Amount where
  | flag (value : Bool)
  | whole (value : Int)
  | real (value : Double)
deriving DecidableEq, Repr

def amount? : Setting → Option Amount
  | bool b => some (.flag b)
  | int i => some (.whole i)
  | double d => some (.real d)
  | _ => none

namespace Amount

def toSetting : Amount → Setting
  | flag b => .bool b
  | whole i => .int i
  | real d => .double d

-- The value of what is not a double: true is one and false is zero.
def whole? : Amount → Option Int
  | flag b => some (if b then 1 else 0)
  | whole i => some i
  | real _ => none

-- Equal as numbers; what is not a number equals itself here.
def same (a b : Amount) : Bool :=
  match a, b with
  | real x, real y => x == y || x.sameNumber y
  | real x, b => b.whole?.any x.isInt
  | a, real y => a.whole?.any y.isInt
  | a, b => a.whole? == b.whole?

end Amount

mutual

-- Equality of values as a reader of a configuration sees it: numbers by amount, with
-- true as one and false as zero, and mappings by their bindings whatever their order.
def equivalent : Setting → Setting → Bool
  | null, null => true
  | str a, str b => a == b
  | arr a, arr b => equivalentItems a b
  | obj a, obj b => a.length == b.length && equivalentEntries a b
  | other a, other b => a == b
  | bool a, b => (amount? b).any (Amount.same (.flag a))
  | int a, b => (amount? b).any (Amount.same (.whole a))
  | double a, b => (amount? b).any (Amount.same (.real a))
  | _, _ => false

def equivalentItems : List Setting → List Setting → Bool
  | [], [] => true
  | a :: as, b :: bs => equivalent a b && equivalentItems as bs
  | _, _ => false

def equivalentEntries : List (Key × Setting) → List (Key × Setting) → Bool
  | [], _ => true
  | (k, a) :: as, bs => (match Entries.get? k bs with
      | some b => equivalent a b
      | none => false) && equivalentEntries as bs

end

end Setting

end Dialect
