import Dialect.Entries
import Dialect.Number.Double
import Dialect.Text.Code

-- JSON values. Whole numbers are unbounded and apart from doubles; the members of an
-- object keep their order.

namespace Dialect

inductive Json where
  | null
  | bool (value : Bool)
  | int (value : Int)
  | double (value : Double)
  | str (text : Text)
  | arr (items : List Json)
  | obj (entries : List (Text × Json))
deriving Repr, Inhabited

namespace Json

-- The word for a value's kind in messages.
def kind : Json → String
  | null => "NoneType"
  | bool _ => "bool"
  | int _ => "int"
  | double _ => "float"
  | str _ => "str"
  | arr _ => "list"
  | obj _ => "dict"

-- Zero, the empty ones and null count as false, everything else as true.
def truthy : Json → Bool
  | null => false
  | bool b => b
  | int i => i != 0
  | double d => !d.isZero
  | str s => !s.isEmpty
  | arr items => !items.isEmpty
  | obj entries => !entries.isEmpty

def member? (name : Text) : Json → Option Json
  | obj entries => Entries.get? name entries
  | _ => none

mutual

-- Structural equality.
def beq : Json → Json → Bool
  | null, null => true
  | bool a, bool b => a == b
  | int a, int b => a == b
  | double a, double b => a == b
  | str a, str b => a == b
  | arr a, arr b => beqItems a b
  | obj a, obj b => beqEntries a b
  | _, _ => false

def beqItems : List Json → List Json → Bool
  | [], [] => true
  | a :: as, b :: bs => beq a b && beqItems as bs
  | _, _ => false

def beqEntries : List (Text × Json) → List (Text × Json) → Bool
  | [], [] => true
  | (k, a) :: as, (l, b) :: bs => k == l && beq a b && beqEntries as bs
  | _, _ => false

end

mutual

theorem eq_of_beq : (a b : Json) → beq a b = true → a = b
  | null, b, h => by cases b <;> simp_all [beq]
  | bool _, b, h => by cases b <;> simp_all [beq]
  | int _, b, h => by cases b <;> simp_all [beq]
  | double _, b, h => by cases b <;> simp_all [beq]
  | str _, b, h => by cases b <;> simp_all [beq]
  | arr as, b, h => by
    cases b with
    | arr bs => exact congrArg arr (eq_of_beqItems as bs (by simpa [beq] using h))
    | _ => simp [beq] at h
  | obj as, b, h => by
    cases b with
    | obj bs => exact congrArg obj (eq_of_beqEntries as bs (by simpa [beq] using h))
    | _ => simp [beq] at h

theorem eq_of_beqItems : (as bs : List Json) → beqItems as bs = true → as = bs
  | [], bs, h => by cases bs <;> simp_all [beqItems]
  | a :: as, bs, h => by
    cases bs with
    | nil => simp [beqItems] at h
    | cons b bs =>
      simp only [beqItems, Bool.and_eq_true] at h
      rw [eq_of_beq a b h.1, eq_of_beqItems as bs h.2]

theorem eq_of_beqEntries : (as bs : List (Text × Json)) → beqEntries as bs = true → as = bs
  | [], bs, h => by cases bs <;> simp_all [beqEntries]
  | (k, a) :: as, bs, h => by
    cases bs with
    | nil => simp [beqEntries] at h
    | cons b bs =>
      obtain ⟨l, b⟩ := b
      simp only [beqEntries, Bool.and_eq_true, beq_iff_eq] at h
      rw [h.1.1, eq_of_beq a b h.1.2, eq_of_beqEntries as bs h.2]

end

mutual

theorem beq_self : (a : Json) → beq a a = true
  | null => by simp [beq]
  | bool _ => by simp [beq]
  | int _ => by simp [beq]
  | double _ => by simp [beq]
  | str _ => by simp [beq]
  | arr as => by simp [beq, beqItems_self as]
  | obj as => by simp [beq, beqEntries_self as]

theorem beqItems_self : (as : List Json) → beqItems as as = true
  | [] => by simp [beqItems]
  | a :: as => by simp [beqItems, beq_self a, beqItems_self as]

theorem beqEntries_self : (as : List (Text × Json)) → beqEntries as as = true
  | [] => by simp [beqEntries]
  | (_, a) :: as => by simp [beqEntries, beq_self a, beqEntries_self as]

end

instance : DecidableEq Json := fun a b =>
  if h : beq a b = true then isTrue (eq_of_beq a b h)
  else isFalse fun e => h (e ▸ beq_self a)

end Json

end Dialect
