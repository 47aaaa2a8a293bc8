import Dialect.Text.Digit

-- The arguments of a command line, told apart one by one: words, options, and the mark
-- behind which everything is a word.

namespace Dialect.Cli

-- An option either stands alone or takes a value.
inductive OptionName (φ σ : Type) where
  | flag (name : φ)
  | setting (name : σ)
deriving DecidableEq, Repr

-- The options that a command knows, by their names with the dashes.
abbrev Known (φ σ : Type) := List (String × OptionName φ σ)

inductive Shape (φ σ : Type) where
  | word
  | mark
  -- an option, with the value that is attached to it
  | option (name : OptionName φ σ) (attached : Option String)
  | unknown
deriving DecidableEq, Repr

structure Argument (φ σ : Type) where
  text : String
  shape : Shape φ σ
deriving DecidableEq, Repr

-- More than one option starts with the name that is written.
inductive Ambiguous where
  | ambiguous
deriving DecidableEq, Repr

variable {φ σ : Type}

-- The texts before and behind the first equals sign.
def cutAtEquals (s : List Char) : List Char × Option (List Char) :=
  match s.dropWhile (· != '=') with
  | [] => (s, none)
  | _ :: value => (s.takeWhile (· != '='), some value)

def named? (known : Known φ σ) (name : List Char) : Option (OptionName φ σ) :=
  (known.find? fun k => k.1.toList == name).map Prod.snd

-- All options whose name starts with what is written.
def abbreviated (known : Known φ σ) (start : List Char) : List (OptionName φ σ) :=
  (known.filter fun k => start.isPrefixOf k.1.toList).map Prod.snd

-- What stands behind a letter option in the same argument. Flags may be written together;
-- other letters are left over, but no dash and no equals sign may follow.
def leftover (letter : Char) (s : List Char) : Option String :=
  match s.dropWhile (· == letter) with
  | [] => none
  | c :: rest => if c = '-' ∨ c = '=' then some (String.ofList (c :: rest)) else none

-- The options that an argument may mean, for one that is not the exact name of one.
def candidates (known : Known φ σ) (s : List Char) : List (Shape φ σ) :=
  match s with
  | '-' :: '-' :: _ =>
    let (name, value) := cutAtEquals s
    (abbreviated known name).map fun o => .option o (value.map String.ofList)
  | '-' :: letter :: rest =>
    (named? known ['-', letter]).toList.map fun o => .option o (leftover letter rest)
  | _ => []

def isDecimalDigit (c : Char) : Bool :=
  (Text.digitValue? c).isSome

-- A whole number or a decimal fraction behind the minus sign, at most with a line feed.
def isNumber (s : List Char) : Bool :=
  let s := if s.getLast? = some '\n' then s.dropLast else s
  match s.dropWhile isDecimalDigit with
  | [] => !s.isEmpty
  | '.' :: fraction => !fraction.isEmpty && fraction.all isDecimalDigit
  | _ => false

-- What starts with a dash and is no option is still a word if it is a negative number or
-- has a blank inside.
def plainShape (s : List Char) : Shape φ σ :=
  if isNumber (s.drop 1) || s.contains ' ' then .word else .unknown

def optionShape (known : Known φ σ) (s : List Char) : Except Ambiguous (Shape φ σ) :=
  match named? known s with
  | some o => .ok (.option o none)
  | none =>
    let (name, value) := cutAtEquals s
    match value, named? known name with
    | some value, some o => .ok (.option o (some (String.ofList value)))
    | _, _ =>
      match candidates known s with
      | [] => .ok (plainShape s)
      | [shape] => .ok shape
      | _ => .error .ambiguous

def shapeOf (known : Known φ σ) (s : String) : Except Ambiguous (Shape φ σ) :=
  match s.toList with
  | ['-'] => .ok .word
  | '-' :: rest => optionShape known ('-' :: rest)
  | _ => .ok .word

-- Tell all arguments apart.
def argumentsOf (known : Known φ σ) : List String → Except Ambiguous (List (Argument φ σ))
  | [] => .ok []
  | s :: rest =>
    if s = "--" then .ok (⟨s, .mark⟩ :: rest.map fun w => ⟨w, .word⟩)
    else do
      let shape ← shapeOf known s
      return ⟨s, shape⟩ :: (← argumentsOf known rest)

end Dialect.Cli
