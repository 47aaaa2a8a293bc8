import Dialect.Token.Basic

-- Rebuilding a tree with a change made to every token. The change comes first, then the
-- payload of its result is rebuilt the same way, so a parent is changed before its
-- children, and the children are those of the changed token. A change may put in new
-- tokens, which are changed in turn, and so a transformation need not come to an end.

namespace Dialect

namespace Transform

-- How a transformation fails: it does not end within its bound, or the change refuses a
-- token.
inductive Failure (ε : Type) where
  | unfinished
  | refused (cause : ε)
deriving DecidableEq, Repr

-- What a stretch of work came to, with the tokens that were handed to the change, in the
-- order of the calls.
structure Pass (ε α : Type) where
  seen : List Token
  result : Except (Failure ε) α

namespace Pass

variable {ε α β : Type}

def done (a : α) : Pass ε α := ⟨[], .ok a⟩

def fail (e : Failure ε) : Pass ε α := ⟨[], .error e⟩

-- One stretch after the other; nothing is called after a failure.
def andThen (p : Pass ε α) (next : α → Pass ε β) : Pass ε β :=
  match p.result with
  | .ok a => ⟨p.seen ++ (next a).seen, (next a).result⟩
  | .error e => ⟨p.seen, .error e⟩

-- Hand a token to the change.
def call (change : Token → Except ε Token) (t : Token) : Pass ε Token :=
  ⟨[t], (change t).mapError .refused⟩

end Pass

variable {ε : Type}

-- Transform items from left to right.
def eachItem (step : Value → Pass ε Value) : List Value → Pass ε (List Value)
  | [] => .done []
  | v :: rest =>
    (step v).andThen fun v => (eachItem step rest).andThen fun vs => .done (v :: vs)

-- Transform a value whose nesting, after all changes, is at most the bound. A changed token
-- is gone into if its payload is a list or a token, else it stands as it is.
def value (change : Token → Except ε Token) : Nat → Value → Pass ε Value
  | 0, _ => .fail .unfinished
  | bound + 1, .token tag payload =>
    (Pass.call change ⟨tag, payload⟩).andThen fun t =>
      (value change bound t.payload).andThen fun p => .done (.token t.tag p)
  | bound + 1, .list items =>
    (eachItem (value change bound) items).andThen fun items => .done (.list items)
  | _ + 1, v => .done v

-- Transform a sequence of roots.
def roots (change : Token → Except ε Token) (bound : Nat) (vs : List Value) :
    Pass ε (List Value) :=
  eachItem (value change bound) vs

-- A change that refuses nothing.
def always (f : Token → Token) (t : Token) : Except Empty Token :=
  .ok (f t)

-- The change `f` brings the transformation of `vs` to an end, with the calls `seen` and the
-- result `ws`.
def Ends (f : Token → Token) (vs : List Value) (seen : List Token) (ws : List Value) : Prop :=
  ∃ bound, (roots (always f) bound vs).seen = seen ∧ (roots (always f) bound vs).result = .ok ws

end Transform

end Dialect
