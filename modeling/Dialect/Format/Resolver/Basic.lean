import Dialect.Format.Interview
import Dialect.Format.Store

-- A resolver that remembers its answers, and what happens to it in the hands of a caller.
-- It keeps an object for each request and hands out copies, which are the caller's own.

namespace Dialect.Format

namespace Resolver

-- The objects that are kept, by request, among all that were made.
structure Memory where
  store : Store
  kept : Entries String Nat

section

variable {m : Type → Type} [Monad m]

-- A copy of what is kept, or else of what a new negotiation comes to, which is kept from then
-- on. A failure leaves the memory as it is.
def resolve (engine : Engine m) (memory : Memory) (request : String) : m (Nat × Memory) :=
  match Entries.get? request memory.kept with
  | some object =>
    let (copy, store) := memory.store.copy object
    pure (copy, { memory with store })
  | none => do
    let r ← Negotiation.resolve engine request
    let (object, store) := memory.store.make r
    let (copy, store) := store.copy object
    return (copy, ⟨store, Entries.put request object memory.kept⟩)

end

-- What a caller does with a resolver, and what happens to the engine behind it. An answer is
-- named by its number from zero on, or by a negative number that counts from the last one
-- back.
inductive Step where
  | resolve (request : String)
  | clear
  | engine (answers : Answers)
  | edit (answer : Int) (change : Edit)
  | look (answer : Int)
  | compare (first second : Int)

structure State where
  engine : Answers
  memory : Memory
  returned : List Nat

def start (engine : Answers) : State :=
  ⟨engine, ⟨Store.empty, []⟩, []⟩

-- What a step shows. An answer comes with its place.
inductive Shown where
  | nothing
  | answer (place : Nat) (r : Resolved)
  | failed (e : Engine.EngineError)
  | noSuchAnswer
  | same (equal : Bool)
deriving Repr

namespace State

-- The place of an answer, if there is one of that number.
def place? (s : State) (answer : Int) : Option Nat :=
  let i := if answer < 0 then answer + s.returned.length else answer
  if 0 ≤ i ∧ i < s.returned.length then some i.toNat else none

-- What the answer in a place says now.
def read? (s : State) (place : Nat) : Option Resolved :=
  s.returned[place]?.bind s.memory.store.read?

-- What is kept for a request.
def kept? (s : State) (request : String) : Option Resolved :=
  (Entries.get? request s.memory.kept).bind s.memory.store.read?

def view (s : State) (place : Option Nat) : Shown :=
  match place.bind fun i => (s.read? i).map fun r => (i, r) with
  | some (i, r) => .answer i r
  | none => .noSuchAnswer

-- Change an answer where it lies.
def edit (s : State) (place : Option Nat) (change : Edit) : State :=
  match place.bind (s.returned[·]?) with
  | some object =>
    { s with memory := { s.memory with store := s.memory.store.edit object change } }
  | none => s

end State

def step (s : State) : Step → State × Shown × Journal
  | .resolve request =>
    match Interview.observe (resolve (Interview.engine s.engine) s.memory request) with
    | (.ok (object, memory), journal) =>
      let next := { s with memory, returned := s.returned ++ [object] }
      (next, next.view (some s.returned.length), journal)
    | (.error e, journal) => (s, .failed e, journal)
  | .clear => ({ s with memory := { s.memory with kept := [] } }, .nothing, Journal.blank)
  | .engine answers => ({ s with engine := answers }, .nothing, Journal.blank)
  | .edit answer change =>
    let next := s.edit (s.place? answer) change
    (next, next.view (s.place? answer), Journal.blank)
  | .look answer => (s, s.view (s.place? answer), Journal.blank)
  | .compare first second =>
    match (s.place? first).bind s.read?, (s.place? second).bind s.read? with
    | some a, some b => (s, .same (a.same b), Journal.blank)
    | _, _ => (s, .noSuchAnswer, Journal.blank)

-- A step of a run, between the state that it finds and the state that it leaves.
structure Event where
  before : State
  step : Step
  shown : Shown
  journal : Journal
  after : State

def event (s : State) (next : Step) : Event :=
  let (after, shown, journal) := step s next
  ⟨s, next, shown, journal, after⟩

def events (s : State) : List Step → List Event
  | [] => []
  | next :: rest => event s next :: events (event s next).after rest

-- The state after some steps.
def after (s : State) : List Step → State
  | [] => s
  | next :: rest => after (event s next).after rest

end Resolver

end Dialect.Format
