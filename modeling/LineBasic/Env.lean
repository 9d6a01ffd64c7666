import LineBasic.LabelTable
import LineBasic.Value

namespace LineBasic

-- A finite map as the list of its pairs, in the order in which the keys came.
abbrev Table (α β : Type) := List (α × β)

namespace Table

def get? {α β : Type} [BEq α] (t : Table α β) (key : α) : Option β :=
  t.lookup key

-- A new value for a key keeps the place of the old one.
def insert {α β : Type} [DecidableEq α] : Table α β → α → β → Table α β
  | [], key, value => [(key, value)]
  | (k, v) :: rest, key, value =>
    if k = key then (key, value) :: rest else (k, v) :: insert rest key value

def erase {α β : Type} [DecidableEq α] (t : Table α β) (key : α) : Table α β :=
  t.filter fun entry => decide (entry.1 ≠ key)

end Table

-- The private counter of an active FOR, and the last value it takes.
structure Frame where
  counter : Int
  last : Int
  deriving DecidableEq, Repr

-- Everything a statement can change except the place of execution: variables, the positions that
-- GOSUBs return to (the latest first), and the active loops by the position of their FOR.
structure Env where
  values : Table Bytes Value
  returns : List Nat
  loops : Table Nat Frame
  deriving DecidableEq, Repr

namespace Env

def empty : Env :=
  ⟨[], [], []⟩

def get (e : Env) (name : Bytes) (line : Int) : Except Failure Value :=
  match e.values.get? name with
  | some value => .ok value
  | none => .error ⟨.undefinedVariable, line, name⟩

def define (e : Env) (name : Bytes) (value : Value) : Env :=
  { e with values := e.values.insert name value }

def push (e : Env) (position : Nat) : Env :=
  { e with returns := position :: e.returns }

def pop (e : Env) (line : Int) : Except Failure (Nat × Env) :=
  match e.returns with
  | [] => .error ⟨.returnWithoutGosub, line, []⟩
  | position :: rest => .ok (position, { e with returns := rest })

def enter (e : Env) (position : Nat) (frame : Frame) : Env :=
  { e with loops := e.loops.insert position frame }

def leave (e : Env) (position : Nat) : Env :=
  { e with loops := e.loops.erase position }

def frame (e : Env) (position : Nat) (line : Int) : Except Failure Frame :=
  match e.loops.get? position with
  | some frame => .ok frame
  | none => .error ⟨.nextWithoutFor, line, []⟩

end Env

namespace LabelTable

def position (t : LabelTable) (name : Bytes) (line : Int) : Except Failure Nat :=
  match t.lookup? name with
  | some label => .ok label.position
  | none => .error ⟨.unknownLabel, line, name⟩

end LabelTable

end LineBasic
