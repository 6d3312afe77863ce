import Easel.NameMap
import Easel.Value

/-!
# Scopes

The variables of a running program. The global ones last as long as the run. Each call of an
instruction has a frame of its own, which holds its parameters and is gone when the call ends.
-/

namespace Easel

/-- The variables of one frame. -/
abbrev Frame := NameMap Value

/-- The global variables, and the frames of the calls under way, the innermost first. -/
structure Scope where
  calls : List Frame
  globals : Frame
deriving DecidableEq, Repr

namespace Scope

/-- No calls, and no variables. -/
def empty : Scope := ⟨[], .empty⟩

/-- The number of frames, the global one included. -/
def depth (s : Scope) : Nat := s.calls.length + 1

/-- Begins a call. -/
def push (s : Scope) : Scope := { s with calls := .empty :: s.calls }

/-- Ends the innermost call. The global frame stays. -/
def pop (s : Scope) : Scope := { s with calls := s.calls.tail }

/-- Gives a name a value in the innermost frame, whatever it means further out. -/
def declare (s : Scope) (name : String) (v : Value) : Scope :=
  match s.calls with
  | [] => { s with globals := s.globals.insert name v }
  | frame :: calls => { s with calls := frame.insert name v :: calls }

/-- Changes the value of a name in the innermost of the frames that have it, if any has. -/
def assignInCalls? (name : String) (v : Value) : List Frame → Option (List Frame)
  | [] => none
  | frame :: calls =>
    if frame.contains name then some (frame.insert name v :: calls)
    else (assignInCalls? name v calls).map (frame :: ·)

/-- Changes the value of a name in the innermost frame that has it. If none has, it is given the
value in the innermost frame of all. -/
def assign (s : Scope) (name : String) (v : Value) : Scope :=
  match assignInCalls? name v s.calls with
  | some calls => { s with calls }
  | none =>
    if s.globals.contains name then { s with globals := s.globals.insert name v }
    else s.declare name v

/-- The value of a name in the innermost frame that has it. -/
def get? (s : Scope) (name : String) : Option Value :=
  (s.calls ++ [s.globals]).findSome? fun frame => frame.find? name

/-- Begins a call and gives its parameters their values. -/
def enter (s : Scope) (bindings : List (String × Value)) : Scope :=
  bindings.foldl (fun s binding => s.declare binding.1 binding.2) s.push

end Scope

end Easel
