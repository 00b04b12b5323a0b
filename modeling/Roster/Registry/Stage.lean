import Roster.Registry

/-! Registries with callbacks that act on them. Operations and callbacks nest: a callback running on top of the stack
may begin any operation, whose fan-out then runs before the callback goes on. A run is a list of moves; `Stage.step`
says which moves are possible. -/
namespace Roster.Registry

/-- What is in progress, innermost first. -/
inductive Frame
  /-- A fan-out: where in the history the operation stands that it announces, and the subscribers not reached yet. -/
  | fanout (registry cause : Nat) (due : List Subscriber)
  | callback (registry subscriber : Nat)
  deriving DecidableEq

inductive Event
  | performed (registry : Nat) (op : Op) (reply : Reply) (due : List Subscriber)
  /-- `cause` is the number of events before the operation announced. -/
  | began (registry subscriber cause : Nat) (members : List Member)
  /-- A fan-out reached a subscriber that was gone by then. -/
  | passedOver (registry subscriber cause : Nat)
  | left (registry subscriber : Nat)
  deriving DecidableEq

structure Stage where
  /-- A registry is known by its position. -/
  registries : List Registry := []
  stack : List Frame := []
  /-- Newest first. -/
  history : List Event := []

inductive Move
  /-- A new, empty registry comes into being. -/
  | found
  | perform (registry : Nat) (op : Op)
  /-- The innermost fan-out turns to one of the subscribers it has not reached. -/
  | reach (subscriber : Nat)
  /-- The innermost callback returns. -/
  | leave
  deriving DecidableEq

/-- A program can ask for an operation. To unsubscribe it takes the handle of a subscriber made before. -/
def Op.permitted (r : Registry) : Op → Bool
  | .unsubscribe subscriber => 0 < subscriber && subscriber ≤ r.lastSubscriber
  | _ => true

namespace Stage

/-- Code outside the registries runs: either nothing is in progress, or a callback is innermost. -/
def idle (s : Stage) : Bool :=
  match s.stack with
  | [] | .callback _ _ :: _ => true
  | .fanout _ _ _ :: _ => false

def pushDue (registry cause : Nat) (due : List Subscriber) (stack : List Frame) : List Frame :=
  if due.isEmpty then stack else .fanout registry cause due :: stack

def step (s : Stage) : Move → Option Stage
  | .found => if s.idle then some { s with registries := s.registries ++ [{}] } else none
  | .perform i op =>
    match s.idle, s.registries[i]? with
    | true, some r =>
      if op.permitted r then
        let e := r.perform op
        some {
          registries := s.registries.set i e.registry
          stack := pushDue i s.history.length e.due s.stack
          history := .performed i op e.reply e.due :: s.history }
      else none
    | _, _ => none
  | .reach id =>
    match s.stack with
    | .fanout i cause due :: rest =>
      match due.find? (·.id = id), s.registries[i]? with
      | some sub, some r =>
        let stack := pushDue i cause (due.erase sub) rest
        if id ∈ r.silenced then some { s with stack, history := .passedOver i id cause :: s.history }
        else
          some { s with
            stack := .callback i id :: stack
            history := .began i id cause (r.members sub.filter) :: s.history }
      | _, _ => none
    | _ => none
  | .leave =>
    match s.stack with
    | .callback i id :: rest => some { s with stack := rest, history := .left i id :: s.history }
    | _ => none

/-- Several moves, none of which is impossible. -/
def run (s : Stage) (moves : List Move) : Option Stage := moves.foldlM step s

end Stage

end Roster.Registry
