import Roster.Registry.Stage

/-! What a program holds of its registries. Every `subscribe` returns a handle. Unsubscribing uses the handle up, and dropping
it leaves the subscriber alone. A handle does not keep its registry alive: when the last reference to a registry is gone the
registry is released, and the handles left of it end nothing any more. -/
namespace Roster.Registry

/-- What `subscribe` returned: a registry and the subscriber in it, if the registry was open. -/
structure Handle where
  registry : Nat
  subscriber : Option Nat
  /-- Neither used up nor dropped. -/
  held : Bool := true
  deriving DecidableEq

structure Program where
  stage : Stage := {}
  /-- A handle is known by its position. One that is gone keeps its place. -/
  handles : List Handle := []
  released : List Nat := []

inductive Act
  | move (m : Move)
  | unsubscribe (handle : Nat)
  | drop (handle : Nat)
  /-- The last reference to a registry goes. -/
  | release (registry : Nat)
  deriving DecidableEq

def Frame.registry : Frame → Nat
  | .fanout i _ _ | .callback i _ => i

def Reply.subscriber? : Reply → Option Nat
  | .handle subscriber => subscriber
  | _ => none

namespace Program

/-- Subscribers are ended through their handles only, and nothing is done to a registry without a reference to it. -/
def allows (p : Program) : Move → Bool
  | .perform _ (.unsubscribe _) => false
  | .perform i _ => !p.released.contains i
  | _ => true

/-- The handle a move returns. The program has it at once, although a subscription only returns after its first callback. -/
def issued (s : Stage) : Move → List Handle
  | .perform i (.subscribe filter) => [{
      registry := i
      subscriber := ((s.registries.getD i {}).subscribe filter).reply.subscriber? }]
  | _ => []

/-- The handle at a position, while the program has it. -/
def held? (p : Program) (handle : Nat) : Option Handle := p.handles[handle]?.filter (·.held)

def spend (p : Program) (handle : Nat) : Program :=
  { p with handles := p.handles.modify handle fun h => { h with held := false } }

/-- The subscribers of a registry, as long as there is a way to it. -/
def audience (p : Program) (i : Nat) : List Subscriber :=
  if p.released.contains i then [] else (p.stage.registries.getD i {}).audience

def step (p : Program) : Act → Option Program
  | .move m =>
    if p.allows m then (p.stage.step m).map fun stage => { p with stage, handles := p.handles ++ issued p.stage m }
    else none
  | .unsubscribe handle =>
    match p.stage.idle, p.held? handle with
    | true, some h =>
      match h.subscriber, p.released.contains h.registry with
      | some n, false =>
        (p.stage.step (.perform h.registry (.unsubscribe n))).map fun stage => { p.spend handle with stage }
      | _, _ => some (p.spend handle)
    | _, _ => none
  | .drop handle => if p.stage.idle && (p.held? handle).isSome then some (p.spend handle) else none
  | .release i =>
    -- An operation in progress refers to its registry, and so do the callbacks in it.
    if p.stage.idle && i < p.stage.registries.length && !p.released.contains i && p.stage.stack.all (·.registry ≠ i) then
      some { p with released := i :: p.released }
    else none

/-- Several acts, none of which is impossible. -/
def run (p : Program) (acts : List Act) : Option Program := acts.foldlM step p

end Program

end Roster.Registry
