import Roster.Link

/-! Scripted use of a link: the calls, how the server answers each of them, and what is seen of it. -/
namespace Roster.Link

namespace Script

inductive Reply
  | done
  | failed (s : Status)
  /-- Never comes; the request times out. -/
  | hangs

def Reply.status : Reply → Option Status
  | done => none
  | failed s => some s
  | hangs => some ⟨.cancelled, "Timeout expired"⟩

inductive Step
  | call (request : Request) (reply : Reply)
  | subscribe (known : Keyed Version) (reply : Reply) (updates : Updates)
  | close
  /-- The outcomes of the next checks, as long as the probe checks. -/
  | probes (outcomes : List Bool)

inductive Result
  | answered (r : Except Failure Unit)
  | items (items : List Item)
  | closed
  /-- The connectivity after each check, and whether the probe then went on. -/
  | probed (checks : List (Connectivity × Bool))

/-- What is seen of a step: its result, the message that was sent, and the connectivity after it. -/
structure Report where
  result : Result
  sent : Option Wire.Message
  connectivity : Connectivity

def move (l : Link) (m : Move) : Link := (l.step m).getD l

def answeredWith (l : Link) (reply : Reply) : Link × Except Failure Unit :=
  (move l (.answered reply.status),
    match reply.status with
    | none => .ok ()
    | some s => .error (.ofStatus s))

def check (l : Link) (checks : List (Connectivity × Bool)) : List Bool → Link × List (Connectivity × Bool)
  | [] => (l, checks.reverse)
  | passed :: rest =>
    match l.step (.probed passed) with
    | none => (l, checks.reverse)
    | some l => check l ((l.connectivity, l.probe.running) :: checks) rest

def step (l : Link) : Step → Link × Report
  | .call request reply =>
    let (l, r) := answeredWith l reply
    (l, ⟨.answered r, request.message l.clientId, l.connectivity⟩)
  | .subscribe known reply updates =>
    let sent := (Request.subscribe known).message l.clientId
    let (l, r) := answeredWith l reply
    match r with
    | .error f => (l, ⟨.answered (.error f), sent, l.connectivity⟩)
    | .ok _ =>
      let (items, l, _) := l.takeAll updates
      (l, ⟨.items items, sent, l.connectivity⟩)
  | .close =>
    let l := [Move.close, .stopped, .closed].foldl move l
    (l, ⟨.closed, none, l.connectivity⟩)
  | .probes outcomes =>
    let (l, checks) := check l [] outcomes
    (l, ⟨.probed checks, none, l.connectivity⟩)

def reports (l : Link) (steps : List Step) : List Report :=
  let (_, reports) := steps.foldl (fun (l, reports) x =>
    let (l, r) := step l x
    (l, r :: reports)) (l, [])
  reports.reverse

end Script

end Roster.Link
