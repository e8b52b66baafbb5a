import OmniPaxosJepsen.Ballots
import OmniPaxosJepsen.Cluster
import OmniPaxosJepsen.Runs

namespace OmniPaxosJepsen.Failures

open Json KvSpec Node Cluster Runs

/-- The nodes with their OmniPaxos storages. `appended` holds the entries taken by
`append`, `dead` is the node that is killed and not restarted yet. -/
structure FaultyState where
  nodes : String → MaelstromNode
  ballots : Ballots.State String MaelstromCommand
  opDecidedIdx : String → Nat
  appended : List MaelstromCommand
  inFlight : List (String × MaelstromCommand)
  dead : Option String
  history : List Observed

def init : FaultyState :=
  { nodes := MaelstromNode.new, ballots := Ballots.init, opDecidedIdx := fun _ => 0, appended := [],
    inFlight := [], dead := none, history := [] }

inductive Action where
  | clientRequest (node : String) (append : AppendResult) (msg : Value)
  | deliver (i : Nat) (append : AppendResult)
  | drop (i : Nat)
  | tick (node : String) (append : Nat → AppendResult)
  | elect (ballot : Nat) (voters : Finset String) (best : String)
  | append (ballot i : Nat)
  | accept (node : String) (ballot length : Nat)
  | decide (ballot length : Nat)
  | advance (node : String) (idx : Nat)
  | process (node : String)
  | kill (node : String)
  | restart (node : String)

def FaultyState.perform (s : FaultyState) (node : String) (r : MaelstromNode × Effects) :
    FaultyState :=
  { s with
    nodes := Function.update s.nodes node r.1
    appended := s.appended ++ r.2.appended
    inFlight := s.inFlight ++ forwards r.2.sent }

def FaultyState.readDecidedSuffix (s : FaultyState) (node : String) (i : Nat) :
    Option (List LogEntry) :=
  some ((((s.ballots.storages node).log.take (s.opDecidedIdx node)).drop i).map LogEntry.decided)

def FaultyState.omnipaxos (s : FaultyState) (members : Finset String)
    (a : Ballots.Action String MaelstromCommand) : Option FaultyState :=
  (Ballots.step members s.ballots a).map (fun ballots => { s with ballots := ballots })

/-- `MaelstromNode::new` with a `MemoryStorage` that holds nothing. -/
def FaultyState.rebuild (s : FaultyState) (node : String) : FaultyState :=
  { s with
    nodes := Function.update s.nodes node (MaelstromNode.new node)
    opDecidedIdx := Function.update s.opDecidedIdx node 0
    dead := none }

def step (members : Finset String) (s : FaultyState) : Action → Option FaultyState
  | .clientRequest node append msg =>
    if node ∈ members ∧ s.dead ≠ some node ∧ isClientRequest msg = true then
      ((s.nodes node).handleClientRequest append msg).map (fun r =>
        { s.perform node r with history := s.history ++ [.request node msg] })
    else none
  | .deliver i append =>
    (s.inFlight[i]?).bind (fun m =>
      if m.1 ∈ members ∧ s.dead ≠ some m.1 then
        some ({ s with inFlight := s.inFlight.eraseIdx i }.perform m.1
          ((s.nodes m.1).handleForwardedRequest append m.2))
      else none)
  | .drop i => (s.inFlight[i]?).map (fun _ => { s with inFlight := s.inFlight.eraseIdx i })
  | .tick node append =>
    if node ∈ members ∧ s.dead ≠ some node then
      some (s.perform node ((s.nodes node).tick append))
    else none
  | .elect ballot voters best =>
    if ∀ i ∈ voters, s.dead ≠ some i then s.omnipaxos members (.elect ballot voters best) else none
  | .append ballot i => (s.appended[i]?).bind (fun cmd => s.omnipaxos members (.append ballot cmd))
  | .accept node ballot length =>
    if s.dead ≠ some node then s.omnipaxos members (.accept node ballot length) else none
  | .decide ballot length => s.omnipaxos members (.decide ballot length)
  | .advance node idx =>
    if s.dead ≠ some node ∧ s.opDecidedIdx node ≤ idx ∧ s.ballots.Learned node idx then
      some { s with opDecidedIdx := Function.update s.opDecidedIdx node idx }
    else none
  | .process node =>
    if node ∈ members ∧ s.dead ≠ some node then
      ((s.nodes node).processDecidedEntries (s.opDecidedIdx node) (s.readDecidedSuffix node)).map
        (fun r => { s with
          nodes := Function.update s.nodes node r.1
          history := s.history ++ r.2.map (Observed.response node) })
    else none
  | .kill node => if node ∈ members ∧ s.dead = none then some { s with dead := some node } else none
  | .restart node =>
    if s.dead = some node then
      (s.omnipaxos members (.reset node)).map (fun t => t.rebuild node)
    else none

/-- Steps that build a node anew only when the others can spare it. -/
def sparingStep (members : Finset String) (s : FaultyState) (a : Action) : Option FaultyState :=
  match a with
  | .restart node =>
    if Ballots.Spared members s.ballots node then step members s (.restart node) else none
  | a => step members s a

def write : List Action :=
  [.elect 1 {"n0", "n1", "n2"} "n0", .clientRequest "n0" .ok (message "c1" "n0"
      [("type", .string "write"), ("msg_id", .u64 1), ("key", .string "x"), ("value", .u64 5)]),
    .append 1 0, .accept "n0" 1 1, .accept "n1" 1 1, .decide 1 1, .advance "n0" 1, .process "n0"]

end OmniPaxosJepsen.Failures
