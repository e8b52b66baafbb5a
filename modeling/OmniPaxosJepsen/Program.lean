import OmniPaxosJepsen.EventLoop

namespace OmniPaxosJepsen.Program

open Json Node Checker Cluster Common Routing EventLoop
open NodeNames (Outgoing sendOutgoingMessages)

/-- A node process that has answered its `init` message. `node` is `none` once it has
panicked; `busy` is set between the handling of a line or a tick and what the event loop does
afterwards; `handled` counts the lines of its input that it has read; `pipe` holds the lines
that it has written and the harness's reader thread has not read. `opDecidedIdx` is the length
of the prefix of the log that its OmniPaxos knows to be decided. -/
structure Process where
  node : Option MaelstromNode
  busy : Bool
  handled : Nat
  pipe : List (Option Value)
  opDecidedIdx : Nat

/-- The harness has read the answer to its `init` message, unless that comes `late`. -/
def Process.spawn (lib : Library) (nodeId : String) (nodeIds : List String) (late : Bool) :
    Process :=
  let started := startup lib (initMessage nodeId nodeIds)
  { node := started.bind Prod.snd
    busy := false
    handled := 1
    pipe := if late then started.toList.map (fun answer => some answer.1) else []
    opDecidedIdx := 0 }

/-- The harness, its node processes, and what OmniPaxos promises as long as every node keeps its
storage: one growing decided log. `clientIdx` is the number of clients that have had their turn in
a turn of `run_nemesis`, and `none` between two turns. `appended` holds the entries taken by
`append` that are not in the log (yet). `forwarded` and `restarted` are not part of the program:
they remember the commands that nodes have sent in `forward` messages, and whether a node was
started anew, with an empty storage. -/
structure TestRun where
  harness : TestHarness
  clientIdx : Option Nat
  processes : String → Process
  log : List MaelstromCommand
  appended : List MaelstromCommand
  forwarded : List MaelstromCommand
  restarted : Bool

def init (lib : Library) (nodeCount : Nat) : TestRun :=
  { harness := TestHarness.new nodeCount
    clientIdx := none
    processes := fun nodeId =>
      Process.spawn lib nodeId (TestHarness.new nodeCount).nodeIds false
    log := [], appended := [], forwarded := [], restarted := false }

namespace TestRun

def setProcess (s : TestRun) (nodeId : String) (process : Process) : TestRun :=
  { s with processes := Function.update s.processes nodeId process }

def running (s : TestRun) (nodeId : String) (busy : Bool) : Option MaelstromNode :=
  if nodeId ∈ s.harness.nodeIds ∧ (s.harness.nodes nodeId).alive = true ∧
      (s.processes nodeId).busy = busy then (s.processes nodeId).node
  else none

def perform (lib : Library) (s : TestRun) (nodeId : String) (process : Process)
    (r : MaelstromNode × Effects) : TestRun :=
  { s.setProcess nodeId { process with
      node := some r.1
      busy := true
      pipe := process.pipe ++ r.2.sent.map (fun line => some (toValue lib line)) } with
    appended := s.appended ++ r.2.appended
    forwarded := s.forwarded ++ (forwards r.2.sent).map Prod.snd }

def takeLine (lib : Library) (s : TestRun) (nodeId : String) (append : AppendResult) :
    Option TestRun := do
  let process := s.processes nodeId
  let node ← s.running nodeId false
  let msg ← (s.harness.nodes nodeId).stdin[process.handled]?
  match handleLine lib node append msg with
  | none => some (s.setProcess nodeId { process with node := none })
  | some r => some (s.perform lib nodeId { process with handled := process.handled + 1 } r)

def takeTick (lib : Library) (s : TestRun) (nodeId : String) (append : Nat → AppendResult) :
    Option TestRun := do
  let node ← s.running nodeId false
  return s.perform lib nodeId (s.processes nodeId) (node.tick append)

/-- After a line or a tick, the event loop sends the messages of OmniPaxos and applies what is
decided. -/
def sendAndProcess (lib : Library) (s : TestRun) (nodeId : String) (outgoing : List Outgoing)
    (newDecidedIdx : Nat) (readDecidedSuffix : Nat → Option (List LogEntry)) :
    Option TestRun := do
  let node ← s.running nodeId true
  let process := s.processes nodeId
  if outgoing.all (fun msg => lib.isMessage msg.data) ∧ process.opDecidedIdx ≤ newDecidedIdx then
    let process := { process with
      busy := false
      pipe := process.pipe ++ (sendOutgoingMessages node outgoing).map some
      opDecidedIdx := newDecidedIdx }
    match node.processDecidedEntries newDecidedIdx readDecidedSuffix with
    | none => some (s.setProcess nodeId { process with node := none })
    | some (node, responses) => some (s.setProcess nodeId { process with
        node := some node, pipe := process.pipe ++ responses.map some })
  else none

def finish (lib : Library) (s : TestRun) (nodeId : String) (outgoing : List Outgoing)
    (newDecidedIdx : Nat) : Option TestRun :=
  if s.restarted = false ∧ newDecidedIdx ≤ s.log.length then
    s.sendAndProcess lib nodeId outgoing newDecidedIdx
      (fun i => some (((s.log.take newDecidedIdx).drop i).map LogEntry.decided))
  else none

/-- Once a node has lost its storage OmniPaxos may report anything. -/
def finishAnew (lib : Library) (s : TestRun) (nodeId : String) (outgoing : List Outgoing)
    (newDecidedIdx : Nat) (decided : List MaelstromCommand) : Option TestRun :=
  if s.restarted then
    s.sendAndProcess lib nodeId outgoing newDecidedIdx
      (fun _ => some (decided.map LogEntry.decided))
  else none

def readLine (s : TestRun) (nodeId : String) : Option TestRun :=
  match (s.processes nodeId).pipe with
  | [] => none
  | line :: pipe =>
    some { s.setProcess nodeId { s.processes nodeId with pipe := pipe } with
      harness := { s.harness with
        nodes := Function.update s.harness.nodes nodeId { s.harness.nodes nodeId with
          stdoutRx := (s.harness.nodes nodeId).stdoutRx ++ [line] } } }

/-- The clock that `elapsed` reads never goes back. -/
def clocked (s : TestRun) : Option TestRun :=
  if (s.harness.history.map HistoryEntry.timeNs).Pairwise (· ≤ ·) then some s else none

def drain (s : TestRun) (order : IterOrder String) (clock : Nat → U128) : Option TestRun :=
  if s.harness.phase = .testing ∧ s.clientIdx = none then
    let (harness, allMsgs) := s.harness.drainAllMessages order
    let (harness, clientResponses) := harness.deliverMessages allMsgs
    let harness := harness.recordResponses (clientResponses.zipIdx.map (fun m => (m.1, clock m.2)))
    { s with harness := harness, clientIdx := some 0 }.clocked
  else none

def generate (s : TestRun) (choice : Choice) : Option TestRun := do
  let clientIdx ← s.clientIdx
  let harness ← s.harness.generateOne clientIdx choice
  { s with harness := harness, clientIdx := some (clientIdx + 1) }.clocked

/-- A process that was dead and is alive is a new one. -/
def anew (s : TestRun) (harness : TestHarness) (nodeId : String) : Bool :=
  !(s.harness.nodes nodeId).alive && (harness.nodes nodeId).alive

def respawn (lib : Library) (s : TestRun) (harness : TestHarness) (late : String → Bool) :
    TestRun :=
  { s with
    harness := harness
    processes := fun nodeId =>
      if s.anew harness nodeId then Process.spawn lib nodeId harness.nodeIds (late nodeId)
      else s.processes nodeId
    restarted := s.restarted || harness.nodeIds.any (s.anew harness) }

/-- The last part of a turn of `run_nemesis`. A node that is started anew may answer `late`, when
the harness has stopped waiting for it. -/
def nemesis (lib : Library) (nemesisType : String) (s : TestRun)
    (choice : Option (NemesisChoice × (String → Bool))) : Option TestRun := do
  let _ ← s.clientIdx
  if nemesisType = "none" then some { s with clientIdx := none }
  else
    match choice with
    | none => some { s with clientIdx := none }
    | some (choice, late) =>
      let harness ← s.harness.runNemesis nemesisType choice
      return { s.respawn lib harness late with clientIdx := none }

end TestRun

/-- `cut` is a process killed while it was writing: of the lines in its pipe the last are
missing or broken. -/
inductive Action where
  | line (nodeId : String) (append : AppendResult)
  | tick (nodeId : String) (append : Nat → AppendResult)
  | finish (nodeId : String) (outgoing : List Outgoing) (newDecidedIdx : Nat)
  | finishAnew (nodeId : String) (outgoing : List Outgoing) (newDecidedIdx : Nat)
    (decided : List MaelstromCommand)
  | decide (i : Nat)
  | read (nodeId : String)
  | cut (nodeId : String) (kept : Nat) (broken : Bool)
  | route (order : IterOrder String)
  | drain (order : IterOrder String) (clock : Nat → U128)
  | generate (choice : Choice)
  | nemesis (choice : Option (NemesisChoice × (String → Bool)))
  | stop

def step (lib : Library) (nemesisType : String) (s : TestRun) : Action → Option TestRun
  | .line nodeId append => s.takeLine lib nodeId append
  | .tick nodeId append => s.takeTick lib nodeId append
  | .finish nodeId outgoing newDecidedIdx => s.finish lib nodeId outgoing newDecidedIdx
  | .finishAnew nodeId outgoing newDecidedIdx decided =>
    s.finishAnew lib nodeId outgoing newDecidedIdx decided
  | .decide i =>
    s.appended[i]?.map (fun cmd =>
      { s with log := s.log ++ [cmd], appended := s.appended.eraseIdx i })
  | .read nodeId => s.readLine nodeId
  | .cut nodeId kept broken =>
    if nodeId ∈ s.harness.nodeIds ∧ (s.harness.nodes nodeId).alive = false then
      some (s.setProcess nodeId { s.processes nodeId with
        pipe := (s.processes nodeId).pipe.take kept ++ if broken then [none] else [] })
    else none
  | .route order =>
    (Routing.step nemesisType s.harness (.route order)).map
      (fun harness => { s with harness := harness })
  | .drain order clock => s.drain order clock
  | .generate choice => s.generate choice
  | .nemesis choice => s.nemesis lib nemesisType choice
  | .stop =>
    if s.clientIdx = none then
      (Routing.step nemesisType s.harness .stop).map (fun harness => { s with harness := harness })
    else none

end OmniPaxosJepsen.Program
