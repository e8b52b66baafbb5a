import OmniPaxosJepsen.Common

namespace OmniPaxosJepsen.ClientLoop

open Common

structure RequestInterval where
  durationSec : Nat
  requestsPerSec : Nat
  deriving DecidableEq

def RequestInterval.getIntervalDuration (self : RequestInterval) : Nat := 1000 * self.durationSec

/-- The assertion that the delay is not zero is where the client panics. -/
def RequestInterval.getRequestDelay (self : RequestInterval) : Option Nat :=
  if self.requestsPerSec = 0 then some 999999000
  else
    let delayMs := 1000 / self.requestsPerSec
    if delayMs ≠ 0 then some delayMs else none

structure RequestData where
  requestTime : Timestamp
  write : Bool
  responseTime : Option Timestamp
  deriving DecidableEq

structure ClientData where
  requestData : List RequestData
  responseCount : Nat
  deriving DecidableEq

namespace ClientData

def new : ClientData := ⟨[], 0⟩

def newRequest (self : ClientData) (isWrite : Bool) (now : Timestamp) : ClientData :=
  { self with requestData := self.requestData ++ [⟨now, isWrite, none⟩] }

/-- A command id that is no index of a row makes the client panic. -/
def newResponse (self : ClientData) (commandId : CommandId) (now : Timestamp) :
    Option ClientData :=
  if commandId < self.requestData.length then
    some {
      requestData := self.requestData.modify commandId
        (fun data => { data with responseTime := some now })
      responseCount := self.responseCount + 1 }
  else none

def requestCount (self : ClientData) : Nat := self.requestData.length

def toCsv (self : ClientData) : List RequestData := self.requestData

end ClientData

/-- The client in its main loop: `intervals` are those still to come, `requestInterval`
and `nextInterval` the periods of its two timers, and `finished` says that the loop has
been left. -/
structure Client where
  clientData : ClientData
  activeServer : NodeId
  finalRequestCount : Option Nat
  nextRequestId : Nat
  intervals : List RequestInterval
  requestInterval : Nat
  nextInterval : Nat
  finished : Bool
  deriving DecidableEq

inductive Event where
  | serverMessage (msg : ServerMessage) (now : Timestamp)
  | requestTick (isWrite : Bool) (now : Timestamp)
  | intervalTick
  deriving DecidableEq

/-- `tokio::time::interval` panics for a period of zero. -/
def interval (period : Nat) : Option Nat := if 0 < period then some period else none

namespace Client

/-- The client at the start of its main loop; without intervals it does not get there. -/
def new (serverId : NodeId) : List RequestInterval → Option Client
  | [] => none
  | firstInterval :: intervals => do
    let requestInterval ← interval (← firstInterval.getRequestDelay)
    let nextInterval ← interval firstInterval.getIntervalDuration
    return {
      clientData := ClientData.new
      activeServer := serverId
      finalRequestCount := none
      nextRequestId := 0
      intervals := intervals
      requestInterval := requestInterval
      nextInterval := nextInterval
      finished := false }

def handleServerMessage (self : Client) (msg : ServerMessage) (now : Timestamp) :
    Option Client :=
  match msg with
  | .startSignal _ => some self
  | serverResponse => do
    let cmdId ← serverResponse.commandId
    let clientData ← self.clientData.newResponse cmdId now
    return { self with clientData := clientData }

def sendRequest (self : Client) (isWrite : Bool) (now : Timestamp) : Client × ClientMessage :=
  let key := toString self.nextRequestId
  let cmd := if isWrite then KVCommand.put key key else KVCommand.get key
  let request := ClientMessage.append self.nextRequestId cmd
  ({ self with
      clientData := self.clientData.newRequest isWrite now
      nextRequestId := self.nextRequestId + 1 }, request)

def runFinished (self : Client) : Bool :=
  match self.finalRequestCount with
  | some count => self.clientData.requestCount ≥ count
  | none => false

/-- `if self.run_finished() { break; }`. -/
def breakIfFinished (self : Client) : Client := { self with finished := self.runFinished }

def turn (self : Client) (event : Event) : Option (Client × List ClientMessage) :=
  if self.finished then none
  else
    match event with
    | .serverMessage msg now => do
      let self ← self.handleServerMessage msg now
      return (self.breakIfFinished, [])
    | .requestTick isWrite now =>
      if self.finalRequestCount.isNone then
        let (self, request) := self.sendRequest isWrite now
        some (self, [request])
      else none
    | .intervalTick =>
      match self.intervals with
      | newInterval :: intervals => do
        let nextInterval ← interval newInterval.getIntervalDuration
        let requestInterval ← interval (← newInterval.getRequestDelay)
        return ({ self with
          intervals := intervals
          requestInterval := requestInterval
          nextInterval := nextInterval }, [])
      | [] =>
        some ({ self with
          finalRequestCount := some self.clientData.requestCount }.breakIfFinished, [])

def step (self : Client) (event : Event) : Option Client := (self.turn event).map Prod.fst

end Client

end OmniPaxosJepsen.ClientLoop
