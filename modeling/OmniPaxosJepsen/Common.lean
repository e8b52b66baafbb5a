import Mathlib.Data.List.AList

namespace OmniPaxosJepsen.Common

abbrev CommandId := Nat
abbrev ClientId := UInt64
abbrev NodeId := UInt64
abbrev Timestamp := Int

inductive KVCommand where
  | put (key value : String)
  | delete (key : String)
  | get (key : String)
  deriving DecidableEq

structure Command where
  clientId : ClientId
  coordinatorId : NodeId
  id : CommandId
  kvCmd : KVCommand
  deriving DecidableEq

inductive ClientMessage where
  | append (id : CommandId) (kvCmd : KVCommand)
  deriving DecidableEq

inductive ServerMessage where
  | write (id : CommandId)
  | read (id : CommandId) (value : Option String)
  | startSignal (startTime : Timestamp)
  deriving DecidableEq

/-- `unimplemented!()` for a start signal. -/
def ServerMessage.commandId : ServerMessage → Option CommandId
  | .write id => some id
  | .read id _ => some id
  | .startSignal _ => none

abbrev HashMap := AList (fun _ : String => String)

/-- The order in which a hash map is iterated: some order of its entries. -/
structure IterOrder (α : Type) where
  order : List α → List α
  perm : ∀ l, (order l).Perm l

def IterOrder.reverse {α : Type} : IterOrder α := ⟨List.reverse, List.reverse_perm⟩

structure Database where
  db : HashMap
  deriving DecidableEq

def Database.new : Database := ⟨∅⟩

/-- The database afterwards, and for a `Get` what was read. -/
def Database.handleCommand (self : Database) : KVCommand → Database × Option (Option String)
  | .put key value => (⟨self.db.insert key value⟩, none)
  | .delete key => (⟨self.db.erase key⟩, none)
  | .get key => (self, some (self.db.lookup key))

def Database.replay (self : Database) (log : List Command) : Database :=
  log.foldl (fun database e => (database.handleCommand e.kvCmd).1) self

structure KVSnapshot where
  snapshotted : HashMap
  deletedKeys : List String

namespace KVSnapshot

def record (self : KVSnapshot) (e : Command) : KVSnapshot :=
  match e.kvCmd with
  | .put key value => { self with snapshotted := self.snapshotted.insert key value }
  | .delete key =>
    match self.snapshotted.extract key with
    -- the key was not in the snapshot
    | (none, rest) => ⟨rest, self.deletedKeys ++ [key]⟩
    | (some _, rest) => ⟨rest, self.deletedKeys⟩
  | .get _ => self

def create (entries : List Command) : KVSnapshot :=
  let built := entries.foldl record ⟨∅, []⟩
  -- `retain`: leave out the keys that were put back
  { built with deletedKeys := built.deletedKeys.filter (fun k => k ∉ built.snapshotted) }

def merge (iter : IterOrder (Σ _ : String, String)) (self delta : KVSnapshot) : KVSnapshot :=
  let put := (iter.order delta.snapshotted.entries).foldl (fun m e => m.insert e.1 e.2)
    self.snapshotted
  { snapshotted := delta.deletedKeys.foldl (fun m k => m.erase k) put
    deletedKeys := [] }

end KVSnapshot

end OmniPaxosJepsen.Common
