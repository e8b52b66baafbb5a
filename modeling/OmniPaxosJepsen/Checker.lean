import Mathlib.Algebra.Group.Nat.Defs
import Mathlib.Order.Fin.Basic
import OmniPaxosJepsen.Node

namespace OmniPaxosJepsen.Checker

open Json Node

abbrev U128 := Fin (2 ^ 128)

instance (n : Nat) : OfNat U128 n := ⟨Fin.ofNat (2 ^ 128) n⟩

def u128Max : U128 := ⟨2 ^ 128 - 1, by decide⟩

structure HistoryEntry where
  id : Nat
  eventType : String
  clientId : Nat
  op : String
  key : String
  value : Option Value
  casFrom : Option Value
  casTo : Option Value
  timeNs : U128
  deriving DecidableEq

structure LinearOp where
  id : Nat
  opType : String
  key : String
  value : Option Value
  result : Option Value
  casFrom : Option Value
  casTo : Option Value
  casOk : Bool
  invokeTime : U128
  completeTime : U128
  deriving DecidableEq, Inhabited

structure KVModel where
  data : Store

def KVModel.new : KVModel := ⟨emptyStore⟩

/-- `none` is the panic of an `unwrap`: a write without a value, or a compare-and-swap
without both of its values. -/
def KVModel.apply (self : KVModel) (op : LinearOp) : Option (KVModel × Bool) :=
  match op.opType with
  | "write" => do
    let value ← op.value
    return (⟨Function.update self.data op.key (some value)⟩, true)
  | "read" =>
    match self.data op.key, op.result with
    | none, none => some (self, true)
    | some v, some e => some (self, v = e)
    | none, some _ => some (self, false)
    | some _, none => some (self, false)
  | "cas" => do
    let expected ← op.casFrom
    let replacement ← op.casTo
    let current := self.data op.key
    if op.casOk then
      if current = some expected then
        return (⟨Function.update self.data op.key (some replacement)⟩, true)
      else return (self, false)
    else if current = some expected then return (self, false)
    else return (self, true)
  | _ => some (self, false)

structure Pairing where
  ops : List LinearOp
  invocations : Nat → Option HistoryEntry

def Pairing.close (p : Pairing) (entry : HistoryEntry) (result : Option Value) (casOk : Bool)
    (completeTime : U128) : Pairing :=
  match p.invocations entry.id with
  | none => p
  | some invoke =>
    { ops := p.ops ++ [{
        id := entry.id
        opType := invoke.op
        key := invoke.key
        value := invoke.value
        result := result
        casFrom := invoke.casFrom
        casTo := invoke.casTo
        casOk := casOk
        invokeTime := invoke.timeNs
        completeTime := completeTime }]
      invocations := Function.update p.invocations entry.id none }

def Pairing.add (p : Pairing) (entry : HistoryEntry) : Pairing :=
  match entry.eventType with
  | "invoke" => { p with invocations := Function.update p.invocations entry.id (some entry) }
  | "ok" => p.close entry entry.value true entry.timeNs
  | "fail" => p.close entry entry.value false entry.timeNs
  | "info" => p.close entry none true u128Max
  | _ => p

def pairUp (history : List HistoryEntry) : List LinearOp :=
  (history.foldl Pairing.add ⟨[], fun _ => none⟩).ops

/-- The backtracking search. Past depth 100 it gives up and accepts. -/
def tryLinearize (remaining : List LinearOp) (model : KVModel) (depth : Nat) : Option Bool :=
  if remaining.isEmpty then some true
  else if depth > 100 then some true
  else do
    let minComplete ← (remaining.map LinearOp.completeTime).min?
    (List.finRange remaining.length).anyM (fun i => do
      let op := remaining.get i
      if op.invokeTime ≤ minComplete then
        let (newModel, ok) ← model.apply op
        if ok then tryLinearize (remaining.eraseIdx i) newModel (depth + 1) else return false
      else return false)
termination_by remaining.length
decreasing_by
  have hi := i.isLt
  rw [List.length_eraseIdx_of_lt hi]
  omega

/-- `by_key.entry(op.key).or_default().push(op)`. -/
def pushByKey (op : LinearOp) : List (String × List LinearOp) → List (String × List LinearOp)
  | [] => [(op.key, [op])]
  | (key, ops) :: rest =>
    if key = op.key then (key, ops ++ [op]) :: rest else (key, ops) :: pushByKey op rest

def groupByKey (ops : List LinearOp) : List (String × List LinearOp) :=
  ops.foldl (fun byKey op => pushByKey op byKey) []

/-- The order in which a hash map is iterated: some order of its entries. -/
structure IterOrder where
  order : List (String × List LinearOp) → List (String × List LinearOp)
  perm : ∀ l, (order l).Perm l

def checkKeys : List (String × List LinearOp) → Option (Except String Unit)
  | [] => some (.ok ())
  | (key, keyOps) :: rest => do
    if ← tryLinearize keyOps KVModel.new 0 then checkKeys rest
    else return .error ("Linearizability violation found for key '" ++ key ++ "' with " ++
      toString keyOps.length ++ " operations")

def checkLinearizability (iter : IterOrder) (history : List HistoryEntry) :
    Option (Except String Unit) :=
  let ops := (pairUp history).mergeSort (fun a b => a.invokeTime ≤ b.invokeTime)
  if ops.isEmpty then some (.ok ()) else checkKeys (iter.order (groupByKey ops))

end OmniPaxosJepsen.Checker
