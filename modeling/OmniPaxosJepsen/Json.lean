import Mathlib.Data.Rat.Defs

namespace OmniPaxosJepsen.Json

/-- JSON numbers as `serde_json` keeps them. A float is given by its numeric
value: there are no NaNs in JSON, and the two zeros compare equal. -/
inductive Number where
  | posInt (n : Nat)
  | negInt (n : Int)
  | float (x : Rat)
  deriving DecidableEq

/-- `serde_json::Value`. The fields of an object stand in the order of the map. -/
inductive Value where
  | null
  | bool (b : Bool)
  | number (n : Number)
  | string (s : String)
  | array (xs : List Value)
  | object (fields : List (String × Value))

namespace Value

mutual

def beq : Value → Value → Bool
  | .null, .null => true
  | .bool a, .bool b => a == b
  | .number a, .number b => a == b
  | .string a, .string b => a == b
  | .array xs, .array ys => beqList xs ys
  | .object xs, .object ys => beqFields xs ys
  | _, _ => false

def beqList : List Value → List Value → Bool
  | [], [] => true
  | x :: xs, y :: ys => beq x y && beqList xs ys
  | _, _ => false

def beqFields : List (String × Value) → List (String × Value) → Bool
  | [], [] => true
  | (k, x) :: xs, (l, y) :: ys => k == l && beq x y && beqFields xs ys
  | _, _ => false

end

mutual

theorem beq_iff (a b : Value) : beq a b = true ↔ a = b := by
  cases a <;> cases b <;> simp [beq]
  · exact beqList_iff _ _
  · exact beqFields_iff _ _

theorem beqList_iff (xs ys : List Value) : beqList xs ys = true ↔ xs = ys := by
  match xs, ys with
  | [], [] | [], _ :: _ | _ :: _, [] => simp [beqList]
  | x :: xs, y :: ys => simp [beqList, beq_iff x y, beqList_iff xs ys]

theorem beqFields_iff (xs ys : List (String × Value)) : beqFields xs ys = true ↔ xs = ys := by
  match xs, ys with
  | [], [] | [], _ :: _ | _ :: _, [] => simp [beqFields]
  | (k, x) :: xs, (l, y) :: ys =>
    simp [beqFields, beq_iff x y, beqFields_iff xs ys, and_assoc]

end

instance : DecidableEq Value := fun a b => decidable_of_iff _ (beq_iff a b)

/-- `value[key]`: anything but a present field of an object reads as null. -/
def get (v : Value) (key : String) : Value :=
  match v with
  | .object fields => (fields.lookup key).getD .null
  | _ => .null

def asStr : Value → Option String
  | .string s => some s
  | _ => none

def asU64 : Value → Option Nat
  | .number (.posInt n) => some n
  | _ => none

def u64 (n : Nat) : Value := .number (.posInt n)

@[simp] theorem asStr_string (s : String) : (Value.string s).asStr = some s := rfl

@[simp] theorem asU64_u64 (n : Nat) : (u64 n).asU64 = some n := rfl

end Value

end OmniPaxosJepsen.Json
