import Mathlib.Logic.Function.Basic
import TcpProxy.Lib.Run
import TcpProxy.Utils

namespace TcpProxy.HashMap

abbrev Key := List UInt8

-- The value of an int expression; without one it has overflowed.
def checkedInt (x : Int) : Option Int := if -2^31 ≤ x ∧ x < 2^31 then some x else none

def hashStep (code : Int) (c : UInt8) : Option Int := do
  let product ← checkedInt (code*13)
  let sum ← checkedInt (product + c.toInt8.toInt)
  checkedInt (sum.tmod 31636373)

-- strlen is stored in an int, which ends the loop of a longer key too early.
def defaultHashingFunction (key : Key) : Option Int :=
  (key.take (toInt32 key.length).toNat).foldlM hashStep 0

-- `prev` is an address in the array of buckets: it is only ever given the
-- result of find_head, or the prev of another node.
structure Node (Value : Type) where
  key : Key
  value : Option Value
  prev : Int
  next : Option Nat
deriving DecidableEq, Repr

-- A pointer to a node is the number of its allocation. `memory` has the nodes
-- that malloc has handed out and free has not taken back.
structure Table (Value : Type) where
  bucketsSize : Int
  hashingFunction : Key → Option Int
  memory : Nat → Option (Node Value)
  allocated : Nat
  buckets : Int → Option Nat

variable {Value : Type}

def newHashMap (bucketsSize : Int) (hashingFunction : Option (Key → Option Int)) : Table Value :=
  ⟨bucketsSize,hashingFunction.getD defaultHashingFunction,fun _ => none,0,fun _ => none⟩

def Table.InRange (t : Table Value) (i : Int) : Prop := 0 ≤ i ∧ i < t.bucketsSize

instance (t : Table Value) (i : Int) : Decidable (t.InRange i) := inferInstanceAs (Decidable (_ ∧ _))

-- The functions below have no result where the code reads or writes outside
-- of the buckets, through NULL or in a node that is freed.
def findHead (t : Table Value) (key : Key) : Option Int := do
  let code ← t.hashingFunction key
  let i := code.tmod t.bucketsSize
  if t.InRange i then some i else none

-- while (*ptr != NULL). A chain of more nodes than were allocated has a cycle.
def findFrom (t : Table Value) (key : Key) : Nat → Option Nat → Option (Option Nat)
  | _,none => some none
  | 0,some _ => none
  | left+1,some e => do
    let node ← t.memory e
    if key = node.key then some (some e) else findFrom t key left node.next

def findData (t : Table Value) (head : Int) (key : Key) : Option (Option Nat) :=
  findFrom t key t.allocated (t.buckets head)

def Table.setNode (t : Table Value) (e : Nat) (node : Option (Node Value)) : Table Value :=
  {t with memory := Function.update t.memory e node}

def insertHead (t : Table Value) (head : Int) (key : Key) (value : Option Value) : Table Value :=
  {t.setNode t.allocated (some ⟨key,value,head,t.buckets head⟩) with
    allocated := t.allocated+1,
    buckets := Function.update t.buckets head (some t.allocated)}

def exists_ (t : Table Value) (key : Key) : Option Bool := do
  let head ← findHead t key
  let found ← findData t head key
  some found.isSome

def getByKey (t : Table Value) (key : Key) : Option (Option Value) := do
  let head ← findHead t key
  match ← findData t head key with
  | none => some none
  | some e => (t.memory e).map Node.value

def putIfAbsent (t : Table Value) (key : Key) (value : Option Value) : Option (Option Value × Table Value) := do
  let head ← findHead t key
  match ← findData t head key with
  | some e =>
    let node ← t.memory e
    some (node.value,t)
  | none => some (none,insertHead t head key value)

def overwritePut (t : Table Value) (key : Key) (value : Option Value) : Option (Option Value × Table Value) := do
  let head ← findHead t key
  match ← findData t head key with
  | some e =>
    let node ← t.memory e
    some (node.value,t.setNode e (some {node with value := value}))
  | none => some (none,insertHead t head key value)

-- ptr->next is read again after the first assignment, which may have been to
-- the node itself.
def remove (t : Table Value) (key : Key) : Option (Option Value × Table Value) := do
  let head ← findHead t key
  match ← findData t head key with
  | none => some (none,t)
  | some e =>
    let node ← t.memory e
    let first ← t.buckets node.prev
    let front ← t.memory first
    let t := t.setNode first (some {front with next := node.next})
    let node ← t.memory e
    let behind ← node.next
    let back ← t.memory behind
    let t := t.setNode behind (some {back with prev := node.prev})
    let node ← t.memory e
    some (node.value,t.setNode e none)

inductive Operation (Value : Type) where
  | put (key : Key) (value : Option Value)
  | putIfAbsent (key : Key) (value : Option Value)
  | get (key : Key)
  | exists_ (key : Key)
  | remove (key : Key)
deriving DecidableEq, Repr

inductive Answer (Value : Type) where
  | pointer (value : Option Value)
  | truth (found : Bool)
deriving DecidableEq, Repr

def operate (t : Table Value) : Operation Value → Option (Answer Value × Table Value)
  | .put key value => (overwritePut t key value).map fun r => (.pointer r.1,r.2)
  | .putIfAbsent key value => (putIfAbsent t key value).map fun r => (.pointer r.1,r.2)
  | .get key => (getByKey t key).map fun value => (.pointer value,t)
  | .exists_ key => (exists_ t key).map fun found => (.truth found,t)
  | .remove key => (remove t key).map fun r => (.pointer r.1,r.2)

def step (state : Option (Table Value)) (op : Operation Value) : Option (Table Value) :=
  state.bind fun t => (operate t op).map Prod.snd

end TcpProxy.HashMap
