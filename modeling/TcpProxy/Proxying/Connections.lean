import Mathlib.Logic.Function.Basic
import TcpProxy.Utils

namespace TcpProxy.Proxying

structure DbProxyRequest where
  account : Option String
  sn : Int
  channel : Int
deriving DecidableEq, Repr

structure ConnectionInfo where
  connectionId : Int
  clientFd : Int
  serverFd : Int
  clientHandle : Int
  serverHandle : Int
  requestCount : Int
  responseCount : Int
  insertId : Nat
  nthUser : Nat
  bytesSent : Int
  bytesReceived : Int
  started : Timeval
  recent : Timeval
  inChain : Bool
  requestInDb : Option DbProxyRequest
  remoteIp : String
  prev : Option Nat
  next : Option Nat
  attempts : Int
  packetAnalyzerData : Option Nat
deriving Inhabited

-- `memory` is indexed by allocation, and `numberOfAllocation` allocations have
-- been made. `expiringHolder` is the capacity of the snapshot array, if there
-- is one.
structure Connections where
  memory : Nat → ConnectionInfo
  infos : Option Nat
  pool : Option Nat
  numberOfEntries : Int
  numberOfAllocation : Nat
  expiringHolder : Option Int
  sizeOfExpiringHolder : Int

def newConnections (memory : Nat → ConnectionInfo) : Connections := ⟨memory,none,none,0,0,none,0⟩

def Connections.set (c : Connections) (e : Nat) (info : ConnectionInfo) : Connections :=
  {c with memory := Function.update c.memory e info}

def allocateConnectionInfo (c : Connections) : Nat × Connections :=
  match c.pool with
  | some e => (e,{c with pool := (c.memory e).next})
  | none => (c.numberOfAllocation,{c with numberOfAllocation := c.numberOfAllocation+1})

def freeConnectionInfo (c : Connections) (e : Nat) : Connections :=
  {c.set e {c.memory e with next := c.pool} with pool := some e}

def attachConnectionInfoEntry (c : Connections) (e : Nat) : Connections :=
  let c := {c.set e {c.memory e with next := c.infos,prev := none,inChain := true} with
    numberOfEntries := c.numberOfEntries+1}
  let c := match c.infos with
    | some first => c.set first {c.memory first with prev := some e}
    | none => c
  {c with infos := some e}

-- An entry that is not in the chain is left as it is. A missing predecessor of
-- an entry that is not the first would be a null dereference; nothing is
-- written then.
def detachConnectionInfoEntry (c : Connections) (e : Nat) : Connections :=
  if (c.memory e).inChain then
    let c := {c with numberOfEntries := c.numberOfEntries-1}
    let c :=
      if some e = c.infos then
        let c := {c with infos := (c.memory e).next}
        match c.infos with
        | some first => c.set first {c.memory first with prev := none}
        | none => c
      else
        let prev := (c.memory e).prev
        let next := (c.memory e).next
        let c := match prev with
          | some p => c.set p {c.memory p with next := next}
          | none => c
        match next with
        | some n => c.set n {c.memory n with prev := prev}
        | none => c
    c.set e {c.memory e with inChain := false}
  else c

-- for (ptr = infos, n = 0; ptr != NULL && n < number_of_entries; ptr = ptr->next, n++)
def copyChain (memory : Nat → ConnectionInfo) : Nat → Option Nat → List Nat
  | left+1,some e => e :: copyChain memory left (memory e).next
  | _,_ => []

-- The first part of clean_idle_connections, under info_mux: the entries that
-- were written to expiring_holder.
def snapshot (c : Connections) : List Nat × Connections :=
  if 0 < c.numberOfEntries then
    let kept := match c.expiringHolder with
      | some capacity => if c.sizeOfExpiringHolder < c.numberOfEntries then none else some capacity
      | none => none
    let c := match kept with
      | some _ => c
      | none => {c with expiringHolder := some c.numberOfEntries,sizeOfExpiringHolder := c.numberOfEntries}
    (copyChain c.memory c.numberOfEntries.toNat c.infos,c)
  else ([],c)

end TcpProxy.Proxying
