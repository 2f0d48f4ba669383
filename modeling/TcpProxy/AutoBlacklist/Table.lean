import Mathlib.Logic.Function.Basic
import TcpProxy.Utils

namespace TcpProxy.AutoBlacklist

def reservedEntry : Nat := 12

structure AccessEntry where
  counter : Int
  slotIndex : Int
deriving DecidableEq, Repr, Inhabited

structure IpAccessEntry where
  ipaddr : UInt32
  accessCount : Nat → AccessEntry
  counter : Int
  successCounter : Int
  logTime : Timeval
  next : Option Nat
deriving Inhabited

-- A pointer is the number of the allocation it came from, so `memory` below
-- `allocated` is what malloc has handed out. Above it the contents are
-- arbitrary, as malloc leaves them.
structure Table where
  hashBufferSize : Int32
  frequencyInSeconds : Int32
  memory : Nat → IpAccessEntry
  allocated : Nat
  entries : Int → Option Nat
  releasePool : Option Nat
  recentIndex : Int

def newAutoBlacklistService (hashSize monitorPeriod : Int32) (memory : Nat → IpAccessEntry) : Table :=
  ⟨hashSize,monitorPeriod / 12,memory,0,fun _ => none,none,-1⟩

def Table.setEntry (t : Table) (e : Nat) (entry : IpAccessEntry) : Table :=
  {t with memory := Function.update t.memory e entry}

def Table.setNext (t : Table) (e : Nat) (next : Option Nat) : Table :=
  t.setEntry e {t.memory e with next := next}

def allocateNewEntry (t : Table) : Nat × Table :=
  match t.releasePool with
  | some e => (e,{t with releasePool := (t.memory e).next})
  | none => (t.allocated,{t with allocated := t.allocated+1})

def freeEntry (t : Table) (e : Nat) : Table :=
  {t.setNext e t.releasePool with releasePool := some e}

-- C division and remainder truncate, and the quotient is stored in an int.
-- The pair is (the returned ring index, *slot_index).
def currentTimeIndex (t : Table) (now : Int) : Int × Int :=
  let simplified := toInt32 (now.tdiv t.frequencyInSeconds.toInt)
  (simplified.tmod reservedEntry,simplified)

-- The int operand of the remainder is converted to uint32_t first.
def hashIndex (t : Table) (ip : UInt32) : Int :=
  toInt32 ((ip.toNat : Int) % (t.hashBufferSize.toInt % 2^32))

def clearSlot (entry : IpAccessEntry) (i : Nat) (s : Int) : IpAccessEntry :=
  if (entry.accessCount i).slotIndex ≠ s then
    let count := (entry.accessCount i).counter
    if 0 < count then
      {entry with
        accessCount := Function.update entry.accessCount i ⟨0,s⟩,
        counter := entry.counter - count}
    else {entry with accessCount := Function.update entry.accessCount i ⟨count,s⟩}
  else entry

def clearLoop (entry : IpAccessEntry) (i : Nat) (s : Int) : Nat → IpAccessEntry
  | 0 => entry
  | left+1 => clearLoop (clearSlot entry i s) ((i+reservedEntry-1) % reservedEntry) (s-1) left

def clearOutdatedData (entry : IpAccessEntry) (index : Nat) (slotIndex : Int) : IpAccessEntry :=
  clearLoop entry index slotIndex reservedEntry

-- while (entry != NULL). No chain is longer than the number of allocations.
def findIp (memory : Nat → IpAccessEntry) (ip : UInt32) : Nat → Option Nat → Option Nat
  | left+1,some e => if (memory e).ipaddr = ip then some e else findIp memory ip left (memory e).next
  | _,_ => none

def insertNew (t : Table) (now : Timeval) (ip : UInt32) : Nat × Table :=
  let (e,t) := allocateNewEntry t
  (e,{t.setEntry e ⟨ip,fun _ => ⟨0,0⟩,0,0,now,t.entries (hashIndex t ip)⟩ with
    entries := Function.update t.entries (hashIndex t ip) (some e)})

-- What a call of find_and_increase holds before it takes the bucket's lock:
-- the list head is read outside of it.
structure Reading where
  ip : UInt32
  entry : Option Nat
  index : Nat
  slotIndex : Int
deriving DecidableEq, Repr

def readHead (t : Table) (now : Timeval) (address : UInt32) : Reading :=
  let ip := htonl address
  let time := currentTimeIndex t now.sec
  ⟨ip,t.entries (hashIndex t ip),time.1.toNat,time.2⟩

def refresh (entry : IpAccessEntry) (index : Nat) (slotIndex : Int) : IpAccessEntry :=
  if (entry.accessCount index).slotIndex ≠ slotIndex then clearOutdatedData entry index slotIndex else entry

def lockedBody (t : Table) (now : Timeval) (reading : Reading) : Nat × Table :=
  let (e,t) := match findIp t.memory reading.ip t.allocated reading.entry with
    | some e => (e,t)
    | none => insertNew t now reading.ip
  (e,t.setEntry e (refresh (t.memory e) reading.index reading.slotIndex))

def countAccess (entry : IpAccessEntry) (index : Nat) : IpAccessEntry :=
  {entry with
    accessCount := Function.update entry.accessCount index
      {entry.accessCount index with counter := (entry.accessCount index).counter+1},
    counter := entry.counter+1}

def findAndIncrease (t : Table) (now : Timeval) (address : UInt32) : Nat × Table :=
  let reading := readHead t now address
  let (e,t) := lockedBody t now reading
  (e,t.setEntry e (countAccess (t.memory e) reading.index))

-- `*prev` of the sweep: the list head of the bucket, or the link of a node.
def Table.link (t : Table) (k : Int) : Option Nat → Option Nat
  | none => t.entries k
  | some e => (t.memory e).next

def Table.setLink (t : Table) (k : Int) (prev next : Option Nat) : Table :=
  match prev with
  | none => {t with entries := Function.update t.entries k next}
  | some e => t.setNext e next

def sweepChain (index : Nat) (slotIndex : Int) (k : Int) :
    Nat → Option Nat → Option Nat → Table → Option Nat → Table × Option Nat
  | left+1,some e,prev,t,freeList =>
    let t := t.setEntry e (clearOutdatedData (t.memory e) index slotIndex)
    if (t.memory e).counter = 0 then
      let t := (t.setLink k prev (t.memory e).next).setNext e freeList
      sweepChain index slotIndex k left (t.link k prev) prev t (some e)
    else sweepChain index slotIndex k left (t.memory e).next (some e) t freeList
  | _,_,_,t,freeList => (t,freeList)

def releaseList : Nat → Table → Option Nat → Table
  | left+1,t,some e => releaseList left (freeEntry t e) (t.memory e).next
  | _,t,_ => t

-- One bucket: the section under its lock, then the free_entry calls.
def sweepBucket (index : Nat) (slotIndex : Int) (t : Table) (k : Int) : Table :=
  let (t,freeList) := sweepChain index slotIndex k t.allocated (t.entries k) none t none
  releaseList t.allocated t freeList

def buckets (t : Table) : List Int := (List.range t.hashBufferSize.toInt.toNat).map fun k : Nat => (k : Int)

def expiring (t : Table) (now : Timeval) : Table :=
  let (index,slotIndex) := currentTimeIndex t now.sec
  if index ≠ t.recentIndex then
    {(buckets t).foldl (sweepBucket index.toNat slotIndex) t with recentIndex := index}
  else t

end TcpProxy.AutoBlacklist
