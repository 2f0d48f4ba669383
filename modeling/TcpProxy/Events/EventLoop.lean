import Mathlib.Logic.Function.Basic

namespace TcpProxy.Events

def maxEventsLimit : Nat := 1024

structure Registration (Handler Args : Type) where
  fd : Int
  handler : Handler
  args : Args
deriving DecidableEq, Repr

-- The arrays are read below `maxEvents` only. Above it they keep whatever an
-- earlier registration left there.
structure EventLoopData (Handler Args : Type) where
  fds : Nat → Int
  handlers : Nat → Handler
  args : Nat → Args
  maxEvents : Nat
  numOfEvents : Int

variable {Handler Args : Type}

def newEventLoop (handler : Handler) (args : Args) : EventLoopData Handler Args :=
  ⟨fun _ => 0,fun _ => handler,fun _ => args,0,0⟩

def EventLoopData.slot (data : EventLoopData Handler Args) (i : Nat) : Registration Handler Args :=
  ⟨data.fds i,data.handlers i,data.args i⟩

-- A free slot below the high-water mark is preferred to growing the table.
def findFirstFree (data : EventLoopData Handler Args) : Int × EventLoopData Handler Args :=
  match (List.range data.maxEvents).find? (fun i => data.fds i == -1) with
  | some i => (i,{data with numOfEvents := data.numOfEvents+1})
  | none =>
    if data.maxEvents < maxEventsLimit then
      (data.maxEvents,{data with maxEvents := data.maxEvents+1,numOfEvents := data.numOfEvents+1})
    else (-1,data)

-- while (max_events > 0 && fds[max_events - 1] < 0) max_events--;
def trim (fds : Nat → Int) : Nat → Nat
  | 0 => 0
  | top+1 => if fds top < 0 then trim fds top else top+1

def evRemoveEvent (data : EventLoopData Handler Args) (index : Int) : Bool × EventLoopData Handler Args :=
  if 0 ≤ index ∧ index < data.maxEvents then
    let fds := Function.update data.fds index.toNat (-1)
    (true,{data with fds := fds,numOfEvents := data.numOfEvents-1,maxEvents := trim fds data.maxEvents})
  else (false,data)

-- `epoll` is the outcome of epoll_ctl. A refused descriptor is answered by -1
-- after findFirstFree has already moved the two counters.
def evAddEvent (data : EventLoopData Handler Args) (fd : Int) (handler : Handler) (args : Args)
    (epoll : Bool) : Int × EventLoopData Handler Args :=
  let (index,data) := findFirstFree data
  if 0 ≤ index then
    if epoll then
      (index,{data with
        fds := Function.update data.fds index.toNat fd,
        handlers := Function.update data.handlers index.toNat handler,
        args := Function.update data.args index.toNat args})
    else (-1,data)
  else (-2,data)

-- The call made for the ready descriptors that epoll_wait reports: the first
-- of them that has a slot is served, and the loop returns.
def evLooping (data : EventLoopData Handler Args) (ready : Option (List Int)) :
    Option (Registration Handler Args) :=
  match ready with
  | none => none
  | some ready => ready.findSome? fun fd =>
      ((List.range data.maxEvents).find? (fun i => fd == data.fds i)).map data.slot

def evCount (data : EventLoopData Handler Args) : Int := data.numOfEvents

end TcpProxy.Events
