import Mathlib.Logic.Function.Basic
import Mathlib.Data.List.Basic

namespace TcpProxy.Proxying

-- What the proxy has read from a socket and written to it so far.
structure Stream where
  received : List UInt8
  sent : List UInt8

-- Descriptors are reused by the kernel, sockets are not: `table` says which
-- socket an open descriptor stands for. `badCloses` are the descriptors on
-- which close was called while they were not open.
structure Sockets where
  table : Int → Option Nat
  streams : Nat → Stream
  created : Nat
  badCloses : List Int

-- accept and socket: the kernel picks the descriptor, one that is not in use,
-- or fails.
def Sockets.create (s : Sockets) : Option Nat → Int × Sockets
  | some n =>
    match s.table n with
    | none => (n,{s with
        table := Function.update s.table n (some s.created),
        streams := Function.update s.streams s.created ⟨[],[]⟩,
        created := s.created+1})
    | some _ => (-1,s)
  | none => (-1,s)

def Sockets.close (s : Sockets) (fd : Int) : Sockets :=
  match s.table fd with
  | some _ => {s with table := Function.update s.table fd none}
  | none => {s with badCloses := s.badCloses ++ [fd]}

def bufferSize : Nat := 32768

def Sockets.read (s : Sockets) (fd : Int) (chunk : List UInt8) : List UInt8 × Sockets :=
  match s.table fd with
  | some k =>
    let data := chunk.take bufferSize
    let stream := s.streams k
    (data,{s with streams := Function.update s.streams k ⟨stream.received ++ data,stream.sent⟩})
  | none => ([],s)

-- The kernel takes `answer` bytes, never more than it is offered, or fails
-- with an answer that is not positive.
def Sockets.write (s : Sockets) (fd : Int) (offered : List UInt8) (answer : Int) : Int × Sockets :=
  match s.table fd with
  | some k =>
    if 0 < answer then
      let data := offered.take answer.toNat
      let stream := s.streams k
      (data.length,{s with streams := Function.update s.streams k ⟨stream.received,stream.sent ++ data⟩})
    else (answer,s)
  | none => (-1,s)

end TcpProxy.Proxying
