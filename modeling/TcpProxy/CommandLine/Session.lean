import TcpProxy.CommandLine.Output
import TcpProxy.Lib.LittleEndian
import TcpProxy.Lib.PieceStream

namespace TcpProxy.CommandLine
open PieceStream

-- write (fd, &n, sizeof n), and what a read of an int leaves if all of it came
def intBytes (n : Int) : Text := (List.range 4).map (LittleEndian.store (fun _ => 0) 4 n)

def readInt (bytes : Text) : Option Int :=
  if bytes.length = 4 then some (LittleEndian.loadSigned (fun i => bytes.getD i 0) 4) else none

-- What a line that was typed at the client does: it is written to the
-- connection, or the client goes on by itself, or it ends.
inductive Entered where
  | sends (line : Text)
  | stays
  | leaves
deriving DecidableEq, Repr

-- The two processes apart from cmdlintf.c's own: `greet` is what the login
-- callback prints, `execute` a line in the daemon with the texts it prints and
-- the value it returns, `other` what the daemon's other threads do.
structure Program (World Moment Change : Type) where
  enter : Text → Entered
  greet : List Text
  execute : Moment → World → Text → World × List Text × Int
  other : Change → World → World
  terminate : World → Bool

-- Where the daemon's thread is: in the loop around accept, in front of the
-- read of the pid, in the loop of accept_client, or at the writes of a reply,
-- with whether that loop goes on behind them. The process may be gone.
inductive Serving where
  | accepting
  | greeting
  | reading
  | writing (on : Bool)
  | stopped
  | gone
deriving DecidableEq, Repr

-- The client waits for the length of the banner, for what is left of it, or for
-- the value, the length and what is left of the reply to a line. It is away
-- after it has left, lost if the connection has broken, and confused if it has
-- read a part of an int.
inductive Client where
  | away
  | greeted
  | banner (left : Int)
  | prompt
  | retval (line : Text)
  | length (line : Text) (retval : Int)
  | body (line : Text) (retval left : Int) (shown : Text)
  | lost
  | confused
deriving DecidableEq, Repr

structure Reply where
  line : Text
  retval : Int
  output : Text
deriving DecidableEq, Repr

inductive Input (Moment Change : Type) where
  | other (change : Change)
  | greeting
  | command (moment : Moment) (line : Text)

-- The last four fields are the record of what was done: what a client has put
-- on the user's terminal of the daemon's texts, the replies that it has read,
-- the lines it has written, and what the daemon has executed.
structure Session (World Moment Change : Type) where
  world : World
  bp : Output
  serving : Serving
  client : Client
  toServer : Text
  toClient : Channel UInt8
  shown : Text
  replies : List Reply
  entered : List Text
  executed : List (Input Moment Change)

inductive Event (Moment Change : Type) where
  | connects (pid : Int)
  | enters (line : Text)
  | clientReads
  | serverReads (moment : Moment)
  | serverWrites (n : Nat)
  | elsewhere (change : Change)
  | exits

variable {World Moment Change : Type}

def Serving.closed : Serving → Bool
  | .accepting | .stopped | .gone => true
  | _ => false

abbrev leave (s : Session World Moment Change) : Session World Moment Change :=
  {s with client := .away,toServer := [],toClient := empty}

def finish (s : Session World Moment Change) (line : Text) (retval : Int) (shown : Text) : Session World Moment Change :=
  if retval = 0 then leave {s with replies := s.replies ++ [⟨line,retval,shown⟩]}
  else {s with replies := s.replies ++ [⟨line,retval,shown⟩],client := .prompt}

def blocked (s : Session World Moment Change) : Session World Moment Change :=
  if s.serving.closed then {s with client := .lost} else s

abbrev received (s : Session World Moment Change) (n : Nat) : Session World Moment Change :=
  {s with toClient := (s.toClient.read n).2}

abbrev displayed (s : Session World Moment Change) (n : Nat) : Session World Moment Change :=
  {received s n with shown := s.shown ++ (s.toClient.read n).1}

-- The loop of execute_line behind a chunk, with what of it is still to come.
def showChunk (s : Session World Moment Change) (line : Text) (retval left : Int) (shown : Text) : Session World Moment Change :=
  if 0 < left then {s with client := .body line retval left shown} else finish s line retval shown

def clientReads (s : Session World Moment Change) : Session World Moment Change :=
  match s.client with
  | .greeted =>
    if s.toClient.wire = [] then blocked s
    else
      match readInt (s.toClient.read 4).1 with
      | some len => {received s 4 with client := if 0 < len then .banner len else .prompt}
      | none => {s with client := .confused}
  | .banner left =>
    if s.toClient.wire = [] then blocked s
    else
      {displayed s left.toNat with
        client := if 0 < left-(s.toClient.read left.toNat).1.length then .banner (left-(s.toClient.read left.toNat).1.length)
          else .prompt}
  | .retval line =>
    if s.toClient.wire = [] then blocked s
    else
      match readInt (s.toClient.read 4).1 with
      | some retval => {received s 4 with client := .length line retval}
      | none => {s with client := .confused}
  | .length line retval =>
    if s.toClient.wire = [] then blocked s
    else
      match readInt (s.toClient.read 4).1 with
      | some len => showChunk (received s 4) line retval len []
      | none => {s with client := .confused}
  | .body line retval left shown =>
    if s.toClient.wire = [] then blocked s
    else
      showChunk (displayed s (min 1023 left.toNat)) line retval (left-(s.toClient.read (min 1023 left.toNat)).1.length)
        (shown ++ (s.toClient.read (min 1023 left.toNat)).1)
  | _ => s

variable (p : Program World Moment Change)

def endSession (s : Session World Moment Change) : Session World Moment Change :=
  {s with serving := if p.terminate s.world then .stopped else .accepting}

def serverReads (s : Session World Moment Change) (moment : Moment) : Session World Moment Change :=
  match s.serving with
  | .accepting => if p.terminate s.world then {s with serving := .stopped} else s
  | .greeting =>
    if s.toServer = [] then s
    else
      let bp := printAll s.bp p.greet
      {s with
        toServer := s.toServer.drop 4,toClient := {s.toClient with pieces := [intBytes bp.bpIndex],body := bp.bpBuffer},
        bp := bpinit bp,serving := .writing (!p.terminate s.world),executed := s.executed ++ [.greeting]}
  | .reading =>
    if s.toServer = [] then if s.client = .away then endSession p s else s
    else
      let line := s.toServer.take 4095
      let effect := p.execute moment s.world line
      let bp := printAll s.bp effect.2.1
      {s with
        world := effect.1,toServer := s.toServer.drop 4095,
        toClient := {s.toClient with pieces := [intBytes effect.2.2,intBytes bp.bpIndex],body := bp.bpBuffer},
        bp := bpinit bp,serving := .writing (decide (effect.2.2 ≠ 0) && !p.terminate effect.1),
        executed := s.executed ++ [.command moment line]}
  | .writing on => if s.toClient.written then if on then {s with serving := .reading} else endSession p s else s
  | _ => s

def serverWrites (s : Session World Moment Change) (n : Nat) : Session World Moment Change :=
  match s.serving with
  | .writing _ => {s with toClient := s.toClient.write (n+1)}
  | _ => s

-- One client after the other. A write to a closed connection ends the client.
def step (s : Session World Moment Change) : Event Moment Change → Session World Moment Change
  | .connects pid =>
    if s.client = .away ∧ s.serving = .accepting ∧ p.terminate s.world = false then
      {s with client := .greeted,toServer := intBytes pid,serving := .greeting}
    else s
  | .enters line =>
    match s.client with
    | .prompt =>
      match p.enter line with
      | .sends line =>
        if s.serving.closed then {s with client := .lost}
        else {s with client := .retval line,toServer := s.toServer ++ line,entered := s.entered ++ [line]}
      | .stays => s
      | .leaves => leave s
    | _ => s
  | .clientReads => clientReads s
  | .serverReads moment => serverReads p s moment
  | .serverWrites n => serverWrites s n
  | .elsewhere change => {s with world := p.other change s.world,executed := s.executed ++ [.other change]}
  | .exits => {s with serving := .gone}

def listening (bpSize : Nat) (world : World) : Session World Moment Change :=
  ⟨world,⟨bpSize,[]⟩,.accepting,.away,[],empty,[],[],[],[]⟩

-- The same inputs without a connection: what they make of the daemon, and what
-- each command prints, in a buffer of its own, and returns.
def act (world : World) : Input Moment Change → World
  | .other change => p.other change world
  | .greeting => world
  | .command moment line => (p.execute moment world line).1

def answer (bpSize : Nat) (world : World) : Input Moment Change → Option Reply
  | .other _ | .greeting => none
  | .command moment line =>
    let effect := p.execute moment world line
    some ⟨line,effect.2.2,(printAll ⟨bpSize,[]⟩ effect.2.1).bpBuffer⟩

def message (bpSize : Nat) (world : World) : Input Moment Change → Option Text
  | .other _ => none
  | .greeting => some (printAll ⟨bpSize,[]⟩ p.greet).bpBuffer
  | .command moment line => some (printAll ⟨bpSize,[]⟩ (p.execute moment world line).2.1).bpBuffer

def commandLine : Input Moment Change → Option Text
  | .other _ | .greeting => none
  | .command _ line => some line

end TcpProxy.CommandLine
