import TcpProxy.Lib.Run
import TcpProxy.Proxying.Accepting

namespace TcpProxy.Proxying
open Events AutoBlacklist

variable {σ α : Type}

-- What one readiness event meets: the clock, the bytes that read delivers and
-- the answers of the writes. A write beyond the given answers fails.
structure RelayInput where
  now : Timeval
  chunk : List UInt8
  writes : List Int
deriving DecidableEq, Repr

-- while (leftLen > 0); the result is (write_total, a write failed).
def writeLoop (destination : Int) : List Int → Sockets → List UInt8 → (Nat × Bool) × Sockets
  | _,s,[] => ((0,false),s)
  | [],s,_ :: _ => ((0,true),s)
  | answer :: answers,s,byte :: left =>
    let (writeLen,s) := s.write destination (byte :: left) answer
    if 0 < writeLen then
      let ((total,failed),s) := writeLoop destination answers s ((byte :: left).drop writeLen.toNat)
      ((writeLen.toNat+total,failed),s)
    else ((0,true),s)

-- insert_id is converted to the int parameter sn.
def closingOf (info : ConnectionInfo) (idle : Bool) : Closing :=
  ⟨info.connectionId,info.bytesSent,info.requestCount,info.bytesReceived,info.responseCount,
    info.requestInDb.map fun _ => toInt32 info.insertId,idle⟩

def closeEvent (ctx : Context σ α) (s : Proxy σ α) (e : Nat) (idle : Bool) : Proxy σ α :=
  let info := s.conns.memory e
  if ¬ info.inChain then
    let ev := (evRemoveEvent s.ev info.serverHandle).2
    let ev := (evRemoveEvent ev info.clientHandle).2
    let sockets := (s.sockets.close info.clientFd).close info.serverFd
    let analyzer := ctx.packetAnalyzer.release s.analyzer info.packetAnalyzerData
    let db := match (closingOf info idle).sn with
      | some sn => ctx.db.connectionClose s.db sn info.bytesReceived info.requestCount idle
      | none => s.db
    {s with
      ev := ev, sockets := sockets, analyzer := analyzer, db := ctx.db.done db,
      conns := s.conns.set e {info with requestInDb := none},
      closings := s.closings ++ [closingOf info idle]}
  else s

-- detach, close, and back to the pool: what both threads do with a connection
-- that ends.
def dropConnection (ctx : Context σ α) (s : Proxy σ α) (e : Nat) (idle : Bool) : Proxy σ α :=
  let s := {s with conns := detachConnectionInfoEntry s.conns e}
  let s := closeEvent ctx s e idle
  {s with conns := freeConnectionInfo s.conns e}

-- The else branch of the request limit: the write loop and the counters.
def passOn (s : Proxy σ α) (destination : Int) (e : Nat) (fromClient : Bool) (chunk : List UInt8)
    (writes : List Int) : Bool × Proxy σ α :=
  let ((writeTotal,failed),sockets) := writeLoop destination writes s.sockets chunk
  let info := s.conns.memory e
  let info := if fromClient then
      {info with bytesSent := toInt64 (info.bytesSent+writeTotal),requestCount := toInt32 (info.requestCount+1)}
    else
      {info with bytesReceived := toInt64 (info.bytesReceived+writeTotal),
                 responseCount := toInt32 (info.responseCount+1)}
  (failed,{s with sockets := sockets,conns := s.conns.set e info,
                  chunks := s.chunks ++ [(info.connectionId,fromClient)]})

-- The body of do_proxying for an attached connection; true asks to close it.
def relayChunk (ctx : Context σ α) (s : Proxy σ α) (source destination : Int) (e : Nat) (input : RelayInput) :
    Bool × Proxy σ α :=
  let s := {s with conns := s.conns.set e {s.conns.memory e with recent := input.now}}
  let (chunk,sockets) := s.sockets.read source input.chunk
  let s := {s with sockets := sockets}
  let fromClient : Bool := (s.conns.memory e).clientFd = source
  if chunk = [] then (true,s)
  else
    let (analyzer,db) := ctx.packetAnalyzer.analyzePacket s.analyzer s.db (s.conns.memory e) fromClient chunk
    let s := {s with analyzer := analyzer,db := db}
    if fromClient ∧ ctx.settings.maxAllowedRequests < (s.conns.memory e).requestCount then (true,s)
    else passOn s destination e fromClient chunk input.writes

def doProxying (ctx : Context σ α) (s : Proxy σ α) (source destination : Int) (e : Nat) (input : RelayInput) :
    Proxy σ α :=
  if (s.conns.memory e).inChain then
    let (closeConnection,s) := relayChunk ctx s source destination e input
    if closeConnection then dropConnection ctx s e false else s
  else s

def proxyFromServerToClient (ctx : Context σ α) (s : Proxy σ α) (e : Nat) (input : RelayInput) : Proxy σ α :=
  doProxying ctx s (s.conns.memory e).serverFd (s.conns.memory e).clientFd e input

def proxyFromClientToServer (ctx : Context σ α) (s : Proxy σ α) (e : Nat) (input : RelayInput) : Proxy σ α :=
  doProxying ctx s (s.conns.memory e).clientFd (s.conns.memory e).serverFd e input

def isIdle (c : Connections) (now : Timeval) (timeout : ℚ) (e : Nat) : Bool :=
  timeout < elapsedTime now (c.memory e).recent

def sweepIdle (ctx : Context σ α) (now : Timeval) (timeout : ℚ) (s : Proxy σ α) (e : Nat) : Proxy σ α :=
  if isIdle s.conns now timeout e then dropConnection ctx s e true else s

def cleanIdleConnections (ctx : Context σ α) (s : Proxy σ α) (now : Timeval) (timeout : ℚ) : Proxy σ α :=
  let (entries,conns) := snapshot s.conns
  entries.foldl (sweepIdle ctx now timeout) {s with conns := conns}

def setDefaultChannel (ctx : Context σ α) (s : Proxy σ α) (channel : Int) : Proxy σ α :=
  if 0 ≤ channel ∧ channel < ctx.settings.numberOfRemoteServers then {s with defaultServer := channel} else s

def setFallbackChannel (ctx : Context σ α) (s : Proxy σ α) (channel : Int) : Proxy σ α :=
  if 0 ≤ channel ∧ channel < ctx.settings.numberOfRemoteServers then {s with onFailedChannel := channel} else s

-- `relay e fromClient` is the event loop's call of one of the two handlers
-- with the argument e.
inductive Event where
  | accept (input : AcceptInput)
  | relay (e : Nat) (fromClient : Bool) (input : RelayInput)
  | cleanIdle (now : Timeval) (timeout : ℚ)
  | expiring (now : Timeval)
  | closeIdle (now : Timeval)
  | setDefaultChannel (channel : Int)
  | setFallbackChannel (channel : Int)

def relay (ctx : Context σ α) (s : Proxy σ α) (e : Nat) (fromClient : Bool) (input : RelayInput) : Proxy σ α :=
  if e < s.conns.numberOfAllocation then
    if fromClient then proxyFromClientToServer ctx s e input else proxyFromServerToClient ctx s e input
  else s

def step (ctx : Context σ α) (s : Proxy σ α) : Event → Proxy σ α
  | .accept input => mainListener ctx s input
  | .relay e fromClient input => relay ctx s e fromClient input
  | .cleanIdle now timeout => cleanIdleConnections ctx s now timeout
  | .expiring now => {s with blacklist := expiring s.blacklist now}
  | .closeIdle now => {s with db := ctx.db.closeIdle s.db now}
  | .setDefaultChannel channel => setDefaultChannel ctx s channel
  | .setFallbackChannel channel => setFallbackChannel ctx s channel

-- Where proxy_main enters its loop: the listener is open and registered.
def proxyMain (listener : Nat) (memory : Nat → ConnectionInfo) (blacklist : Table) (db : σ) (analyzer : α)
    (defaultServer onFailedChannel : Int) : Proxy σ α :=
  ⟨⟨Function.update (fun _ => none) (listener : Int) (some 0),fun _ => ⟨[],[]⟩,1,[]⟩,
    (evAddEvent (newEventLoop .mainListener none) listener .mainListener none true).2,
    newConnections memory,blacklist,db,analyzer,0,0,defaultServer,onFailedChannel,[],[],[]⟩

-- A small installation for the concrete runs further on: a database that
-- authorises everybody for the first server, and no plugin.
def authorising : DatabaseService Unit where
  checkAvailable db _ := (some ⟨none,1,0⟩,db)
  connectionClose db _ _ _ _ := db
  connectionEstablished db _ _ _ := (7,db)
  connectionNotAllowed db _ := db
  connectionBlacklisted db _ := (0,db)
  checkVip db _ := (0,db)
  addIpToAutoBlacklist db _ := (0,db)
  failGuessing db _ := (false,db)
  closeIdle db _ := db
  done db := db

def oneServer (host : String) : Context Unit Unit where
  settings := ⟨fun _ => ⟨host,1688⟩,1,5,100,6,86400,[]⟩
  db := authorising
  packetAnalyzer := ⟨fun a => (none,a),fun a _ => a,fun a db _ _ _ => (a,db)⟩

def freshProxy : Proxy Unit Unit :=
  proxyMain 3 (fun _ => default) (newAutoBlacklistService 7 120 fun _ => default) () () 0 0

-- Everything but the resolver answers that the call succeeded.
def visitor (client server : Nat) : AcceptInput :=
  ⟨some client,some ⟨true,0,0,0xffff0000,0x0100007f⟩,⟨0,0⟩,some server,true,true,false,true,true,true⟩

end TcpProxy.Proxying
