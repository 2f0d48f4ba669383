import Mathlib.Algebra.Order.Floor.Ring
import Mathlib.Data.Rat.Floor
import TcpProxy.Proxying.Services

namespace TcpProxy.Proxying
open Events AutoBlacklist

variable {σ α : Type}

-- What getpeername stores: `inet6` is sin6_family == PF_INET6.
structure Peer where
  inet6 : Bool
  address : In6Addr
deriving DecidableEq, Repr

-- Everything the kernel and the resolver answer while one connection attempt
-- is served, under the clock `now`. A descriptor that is in use counts as a
-- failure of the call that would have created it.
structure AcceptInput where
  accept : Option Nat
  peer : Option Peer
  now : Timeval
  socket : Option Nat
  bind : Bool
  getsockname : Bool
  gethostbyname : Bool
  connect : Bool
  epollClient : Bool
  epollServer : Bool
deriving DecidableEq, Repr

def initSocketV4 (s : Sockets) (input : AcceptInput) : Int × Sockets :=
  let (fd,s) := s.create input.socket
  if fd < 0 then (-1,s)
  else if ¬ input.bind then (-1,s.close fd)
  else if ¬ input.getsockname then (-1,s.close fd)
  else (fd,s)

-- A name that does not resolve is answered before the descriptor is closed.
def connectHost (s : Sockets) (server : RemoteServer) (input : AcceptInput) : Int × Sockets :=
  let (fd,s) := initSocketV4 s input
  if fd < 0 then (-1,s)
  else if inetPton server.host ∨ input.gethostbyname then
    if input.connect then (fd,s) else (-1,s.close fd)
  else (-1,s)

def checkRemoteIpInWhitelist (settings : Settings) (remoteIp : String) : Bool :=
  settings.whiteList.any fun start => startsWithIgnoringCase remoteIp start

-- The local variables of accepting_request once the decision is made. `vip` is
-- what check_vip answered, if the threshold made the code ask.
structure Admission where
  requestInDb : Option DbProxyRequest
  channel : Int
  blacklisted : Bool
  autoBlacklisted : Bool
  accessCounter : Int
  entry : Option Nat
  vip : Option Int
deriving DecidableEq, Repr

def Peer.isV4 (peer : Peer) : Bool :=
  peer.inet6 && peer.address.w0 == 0 && peer.address.w1 == 0 && peer.address.w2 == 0xffff0000

-- The fallback channel is tried on every other of the last attempts allowed.
def guessChannel (ctx : Context σ α) (s : Proxy σ α) (db : σ) (remoteIp : String) (accessCounter channel : Int) :
    Int × σ :=
  if s.onFailedChannel ≠ s.defaultServer ∧ ctx.settings.connectionThreshold-7 < accessCounter ∧
      accessCounter ≤ ctx.settings.connectionThreshold ∧ accessCounter % 2 = 0 then
    let (failing,db) := ctx.db.failGuessing db remoteIp
    (if failing then s.onFailedChannel else channel,db)
  else (channel,db)

-- The pair is (what check_vip answered, auto_blacklisted).
def checkThreshold (ctx : Context σ α) (db : σ) (remoteIp : String) (accessCounter : Int) :
    (Option Int × Bool) × σ :=
  if ctx.settings.connectionThreshold < accessCounter then
    let (vip,db) := ctx.db.checkVip db remoteIp
    if vip = 0 then
      let db := if ctx.settings.persistThreshold < accessCounter then
          (ctx.db.addIpToAutoBlacklist db remoteIp).2
        else db
      ((some vip,true),db)
    else ((some vip,false),db)
  else ((none,false),db)

-- (long) of a double drops the fraction.
def truncate (x : ℚ) : Int := if 0 ≤ x then ⌊x⌋ else ⌈x⌉

def checkPersistence (ctx : Context σ α) (db : σ) (remoteIp : String) (now logTime : Timeval) : σ :=
  if ctx.settings.maxPersistentTime < truncate (elapsedTime now logTime) then
    let (vip,db) := ctx.db.checkVip db remoteIp
    if vip = 0 then (ctx.db.addIpToAutoBlacklist db remoteIp).2 else db
  else db

def limitAccess (ctx : Context σ α) (s : Proxy σ α) (remoteIp : String) (now : Timeval) (address : UInt32)
    (blacklisted : Bool) (channel : Int) : Admission × Proxy σ α :=
  let (e,table) := findAndIncrease s.blacklist now address
  let accessCounter := (table.memory e).counter
  if blacklisted then (⟨none,channel,true,false,accessCounter,some e,none⟩,{s with blacklist := table})
  else
    let (channel,db) := guessChannel ctx s s.db remoteIp accessCounter channel
    let ((vip,autoBlacklisted),db) := checkThreshold ctx db remoteIp accessCounter
    let channel := if autoBlacklisted then -1 else channel
    let db := if ¬ autoBlacklisted ∧ 0 ≤ channel then
        checkPersistence ctx db remoteIp now (table.memory e).logTime
      else db
    (⟨none,channel,false,autoBlacklisted,accessCounter,some e,vip⟩,{s with blacklist := table,db := db})

def admitPeer (ctx : Context σ α) (s : Proxy σ α) (now : Timeval) (peer : Peer) : Admission × Proxy σ α :=
  let remoteIp := inetNtop peer.address
  let (request,db) := ctx.db.checkAvailable s.db remoteIp
  match request with
  | some request => (⟨some request,request.channel,false,false,0,none,none⟩,{s with db := db})
  | none =>
    if checkRemoteIpInWhitelist ctx.settings remoteIp then
      let (count,db) := ctx.db.connectionBlacklisted db remoteIp
      let blacklisted : Bool := 0 < count
      let channel := if blacklisted then -1 else s.defaultServer
      if peer.isV4 then limitAccess ctx {s with db := db} remoteIp now peer.address.w3 blacklisted channel
      else (⟨none,channel,blacklisted,false,0,none,none⟩,{s with db := db})
    else (⟨none,-1,false,false,0,none,none⟩,{s with db := db})

def countSuccess (t : Table) (e : Nat) : Table :=
  t.setEntry e {t.memory e with successCounter := (t.memory e).successCounter+1}

-- The proxy_fd >= 0 branch. Neither answer of add_event is looked at.
def establish (ctx : Context σ α) (s : Proxy σ α) (fdc proxyFd connectionId : Int) (admission : Admission)
    (remoteIp : String) (input : AcceptInput) : Proxy σ α :=
  let (e,conns) := allocateConnectionInfo s.conns
  let (data,analyzer) := ctx.packetAnalyzer.allocate s.analyzer
  let (clientHandle,ev) := evAddEvent s.ev fdc .proxyFromClientToServer (some e) input.epollClient
  let (serverHandle,ev) := evAddEvent ev proxyFd .proxyFromServerToClient (some e) input.epollServer
  let info := {conns.memory e with
    clientFd := fdc, serverFd := proxyFd, clientHandle := clientHandle, serverHandle := serverHandle,
    requestCount := 0, responseCount := 0, bytesSent := 0, bytesReceived := 0,
    connectionId := connectionId, requestInDb := admission.requestInDb, inChain := false, insertId := 0,
    remoteIp := remoteIp, attempts := admission.accessCounter, packetAnalyzerData := data,
    started := input.now, recent := input.now}
  let (info,db,userCounter) := match admission.requestInDb with
    | some request =>
      let (id,db) := ctx.db.connectionEstablished s.db request.sn request.account remoteIp
      let userCounter := (s.userCounter+1) % 2^32
      ({info with insertId := (id % 2^32).toNat,nthUser := userCounter},db,userCounter)
    | none => (info,s.db,s.userCounter)
  {s with
    conns := attachConnectionInfoEntry (conns.set e info) e, ev := ev, db := db, analyzer := analyzer,
    userCounter := userCounter,
    openings := s.openings ++ [⟨connectionId,s.sockets.table fdc,s.sockets.table proxyFd⟩]}

def forward (ctx : Context σ α) (s : Proxy σ α) (fdc connectionId : Int) (admission : Admission)
    (remoteIp : String) (input : AcceptInput) : Proxy σ α :=
  let channel := if admission.channel < ctx.settings.numberOfRemoteServers then admission.channel else 0
  let s := match admission.requestInDb,admission.entry with
    | none,some e => {s with blacklist := countSuccess s.blacklist e}
    | _,_ => s
  let (proxyFd,sockets) := connectHost s.sockets (ctx.settings.remoteServers channel.toNat) input
  let s := {s with sockets := sockets}
  if 0 ≤ proxyFd then establish ctx s fdc proxyFd connectionId admission remoteIp input
  else {s with sockets := s.sockets.close fdc}

-- A blacklisted address is noticed at most every half hour.
def noticeBlocked (t : Table) (now : Timeval) (e : Nat) : Table :=
  if 1800 < elapsedTime now (t.memory e).logTime then t.setEntry e {t.memory e with logTime := now} else t

def refuse (ctx : Context σ α) (s : Proxy σ α) (fdc : Int) (admission : Admission) (remoteIp : String)
    (now : Timeval) : Proxy σ α :=
  let s := {s with sockets := s.sockets.close fdc}
  let s := match admission.entry with
    | some e =>
      if ¬ admission.autoBlacklisted ∧ admission.blacklisted then
        {s with blacklist := noticeBlocked s.blacklist now e}
      else s
    | none => s
  {s with db := ctx.db.connectionNotAllowed s.db remoteIp}

def acceptingRequest (ctx : Context σ α) (s : Proxy σ α) (fdc connectionId : Int) (input : AcceptInput) :
    Proxy σ α :=
  match input.peer with
  | none => {s with sockets := s.sockets.close fdc}
  | some peer =>
    let remoteIp := inetNtop peer.address
    let (admission,s) := admitPeer ctx s input.now peer
    if 0 ≤ admission.channel then forward ctx s fdc connectionId admission remoteIp input
    else refuse ctx s fdc admission remoteIp input.now

def mainListener (ctx : Context σ α) (s : Proxy σ α) (input : AcceptInput) : Proxy σ α :=
  let (fdc,sockets) := s.sockets.create input.accept
  if fdc = -1 then s
  else
    let s := {s with sockets := sockets,connectionCounter := s.connectionCounter+1}
    acceptingRequest ctx s fdc s.connectionCounter input

end TcpProxy.Proxying
