import TcpProxy.Events.EventLoop
import TcpProxy.AutoBlacklist.Table
import TcpProxy.Proxying.Connections
import TcpProxy.Proxying.Sockets

namespace TcpProxy.Proxying
open Events AutoBlacklist

-- struct in6_addr, read as four words of a little-endian machine.
structure In6Addr where
  w0 : UInt32
  w1 : UInt32
  w2 : UInt32
  w3 : UInt32
deriving DecidableEq, Repr

def In6Addr.hextets (a : In6Addr) : List Nat :=
  [a.w0,a.w1,a.w2,a.w3].flatMap fun w => [(htonl w).toNat / 65536,(htonl w).toNat % 65536]

def zeroRun : List Nat → Nat
  | 0 :: rest => zeroRun rest + 1
  | _ => 0

-- The first of the longest runs of zero groups; a single group is not elided.
def bestRun (groups : List Nat) : Nat × Nat :=
  let best := (List.range groups.length).foldl (fun (best : Nat × Nat) base =>
    let len := zeroRun (groups.drop base)
    if best.2 < len then (base,len) else best) (0,0)
  if 2 ≤ best.2 then best else (0,0)

def dottedQuad (high low : Nat) : List Char :=
  Nat.toDigits 10 (high / 256) ++ '.' :: Nat.toDigits 10 (high % 256) ++
    '.' :: Nat.toDigits 10 (low / 256) ++ '.' :: Nat.toDigits 10 (low % 256)

-- inet_ntop (AF_INET6): mapped and compatible addresses end in a dotted quad.
def inetNtop (a : In6Addr) : String :=
  let groups := a.hextets
  let (base,len) := bestRun groups
  let dotted := base = 0 ∧ (len = 6 ∨ len = 5 ∧ groups[5]? = some 0xffff)
  let part (i : Nat) : List Char :=
    if base ≤ i ∧ i < base+len then (if i = base then [':'] else [])
    else if i = 7 ∧ dotted then []
    else
      let text := if i = 6 ∧ dotted then dottedQuad (groups.getD 6 0) (groups.getD 7 0)
        else Nat.toDigits 16 (groups.getD i 0)
      if i = 0 then text else ':' :: text
  String.ofList ((List.range 8).flatMap part ++ if 0 < len ∧ base+len = 8 then [':'] else [])

-- inet_pton (AF_INET): four decimal numbers up to 255 without leading zeros.
-- `octet` is the number being read, if one of its digits has been seen.
def ptonScan : List Char → Nat → Option Nat → Bool
  | [],octets,_ => octets == 4
  | ch :: rest,octets,octet =>
    if ch.isDigit then
      let digit := ch.toNat - '0'.toNat
      match octet with
      | none => octets < 4 && ptonScan rest (octets+1) (some digit)
      | some value => value ≠ 0 && value*10+digit ≤ 255 && ptonScan rest octets (some (value*10+digit))
    else ch == '.' && octet.isSome && octets ≠ 4 && ptonScan rest octets none

def inetPton (text : String) : Bool := ptonScan text.toList 0 none

-- strncasecmp (text, start, strlen (start)) == 0
def startsWithIgnoringCase (text start : String) : Bool :=
  (text.toList.take start.length).map Char.toLower == start.toList.map Char.toLower

structure RemoteServer where
  host : String
  port : Int
deriving DecidableEq, Repr

-- What proxy_main reads from the configuration. `remoteServers` is memory: it
-- was filled in below `numberOfRemoteServers` only.
structure Settings where
  remoteServers : Nat → RemoteServer
  numberOfRemoteServers : Int
  connectionThreshold : Int
  persistThreshold : Int
  maxAllowedRequests : Int
  maxPersistentTime : Int
  whiteList : List String

-- The operations of struct database_service_t that the proxy calls.
structure DatabaseService (σ : Type) where
  checkAvailable : σ → String → Option DbProxyRequest × σ
  connectionClose : σ → Int → Int → Int → Bool → σ
  connectionEstablished : σ → Int → Option String → String → Int × σ
  connectionNotAllowed : σ → String → σ
  connectionBlacklisted : σ → String → Int × σ
  checkVip : σ → String → Int × σ
  addIpToAutoBlacklist : σ → String → Int × σ
  failGuessing : σ → String → Bool × σ
  closeIdle : σ → Timeval → σ
  done : σ → σ

-- struct packet_analyzer_t. The analyzer may use the database; it changes
-- neither the buffer nor the connection it is shown.
structure PacketAnalyzer (α σ : Type) where
  allocate : α → Option Nat × α
  release : α → Option Nat → α
  analyzePacket : α → σ → ConnectionInfo → Bool → List UInt8 → α × σ

structure Context (σ α : Type) where
  settings : Settings
  db : DatabaseService σ
  packetAnalyzer : PacketAnalyzer α σ

inductive Handler where
  | mainListener
  | proxyFromClientToServer
  | proxyFromServerToClient
deriving DecidableEq, Repr

structure Opening where
  connectionId : Int
  client : Option Nat
  server : Option Nat
deriving DecidableEq, Repr

-- A call of close_event: the figures of its notice, and the sn it passes to
-- connection_close when the connection was authorised.
structure Closing where
  connectionId : Int
  bytesSent : Int
  requestCount : Int
  bytesReceived : Int
  responseCount : Int
  sn : Option Int
  idle : Bool
deriving DecidableEq, Repr

-- The static variables of proxying.c, the services behind them and the
-- kernel's sockets. The last three fields are the record of what was done:
-- connections attached, connections closed, and the connection and direction
-- (true is from the client) of every chunk handed to the write loop.
structure Proxy (σ α : Type) where
  sockets : Sockets
  ev : EventLoopData Handler (Option Nat)
  conns : Connections
  blacklist : Table
  db : σ
  analyzer : α
  connectionCounter : Int
  userCounter : Nat
  defaultServer : Int
  onFailedChannel : Int
  openings : List Opening
  closings : List Closing
  chunks : List (Int × Bool)

end TcpProxy.Proxying
