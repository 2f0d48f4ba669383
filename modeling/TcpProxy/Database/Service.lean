import TcpProxy.Proxying.Services

namespace TcpProxy.Database
open Proxying

-- enum query_name_enum: the fourteen statements of stmt_holder.
inductive QueryName where
  | checkAvailable
  | connectionClose
  | lastInsertId
  | connectionNotAllowed
  | checkVip
  | connectionEstablished
  | connectionBegin
  | blacklist
  | addToBlacklist
  | addDetails
  | addMachineOwner
  | updateMachineAccess
  | callFailureGuessing
  | allProductNames
deriving DecidableEq, Repr

inductive Parameter where
  | int (value : Int)
  | string (text : String)
deriving DecidableEq, Repr

structure Stmt where
  session : Nat
deriving DecidableEq, Repr

structure Row where
  ints : Nat → Int
  strings : Nat → Option String

-- What fetching goes through: the rows, and then the end of the data or, with
-- an errno that is not zero, an error.
structure ResultSet where
  rows : List Row
  errno : Nat

-- What the clock and MySQL answer to one request; which of the fields count
-- depends on the request. `insertId` is the id the statement has generated, if
-- any, and `skipped` how far the ids of the connections table have moved on
-- since the last row that was inserted through this service. A result set is
-- none where there is no metadata.
structure Reply where
  now : Timeval
  connect : Bool
  prepare : Bool
  execute : Bool
  affectedRows : Nat
  insertId : Option Nat
  skipped : Nat
  results : List (Option ResultSet)

-- An execution of a statement from stmt_holder: the session of the statement,
-- the session that was open, and the id of the row that was inserted.
structure Execution where
  query : QueryName
  parameters : List Parameter
  session : Nat
  opened : Option Nat
  inserted : Option Nat
deriving DecidableEq, Repr

-- The static variables of db_service.c, the driver's session and what MySQL
-- keeps for it. Sessions are numbered as they are opened. The answers to come
-- are part of the state, so that every pattern of failures is some state.
structure DbService where
  enabled : Bool
  queries : QueryName → Option String
  maxConnectionTime : Int
  connected : Bool
  recentUseTime : Timeval
  connectionTime : Timeval
  stmtHolder : QueryName → Option Stmt
  session : Option Nat
  sessions : Nat
  lastInsertId : Nat
  lastRow : Nat
  replies : Nat → Reply
  asked : Nat
  executions : List Execution

def newDatabaseService (enabled : Bool) (queries : QueryName → Option String) (maxConnectionTime : Int)
    (lastRow : Nat) (replies : Nat → Reply) : DbService :=
  ⟨enabled,Function.update queries .lastInsertId (some "SELECT LAST_INSERT_ID()"),maxConnectionTime,false,
    ⟨0,0⟩,⟨0,0⟩,fun _ => none,none,0,0,lastRow,replies,0,[]⟩

def DbService.answer (s : DbService) : Reply × DbService := (s.replies s.asked,{s with asked := s.asked+1})

def dbmysqlConnect (s : DbService) : Bool × DbService :=
  match s.session with
  | some _ => (true,s)
  | none =>
    let (reply,s) := s.answer
    if reply.connect then
      (true,{s with session := some s.sessions,sessions := s.sessions+1,lastInsertId := 0})
    else (false,s)

def dbmysqlDisconnect (s : DbService) : DbService := {s with session := none}

def dbmysqlCreateStatement (s : DbService) : Option Stmt × DbService :=
  let (reply,s) := s.answer
  match s.session with
  | some n => if reply.prepare then (some ⟨n⟩,s) else (none,s)
  | none => (none,s)

-- The id a successful statement generates. The rows of the connections table
-- are numbered upwards; a SELECT generates nothing.
def generated (s : DbService) (name : QueryName) (reply : Reply) : Option Nat :=
  match name with
  | .connectionBegin => some (s.lastRow+1+reply.skipped)
  | .lastInsertId => none
  | _ => reply.insertId

-- A statement of a session that is closed can only fail.
def dbmysqlLocalExecute (s : DbService) (name : QueryName) (stmt : Stmt) (parameters : List Parameter) :
    Option Reply × DbService :=
  let (reply,s) := s.answer
  if reply.execute ∧ s.session = some stmt.session then
    let inserted := generated s name reply
    (some reply,{s with
      lastInsertId := inserted.getD s.lastInsertId,
      lastRow := if name = .connectionBegin then inserted.getD s.lastRow else s.lastRow,
      executions := s.executions ++ [⟨name,parameters,stmt.session,s.session,inserted⟩]})
  else (none,{s with executions := s.executions ++ [⟨name,parameters,stmt.session,s.session,none⟩]})

def dbmysqlExecuteUpdate (s : DbService) (name : QueryName) (stmt : Stmt) (parameters : List Parameter) :
    Int × DbService :=
  match dbmysqlLocalExecute s name stmt parameters with
  | (some reply,s) => (toInt32 reply.affectedRows,s)
  | (none,s) => (-1,s)

-- LAST_INSERT_ID () is answered from the session, and read as an int.
def ResultSet.answering (result : ResultSet) (id : Nat) : ResultSet :=
  {result with rows := result.rows.map fun _ => ⟨fun _ => toInt32 id,fun _ => none⟩}

def dbmysqlExecuteQuery (s : DbService) (name : QueryName) (stmt : Stmt) (parameters : List Parameter) :
    Option ResultSet × DbService :=
  match dbmysqlLocalExecute s name stmt parameters with
  | (some reply,s) =>
    let result := reply.results.head?.join
    (if name = .lastInsertId then result.map (ResultSet.answering · s.lastInsertId) else result,s)
  | (none,s) => (none,s)

def connectToDatabase (s : DbService) : Bool × DbService :=
  let s :=
    if s.enabled && !s.connected then
      match dbmysqlConnect s with
      | (true,s) =>
        let (reply,s) := s.answer
        {s with connected := true,connectionTime := reply.now}
      | (false,s) => s
    else s
  let (reply,s) := s.answer
  (s.connected,{s with recentUseTime := reply.now})

-- The cached statements are not closed here.
def reconnectToDatabase (s : DbService) : Bool × DbService :=
  connectToDatabase {dbmysqlDisconnect s with connected := false}

def safeReconnectToDatabase : Nat → DbService → DbService
  | 0,s => s
  | left+1,s =>
    match reconnectToDatabase s with
    | (true,s) => s
    | (false,s) => safeReconnectToDatabase left s

-- while (!reconnect_to_database ()) gives up after the 21st failure.
def tryReconnect (s : DbService) : DbService := safeReconnectToDatabase 21 s

-- do ... while (tried < 60)
def createStatement : Nat → DbService → Option Stmt × DbService
  | 0,s => (none,s)
  | left+1,s =>
    match dbmysqlCreateStatement s with
    | (some stmt,s) => (some stmt,s)
    | (none,s) => createStatement left (tryReconnect s)

def retrieveStatement (s : DbService) (name : QueryName) : Option Stmt × DbService :=
  match s.stmtHolder name,s.queries name with
  | some stmt,_ => (some stmt,s)
  | none,some _ =>
    let (stmt,s) := createStatement 60 s
    (stmt,{s with stmtHolder := Function.update s.stmtHolder name stmt})
  | none,none => (none,s)

def requestOf (row : Row) : DbProxyRequest := ⟨row.strings 2,row.ints 1,row.ints 3⟩

def checkAvailable (s : DbService) (remoteIp : String) : Option DbProxyRequest × DbService :=
  match connectToDatabase s with
  | (true,s) =>
    match retrieveStatement s .checkAvailable with
    | (some stmt,s) =>
      match dbmysqlExecuteQuery s .checkAvailable stmt [.string remoteIp] with
      | (some result,s) =>
        match result.rows with
        | row :: _ => (some (requestOf row),s)
        | [] => (none,if result.errno ≠ 0 then tryReconnect s else s)
      | (none,s) => (none,tryReconnect s)
    | (none,s) => (none,s)
  | (false,s) => (none,s)

def updateOnce (s : DbService) (name : QueryName) (parameters : List Parameter) : Int × DbService :=
  match connectToDatabase s with
  | (true,s) =>
    match retrieveStatement s name with
    | (some stmt,s) => dbmysqlExecuteUpdate s name stmt parameters
    | (none,s) => (0,s)
  | (false,s) => (0,s)

-- setInt takes an int: bytes loses its upper half.
def connectionClose (s : DbService) (sn bytes count : Int) (idle : Bool) : DbService :=
  (updateOnce s .connectionClose
    [.int (toInt32 bytes),.int count,.string (if idle then "timeout" else "normal"),.int sn]).2

-- What the two updates answer is not looked at.
def connectionEstablished (s : DbService) (sn : Int) (account : Option String) (ipaddr : String) :
    Int × DbService :=
  match connectToDatabase s with
  | (true,s) =>
    match retrieveStatement s .connectionEstablished with
    | (some stmt,s) =>
      let s := (dbmysqlExecuteUpdate s .connectionEstablished stmt [.int sn]).2
      match retrieveStatement s .connectionBegin with
      | (some stmt2,s) =>
        let s := (dbmysqlExecuteUpdate s .connectionBegin stmt2 [.string ipaddr,.string (account.getD "")]).2
        match retrieveStatement s .lastInsertId with
        | (some stmt3,s) =>
          match dbmysqlExecuteQuery s .lastInsertId stmt3 [] with
          | (some result,s) =>
            match result.rows with
            | row :: _ => (row.ints 1,s)
            | [] => (0,s)
          | (none,s) => (0,s)
        | (none,s) => (0,s)
      | (none,s) => (0,s)
    | (none,s) => (0,s)
  | (false,s) => (0,s)

def connectionNotAllowed (s : DbService) (ipaddr : String) : DbService :=
  (updateOnce s .connectionNotAllowed [.string ipaddr]).2

def readAllProductNames (s : DbService) : List (Option String × Option String × Option String) × DbService :=
  match connectToDatabase s with
  | (true,s) =>
    match retrieveStatement s .allProductNames with
    | (some stmt,s) =>
      match dbmysqlExecuteQuery s .allProductNames stmt [] with
      | (some result,s) => (result.rows.map fun row => (row.strings 1,row.strings 2,row.strings 3),s)
      | (none,s) => ([],s)
    | (none,s) => ([],s)
  | (false,s) => ([],s)

def checkVip (s : DbService) (ipaddr : String) : Int × DbService := updateOnce s .checkVip [.string ipaddr]

def connectionBlacklisted (s : DbService) (ipaddr : String) : Int × DbService :=
  updateOnce s .blacklist [.string ipaddr]

def addIpToAutoBlacklist (s : DbService) (ipaddr : String) : Int × DbService :=
  updateOnce s .addToBlacklist [.string ipaddr]

def addKmsDetails (s : DbService) (info : ConnectionInfo) (workstation : String) (majorVersion minorVersion : Int)
    (appId kmsId clientMachineId : String) (remainingMin : Int) : Int × DbService :=
  updateOnce s .addDetails
    [.string ((info.requestInDb.bind DbProxyRequest.account).getD ""),.string info.remoteIp,.string workstation,
      .int majorVersion,.int minorVersion,.string appId,.string kmsId,.string clientMachineId,.int remainingMin]

def updateMachineOwner (s : DbService) (info : ConnectionInfo) (clientMachineId : String) : Int × DbService :=
  match info.requestInDb.bind DbProxyRequest.account with
  | some account => updateOnce s .addMachineOwner
      [.string clientMachineId,.string account,.string info.remoteIp,.string info.remoteIp,.string account]
  | none => updateOnce s .updateMachineAccess
      [.string clientMachineId,.string "",.string info.remoteIp,.string info.remoteIp]

-- Each result set overwrites what the one before it has said.
def failGuessingHandler (result : ResultSet) : Bool :=
  match result.rows with
  | row :: _ => 5 < row.ints 1
  | [] => false

def failGuessing (s : DbService) (ipAddress : String) : Bool × DbService :=
  match connectToDatabase s with
  | (true,s) =>
    match retrieveStatement s .callFailureGuessing with
    | (some stmt,s) =>
      match dbmysqlLocalExecute s .callFailureGuessing stmt [.string ipAddress] with
      | (some reply,s) =>
        (reply.results.foldl (fun before result => (result.map failGuessingHandler).getD before) false,s)
      | (none,s) => (false,s)
    | (none,s) => (false,s)
  | (false,s) => (false,s)

def closeAllStatements (s : DbService) : DbService := {s with stmtHolder := fun _ => none}

def hangUp (s : DbService) : DbService := {dbmysqlDisconnect (closeAllStatements s) with connected := false}

def databaseTimeout : ℚ := 300

def closeIdle (s : DbService) (tv : Timeval) : DbService :=
  if s.connected ∧ databaseTimeout < elapsedTime tv s.recentUseTime then hangUp s else s

def dbServiceDone (s : DbService) : DbService :=
  if s.connected then
    let (reply,s) := s.answer
    if s.maxConnectionTime < elapsedTime reply.now s.connectionTime then hangUp s else s
  else s

def service : DatabaseService DbService where
  checkAvailable := checkAvailable
  connectionClose := connectionClose
  connectionEstablished := connectionEstablished
  connectionNotAllowed := connectionNotAllowed
  connectionBlacklisted := connectionBlacklisted
  checkVip := checkVip
  addIpToAutoBlacklist := addIpToAutoBlacklist
  failGuessing := failGuessing
  closeIdle := closeIdle
  done := dbServiceDone

inductive Operation where
  | checkAvailable (remoteIp : String)
  | connectionClose (sn bytes count : Int) (idle : Bool)
  | connectionEstablished (sn : Int) (account : Option String) (ipaddr : String)
  | connectionNotAllowed (ipaddr : String)
  | connectionBlacklisted (ipaddr : String)
  | checkVip (ipaddr : String)
  | addIpToAutoBlacklist (ipaddr : String)
  | addKmsDetails (info : ConnectionInfo) (workstation : String) (majorVersion minorVersion : Int)
      (appId kmsId clientMachineId : String) (remainingMin : Int)
  | updateMachineOwner (info : ConnectionInfo) (clientMachineId : String)
  | readAllProductNames
  | failGuessing (ipAddress : String)
  | closeIdle (tv : Timeval)
  | done

def operate (s : DbService) : Operation → DbService
  | .checkAvailable remoteIp => (checkAvailable s remoteIp).2
  | .connectionClose sn bytes count idle => connectionClose s sn bytes count idle
  | .connectionEstablished sn account ipaddr => (connectionEstablished s sn account ipaddr).2
  | .connectionNotAllowed ipaddr => connectionNotAllowed s ipaddr
  | .connectionBlacklisted ipaddr => (connectionBlacklisted s ipaddr).2
  | .checkVip ipaddr => (checkVip s ipaddr).2
  | .addIpToAutoBlacklist ipaddr => (addIpToAutoBlacklist s ipaddr).2
  | .addKmsDetails info workstation major minor appId kmsId cmid remaining =>
    (addKmsDetails s info workstation major minor appId kmsId cmid remaining).2
  | .updateMachineOwner info cmid => (updateMachineOwner s info cmid).2
  | .readAllProductNames => (readAllProductNames s).2
  | .failGuessing ipAddress => (failGuessing s ipAddress).2
  | .closeIdle tv => closeIdle s tv
  | .done => dbServiceDone s

end TcpProxy.Database
