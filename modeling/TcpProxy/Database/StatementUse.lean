import TcpProxy.Database.Service
import TcpProxy.Database.StatementMemory
import TcpProxy.Lib.Run
import Mathlib.Algebra.GroupWithZero.Nat
import Mathlib.Data.List.ReduceOption

namespace TcpProxy.Database.StatementUse
open DbMysql.Memory Ownership Proxying

def stmtHolderNames : List QueryName :=
  [.checkAvailable,.connectionClose,.lastInsertId,.connectionNotAllowed,.checkVip,.connectionEstablished,
    .connectionBegin,.blacklist,.addToBlacklist,.addDetails,.addMachineOwner,.updateMachineAccess,.callFailureGuessing,
    .allProductNames]

theorem mem_stmtHolderNames (name : QueryName) : name ∈ stmtHolderNames := by
  cases name <;> decide

theorem stmtHolderNames_nodup : stmtHolderNames.Nodup := by decide

inductive Setting where
  | clearParameters
  | setInt (parameterIndex : Nat)
  | setString (parameterIndex : Nat)
deriving DecidableEq, Repr

inductive Column where
  | getInt (parameterIndex : Nat)
  | getString (parameterIndex : Nat)
deriving DecidableEq, Repr

inductive Use where
  | update
  | query
  | multipleQuery
deriving DecidableEq, Repr

-- What an operation does with one statement: what it sets, how it executes it,
-- what it reads of a row, whether it reads them all, and whether it reconnects
-- after an error.
structure Job where
  name : QueryName
  settings : List Setting
  use : Use
  columns : List Column
  all : Bool
  reconnects : Bool
deriving DecidableEq, Repr

def settingsOf (parameters : List Parameter) : List Setting :=
  (parameters.zipIdx 1).map fun (parameter,i) => match parameter with
    | .int _ => .setInt i
    | .string _ => .setString i

def updateJob (name : QueryName) (parameters : List Parameter) : Job :=
  ⟨name,settingsOf parameters,.update,[],false,false⟩

def clearedJob (name : QueryName) (parameters : List Parameter) : Job :=
  {updateJob name parameters with settings := .clearParameters :: settingsOf parameters}

def checkAvailable (remoteIp : String) : List Job :=
  [⟨.checkAvailable,settingsOf [.string remoteIp],.query,[.getInt 1,.getString 2,.getInt 3],false,true⟩]

def connectionClose (sn bytes count : Int) (idle : Bool) : List Job :=
  [updateJob .connectionClose [.int bytes,.int count,.string (if idle then "timeout" else "normal"),.int sn]]

def connectionEstablished (sn : Int) (account : Option String) (ipaddr : String) : List Job :=
  [updateJob .connectionEstablished [.int sn],updateJob .connectionBegin [.string ipaddr,.string (account.getD "")],
    ⟨.lastInsertId,[],.query,[.getInt 1],false,false⟩]

def connectionNotAllowed (ipaddr : String) : List Job := [updateJob .connectionNotAllowed [.string ipaddr]]

def connectionBlacklisted (ipaddr : String) : List Job := [updateJob .blacklist [.string ipaddr]]

def checkVip (ipaddr : String) : List Job := [updateJob .checkVip [.string ipaddr]]

def addIpToAutoBlacklist (ipaddr : String) : List Job := [updateJob .addToBlacklist [.string ipaddr]]

def addKmsDetails (info : ConnectionInfo) (workstation : String) (majorVersion minorVersion : Int)
    (appId kmsId clientMachineId : String) (remainingMin : Int) : List Job :=
  [clearedJob .addDetails
    [.string ((info.requestInDb.bind DbProxyRequest.account).getD ""),.string info.remoteIp,.string workstation,
      .int majorVersion,.int minorVersion,.string appId,.string kmsId,.string clientMachineId,.int remainingMin]]

def updateMachineOwner (info : ConnectionInfo) (clientMachineId : String) : List Job :=
  match info.requestInDb.bind DbProxyRequest.account with
  | some account => [clearedJob .addMachineOwner
      [.string clientMachineId,.string account,.string info.remoteIp,.string info.remoteIp,.string account]]
  | none => [clearedJob .updateMachineAccess
      [.string clientMachineId,.string "",.string info.remoteIp,.string info.remoteIp]]

def readAllProductNames : List Job :=
  [⟨.allProductNames,[],.query,[.getString 1,.getString 2,.getString 3],true,false⟩]

def failGuessing (ipAddress : String) : List Job :=
  [⟨.callFailureGuessing,.clearParameters :: settingsOf [.string ipAddress],.multipleQuery,[.getInt 1],false,false⟩]

def jobsOf : Operation → List Job
  | .checkAvailable remoteIp => checkAvailable remoteIp
  | .connectionClose sn bytes count idle => connectionClose sn bytes count idle
  | .connectionEstablished sn account ipaddr => connectionEstablished sn account ipaddr
  | .connectionNotAllowed ipaddr => connectionNotAllowed ipaddr
  | .connectionBlacklisted ipaddr => connectionBlacklisted ipaddr
  | .checkVip ipaddr => checkVip ipaddr
  | .addIpToAutoBlacklist ipaddr => addIpToAutoBlacklist ipaddr
  | .addKmsDetails info workstation major minor appId kmsId cmid remaining =>
    addKmsDetails info workstation major minor appId kmsId cmid remaining
  | .updateMachineOwner info cmid => updateMachineOwner info cmid
  | .readAllProductNames => readAllProductNames
  | .failGuessing ipAddress => failGuessing ipAddress
  | .closeIdle _ | .done => []

-- Where an operation is, with the pointers that it has in hand: the object of a
-- statement, what is behind it, and a result set. `rest` are the statements
-- that are still to come.
inductive Point where
  | idle
  | connecting (job : Job) (rest : List Job)
  | reconnecting (left : Nat) (back : Option (Nat × Job × List Job))
  | retrieving (left : Nat) (job : Job) (rest : List Job)
  | retrieved (job : Job) (rest : List Job)
  | setting (self : Nat) (settings : List Setting) (job : Job) (rest : List Job)
  | executing (self : Nat) (job : Job) (rest : List Job)
  | resulting (stmt : Nat) (job : Job) (rest : List Job)
  | fetching (stmt result : Nat) (job : Job) (rest : List Job)
  | reading (stmt result : Nat) (columns : List Column) (job : Job) (rest : List Job)
  | closing (stmt result : Nat) (failed : Bool) (job : Job) (rest : List Job)
  | continuing (stmt : Nat) (job : Job) (rest : List Job)
deriving DecidableEq, Repr

def Point.pointers : Point → List Nat
  | .setting self _ _ _ | .executing self _ _ => [self]
  | .resulting stmt _ _ | .continuing stmt _ _ => [stmt]
  | .fetching stmt result _ _ | .reading stmt result _ _ _ | .closing stmt result _ _ _ => [stmt,result]
  | _ => []

structure Answer where
  now : Timeval
  connect : Bool
  connectedAt : Timeval
  preparing : Preparing
  binds : Bool
  executes : Bool
  columns : Option Columns
  row : Bool
  failed : Bool
  cell : Cell
  more : Bool

structure Config where
  enabled : Bool
  queries : QueryName → Option String
  maxConnectionTime : Int

-- The mutex of the proxy's workers lets one operation run at a time; close_idle
-- of the timer's thread comes in between.
structure State where
  heap : Heap Block
  misused : Bool
  stmtHolder : QueryName → Option Nat
  connected : Bool
  recentUseTime : Timeval
  connectionTime : Timeval
  point : Point

def started : State := ⟨Heap.empty,false,fun _ => none,false,⟨0,0⟩,⟨0,0⟩,.idle⟩

inductive Event where
  | calls (op : Operation)
  | works (answer : Answer)
  | done (now : Timeval)
  | closeIdle (tv : Timeval)

def State.use {α : Type} (s : State) (c : Program Block α) (after : α → State → State) : State :=
  match c s.heap with
  | some (a,heap) => after a {s with heap := heap}
  | none => {s with misused := true}

def closeAllStatements (stmtHolder : QueryName → Option Nat) : Program Block Unit :=
  stmtHolderNames.forM fun name => match stmtHolder name with
    | some st => stmtClose st
    | none => pure ()

def hangUp (s : State) : State :=
  s.use (closeAllStatements s.stmtHolder) fun _ s => {s with stmtHolder := fun _ => none,connected := false}

def closes (s : State) (tv : Timeval) : Bool := s.connected && decide (databaseTimeout < elapsedTime tv s.recentUseTime)

def closeIdle (s : State) (tv : Timeval) : State := if closes s tv then hangUp s else s

def dbServiceDone (config : Config) (s : State) (now : Timeval) : State :=
  if s.connected && decide (config.maxConnectionTime < elapsedTime now s.connectionTime) then hangUp s else s

def connectToDatabase (config : Config) (s : State) (answer : Answer) : State :=
  let s := if config.enabled && !s.connected && answer.connect then {s with connected := true,connectionTime := answer.connectedAt}
    else s
  {s with recentUseTime := answer.now}

def next (rest : List Job) : Point :=
  match rest with
  | [] => .idle
  | job :: rest => .retrieving 60 job rest

-- 21 attempts, as in safe_reconnect_to_database
def failing (job : Job) : Point := if job.reconnects then .reconnecting 20 none else .idle

def resume : Option (Nat × Job × List Job) → Point
  | some (left,job,rest) => .retrieving left job rest
  | none => .idle

def Setting.program (self : Nat) : Setting → Program Block Unit
  | .clearParameters => DbMysql.Memory.clearParameters self
  | .setInt i => DbMysql.Memory.setInt self i
  | .setString i => DbMysql.Memory.setString self i

def Column.program (result : Nat) (cell : Cell) : Column → Program Block Unit
  | .getInt i => DbMysql.Memory.getInt result i
  | .getString i => do let _ ← DbMysql.Memory.getString result i cell

def fetchResult (use : Use) (stmt : Nat) (columns : Option Columns) : Program Block (Option Nat) :=
  match use,columns with
  | .multipleQuery,none => do
    useStatement stmt
    return none
  | .multipleQuery,some columns => do
    useStatement stmt
    internalFetchResult stmt (some columns)
  | _,columns => internalFetchResult stmt columns

def work (config : Config) (s : State) (answer : Answer) : State :=
  match s.point with
  | .idle => s
  | .connecting job rest =>
    let s := connectToDatabase config s answer
    {s with point := if s.connected then .retrieving 60 job rest else .idle}
  | .reconnecting left back =>
    let s := connectToDatabase config {s with connected := false} answer
    match s.connected,left with
    | true,_ | false,0 => {s with point := resume back}
    | false,left+1 => {s with point := .reconnecting left back}
  | .retrieving left job rest =>
    match s.stmtHolder job.name,config.queries job.name,left with
    | some _,_,_ => {s with point := .retrieved job rest}
    | none,some _,left+1 => s.use (DbMysql.Memory.createStatement answer.preparing) fun st s => match st with
      | some st => {s with stmtHolder := Function.update s.stmtHolder job.name (some st),point := .retrieved job rest}
      | none => {s with point := .reconnecting 20 (some (left,job,rest))}
    | none,_,_ => {s with point := .idle}
  | .retrieved job rest =>
    match s.stmtHolder job.name with
    | some st => s.use (clearParameters st) fun _ s => {s with point := .setting st job.settings job rest}
    | none => {s with point := .idle}
  | .setting self [] job rest => {s with point := .executing self job rest}
  | .setting self (setting :: settings) job rest =>
    s.use (setting.program self) fun _ s => {s with point := .setting self settings job rest}
  | .executing self job rest =>
    match job.use with
    | .update => s.use (executeUpdate self answer.binds answer.executes) fun _ s => {s with point := next rest}
    | _ => s.use (execute self answer.binds answer.executes) fun done s =>
      {s with point := if done.2 then .resulting done.1 job rest else failing job}
  | .resulting stmt job rest =>
    s.use (fetchResult job.use stmt answer.columns) fun found s => match found,job.use with
      | some result,_ => {s with point := .fetching stmt result job rest}
      | none,.multipleQuery => {s with point := .continuing stmt job rest}
      | none,_ => {s with point := failing job}
  | .fetching stmt result job rest =>
    s.use (DbMysql.Memory.next result answer.row) fun row s =>
      {s with point := if row then .reading stmt result job.columns job rest else .closing stmt result answer.failed job rest}
  | .reading stmt result [] job rest =>
    {s with point := if job.all then .fetching stmt result job rest else .closing stmt result false job rest}
  | .reading stmt result (column :: columns) job rest =>
    s.use (column.program result answer.cell) fun _ s => {s with point := .reading stmt result columns job rest}
  | .closing stmt result failed job rest =>
    s.use (resultClose result) fun _ s => match job.use with
      | .multipleQuery => {s with point := .continuing stmt job rest}
      | _ => {s with point := if failed && job.reconnects then .reconnecting 20 none else next rest}
  | .continuing stmt job rest =>
    s.use (useStatement stmt) fun _ s => {s with point := if answer.more then .resulting stmt job rest else next rest}

def step (config : Config) (s : State) (event : Event) : State :=
  if s.misused then s
  else match event with
    | .calls op => match s.point,jobsOf op with
      | .idle,job :: rest => {s with point := .connecting job rest}
      | _,_ => s
    | .works answer => work config s answer
    | .done now => match s.point with
      | .idle => dbServiceDone config s now
      | _ => s
    | .closeIdle tv => closeIdle s tv

-- All that an operation has in hand is allocated, and nothing else was used.
def Intact (s : State) : Prop := s.misused = false ∧ ∀ p ∈ s.point.pointers, (s.heap.block p).isSome

def Strikes (s : State) : Event → Prop
  | .closeIdle tv => closes s tv = true ∧ s.point.pointers ≠ []
  | _ => False

-- The arrays and the strings that a statement has for its last result set.
def resultAllocated (h : Heap Block) (stmt : Nat) : List Nat :=
  match (h.block stmt).bind Block.stmt? with
  | some s => match s.resultBind,s.resultBindData with
    | some bind,some data => match (h.block data).bind Block.bindData? with
      | some strings => bind :: data :: strings.reduceOption
      | none => []
    | _,_ => []
  | none => []

-- What nobody can free any more after a step: the MYSQL_STMT of a text that was
-- refused, the third block that createStatement has asked for, and what a
-- statement had for the result set before.
def lost (config : Config) (s : State) (event : Event) : Option (List Nat) :=
  match s.misused,event,s.point with
  | false,.works answer,.retrieving (_+1) job _ =>
    if s.stmtHolder job.name = none ∧ (config.queries job.name).isSome ∧ answer.preparing = .refused then some [s.heap.next+2]
    else none
  | false,.works answer,.resulting stmt _ _ => answer.columns.map fun _ => resultAllocated s.heap stmt
  | _,_,_ => none

def owned (views : QueryName → Option Statement) (names : List QueryName) : Blocks Block :=
  (names.map fun name => (views name).elim 0 Statement.blocks).sum

inductive Has (views : QueryName → Option Statement) : Point → Blocks Block → Prop where
  | nothing (point : Point) (absent : point.pointers = []) : Has views point 0
  | setting (there : views job.name = some v) : Has views (.setting v.self settings job rest) 0
  | executing (there : views job.name = some v) : Has views (.executing v.self job rest) 0
  | resulting (there : views job.name = some v) : Has views (.resulting v.stmt job rest) 0
  | continuing (there : views job.name = some v) : Has views (.continuing v.stmt job rest) 0
  | fetching (there : views job.name = some v) (opens : Opens v r) :
      Has views (.fetching v.stmt r.self job rest) r.blocks
  | reading (there : views job.name = some v) (opens : Opens v r) :
      Has views (.reading v.stmt r.self columns job rest) r.blocks
  | closing (there : views job.name = some v) (opens : Opens v r) :
      Has views (.closing v.stmt r.self failed job rest) r.blocks

theorem Has.zero {views : QueryName → Option Statement} (has : Has views point opened) (absent : point.pointers = []) :
    opened = 0 := by
  cases has with
  | fetching | reading | closing => simp [Point.pointers] at absent
  | _ => rfl

structure Valid (views : QueryName → Option Statement) (lost : Blocks Block) (s : State) : Prop where
  used : s.misused = false
  holder : ∀ name, s.stmtHolder name = (views name).map Statement.self
  holds : ∃ opened, Has views s.point opened ∧ Holds s.heap (owned views stmtHolderNames+opened+lost)

variable {views : QueryName → Option Statement} {s : State} {others : Blocks Block} {v : Statement} {r : Result}

theorem owned_split (views : QueryName → Option Statement) (name : QueryName) :
    owned views stmtHolderNames = (views name).elim 0 Statement.blocks+owned views (stmtHolderNames.erase name) :=
  (List.sum_map_erase _ (mem_stmtHolderNames name)).symm

theorem owned_update (views : QueryName → Option Statement) (name : QueryName) (v : Statement) :
    owned (Function.update views name (some v)) stmtHolderNames =
      v.blocks+owned views (stmtHolderNames.erase name) := by
  rw [owned_split _ name,Function.update_self,Option.elim_some]
  congr 1
  unfold owned
  congr 1
  refine List.map_congr_left fun other member => ?_
  rw [Function.update_of_ne]
  rintro rfl
  exact stmtHolderNames_nodup.not_mem_erase member

theorem owned_some (there : views name = some v) :
    owned views stmtHolderNames = v.blocks+owned views (stmtHolderNames.erase name) := by
  rw [owned_split views name,there,Option.elim_some]

theorem owned_none (absent : views name = none) :
    owned views stmtHolderNames = owned views (stmtHolderNames.erase name) := by
  rw [owned_split views name,absent,Option.elim_none,zero_add]

theorem use_spec {c : Program Block α} {post : α → Blocks Block → Prop} (spec : Spec needs c post)
    (held : Holds s.heap (needs+others)) : ∃ a heap own,
      (∀ after : α → State → State, s.use c after = after a {s with heap := heap}) ∧ post a own ∧
        Holds heap (own+others) := by
  obtain ⟨a,heap,own,ran,holds,held',_⟩ := spec others s.heap held
  exact ⟨a,heap,own,fun _ => by rw [State.use,ran],holds,held'⟩

theorem spec_closeAllStatements {stmtHolder : QueryName → Option Nat}
    (holder : ∀ name, stmtHolder name = (views name).map Statement.self) :
    Spec (owned views stmtHolderNames) (closeAllStatements stmtHolder) fun _ own => own = 0 := by
  unfold closeAllStatements
  generalize stmtHolderNames = names
  induction names with
  | nil => exact spec_pure rfl
  | cons name names ih =>
      have one : Spec ((views name).elim 0 Statement.blocks) (match stmtHolder name with
          | some st => stmtClose st
          | none => pure ()) fun _ own => own = 0 := by
        rw [holder name]
        cases views name with
        | none => exact spec_pure rfl
        | some v => exact spec_stmtClose v
      rw [owned,List.map_cons,List.sum_cons]
      refine spec_call _ one (owned views names) rfl fun _ own gone => ?_
      rw [gone,zero_add]
      exact ih

-- What a statement's own blocks and the result set that is open become, the
-- other statements are not touched by.
theorem valid_again {opened more lost : Blocks Block} (used : s.misused = false)
    (holder : ∀ name, s.stmtHolder name = (views name).map Statement.self) (there : views name = some v)
    (self : v'.self = v.self) (has : Has (Function.update views name (some v')) point opened)
    (held : Holds heap (v'.blocks+opened+more+(owned views (stmtHolderNames.erase name)+lost))) :
    Valid (Function.update views name (some v')) (lost+more) {s with heap := heap,point := point} := by
  refine ⟨used,fun other => ?_,opened,has,?_⟩
  · change s.stmtHolder other = _
    rw [holder other,Function.update_apply]
    split
    · next same => rw [same,there,Option.map_some,Option.map_some,self]
    · rfl
  · rw [owned_update]
    have parts : v'.blocks+owned views (stmtHolderNames.erase name)+opened+(lost+more) =
        v'.blocks+opened+more+(owned views (stmtHolderNames.erase name)+lost) := by ac_rfl
    rwa [parts]

theorem valid_point {lost : Blocks Block} (used : s.misused = false)
    (holder : ∀ name, s.stmtHolder name = (views name).map Statement.self) (absent : point.pointers = [])
    (held : Holds heap (owned views stmtHolderNames+lost)) : Valid views lost {s with heap := heap,point := point} :=
  ⟨used,holder,0,.nothing point absent,by rwa [add_zero]⟩

theorem used_step {opened lost : Blocks Block} {c : Program Block α} {post : α → Blocks Block → Prop}
    (there : views name = some v) (held : Holds s.heap (owned views stmtHolderNames+opened+lost))
    (spec : Spec (v.blocks+opened) c post) : ∃ a heap own,
      (∀ after : α → State → State, s.use c after = after a {s with heap := heap}) ∧ post a own ∧
        Holds heap (own+(owned views (stmtHolderNames.erase name)+lost)) := by
  refine use_spec spec ?_
  rw [owned_some there] at held
  have parts : v.blocks+opened+(owned views (stmtHolderNames.erase name)+lost) =
      v.blocks+owned views (stmtHolderNames.erase name)+opened+lost := by ac_rfl
  rwa [parts]

def Keeps (config : Config) (lostBlocks : Blocks Block) (s : State) (event : Event) : Prop :=
  ∃ views more, Valid views (lostBlocks+more) (step config s event) ∧
    more.map Prod.fst = ((lost config s event).getD [] : Multiset Nat)

variable {config : Config} {lostBlocks opened : Blocks Block} {answer : Answer}

theorem works_step (used : s.misused = false) : step config s (.works answer) = work config s answer := by
  simp [step,used]

theorem setting_kept (used : s.misused = false) (holder : ∀ name, s.stmtHolder name = (views name).map Statement.self)
    (place : s.point = .setting v.self settings job rest) (there : views job.name = some v)
    (held : Holds s.heap (owned views stmtHolderNames+0+lostBlocks)) : Keeps config lostBlocks s (.works answer) := by
  have nothing : lost config s (.works answer) = none := by simp [lost,used,place]
  cases settings with
  | nil =>
      refine ⟨views,0,?_,by simp [nothing]⟩
      rw [works_step used,work,place,add_zero]
      exact ⟨used,holder,0,.executing there,held⟩
  | cons setting settings =>
      have spec : Spec (v.blocks+0) (setting.program v.self) fun _ own => ∃ params, own = (v.with params).blocks := by
        rw [add_zero]
        cases setting with
        | clearParameters => exact spec_mono (spec_clearParameters v) fun _ _ reached => reached.imp fun _ both => both.1
        | setInt i => exact spec_mono (spec_setInt v i) fun _ _ reached => reached.imp fun _ both => both.1
        | setString i => exact spec_mono (spec_setString v i) fun _ _ reached => reached.imp fun _ both => both.1
      obtain ⟨_,heap,own,ran,⟨params,rfl⟩,held'⟩ := used_step there held spec
      refine ⟨Function.update views job.name (some (v.with params)),0,?_,by simp [nothing]⟩
      rw [works_step used,work,place]
      simp only
      rw [ran]
      have has : Has (Function.update views job.name (some (v.with params))) (.setting v.self settings job rest) 0 :=
        .setting (v := v.with params) (Function.update_self ..)
      exact valid_again used holder there rfl has (by simpa only [add_zero] using held')

theorem valid_same {lost : Blocks Block} (used : s.misused = false)
    (holder : ∀ name, s.stmtHolder name = (views name).map Statement.self) (there : views name = some v)
    (has : Has views point opened) (held : Holds heap (v.blocks+opened+(owned views (stmtHolderNames.erase name)+lost))) :
    Valid views lost {s with heap := heap,point := point} := by
  refine ⟨used,holder,opened,has,?_⟩
  rw [owned_some there]
  have parts : v.blocks+owned views (stmtHolderNames.erase name)+opened+lost =
      v.blocks+opened+(owned views (stmtHolderNames.erase name)+lost) := by ac_rfl
  rwa [parts]

@[simp] theorem next_pointers (rest : List Job) : (next rest).pointers = [] := by
  cases rest <;> rfl

@[simp] theorem failing_pointers (job : Job) : (failing job).pointers = [] := by
  unfold failing
  split <;> rfl

@[simp] theorem resume_pointers (back : Option (Nat × Job × List Job)) : (resume back).pointers = [] := by
  cases back <;> rfl

theorem executing_kept (used : s.misused = false) (holder : ∀ name, s.stmtHolder name = (views name).map Statement.self)
    (place : s.point = .executing v.self job rest) (there : views job.name = some v)
    (held : Holds s.heap (owned views stmtHolderNames+0+lostBlocks)) : Keeps config lostBlocks s (.works answer) := by
  refine ⟨views,0,?_,by simp [lost,used,place]⟩
  rw [works_step used,work,place,add_zero]
  simp only
  split
  · obtain ⟨_,heap,own,ran,rfl,held'⟩ := used_step there held
      (by rw [add_zero]; exact spec_executeUpdate v answer.binds answer.executes)
    rw [ran]
    exact valid_same used holder there (.nothing _ (next_pointers rest)) (by rwa [add_zero])
  · obtain ⟨done,heap,own,ran,⟨stmt,rfl⟩,held'⟩ := used_step there held
      (by rw [add_zero]; exact spec_execute v answer.binds answer.executes)
    rw [ran]
    simp only [stmt]
    split
    · exact valid_same used holder there (.resulting there) (by rwa [add_zero])
    · exact valid_same used holder there (.nothing _ (failing_pointers job)) (by rwa [add_zero])

theorem continuing_kept (used : s.misused = false)
    (holder : ∀ name, s.stmtHolder name = (views name).map Statement.self)
    (place : s.point = .continuing v.stmt job rest) (there : views job.name = some v)
    (held : Holds s.heap (owned views stmtHolderNames+0+lostBlocks)) : Keeps config lostBlocks s (.works answer) := by
  refine ⟨views,0,?_,by simp [lost,used,place]⟩
  rw [works_step used,work,place,add_zero]
  obtain ⟨_,heap,own,ran,rfl,held'⟩ := used_step there held (by rw [add_zero]; exact spec_useStatement v)
  simp only
  rw [ran]
  split
  · exact valid_same used holder there (.resulting there) (by rwa [add_zero])
  · exact valid_same used holder there (.nothing _ (next_pointers rest)) (by rwa [add_zero])

theorem fetching_kept (used : s.misused = false)
    (holder : ∀ name, s.stmtHolder name = (views name).map Statement.self)
    (place : s.point = .fetching v.stmt r.self job rest) (there : views job.name = some v) (opens : Opens v r)
    (held : Holds s.heap (owned views stmtHolderNames+r.blocks+lostBlocks)) : Keeps config lostBlocks s (.works answer) := by
  refine ⟨views,0,?_,by simp [lost,used,place]⟩
  rw [works_step used,work,place,add_zero]
  obtain ⟨_,heap,own,ran,⟨rfl,rfl⟩,held'⟩ := used_step there held (spec_next opens answer.row)
  simp only
  rw [ran]
  split
  · exact valid_same used holder there (.reading there opens) held'
  · exact valid_same used holder there (.closing there opens) held'

theorem closing_kept (used : s.misused = false)
    (holder : ∀ name, s.stmtHolder name = (views name).map Statement.self)
    (place : s.point = .closing v.stmt r.self failed job rest) (there : views job.name = some v) (opens : Opens v r)
    (held : Holds s.heap (owned views stmtHolderNames+r.blocks+lostBlocks)) : Keeps config lostBlocks s (.works answer) := by
  refine ⟨views,0,?_,by simp [lost,used,place]⟩
  rw [works_step used,work,place,add_zero]
  obtain ⟨_,heap,own,ran,rfl,held'⟩ := used_step there held (spec_resultClose opens)
  simp only
  rw [ran]
  split
  · exact valid_same used holder there (.continuing there) (by rwa [add_zero])
  · refine valid_same used holder there (.nothing _ ?_) (by rwa [add_zero])
    split
    · rfl
    · exact next_pointers rest

theorem reading_kept (used : s.misused = false)
    (holder : ∀ name, s.stmtHolder name = (views name).map Statement.self)
    (place : s.point = .reading v.stmt r.self columns job rest) (there : views job.name = some v) (opens : Opens v r)
    (held : Holds s.heap (owned views stmtHolderNames+r.blocks+lostBlocks)) : Keeps config lostBlocks s (.works answer) := by
  have nothing : lost config s (.works answer) = none := by simp [lost,used,place]
  cases columns with
  | nil =>
      refine ⟨views,0,?_,by simp [nothing]⟩
      rw [works_step used,work,place,add_zero]
      simp only
      split
      · exact ⟨used,holder,r.blocks,.fetching there opens,held⟩
      · exact ⟨used,holder,r.blocks,.closing there opens,held⟩
  | cons column columns =>
      have spec : Spec (v.blocks+r.blocks) (column.program r.self answer.cell) fun _ own =>
          ∃ v' : Statement, v'.self = v.self ∧ v'.stmt = v.stmt ∧ Opens v' r ∧ own = v'.blocks+r.blocks := by
        cases column with
        | getInt i => exact spec_mono (spec_getInt opens i) fun _ own same => ⟨v,rfl,rfl,opens,same⟩
        | getString i =>
            refine spec_bind (spec_getString opens i answer.cell) fun _ own reached => ?_
            obtain ⟨v',self,opens',same⟩ := reached
            exact spec_pure ⟨v',self,opens'.stmt.symm.trans opens.stmt,opens',same⟩
      obtain ⟨_,heap,own,ran,⟨v',self,stmt,opens',rfl⟩,held'⟩ := used_step there held spec
      refine ⟨Function.update views job.name (some v'),0,?_,by simp [nothing]⟩
      rw [works_step used,work,place]
      simp only
      rw [ran,← stmt]
      exact valid_again used holder there self (.reading (Function.update_self ..) opens') (by simpa only [add_zero] using held')

theorem spec_fetchResult (v : Statement) (use : Use) (columns : Option Columns) :
    Spec v.blocks (fetchResult use v.stmt columns) fun res own => match columns with
      | none => res = none ∧ own = v.blocks
      | some _ => ∃ r arrays, res = some r.self ∧ Opens (v.fetching arrays) r ∧
          own = (v.fetching arrays).blocks+r.blocks+resultBlocks v.result := by
  have plain := spec_internalFetchResult v columns
  cases use with
  | update => cases columns <;> exact plain
  | query => cases columns <;> exact plain
  | multipleQuery =>
      cases columns with
      | none => exact spec_bind (spec_useStatement v) fun _ own same => spec_pure ⟨rfl,same⟩
      | some columns =>
          refine spec_bind (spec_useStatement v) fun _ own same => ?_
          subst same
          exact plain

theorem texts_addresses (pointers : List (Option Nat)) :
    (texts pointers).map Prod.fst = (pointers.reduceOption : Multiset Nat) := by
  induction pointers with
  | nil => rfl
  | cons p rest ih =>
      rw [texts_cons,Multiset.map_add,ih]
      cases p with
      | none => rw [List.reduceOption_cons_of_none]; rfl
      | some p => rw [List.reduceOption_cons_of_some]; rfl

theorem resultAllocated_addresses {own : Blocks Block} (held : Holds h (v.blocks+own)) :
    (resultBlocks v.result).map Prod.fst = (resultAllocated h v.stmt : Multiset Nat) := by
  have stmt : h.block v.stmt = some (.stmt v.record) := (held.block _ _).mpr (Multiset.mem_add.mpr (.inl (mem_stmt v)))
  cases there : v.result with
  | none => simp [resultAllocated,stmt,Block.stmt?,Statement.record,there,resultBlocks]
  | some arrays =>
      have data : h.block arrays.data = some (.bindData arrays.strings) :=
        (held.block _ _).mpr (Multiset.mem_add.mpr (.inl (mem_resultArrays there)))
      simp [resultAllocated,stmt,Block.stmt?,Statement.record,there,resultBlocks,data,Block.bindData?,ResultArrays.blocks,
        texts_addresses]

theorem resulting_kept (used : s.misused = false)
    (holder : ∀ name, s.stmtHolder name = (views name).map Statement.self)
    (place : s.point = .resulting v.stmt job rest) (there : views job.name = some v)
    (held : Holds s.heap (owned views stmtHolderNames+0+lostBlocks)) : Keeps config lostBlocks s (.works answer) := by
  obtain ⟨found,heap,own,ran,reached,held'⟩ := used_step there held
    (by rw [add_zero]; exact spec_fetchResult v job.use answer.columns)
  cases columns : answer.columns with
  | none =>
      rw [columns] at reached
      obtain ⟨rfl,rfl⟩ := reached
      refine ⟨views,0,?_,by simp [lost,used,place,columns]⟩
      rw [works_step used,work,place,add_zero]
      simp only
      rw [ran]
      cases job.use with
      | multipleQuery => exact valid_same used holder there (.continuing there) (by rwa [add_zero])
      | _ => exact valid_same used holder there (.nothing _ (failing_pointers job)) (by rwa [add_zero])
  | some _ =>
      rw [columns] at reached
      obtain ⟨r,arrays,rfl,opens,rfl⟩ := reached
      refine ⟨Function.update views job.name (some (v.fetching arrays)),resultBlocks v.result,?_,?_⟩
      · rw [works_step used,work,place]
        simp only
        rw [ran]
        have has : Has (Function.update views job.name (some (v.fetching arrays))) (.fetching v.stmt r.self job rest) r.blocks :=
          .fetching (v := v.fetching arrays) (Function.update_self ..) opens
        exact valid_again used holder there rfl has held'
      · rw [owned_some there,add_zero,add_assoc] at held
        simp [lost,used,place,columns,resultAllocated_addresses held]

theorem retrieved_kept (used : s.misused = false)
    (holder : ∀ name, s.stmtHolder name = (views name).map Statement.self) (place : s.point = .retrieved job rest)
    (held : Holds s.heap (owned views stmtHolderNames+0+lostBlocks)) : Keeps config lostBlocks s (.works answer) := by
  have nothing : lost config s (.works answer) = none := by simp [lost,used,place]
  have stepped : step config s (.works answer) = work config s answer := works_step used
  rw [work,place] at stepped
  simp only [holder job.name] at stepped
  cases there : views job.name with
  | none =>
      refine ⟨views,0,?_,by simp [nothing]⟩
      rw [stepped,there,add_zero]
      exact valid_point used holder rfl (by rwa [add_zero] at held)
  | some v =>
      obtain ⟨_,heap,own,ran,⟨params,rfl,_⟩,held'⟩ := used_step there held
        (by rw [add_zero]; exact spec_clearParameters v)
      refine ⟨Function.update views job.name (some (v.with params)),0,?_,by simp [nothing]⟩
      rw [stepped,there,Option.map_some]
      simp only
      rw [ran]
      have has : Has (Function.update views job.name (some (v.with params))) (.setting v.self job.settings job rest) 0 :=
        .setting (v := v.with params) (Function.update_self ..)
      exact valid_again used holder there rfl has (by simpa only [add_zero] using held')

theorem refused_address (held : Holds h others) (stays : h'.block (h.next+2) = some b)
    (held' : Holds h' ({(p,b')}+others)) : p = h.next+2 := by
  rcases Multiset.mem_add.mp ((held'.block _ _).mp stays) with own | old
  · exact (congrArg Prod.fst (Multiset.mem_singleton.mp own)).symm
  · have before := (held.block _ _).mpr old
    rw [held.below _ (by omega)] at before
    cases before

theorem retrieving_kept (used : s.misused = false)
    (holder : ∀ name, s.stmtHolder name = (views name).map Statement.self) (place : s.point = .retrieving left job rest)
    (held : Holds s.heap (owned views stmtHolderNames+0+lostBlocks)) : Keeps config lostBlocks s (.works answer) := by
  rw [add_zero] at held
  have stepped : step config s (.works answer) = work config s answer := works_step used
  rw [work,place] at stepped
  simp only [holder job.name] at stepped
  cases there : views job.name with
  | some v =>
      refine ⟨views,0,?_,by cases left <;> simp [lost,used,place,holder job.name,there]⟩
      rw [stepped,there,add_zero]
      exact valid_point used holder rfl held
  | none =>
      cases query : config.queries job.name with
      | none =>
          refine ⟨views,0,?_,by cases left <;> simp [lost,used,place,query]⟩
          rw [stepped,there,query,add_zero]
          exact valid_point used holder rfl held
      | some text =>
          cases left with
          | zero =>
              refine ⟨views,0,?_,by simp [lost,used,place]⟩
              rw [stepped,there,query,add_zero]
              exact valid_point used holder rfl held
          | succ left =>
              rw [← zero_add (owned views stmtHolderNames+lostBlocks)] at held
              obtain ⟨st,heap,own,ran,reached,held',_⟩ :=
                spec_createStatement answer.preparing (owned views stmtHolderNames+lostBlocks) s.heap held
              rw [there,query] at stepped
              simp only [Option.map_none] at stepped
              rw [State.use,ran] at stepped
              cases preparing : answer.preparing with
              | noStatement =>
                  rw [preparing] at reached
                  obtain ⟨rfl,rfl⟩ := reached
                  refine ⟨views,0,?_,by simp [lost,used,place,preparing]⟩
                  rw [stepped,add_zero]
                  exact valid_point used holder rfl (by rwa [zero_add] at held')
              | refused =>
                  rw [preparing] at reached
                  obtain ⟨rfl,p,rfl⟩ := reached
                  obtain rfl : p = s.heap.next+2 := by
                    rw [preparing] at ran
                    rw [zero_add] at held
                    exact refused_address held (createStatement_refused ran) held'
                  refine ⟨views,{(s.heap.next+2,.statement none)},?_,by simp [lost,used,place,preparing,holder job.name,there,query]⟩
                  rw [stepped]
                  refine valid_point used holder rfl ?_
                  have parts : owned views stmtHolderNames+(lostBlocks+{(s.heap.next+2,.statement none)}) =
                      {(s.heap.next+2,.statement none)}+(owned views stmtHolderNames+lostBlocks) := by ac_rfl
                  rwa [parts]
              | prepared paramCount =>
                  rw [preparing] at reached
                  obtain ⟨v,rfl,rfl,_⟩ := reached
                  refine ⟨Function.update views job.name (some v),0,?_,by simp [lost,used,place,preparing]⟩
                  rw [stepped,add_zero]
                  refine ⟨used,fun name => ?_,0,.nothing _ rfl,?_⟩
                  · simp only [Function.update_apply,holder name]
                    split
                    · rfl
                    · rfl
                  · rw [owned_update,add_zero,add_assoc,← owned_none there]
                    exact held'

theorem connectToDatabase_fields (config : Config) (s : State) (answer : Answer) :
    (connectToDatabase config s answer).misused = s.misused ∧
      (connectToDatabase config s answer).stmtHolder = s.stmtHolder ∧
      (connectToDatabase config s answer).heap = s.heap := by
  unfold connectToDatabase
  simp only
  split <;> exact ⟨rfl,rfl,rfl⟩

theorem valid_connected {lost : Blocks Block} (used : s.misused = false)
    (holder : ∀ name, s.stmtHolder name = (views name).map Statement.self) (absent : point.pointers = [])
    (held : Holds s.heap (owned views stmtHolderNames+lost)) (config : Config) (connected : Bool) (before : Point)
    (answer : Answer) :
    Valid views lost {connectToDatabase config {s with connected := connected,point := before} answer with point := point} := by
  obtain ⟨misused,stmtHolder,heap⟩ := connectToDatabase_fields config {s with connected := connected,point := before} answer
  exact ⟨misused.trans used,fun name => by rw [← holder name]; exact congrFun stmtHolder name,0,.nothing _ absent,
    by rw [add_zero]; simpa only [heap] using held⟩

theorem connecting_kept (used : s.misused = false)
    (holder : ∀ name, s.stmtHolder name = (views name).map Statement.self) (place : s.point = .connecting job rest)
    (held : Holds s.heap (owned views stmtHolderNames+0+lostBlocks)) : Keeps config lostBlocks s (.works answer) := by
  refine ⟨views,0,?_,by simp [lost,used,place]⟩
  rw [works_step used,work,place,add_zero]
  rw [add_zero] at held
  refine valid_connected used holder ?_ held config s.connected s.point answer
  split <;> rfl

theorem reconnecting_kept (used : s.misused = false)
    (holder : ∀ name, s.stmtHolder name = (views name).map Statement.self) (place : s.point = .reconnecting left back)
    (held : Holds s.heap (owned views stmtHolderNames+0+lostBlocks)) : Keeps config lostBlocks s (.works answer) := by
  refine ⟨views,0,?_,by simp [lost,used,place]⟩
  rw [works_step used,work,place,add_zero]
  rw [add_zero] at held
  simp only
  split
  · exact valid_connected used holder (resume_pointers back) held config false _ answer
  · exact valid_connected used holder (resume_pointers back) held config false _ answer
  · exact valid_connected used holder (by rfl) held config false _ answer

theorem hangUp_kept {lost : Blocks Block} (used : s.misused = false)
    (holder : ∀ name, s.stmtHolder name = (views name).map Statement.self) (absent : s.point.pointers = [])
    (held : Holds s.heap (owned views stmtHolderNames+lost)) : Valid (fun _ => none) lost (hangUp s) := by
  obtain ⟨_,heap,own,ran,rfl,held'⟩ := use_spec (spec_closeAllStatements holder) held
  rw [hangUp,ran]
  refine ⟨used,fun _ => rfl,0,.nothing _ absent,?_⟩
  have nothing : owned (fun _ => none) stmtHolderNames = 0 := rfl
  rw [nothing]
  simpa using held'

theorem step_kept (valid : Valid views lostBlocks s) (event : Event) (spared : ¬ Strikes s event) :
    Keeps config lostBlocks s event := by
  obtain ⟨used,holder,opened,has,held⟩ := valid
  have still : lost config s event = none → ∀ views', Valid views' lostBlocks (step config s event) →
      Keeps config lostBlocks s event := fun nothing views' valid => ⟨views',0,by rwa [add_zero],by simp [nothing]⟩
  cases event with
  | calls op =>
      refine still (by simp [lost,used]) views ?_
      simp only [step,used,Bool.false_eq_true,if_false]
      split
      · next idle _ =>
          rw [idle] at has
          cases has
          exact ⟨rfl,holder,0,.nothing _ rfl,held⟩
      · exact ⟨used,holder,opened,has,held⟩
  | done now =>
      simp only [step,used,Bool.false_eq_true,if_false] at still
      have nothing : lost config s (.done now) = none := by simp [lost,used]
      split at still
      · next idle =>
          have absent : s.point.pointers = [] := by rw [idle]; rfl
          rw [has.zero absent,add_zero] at held
          unfold dbServiceDone at still
          split at still
          · exact still nothing _ (hangUp_kept used holder absent held)
          · exact still nothing views ⟨used,holder,0,.nothing _ absent,by rwa [add_zero]⟩
      · exact still nothing views ⟨used,holder,opened,has,held⟩
  | closeIdle tv =>
      simp only [step,used,Bool.false_eq_true,if_false,closeIdle] at still
      have nothing : lost config s (.closeIdle tv) = none := by simp [lost,used]
      split at still
      · next overdue =>
          have absent : s.point.pointers = [] := by_contra fun present => spared ⟨overdue,present⟩
          rw [has.zero absent,add_zero] at held
          exact still nothing _ (hangUp_kept used holder absent held)
      · exact still nothing views ⟨used,holder,opened,has,held⟩
  | works answer =>
      generalize place : s.point = point at has
      cases has with
      | setting there => exact setting_kept used holder place there held
      | executing there => exact executing_kept used holder place there held
      | resulting there => exact resulting_kept used holder place there held
      | continuing there => exact continuing_kept used holder place there held
      | fetching there opens => exact fetching_kept used holder place there opens held
      | reading there opens => exact reading_kept used holder place there opens held
      | closing there opens => exact closing_kept used holder place there opens held
      | nothing point absent =>
          cases point with
          | idle =>
              refine still (by simp [lost,used,place]) views ?_
              rw [works_step used,work,place]
              exact ⟨used,holder,0,.nothing _ (by rw [place]; rfl),held⟩
          | connecting => exact connecting_kept used holder place held
          | reconnecting => exact reconnecting_kept used holder place held
          | retrieving => exact retrieving_kept used holder place held
          | retrieved => exact retrieved_kept used holder place held
          | _ => simp [Point.pointers] at absent

def Stranded (h : Heap Block) (stmt result : Nat) : Prop :=
  ∃ res r, h.block result = some (.object res) ∧ h.block res = some (.result r) ∧ r.stmt = stmt ∧ h.block stmt = none

inductive Gone (h : Heap Block) : Point → Prop where
  | setting (gone : h.block self = none) : Gone h (.setting self settings job rest)
  | executing (gone : h.block self = none) : Gone h (.executing self job rest)
  | resulting (gone : h.block stmt = none) (old : stmt < h.next) : Gone h (.resulting stmt job rest)
  | continuing (gone : h.block stmt = none) : Gone h (.continuing stmt job rest)
  | fetching (stranded : Stranded h stmt result) : Gone h (.fetching stmt result job rest)
  | reading (stranded : Stranded h stmt result) : Gone h (.reading stmt result columns job rest)
  | closing (stranded : Stranded h stmt result) : Gone h (.closing stmt result failed job rest)

structure Dangling (s : State) : Prop where
  used : s.misused = false
  closed : s.connected = false
  gone : Gone s.heap s.point

theorem strikes_dangling (valid : Valid views lostBlocks s) (event : Event) (strikes : Strikes s event) :
    Dangling (step config s event) := by
  obtain ⟨used,holder,opened,has,held⟩ := valid
  cases event with
  | calls | works | done => exact strikes.elim
  | closeIdle tv =>
      obtain ⟨overdue,present⟩ := strikes
      rw [add_assoc] at held
      obtain ⟨_,heap,own,ran,rfl,held',later⟩ := spec_closeAllStatements holder (opened+lostBlocks) s.heap held
      have stepped : step config s (.closeIdle tv) =
          {s with heap := heap,stmtHolder := fun _ => none,connected := false} := by
        simp [step,used,closeIdle,overdue,hangUp,State.use,ran]
      rw [stepped]
      refine ⟨used,rfl,?_⟩
      rw [zero_add] at held'
      have gone : ∀ {name v p b}, views name = some v → (p,b) ∈ v.blocks → heap.block p = none ∧ p < heap.next := by
        intro name v p b there member
        have among : (p,b) ∈ owned views stmtHolderNames := by
          rw [owned_some there]
          exact Multiset.mem_add.mpr (.inl member)
        refine ⟨holds_gone held held' among,?_⟩
        by_contra above
        have place := (held.block p b).mpr (Multiset.mem_add.mpr (.inl among))
        rw [held.below p (by omega)] at place
        cases place
      have stranded : ∀ {name v r}, views name = some v → Opens v r → opened = r.blocks →
          Stranded heap v.stmt r.self := by
        rintro name v r there opens rfl
        refine ⟨r.result,⟨r.stmt,r.names.length,r.fields⟩,(held'.block _ _).mpr (by simp [Result.blocks]),
          (held'.block _ _).mpr (by simp [Result.blocks]),opens.stmt,(gone there (mem_stmt v)).1⟩
      change Gone heap s.point
      generalize place : s.point = point at has present
      cases has with
      | nothing point absent => exact absurd absent present
      | setting there => exact .setting (gone there (mem_self _)).1
      | executing there => exact .executing (gone there (mem_self _)).1
      | resulting there => exact .resulting (gone there (mem_stmt _)).1 (gone there (mem_stmt _)).2
      | continuing there => exact .continuing (gone there (mem_stmt _)).1
      | fetching there opens => exact .fetching (stranded there opens rfl)
      | reading there opens => exact .reading (stranded there opens rfl)
      | closing there opens => exact .closing (stranded there opens rfl)

theorem useStatement_missing (gone : h.block stmt = none) : useStatement stmt h = none := read_missing gone

theorem internalFetchResult_missing (gone : h.block stmt = none) (old : stmt < h.next) (columns : Option Columns) :
    internalFetchResult stmt columns h = none := by
  have first : stmt ≠ h.next := by omega
  have second : stmt ≠ h.next+1 := by omega
  rw [internalFetchResult,malloc_then,malloc_then,store_there (b := .raw) (by simp)]
  exact read_missing (by simp [gone,first,second])

theorem fetchResult_missing (gone : h.block stmt = none) (old : stmt < h.next) (use : Use) (columns : Option Columns) :
    fetchResult use stmt columns h = none := by
  have plain := internalFetchResult_missing gone old columns
  cases use with
  | update => cases columns <;> exact plain
  | query => cases columns <;> exact plain
  | multipleQuery => cases columns <;> exact bind_stops (useStatement_missing gone)

theorem read_result {record : MysqlResult} {next : MysqlResult → Program Block α}
    (atResult : h.block result = some (.object res)) (atRes : h.block res = some (.result record)) :
    (Ownership.read Block.object? result >>= fun res => Ownership.read Block.result? res >>= next) h = next record h := by
  rw [read_there atResult (show Block.object? (.object res) = some res from rfl)]
  exact read_there atRes rfl

theorem next_stranded (stranded : Stranded h stmt result) (fetched : Bool) :
    DbMysql.Memory.next result fetched h = none := by
  obtain ⟨res,r,atResult,atRes,rfl,gone⟩ := stranded
  rw [DbMysql.Memory.next,read_result atResult atRes]
  exact read_missing gone

theorem resultClose_stranded (stranded : Stranded h stmt result) : resultClose result h = none := by
  obtain ⟨res,r,atResult,atRes,rfl,gone⟩ := stranded
  rw [resultClose,read_there atResult (show Block.object? (.object res) = some res from rfl),
    read_there atRes (show Block.result? (.result r) = some r from rfl)]
  exact read_missing gone

theorem column_stranded (stranded : Stranded h stmt result) (cell : Cell) (column : Column) :
    column.program result cell h = none ∨ column.program result cell h = some ((),h) := by
  obtain ⟨res,r,atResult,atRes,rfl,gone⟩ := stranded
  cases column with
  | getInt i =>
      change DbMysql.Memory.getInt result i h = none ∨ DbMysql.Memory.getInt result i h = _
      rw [DbMysql.Memory.getInt,read_result atResult atRes]
      cases r.index i with
      | none => exact .inr rfl
      | some j => exact .inl (read_missing gone)
  | getString i =>
      cases found : r.index i with
      | none =>
          have ran : DbMysql.Memory.getString result i cell h = some (none,h) := by
            rw [DbMysql.Memory.getString,read_result atResult atRes,found]
            rfl
          refine .inr ?_
          change (DbMysql.Memory.getString result i cell h).bind _ = _
          rw [ran]
          rfl
      | some j =>
          refine .inl (bind_stops ?_)
          rw [DbMysql.Memory.getString,read_result atResult atRes,found]
          exact read_missing gone

theorem use_fails {c : Program Block α} {after : α → State → State} (fails : c s.heap = none) :
    (s.use c after).misused = true := by
  rw [State.use,fails]

theorem dangling_works (dangling : Dangling s) (answer : Answer) :
    Dangling (work config s answer) ∨ (work config s answer).misused = true := by
  obtain ⟨used,closed,gone⟩ := dangling
  generalize place : s.point = point at gone
  cases gone with
  | @setting self settings job rest gone =>
      cases settings with
      | nil =>
          refine .inl ?_
          rw [work,place]
          exact ⟨used,closed,.executing gone⟩
      | cons setting settings =>
          refine .inr ?_
          rw [work,place]
          refine use_fails ?_
          cases setting <;> exact read_missing gone
  | executing gone =>
      refine .inr ?_
      rw [work,place]
      simp only
      split <;> exact use_fails (read_missing gone)
  | resulting gone old =>
      refine .inr ?_
      rw [work,place]
      exact use_fails (fetchResult_missing gone old _ _)
  | continuing gone =>
      refine .inr ?_
      rw [work,place]
      exact use_fails (useStatement_missing gone)
  | fetching stranded =>
      refine .inr ?_
      rw [work,place]
      exact use_fails (next_stranded stranded _)
  | closing stranded =>
      refine .inr ?_
      rw [work,place]
      exact use_fails (resultClose_stranded stranded)
  | @reading stmt result columns job rest stranded =>
      cases columns with
      | nil =>
          refine .inl ?_
          rw [work,place]
          refine ⟨used,closed,?_⟩
          simp only
          split
          · exact .fetching stranded
          · exact .closing stranded
      | cons column columns =>
          rw [work,place]
          simp only
          rcases column_stranded stranded answer.cell column with fails | same
          · exact .inr (use_fails fails)
          · refine .inl ?_
            rw [State.use,same]
            exact ⟨used,closed,.reading stranded⟩

theorem gone_pointers (gone : Gone h point) : ∃ p ∈ point.pointers, h.block p = none := by
  cases gone with
  | setting gone | executing gone | resulting gone | continuing gone => exact ⟨_,List.mem_singleton.mpr rfl,gone⟩
  | fetching stranded | reading stranded | closing stranded =>
      obtain ⟨_,_,_,_,_,gone⟩ := stranded
      exact ⟨_,List.mem_cons_self,gone⟩

def Broken (s : State) : Prop := Dangling s ∨ s.misused = true

theorem step_broken (broken : Broken s) (event : Event) : Broken (step config s event) := by
  rcases broken with dangling | misused
  · obtain ⟨p,member,_⟩ := gone_pointers dangling.gone
    have busy : s.point ≠ .idle := by
      intro idle
      rw [idle] at member
      cases member
    cases event with
    | calls op =>
        refine .inl ?_
        simp only [step,dangling.used,Bool.false_eq_true,if_false]
        split
        · next idle _ => exact absurd idle busy
        · exact dangling
    | works answer =>
        rw [works_step dangling.used]
        exact dangling_works dangling answer
    | done now =>
        refine .inl ?_
        simp only [step,dangling.used,Bool.false_eq_true,if_false]
        exact dangling
    | closeIdle tv =>
        refine .inl ?_
        simp only [step,dangling.used,Bool.false_eq_true,if_false,closeIdle,closes,dangling.closed,Bool.false_and]
        exact dangling
  · exact .inr (by simp [step,misused])

theorem broken_not_intact (broken : Broken s) : ¬ Intact s := by
  rintro ⟨used,allocated⟩
  rcases broken with dangling | misused
  · obtain ⟨p,member,gone⟩ := gone_pointers dangling.gone
    have present := allocated p member
    rw [gone] at present
    cases present
  · rw [used] at misused
    cases misused

theorem valid_intact (valid : Valid views lostBlocks s) : Intact s := by
  obtain ⟨used,_,opened,has,held⟩ := valid
  refine ⟨used,fun p member => ?_⟩
  have there : ∀ {b}, (p,b) ∈ owned views stmtHolderNames+opened+lostBlocks → (s.heap.block p).isSome := fun {b} among =>
    Option.isSome_iff_exists.mpr ⟨b,(held.block p b).mpr among⟩
  have ofStatement : ∀ {name v b}, views name = some v → (p,b) ∈ v.blocks → (s.heap.block p).isSome := by
    intro name v b found inside
    refine @there b ?_
    rw [owned_some found]
    simp [inside]
  generalize s.point = point at has member
  cases has with
  | nothing point absent =>
      rw [absent] at member
      cases member
  | setting found | executing found =>
      obtain rfl := List.mem_singleton.mp member
      exact ofStatement found (mem_self _)
  | resulting found | continuing found =>
      obtain rfl := List.mem_singleton.mp member
      exact ofStatement found (mem_stmt _)
  | fetching found opens | reading found opens | closing found opens =>
      simp only [Point.pointers,List.mem_cons,List.not_mem_nil,or_false] at member
      rcases member with rfl | rfl
      · exact ofStatement found (mem_stmt _)
      · exact there (Multiset.mem_add.mpr (.inl (Multiset.mem_add.mpr (.inr (mem_object _)))))

-- `intact`: no operation uses what is freed, or is left with it, as long as and
-- only as long as close_idle never closes a statement in use. `left`: when no
-- statement is held what is still allocated are the blocks lost on the way.
structure Accounted (config : Config) (events : List Event) : Prop where
  intact : Intact (Machine.run (step config) started events) ↔
    Machine.Throughout (fun earlier event => ¬ Strikes (Machine.run (step config) started earlier) event) events
  left : Intact (Machine.run (step config) started events) →
    (∀ name, (Machine.run (step config) started events).stmtHolder name = none) →
    (Machine.run (step config) started events).heap.allocated.Perm
      (Machine.trace (step config) (lost config) started events).flatten

theorem started_valid : Valid (fun _ => none) 0 started := by
  refine ⟨rfl,fun _ => rfl,0,.nothing _ rfl,?_⟩
  have nothing : owned (fun _ => none) stmtHolderNames = 0 := rfl
  rw [nothing]
  exact ⟨by simp,fun _ _ => by simp [started,Heap.empty],fun _ _ => rfl⟩

theorem run_cases (config : Config) (events : List Event) :
    (∃ views lostBlocks, Valid views lostBlocks (Machine.run (step config) started events) ∧
      lostBlocks.map Prod.fst = ((Machine.trace (step config) (lost config) started events).flatten : Multiset Nat)) ∨
      Broken (Machine.run (step config) started events) := by
  induction events using List.reverseRecOn with
  | nil => exact .inl ⟨_,0,started_valid,rfl⟩
  | append_singleton events event ih =>
      rw [Machine.run_concat,Machine.trace_concat,List.flatten_append,← Multiset.coe_add]
      rcases ih with ⟨views,lostBlocks,valid,addresses⟩ | broken
      · by_cases strikes : Strikes (Machine.run (step config) started events) event
        · exact .inr (.inl (strikes_dangling valid event strikes))
        · obtain ⟨views',more,valid',addresses'⟩ := @step_kept _ _ config _ valid event strikes
          refine .inl ⟨views',lostBlocks+more,valid',?_⟩
          rw [Multiset.map_add,addresses,addresses']
          cases lost config (Machine.run (step config) started events) event <;> simp
      · exact .inr (step_broken broken event)

-- Whatever an operation has in hand belongs to a statement that is held.
theorem Has.absent {views : QueryName → Option Statement} (has : Has views point opened)
    (absent : ∀ name, views name = none) : opened = 0 := by
  cases has with
  | nothing => rfl
  | setting there | executing there | resulting there | continuing there => rfl
  | fetching there | reading there | closing there => cases there.symm.trans (absent _)

theorem statements_accounted (config : Config) (events : List Event) : Accounted config events := by
  constructor
  · refine @Machine.throughout_iff _ _ _ _ Intact _ (valid_intact started_valid) events fun earlier event later split => ?_
    rcases run_cases config earlier with ⟨views,lostBlocks,valid,_⟩ | broken
    · by_cases strikes : Strikes (Machine.run (step config) started earlier) event
      · have ends : ¬ Intact (step config (Machine.run (step config) started earlier) event) :=
          broken_not_intact (.inl (strikes_dangling valid event strikes))
        exact ⟨fun still => absurd still ends,fun both => absurd strikes both.2⟩
      · obtain ⟨_,_,valid',_⟩ := @step_kept _ _ config _ valid event strikes
        exact ⟨fun _ => ⟨valid_intact valid,strikes⟩,fun _ => valid_intact valid'⟩
    · have ends : ¬ Intact (step config (Machine.run (step config) started earlier) event) :=
        broken_not_intact (step_broken broken event)
      exact ⟨fun still => absurd still ends,fun both => absurd both.1 (broken_not_intact broken)⟩
  · intro intact missing
    rcases run_cases config events with ⟨views,lostBlocks,⟨_,holder,opened,has,held⟩,addresses⟩ | broken
    · have absent : ∀ name, views name = none := fun name => by
        have same := holder name
        rw [missing name] at same
        exact Option.map_eq_none_iff.mp same.symm
      have nothing : owned views stmtHolderNames = 0 := by
        rw [funext absent]
        rfl
      rw [has.absent absent,nothing,add_zero,zero_add] at held
      exact Multiset.coe_eq_coe.mp ((holds_allocated held).symm.trans addresses)
    · exact absurd intact (broken_not_intact broken)

end TcpProxy.Database.StatementUse
