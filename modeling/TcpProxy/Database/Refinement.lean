import TcpProxy.Database.Records
import TcpProxy.Database.StatementUse

namespace TcpProxy.Database

-- What a job and an execution have in common: the statement, and what was set.
def Execution.asked (x : Execution) : QueryName × List StatementUse.Setting :=
  (x.query,StatementUse.settingsOf x.parameters)

theorem dbmysqlLocalExecute_made (s : DbService) (name : QueryName) (stmt : Stmt) (parameters : List Parameter) :
    ∃ x, (dbmysqlLocalExecute s name stmt parameters).2.executions = s.executions ++ [x] ∧
      x.asked = (name,StatementUse.settingsOf parameters) := by
  unfold dbmysqlLocalExecute
  dsimp only [DbService.answer]
  split
  · exact ⟨_,rfl,rfl⟩
  · exact ⟨_,rfl,rfl⟩

theorem closeIdle_executions (s : DbService) (tv : Timeval) : (closeIdle s tv).executions = s.executions := by
  unfold closeIdle
  split
  · rfl
  · rfl

theorem dbServiceDone_executions (s : DbService) : (dbServiceDone s).executions = s.executions := by
  unfold dbServiceDone
  dsimp only [DbService.answer]
  split
  · split
    · rfl
    · rfl
  · rfl

namespace StatementUse
open Proxying Ownership DbMysql.Memory

def Job.asked (job : Job) : QueryName × List Setting := (job.name,job.settings.filter (· ≠ .clearParameters))

def called (s : State) : Event → Option Operation
  | .calls op => if s.misused = false ∧ s.point = .idle then some op else none
  | _ => none

def executed (s : State) : Event → Option Job
  | .works _ => match s.misused,s.point with
    | false,.executing _ job _ => some job
    | _,_ => none
  | _ => none

-- The service and the machine of its statements in memory have the same
-- variables.
structure SameFields (config : Config) (d : DbService) (u : State) : Prop where
  enabled : d.enabled = config.enabled
  queries : d.queries = config.queries
  maxConnectionTime : d.maxConnectionTime = config.maxConnectionTime
  connected : d.connected = u.connected
  recentUseTime : d.recentUseTime = u.recentUseTime
  connectionTime : d.connectionTime = u.connectionTime
  held : ∀ name, (d.stmtHolder name).isSome = (u.stmtHolder name).isSome

structure Agrees (config : Config) (d : DbService) (u : State) : Prop
    extends SameFields config d u where
  valid : ∃ views lostBlocks, Valid views lostBlocks u

variable {config : Config} {d middle d' : DbService} {u : State} {P Q : Point → Prop}

-- By steps of its own the machine comes to where it agrees with `d'`. On the
-- way it executes what the service does between the two.
def Reaches (config : Config) (d : DbService) (u : State) (d' : DbService) (there : Point → Prop) : Prop :=
  ∃ answers : List Answer,
    Agrees config d' (Machine.run (step config) u (answers.map .works)) ∧
    there (Machine.run (step config) u (answers.map .works)).point ∧
    ∃ made, d'.executions = d.executions ++ made ∧
      (Machine.trace (step config) executed u (answers.map .works)).map Job.asked = made.map Execution.asked

theorem reaches_here (agrees : Agrees config d u) (there : P u.point) : Reaches config d u d P :=
  ⟨[],agrees,there,[],by simp,rfl⟩

theorem Reaches.trans (first : Reaches config d u middle P)
    (second : ∀ v, Agrees config middle v → P v.point → Reaches config middle v d' Q) : Reaches config d u d' Q := by
  obtain ⟨answers,agrees,there,made,grown,same⟩ := first
  obtain ⟨answers',agrees',there',made',grown',same'⟩ := second _ agrees there
  refine ⟨answers++answers',?_,?_,made++made',by rw [grown',grown,List.append_assoc],?_⟩
  · rwa [List.map_append,Machine.run_append]
  · rwa [List.map_append,Machine.run_append]
  · rw [List.map_append,Machine.trace_append,List.map_append,List.map_append,same,same']

theorem reaches_silently (answer : Answer) (silent : executed u (.works answer) = none)
    (same : d'.executions = d.executions) (agrees : Agrees config d' (step config u (.works answer)))
    (there : P (step config u (.works answer)).point) : Reaches config d u d' P :=
  ⟨[answer],agrees,there,[],by simp [same],by simp [Machine.trace,silent]⟩

theorem works_valid (config : Config) (valid : ∃ views lostBlocks, Valid views lostBlocks u) (answer : Answer) :
    ∃ views lostBlocks, Valid views lostBlocks (step config u (.works answer)) := by
  obtain ⟨views,lostBlocks,valid⟩ := valid
  obtain ⟨views',more,valid',_⟩ := @step_kept _ _ config _ valid (.works answer) (fun strikes => strikes)
  exact ⟨views',_,valid'⟩

theorem Agrees.used (agrees : Agrees config d u) : u.misused = false := by
  obtain ⟨_,_,valid⟩ := agrees.valid
  exact valid.used

theorem Agrees.step (agrees : Agrees config d u) (answer : Answer) (same : SameFields config d' (work config u answer)) :
    Agrees config d' (step config u (.works answer)) := by
  have valid := works_valid config agrees.valid answer
  rw [works_step (Agrees.used agrees)] at valid ⊢
  exact ⟨same,valid⟩

theorem moves (c : Program Block α) (target : α → Point) (agrees : Agrees config d u) (answer : Answer)
    (stepped : work config u answer = u.use c fun a s => {s with point := target a}) :
    ∃ a heap, c u.heap = some (a,heap) ∧ (step config u (.works answer)).point = target a ∧
      Agrees config d (step config u (.works answer)) := by
  have valid := works_valid config agrees.valid answer
  rw [works_step (Agrees.used agrees),stepped] at valid ⊢
  cases ran : c u.heap with
  | none =>
      obtain ⟨_,_,valid⟩ := valid
      have used := valid.used
      rw [use_fails ran] at used
      cases used
  | some reached =>
      obtain ⟨a,heap⟩ := reached
      simp only [State.use,ran] at valid ⊢
      obtain ⟨⟨enabled,queries,limit,connected,recent,since,held⟩,_⟩ := agrees
      exact ⟨a,heap,rfl,rfl,⟨enabled,queries,limit,connected,recent,since,held⟩,valid⟩

theorem moving_reaches (c : Program Block α) (target : α → Point) (agrees : Agrees config d u) (answer : Answer)
    (silent : executed u (.works answer) = none) (stepped : work config u answer = u.use c fun a s => {s with point := target a})
    (there : ∀ a heap, c u.heap = some (a,heap) → P (target a)) : Reaches config d u d P := by
  obtain ⟨a,heap,ran,point,agrees'⟩ := moves c target agrees answer stepped
  exact reaches_silently answer silent rfl agrees' (by rw [point]; exact there a heap ran)

def connecting (d : DbService) : Answer where
  now := (Database.connectToDatabase d).2.recentUseTime
  connect := (Database.connectToDatabase d).1
  connectedAt := (Database.connectToDatabase d).2.connectionTime
  preparing := .noStatement
  binds := true
  executes := false
  columns := none
  row := false
  failed := false
  cell := .null
  more := false

theorem connectToDatabase_same (d : DbService) :
    (Database.connectToDatabase d).2.enabled = d.enabled ∧ (Database.connectToDatabase d).2.queries = d.queries ∧
    (Database.connectToDatabase d).2.maxConnectionTime = d.maxConnectionTime ∧
    (Database.connectToDatabase d).1 = (Database.connectToDatabase d).2.connected ∧
    ((d.enabled && !d.connected && (Database.connectToDatabase d).1) = false →
      (Database.connectToDatabase d).2.connected = d.connected ∧
      (Database.connectToDatabase d).2.connectionTime = d.connectionTime) := by
  by_cases asked : (d.enabled && !d.connected) = true
  · have closed : d.enabled = true ∧ d.connected = false := by simpa using asked
    cases session : d.session with
    | some n => simp [Database.connectToDatabase,closed,dbmysqlConnect,session,DbService.answer]
    | none =>
        cases reply : (d.replies d.asked).connect with
        | true => simp [Database.connectToDatabase,closed,dbmysqlConnect,session,DbService.answer,reply]
        | false => simp [Database.connectToDatabase,closed,dbmysqlConnect,session,DbService.answer,reply]
  · simp [Database.connectToDatabase,asked,DbService.answer]

theorem SameFields.connects (same : SameFields config d u) :
    SameFields config (Database.connectToDatabase d).2 (connectToDatabase config u (connecting d)) := by
  obtain ⟨enabled,queries,limit,connected,kept⟩ := connectToDatabase_same d
  have holder := (connectToDatabase_spec d).1
  have holder' := (connectToDatabase_fields config u (connecting d)).2.1
  have held : ∀ name, ((Database.connectToDatabase d).2.stmtHolder name).isSome =
      ((connectToDatabase config u (connecting d)).stmtHolder name).isSome := by
    rw [holder,holder']
    exact same.held
  have recent : (Database.connectToDatabase d).2.recentUseTime =
      (connectToDatabase config u (connecting d)).recentUseTime := rfl
  cases opens : d.enabled && !d.connected && (Database.connectToDatabase d).1 with
  | true =>
      have opens' : (config.enabled && !u.connected && (connecting d).connect) = true := by
        rw [← same.enabled,← same.connected]
        exact opens
      have ok : (Database.connectToDatabase d).1 = true := by
        rw [Bool.and_eq_true] at opens
        exact opens.2
      refine ⟨enabled.trans same.enabled,queries.trans same.queries,limit.trans same.maxConnectionTime,?_,recent,?_,held⟩
      · simp [connectToDatabase,opens',← connected,ok]
      · simp only [connectToDatabase,opens',if_true]
        rfl
  | false =>
      have opens' : (config.enabled && !u.connected && (connecting d).connect) = false := by
        rw [← same.enabled,← same.connected]
        exact opens
      obtain ⟨connected',since⟩ := kept opens
      refine ⟨enabled.trans same.enabled,queries.trans same.queries,limit.trans same.maxConnectionTime,?_,recent,?_,held⟩
      · simp [connectToDatabase,opens',connected',same.connected]
      · simp [connectToDatabase,opens',since,same.connectionTime]

theorem SameFields.pointing (same : SameFields config d u) (point : Point) :
    SameFields config d {u with point := point} :=
  ⟨same.enabled,same.queries,same.maxConnectionTime,same.connected,same.recentUseTime,same.connectionTime,same.held⟩

theorem pointing_reaches {point : Point} (agrees : Agrees config d u) (answer : Answer)
    (silent : executed u (.works answer) = none) (worked : work config u answer = {u with point := point}) :
    Reaches config d u d fun reached => reached = point := by
  refine reaches_silently answer silent rfl (agrees.step _ ?_) ?_
  · rw [worked]
    exact agrees.pointing _
  · rw [works_step agrees.used,worked]

theorem connecting_reaches (agrees : Agrees config d u) (place : u.point = .connecting job rest) :
    Reaches config d u (Database.connectToDatabase d).2 fun point =>
      point = if (Database.connectToDatabase d).1 then .retrieving 60 job rest else .idle := by
  have same := agrees.toSameFields.connects
  have stepped : work config u (connecting d) = {connectToDatabase config u (connecting d) with
      point := if (connectToDatabase config u (connecting d)).connected then .retrieving 60 job rest else .idle} := by
    rw [work,place]
  refine reaches_silently (connecting d) (by simp [executed,place,agrees.used]) (connectToDatabase_spec d).2.1 ?_ ?_
  · exact Agrees.step agrees _ (by rw [stepped]; exact same.pointing _)
  · rw [works_step agrees.used,stepped,(connectToDatabase_same d).2.2.2.1,same.connected]

def disconnected (d : DbService) : DbService := {dbmysqlDisconnect d with connected := false}

theorem reconnecting_steps (left : Nat) (back : Option (Nat × Job × List Job)) (agrees : Agrees config d u)
    (place : u.point = .reconnecting left back) :
    Reaches config d u (reconnectToDatabase d).2 fun point =>
      point = match (reconnectToDatabase d).1,left with
        | true,_ | false,0 => resume back
        | false,left+1 => .reconnecting left back := by
  have closed : SameFields config (disconnected d) {u with connected := false,point := .reconnecting left back} := by
    obtain ⟨⟨enabled,queries,limit,_,recent,since,held⟩,_⟩ := agrees
    exact ⟨enabled,queries,limit,rfl,recent,since,held⟩
  have same := closed.connects
  have ok := (connectToDatabase_same (disconnected d)).2.2.2.1
  rw [same.connected] at ok
  have stepped : step config u (.works (connecting (disconnected d))) = work config u (connecting (disconnected d)) :=
    works_step agrees.used
  rw [work,place] at stepped
  refine reaches_silently (connecting (disconnected d)) (by simp [executed,place,agrees.used])
    (reconnectToDatabase_reopened d).executions (agrees.step _ ?_) ?_
  · rw [work,place]
    simp only
    split
    · exact same.pointing _
    · exact same.pointing _
    · exact same.pointing _
  · rw [stepped]
    have ok : (reconnectToDatabase d).1 = _ := ok
    dsimp only
    cases opened : (reconnectToDatabase d).1 with
    | true => simp only [← ok,opened]
    | false =>
        cases left with
        | zero => simp only [← ok,opened]
        | succ left => simp only [← ok,opened]

theorem reconnecting_reaches (left : Nat) (back : Option (Nat × Job × List Job)) (agrees : Agrees config d u)
    (place : u.point = .reconnecting left back) :
    Reaches config d u (safeReconnectToDatabase (left+1) d) fun point => point = resume back := by
  have first := reconnecting_steps left back agrees place
  induction left generalizing d u with
  | zero =>
      have once : safeReconnectToDatabase 1 d = (reconnectToDatabase d).2 := by
        simp only [safeReconnectToDatabase]
        split
        · rename_i outcome; rw [outcome]
        · rename_i outcome; rw [outcome]
      rw [once]
      cases ok : (reconnectToDatabase d).1 with
      | true => simpa only [ok] using first
      | false => simpa only [ok] using first
  | succ left ih =>
      rw [safeReconnectToDatabase]
      split
      · rename_i outcome
        simpa only [outcome] using first
      · rename_i after outcome
        simp only [outcome] at first
        exact first.trans fun v agrees place => ih agrees place (reconnecting_steps left back agrees place)

theorem SameFields.absent (same : SameFields config d u) (absent : d.stmtHolder name = none) :
    u.stmtHolder name = none := by
  have held := same.held name
  rw [absent] at held
  exact Option.not_isSome_iff_eq_none.mp (by simp [← held])

theorem prepares (preparing : Preparing) (agrees : Agrees config d u) (place : u.point = .retrieving (left+1) job rest)
    (absent : d.stmtHolder job.name = none) (query : config.queries job.name = some words) :
    ∃ st heap, (match preparing with | .prepared _ => st.isSome | _ => st = none) ∧
      ∀ answer : Answer, answer.preparing = preparing → work config u answer = match st with
        | some st => {u with
            heap := heap,stmtHolder := Function.update u.stmtHolder job.name (some st),point := .retrieved job rest}
        | none => {u with heap := heap,point := .reconnecting 20 (some (left,job,rest))} := by
  obtain ⟨views,lostBlocks,_,holder,opened,has,held⟩ := agrees.valid
  rw [has.zero (by rw [place]; rfl),add_zero,← zero_add (owned views stmtHolderNames+lostBlocks)] at held
  obtain ⟨st,heap,own,ran,reached,_⟩ := use_spec (spec_createStatement preparing) held
  refine ⟨st,heap,?_,?_⟩
  · cases preparing with
    | noStatement => exact reached.1
    | refused => exact reached.1
    | prepared paramCount =>
        obtain ⟨v,rfl,_⟩ := reached
        rfl
  · rintro answer rfl
    rw [work,place]
    simp only [agrees.absent absent,query]
    rw [ran]
    cases st with
    | none => rfl
    | some st => rfl

theorem prepared_reaches (stmt : Stmt) (agrees : Agrees config d u) (place : u.point = .retrieving (left+1) job rest)
    (absent : d.stmtHolder job.name = none) (query : config.queries job.name = some words) :
    Reaches config d u
      {d with asked := d.asked+1,stmtHolder := Function.update d.stmtHolder job.name (some stmt)}
      fun point => point = .retrieved job rest := by
  obtain ⟨st,heap,present,stepped⟩ := prepares (.prepared 0) agrees place absent query
  obtain ⟨st,rfl⟩ := Option.isSome_iff_exists.mp present
  have worked := stepped {connecting d with preparing := .prepared 0} rfl
  refine reaches_silently {connecting d with preparing := .prepared 0} (by simp [executed,place,agrees.used]) rfl
    (agrees.step _ ?_) ?_
  · rw [worked]
    obtain ⟨⟨enabled,queries,limit,connected,recent,since,held⟩,_⟩ := agrees
    refine ⟨enabled,queries,limit,connected,recent,since,fun name => ?_⟩
    simp only [Function.update_apply]
    split
    · rfl
    · exact held name
  · rw [works_step agrees.used,worked]

theorem unprepared_reaches (agrees : Agrees config d u) (place : u.point = .retrieving (left+1) job rest)
    (absent : d.stmtHolder job.name = none) (query : config.queries job.name = some words) :
    Reaches config d u {d with asked := d.asked+1} fun point => point = .reconnecting 20 (some (left,job,rest)) := by
  obtain ⟨st,heap,rfl,stepped⟩ := prepares .noStatement agrees place absent query
  have worked := stepped (connecting d) rfl
  refine reaches_silently (connecting d) (by simp [executed,place,agrees.used]) rfl (agrees.step _ ?_) ?_
  · rw [worked]
    obtain ⟨⟨enabled,queries,limit,connected,recent,since,held⟩,_⟩ := agrees
    exact ⟨enabled,queries,limit,connected,recent,since,held⟩
  · rw [works_step agrees.used,worked]

theorem given_up_reaches (agrees : Agrees config d u) (place : u.point = .retrieving left job rest)
    (absent : d.stmtHolder job.name = none) (gone : left = 0 ∨ config.queries job.name = none) :
    Reaches config d u d fun point => point = .idle := by
  have worked : work config u (connecting d) = {u with point := .idle} := by
    rw [work,place]
    simp only [agrees.absent absent]
    rcases gone with rfl | missing
    · cases config.queries job.name with
      | none => rfl
      | some words => rfl
    · rw [missing]
  exact pointing_reaches agrees (connecting d) (by simp [executed,place,agrees.used]) worked

def retrieved (name : QueryName) (made : Option Stmt × DbService) : DbService :=
  {made.2 with stmtHolder := Function.update made.2.stmtHolder name made.1}

theorem creating_reaches (left : Nat) (agrees : Agrees config d u) (place : u.point = .retrieving left job rest)
    (absent : d.stmtHolder job.name = none) (query : config.queries job.name = some words) :
    Reaches config d u (retrieved job.name (Database.createStatement left d)) fun point =>
      point = if (Database.createStatement left d).1.isSome then .retrieved job rest else .idle := by
  induction left generalizing d u with
  | zero =>
      have same : retrieved job.name (Database.createStatement 0 d) = d := by
        simp [retrieved,Database.createStatement,← absent]
      rw [same]
      exact given_up_reaches agrees place absent (.inl rfl)
  | succ left ih =>
      rcases dbmysqlCreateStatement_cases d with ⟨n,_,_,outcome⟩ | ⟨_,outcome⟩
      · simp only [Database.createStatement,outcome,Option.isSome_some,if_true]
        exact prepared_reaches ⟨n⟩ agrees place absent query
      · simp only [Database.createStatement,outcome]
        have reopened := tryReconnect_reopened {d with asked := d.asked+1}
        refine (unprepared_reaches agrees place absent query).trans fun v agrees place => ?_
        refine (reconnecting_reaches 20 _ agrees place).trans fun v agrees place => ?_
        exact ih agrees place (by rw [← absent]; exact congrFun reopened.holder job.name)

theorem retrieving_reaches (agrees : Agrees config d u) (place : u.point = .retrieving 60 job rest) :
    Reaches config d u (retrieveStatement d job.name).2 fun point =>
      point = if (retrieveStatement d job.name).1.isSome then .retrieved job rest else .idle := by
  cases held : d.stmtHolder job.name with
  | some stmt =>
      have there := agrees.held job.name
      rw [held] at there
      obtain ⟨st,there⟩ := Option.isSome_iff_exists.mp there.symm
      have worked : work config u (connecting d) = {u with point := .retrieved job rest} := by
        rw [work,place]
        simp only [there]
      simp only [retrieveStatement,held,Option.isSome_some,if_true]
      exact pointing_reaches agrees (connecting d) (by simp [executed,place,agrees.used]) worked
  | none =>
      cases query : d.queries job.name with
      | none =>
          simp only [retrieveStatement,held,query]
          exact given_up_reaches agrees place held (.inr (by rw [← agrees.queries,query]))
      | some words =>
          simp only [retrieveStatement,held,query]
          exact creating_reaches 60 agrees place held (by rw [← agrees.queries,query])

theorem retrieveStatement_held (found : (retrieveStatement d name).1 = some stmt) :
    (retrieveStatement d name).2.stmtHolder name = some stmt := by
  cases held : d.stmtHolder name with
  | some stmt' => simpa [retrieveStatement,held] using found
  | none =>
      cases query : d.queries name with
      | none => simp [retrieveStatement,held,query] at found
      | some words => simpa [retrieveStatement,held,query] using found

theorem setting_reaches (settings : List Setting) (agrees : Agrees config d u)
    (place : u.point = .setting self settings job rest) :
    Reaches config d u d fun point => point = .executing self job rest := by
  induction settings generalizing u with
  | nil =>
      have worked : work config u (connecting d) = {u with point := .executing self job rest} := by rw [work,place]
      exact pointing_reaches agrees (connecting d) (by simp [executed,place,agrees.used]) worked
  | cons setting settings ih =>
      have first : Reaches config d u d fun point => point = .setting self settings job rest :=
        moving_reaches (setting.program self) (fun _ => .setting self settings job rest) agrees (connecting d)
          (by simp [executed,place,agrees.used]) (by rw [work,place]) fun _ _ _ => rfl
      exact first.trans fun v agrees place => ih agrees place

theorem retrieved_reaches (agrees : Agrees config d u) (place : u.point = .retrieved job rest)
    (held : d.stmtHolder job.name = some stmt) :
    Reaches config d u d fun point => ∃ self, point = .executing self job rest := by
  have there := agrees.held job.name
  rw [held] at there
  obtain ⟨st,there⟩ := Option.isSome_iff_exists.mp there.symm
  have first : Reaches config d u d fun point => point = .setting st job.settings job rest :=
    moving_reaches (clearParameters st) (fun _ => .setting st job.settings job rest) agrees (connecting d)
      (by simp [executed,place,agrees.used]) (by rw [work,place]; simp only [there]) fun _ _ _ => rfl
  refine first.trans fun v agrees place => ?_
  obtain ⟨answers,agrees,there,executions⟩ := setting_reaches job.settings agrees place
  exact ⟨answers,agrees,⟨st,there⟩,executions⟩

def Idle (point : Point) : Prop := point = .idle

theorem afterRetrieve_reaches {use : Database.Stmt → DbService → DbService}
    (body : ∀ stmt db v self, Agrees config db v → v.point = .executing self job rest →
      Reaches config db v (use stmt db) Idle)
    (agrees : Agrees config d u) (place : u.point = .retrieving 60 job rest) :
    Reaches config d u (afterRetrieve d job.name use) Idle := by
  have first := retrieving_reaches agrees place
  have held := fun stmt => @retrieveStatement_held d job.name stmt
  unfold afterRetrieve
  split
  · rename_i stmt db outcome
    rw [outcome] at first held
    refine first.trans fun v agrees place => ?_
    refine (retrieved_reaches agrees place (held stmt rfl)).trans fun v agrees executing => ?_
    obtain ⟨self,place⟩ := executing
    exact body stmt db v self agrees place
  · rename_i outcome
    rw [outcome] at first
    exact first

theorem afterConnect_reaches {use : DbService → DbService}
    (body : ∀ db v, Agrees config db v → v.point = .retrieving 60 job rest → Reaches config db v (use db) Idle)
    (agrees : Agrees config d u) (place : u.point = .connecting job rest) :
    Reaches config d u (afterConnect d use) Idle := by
  have first := connecting_reaches agrees place
  unfold afterConnect
  split
  · rename_i db outcome
    rw [outcome] at first
    exact first.trans fun v agrees place => body db v agrees place
  · rename_i outcome
    rw [outcome] at first
    exact first

theorem Agrees.executes (agrees : Agrees config d u) (name : QueryName) (stmt : Database.Stmt)
    (parameters : List Parameter) : Agrees config (dbmysqlLocalExecute d name stmt parameters).2 u := by
  obtain ⟨⟨enabled,queries,limit,connected,recent,since,held⟩,valid⟩ := agrees
  unfold dbmysqlLocalExecute
  dsimp only [DbService.answer]
  split
  · exact ⟨⟨enabled,queries,limit,connected,recent,since,held⟩,valid⟩
  · exact ⟨⟨enabled,queries,limit,connected,recent,since,held⟩,valid⟩

theorem executing_reaches {name : QueryName} {stmt : Database.Stmt} {parameters : List Parameter} (agrees : Agrees config d u)
    (place : u.point = .executing self job rest) (asked : job.asked = (name,settingsOf parameters)) (answer : Answer)
    (agrees' : Agrees config d (step config u (.works answer))) (there : P (step config u (.works answer)).point) :
    Reaches config d u (dbmysqlLocalExecute d name stmt parameters).2 P := by
  obtain ⟨x,grown,same⟩ := dbmysqlLocalExecute_made d name stmt parameters
  refine ⟨[answer],agrees'.executes name stmt parameters,there,[x],grown,?_⟩
  simp [Machine.trace,executed,place,agrees.used,asked,same]

theorem update_reaches {name : QueryName} {parameters : List Parameter} (stmt : Database.Stmt) (agrees : Agrees config d u)
    (place : u.point = .executing self job rest) (updates : job.use = .update)
    (asked : job.asked = (name,settingsOf parameters)) :
    Reaches config d u (dbmysqlLocalExecute d name stmt parameters).2 fun point => point = next rest := by
  obtain ⟨_,_,_,there,agrees'⟩ := moves (executeUpdate self true false) (fun _ => next rest) agrees
    (connecting d) (by rw [work,place]; simp only [updates]; rfl)
  exact executing_reaches agrees place asked _ agrees' there

theorem bind_runs {c : Program Block α} {following : α → Program Block β} (ran : (c >>= following) h = some reached) :
    ∃ a h', c h = some (a,h') ∧ following a h' = some reached := by
  change (c h).bind (fun ran => following ran.1 ran.2) = some reached at ran
  obtain ⟨⟨a,h'⟩,first,second⟩ := Option.bind_eq_some_iff.mp ran
  exact ⟨a,h',first,second⟩

theorem pure_runs {a : α} (ran : (pure a : Program Block α) h = some (b,h')) : b = a :=
  (Prod.mk.inj (Option.some.inj ran)).1.symm

theorem localExecute_answers (ran : localExecute self true executes h = some (done,h')) : done = executes := by
  unfold localExecute at ran
  obtain ⟨_,_,_,ran⟩ := bind_runs ran
  obtain ⟨_,_,_,ran⟩ := bind_runs ran
  split at ran
  · obtain ⟨_,_,_,ran⟩ := bind_runs ran
    obtain ⟨_,_,_,ran⟩ := bind_runs ran
    simp only [if_true] at ran
    obtain ⟨_,_,_,ran⟩ := bind_runs ran
    exact pure_runs ran
  · obtain ⟨_,_,_,ran⟩ := bind_runs ran
    exact pure_runs ran

theorem execute_answers (ran : execute self true executes h = some (done,h')) : done.2 = executes := by
  unfold execute at ran
  obtain ⟨_,_,_,ran⟩ := bind_runs ran
  obtain ⟨executed,_,first,ran⟩ := bind_runs ran
  rw [pure_runs ran]
  exact localExecute_answers first

theorem next_answers (ran : DbMysql.Memory.next self fetched h = some (row,h')) : row = fetched := by
  unfold DbMysql.Memory.next at ran
  obtain ⟨_,_,_,ran⟩ := bind_runs ran
  obtain ⟨_,_,_,ran⟩ := bind_runs ran
  obtain ⟨_,_,_,ran⟩ := bind_runs ran
  obtain ⟨_,_,_,ran⟩ := bind_runs ran
  cases fetched with
  | false => exact pure_runs ran
  | true =>
      simp only [if_true] at ran
      obtain ⟨_,_,_,ran⟩ := bind_runs ran
      obtain ⟨_,_,_,ran⟩ := bind_runs ran
      exact pure_runs ran

theorem query_reaches {name : QueryName} {parameters : List Parameter} (stmt : Database.Stmt) (ok : Bool)
    (agrees : Agrees config d u) (place : u.point = .executing self job rest) (queries : job.use ≠ .update)
    (asked : job.asked = (name,settingsOf parameters)) :
    Reaches config d u (dbmysqlLocalExecute d name stmt parameters).2 fun point =>
      if ok then ∃ stmt, point = .resulting stmt job rest else point = failing job := by
  obtain ⟨done,_,ran,there,agrees'⟩ := moves (execute self true ok)
    (fun done => if done.2 then .resulting done.1 job rest else failing job) agrees
    {connecting d with executes := ok} (by
      rw [work,place]
      cases uses : job.use with
      | update => exact absurd uses queries
      | query => simp only [uses]; rfl
      | multipleQuery => simp only [uses]; rfl)
  refine executing_reaches agrees place asked _ agrees' ?_
  rw [there,execute_answers ran]
  cases ok with
  | true => exact ⟨done.1,rfl⟩
  | false => rfl

theorem internalFetchResult_answers (ran : internalFetchResult stmt columns h = some (found,h')) :
    found.isSome = columns.isSome := by
  unfold internalFetchResult at ran
  obtain ⟨_,_,_,ran⟩ := bind_runs ran
  obtain ⟨_,_,_,ran⟩ := bind_runs ran
  obtain ⟨_,_,_,ran⟩ := bind_runs ran
  obtain ⟨_,_,_,ran⟩ := bind_runs ran
  obtain ⟨_,_,_,ran⟩ := bind_runs ran
  cases columns with
  | none =>
      obtain ⟨_,_,_,ran⟩ := bind_runs ran
      obtain ⟨_,_,_,ran⟩ := bind_runs ran
      rw [pure_runs ran]
      rfl
  | some columns =>
      obtain ⟨_,_,_,ran⟩ := bind_runs ran
      obtain ⟨_,_,_,ran⟩ := bind_runs ran
      obtain ⟨_,_,_,ran⟩ := bind_runs ran
      obtain ⟨_,_,_,ran⟩ := bind_runs ran
      obtain ⟨_,_,_,ran⟩ := bind_runs ran
      obtain ⟨_,_,_,ran⟩ := bind_runs ran
      obtain ⟨_,_,_,ran⟩ := bind_runs ran
      rw [pure_runs ran]
      rfl

theorem fetchResult_answers (ran : fetchResult use stmt columns h = some (found,h')) :
    found.isSome = columns.isSome := by
  cases use with
  | update => cases columns <;> exact internalFetchResult_answers ran
  | query => cases columns <;> exact internalFetchResult_answers ran
  | multipleQuery =>
      cases columns with
      | none =>
          obtain ⟨_,_,_,ran⟩ := bind_runs ran
          rw [pure_runs ran]
          rfl
      | some columns =>
          obtain ⟨_,_,_,ran⟩ := bind_runs ran
          exact internalFetchResult_answers ran

def fetched (stmt : Nat) (job : Job) (rest : List Job) (found : Option Nat) : Point :=
  match found,job.use with
  | some result,_ => .fetching stmt result job rest
  | none,.multipleQuery => .continuing stmt job rest
  | none,_ => failing job

theorem resulting_reaches (columns : Option Columns) (agrees : Agrees config d u)
    (place : u.point = .resulting stmt job rest) :
    Reaches config d u d fun point => ∃ found, found.isSome = columns.isSome ∧ point = fetched stmt job rest found := by
  refine moving_reaches (fetchResult job.use stmt columns) (fetched stmt job rest) agrees
    {connecting d with columns := columns} (by simp [executed,place,agrees.used]) ?_ fun found _ ran =>
    ⟨found,fetchResult_answers ran,rfl⟩
  simp only [work,place]
  congr
  funext found s
  cases found with
  | none => cases uses : job.use <;> simp [fetched,uses]
  | some result => rfl

theorem reading_reaches (columns : List Column) (agrees : Agrees config d u)
    (place : u.point = .reading stmt result columns job rest) :
    Reaches config d u d fun point =>
      point = if job.all then .fetching stmt result job rest else .closing stmt result false job rest := by
  induction columns generalizing u with
  | nil =>
      have worked : work config u (connecting d) = {u with
          point := if job.all then .fetching stmt result job rest else .closing stmt result false job rest} := by
        rw [work,place]
      exact pointing_reaches agrees (connecting d) (by simp [executed,place,agrees.used]) worked
  | cons column columns ih =>
      have first : Reaches config d u d fun point => point = .reading stmt result columns job rest :=
        moving_reaches (column.program result (connecting d).cell) (fun _ => .reading stmt result columns job rest) agrees
          (connecting d) (by simp [executed,place,agrees.used]) (by rw [work,place]) fun _ _ _ => rfl
      exact first.trans fun v agrees place => ih agrees place

-- The end of the data is come to after a row only where all rows are read.
theorem rows_reaches (rows : Nat) (failed : Bool) (agrees : Agrees config d u)
    (place : u.point = .fetching stmt result job rest) :
    Reaches config d u d fun point =>
      point = .closing stmt result (failed && (rows == 0 || job.all)) job rest := by
  induction rows generalizing u with
  | zero =>
      refine moving_reaches (DbMysql.Memory.next result false)
        (fun row => if row then .reading stmt result job.columns job rest else .closing stmt result failed job rest)
        agrees {connecting d with failed := failed} (by simp [executed,place,agrees.used]) (by rw [work,place]; rfl) ?_
      intro row heap ran
      rw [next_answers ran]
      simp
  | succ rows ih =>
      have first : Reaches config d u d fun point => point = .reading stmt result job.columns job rest := by
        refine moving_reaches (DbMysql.Memory.next result true)
          (fun row => if row then .reading stmt result job.columns job rest else .closing stmt result failed job rest)
          agrees {connecting d with row := true,failed := failed} (by simp [executed,place,agrees.used]) (by rw [work,place]) ?_
        intro row heap ran
        rw [next_answers ran]
        rfl
      refine first.trans fun v agrees place => ?_
      have row := reading_reaches _ agrees place
      cases all : job.all with
      | true =>
          simp only [all,if_true] at row
          refine row.trans fun w agrees place => ?_
          simpa only [all,Bool.or_true] using ih agrees place
      | false => simpa only [all,Bool.false_eq_true,if_false,Bool.or_false,beq_iff_eq,Nat.add_one_ne_zero,
          show (rows+1 == 0) = false from rfl,Bool.and_false] using row

theorem closing_reaches (failed : Bool) (agrees : Agrees config d u)
    (place : u.point = .closing stmt result failed job rest) :
    Reaches config d u d fun point => point = match job.use with
      | .multipleQuery => .continuing stmt job rest
      | _ => if failed && job.reconnects then .reconnecting 20 none else next rest := by
  refine moving_reaches (resultClose result) (fun _ => match job.use with
    | .multipleQuery => .continuing stmt job rest
    | _ => if failed && job.reconnects then .reconnecting 20 none else next rest) agrees (connecting d)
    (by simp [executed,place,agrees.used]) ?_ fun _ _ _ => rfl
  rw [work,place]
  simp only
  cases job.use <;> rfl

def oneColumn : Columns := ⟨1,Nat.one_pos⟩

theorem result_reaches (result : ResultSet) (agrees : Agrees config d u) (place : u.point = .resulting stmt job rest) :
    Reaches config d u d fun point => point = match job.use with
      | .multipleQuery => .continuing stmt job rest
      | _ => if (result.errno ≠ 0 && (result.rows.length == 0 || job.all)) && job.reconnects then .reconnecting 20 none
        else next rest := by
  refine (resulting_reaches (some oneColumn) agrees place).trans fun v agrees fetching => ?_
  obtain ⟨found,present,place⟩ := fetching
  obtain ⟨opened,rfl⟩ := Option.isSome_iff_exists.mp present
  refine (rows_reaches result.rows.length (result.errno ≠ 0) agrees place).trans fun v agrees place => ?_
  exact closing_reaches _ agrees place

theorem asked_reaches {name : QueryName} {parameters : List Parameter} (stmt : Database.Stmt) (result : Option ResultSet)
    (agrees : Agrees config d u) (place : u.point = .executing self job rest) (queries : job.use = .query)
    (asked : job.asked = (name,settingsOf parameters)) :
    Reaches config d u (dbmysqlLocalExecute d name stmt parameters).2 fun point => point = match result with
      | none => failing job
      | some result =>
        if (result.errno ≠ 0 && (result.rows.length == 0 || job.all)) && job.reconnects then .reconnecting 20 none
        else next rest := by
  have other : job.use ≠ .update := by simp [queries]
  cases result with
  | none => exact query_reaches stmt false agrees place other asked
  | some result =>
      refine (query_reaches stmt true agrees place other asked).trans fun v agrees resulting => ?_
      obtain ⟨stmt,place⟩ := resulting
      simpa only [queries] using result_reaches result agrees place

theorem once_reaches {name : QueryName} {parameters : List Parameter} (stmt : Database.Stmt) (result : Option ResultSet)
    (agrees : Agrees config d u) (place : u.point = .executing self job []) (queries : job.use = .query)
    (asked : job.asked = (name,settingsOf parameters)) (never : job.reconnects = false) :
    Reaches config d u (dbmysqlLocalExecute d name stmt parameters).2 Idle := by
  refine (asked_reaches stmt result agrees place queries asked).trans fun v agrees place => reaches_here agrees ?_
  rw [place]
  cases result with
  | none => simp [Idle,failing,never]
  | some result => simp [Idle,next,never]

theorem results_reaches (results : List (Option ResultSet)) (agrees : Agrees config d u)
    (place : u.point = .resulting stmt job rest) (multiple : job.use = .multipleQuery) :
    Reaches config d u d fun point => point = next rest := by
  have one : ∀ (result : Option ResultSet) {u : State}, Agrees config d u → u.point = .resulting stmt job rest →
      Reaches config d u d fun point => point = .continuing stmt job rest := by
    intro result u agrees place
    cases result with
    | none =>
        obtain ⟨answers,agrees,⟨found,absent,there⟩,executions⟩ := resulting_reaches none agrees place
        obtain rfl : found = none := by simpa using absent
        exact ⟨answers,agrees,by rw [there]; simp [fetched,multiple],executions⟩
    | some result => simpa only [multiple] using result_reaches result agrees place
  have continued : ∀ (more : Bool) {u : State}, Agrees config d u → u.point = .continuing stmt job rest →
      Reaches config d u d fun point => point = if more then .resulting stmt job rest else next rest := by
    intro more u agrees place
    exact moving_reaches (useStatement stmt) (fun _ => if more then .resulting stmt job rest else next rest) agrees
      {connecting d with more := more} (by simp [executed,place,agrees.used]) (by rw [work,place]) fun _ _ _ => rfl
  induction results generalizing u with
  | nil => exact (one none agrees place).trans fun v agrees place => continued false agrees place
  | cons result results ih =>
      refine (one result agrees place).trans fun v agrees place => ?_
      cases results with
      | nil => exact continued false agrees place
      | cons => exact (continued true agrees place).trans fun v agrees place => ih agrees place

theorem useOnce_reaches {parameters : List Parameter} (agrees : Agrees config d u) (place : u.point = .connecting job [])
    (execute : ∀ stmt db v self, Agrees config db v → v.point = .executing self job [] →
      Reaches config db v (dbmysqlLocalExecute db job.name stmt parameters).2 Idle) :
    Reaches config d u (useOnce d job.name parameters) Idle :=
  afterConnect_reaches (fun _ _ agrees place => afterRetrieve_reaches execute agrees place) agrees place

theorem updateOnce_reaches {parameters : List Parameter} (agrees : Agrees config d u) (place : u.point = .connecting job [])
    (updates : job.use = .update) (asked : job.asked = (job.name,settingsOf parameters)) :
    Reaches config d u (updateOnce d job.name parameters).2 Idle := by
  rw [updateOnce_state]
  exact useOnce_reaches agrees place fun _ _ _ _ agrees place => update_reaches _ agrees place updates asked

theorem checkWith_reaches (remoteIp : String) (stmt : Database.Stmt) (agrees : Agrees config d u)
    (place : u.point = .executing self job []) (is : [job] = checkAvailable remoteIp) :
    Reaches config d u (checkWith remoteIp stmt d) Idle := by
  obtain rfl := (List.cons.inj is).1
  have state := dbmysqlExecuteQuery_state d .checkAvailable stmt [.string remoteIp]
  have again : ∀ {db v}, Agrees config db v → v.point = .reconnecting 20 none →
      Reaches config db v (tryReconnect db) Idle := fun agrees place => reconnecting_reaches 20 none agrees place
  have first := fun result => @asked_reaches config d u self _ [] .checkAvailable [.string remoteIp] stmt result agrees place
    rfl rfl
  unfold checkWith
  split
  · rename_i result db outcome
    rw [outcome] at state
    simp only at state
    have first := first (some result)
    rw [← state] at first
    split
    · next failing =>
        refine first.trans fun v agrees place => again agrees ?_
        simpa [failing] using place
    · next fine =>
        refine first.trans fun v agrees place => reaches_here agrees ?_
        have read : result.errno ≠ 0 → result.rows ≠ [] := fun error absent => fine ⟨absent,error⟩
        rw [place]
        dsimp only
        rw [if_neg (by simpa using read)]
        rfl
  · rename_i db outcome
    rw [outcome] at state
    simp only at state
    have first := first none
    rw [← state] at first
    exact first.trans fun v agrees place => again agrees place

theorem establishWith_reaches (sn : Int) (account : Option String) (ipaddr : String) (agrees : Agrees config d u)
    (place : u.point = .retrieving 60 job rest) (is : job :: rest = connectionEstablished sn account ipaddr) :
    Reaches config d u (establishWith sn account ipaddr d) Idle := by
  obtain ⟨rfl,rfl⟩ := List.cons.inj is
  refine afterRetrieve_reaches (fun stmt db v self agrees place => ?_) agrees place
  refine (update_reaches stmt agrees place rfl (show _ = (.connectionEstablished,settingsOf [.int sn]) from rfl)).trans
    fun v agrees place => ?_
  refine afterRetrieve_reaches (fun stmt db v self agrees place => ?_) agrees place
  refine (update_reaches stmt agrees place rfl
    (show _ = (.connectionBegin,settingsOf [.string ipaddr,.string (account.getD "")]) from rfl)).trans
    fun v agrees place => ?_
  refine afterRetrieve_reaches (fun stmt db v self agrees place => ?_) agrees place
  exact once_reaches stmt (dbmysqlExecuteQuery db .lastInsertId stmt []).1 agrees place rfl rfl rfl

theorem operation_reaches (op : Operation) (agrees : Agrees config d u) (jobs : jobsOf op = job :: rest)
    (place : u.point = .connecting job rest) : Reaches config d u (operate d op) Idle := by
  cases op with
  | checkAvailable remoteIp =>
      obtain ⟨rfl,rfl⟩ := List.cons.inj jobs
      rw [operate,checkAvailable_state]
      exact afterConnect_reaches (fun db v agrees place => afterRetrieve_reaches
        (fun stmt db v self agrees place => checkWith_reaches remoteIp stmt agrees place rfl) agrees place) agrees place
  | connectionEstablished sn account ipaddr =>
      rw [operate,connectionEstablished_state]
      exact afterConnect_reaches (fun db v agrees place => establishWith_reaches sn account ipaddr agrees place jobs.symm)
        agrees place
  | connectionClose | connectionNotAllowed | connectionBlacklisted | checkVip | addIpToAutoBlacklist | addKmsDetails =>
      obtain ⟨rfl,rfl⟩ := List.cons.inj jobs
      exact updateOnce_reaches agrees place rfl rfl
  | updateMachineOwner info cmid =>
      cases account : info.requestInDb.bind DbProxyRequest.account with
      | none =>
          simp only [jobsOf,updateMachineOwner,account] at jobs
          obtain ⟨rfl,rfl⟩ := List.cons.inj jobs
          simp only [operate,Database.updateMachineOwner,account]
          exact updateOnce_reaches agrees place rfl rfl
      | some name =>
          simp only [jobsOf,updateMachineOwner,account] at jobs
          obtain ⟨rfl,rfl⟩ := List.cons.inj jobs
          simp only [operate,Database.updateMachineOwner,account]
          exact updateOnce_reaches agrees place rfl rfl
  | readAllProductNames =>
      obtain ⟨rfl,rfl⟩ := List.cons.inj jobs
      rw [operate,readAllProductNames_state]
      exact useOnce_reaches agrees place fun stmt db v self agrees place =>
        once_reaches stmt (dbmysqlExecuteQuery db .allProductNames stmt []).1 agrees place rfl rfl rfl
  | failGuessing ipAddress =>
      obtain ⟨rfl,rfl⟩ := List.cons.inj jobs
      rw [operate,failGuessing_state]
      refine useOnce_reaches agrees place fun stmt db v self agrees place => ?_
      cases (dbmysqlLocalExecute db .callFailureGuessing stmt [.string ipAddress]).1 with
      | none => exact query_reaches stmt false agrees place (fun updates => by cases updates) rfl
      | some reply =>
          have first := @query_reaches config db v self _ [] .callFailureGuessing [.string ipAddress] stmt true agrees place
            (fun updates => by cases updates) rfl
          refine first.trans fun v agrees resulting => ?_
          obtain ⟨stmt,place⟩ := resulting
          exact results_reaches reply.results agrees place rfl
  | closeIdle tv => cases jobs
  | done => cases jobs

-- A history of the service, and a run of the machine: it begins the same
-- operations, executes the same statements with the same parameters set, and
-- comes to the same variables. The timer comes between the operations.
structure Realizes (config : Config) (d : DbService) (u : State) (ops : List Operation) (events : List Event) : Prop where
  agrees : Agrees config (Machine.run operate d ops) (Machine.run (step config) u events)
  idle : (Machine.run (step config) u events).point = .idle
  called : Machine.trace (step config) called u events = ops.filter (jobsOf · ≠ [])
  executed : ∃ made, (Machine.run operate d ops).executions = d.executions ++ made ∧
    (Machine.trace (step config) executed u events).map Job.asked = made.map Execution.asked
  spared : Machine.Along (step config) (fun s event => ¬ Strikes s event) u events

theorem works_called (answers : List Answer) : Machine.trace (step config) called u (answers.map .works) = [] := by
  induction answers generalizing u with
  | nil => rfl
  | cons answer answers ih => simp [Machine.trace,called,ih]

theorem works_spared (answers : List Answer) :
    Machine.Along (step config) (fun s event => ¬ Strikes s event) u (answers.map .works) := by
  induction answers generalizing u with
  | nil => trivial
  | cons answer answers ih => exact ⟨fun strikes => strikes,ih⟩

theorem Realizes.append (first : Realizes config d u earlier events)
    (second : Realizes config (Machine.run operate d earlier) (Machine.run (step config) u events) later events') :
    Realizes config d u (earlier++later) (events++events') := by
  obtain ⟨made,grown,same⟩ := first.executed
  obtain ⟨made',grown',same'⟩ := second.executed
  constructor
  case agrees =>
    rw [Machine.run_append,Machine.run_append]
    exact second.agrees
  case idle =>
    rw [Machine.run_append]
    exact second.idle
  case called => rw [Machine.trace_append,List.filter_append,first.called,second.called]
  case executed =>
    refine ⟨made++made',?_,?_⟩
    · rw [Machine.run_append,grown',grown,List.append_assoc]
    · rw [Machine.trace_append,List.map_append,List.map_append,same,same']
  case spared => exact (Machine.along_append events events').mpr ⟨first.spared,second.spared⟩

theorem called_realized (op : Operation) (jobs : jobsOf op = job :: rest) (agrees : Agrees config d u)
    (idle : u.point = .idle) : ∃ events, Realizes config d u [op] events := by
  have begun : step config u (.calls op) = {u with point := .connecting job rest} := by
    simp only [step,agrees.used,Bool.false_eq_true,if_false,idle,jobs]
  have agrees' : Agrees config d {u with point := .connecting job rest} := by
    obtain ⟨views,lostBlocks,used,holder,opened,has,held⟩ := agrees.valid
    rw [has.zero (by rw [idle]; rfl)] at held
    exact ⟨agrees.pointing _,views,lostBlocks,used,holder,0,.nothing _ rfl,held⟩
  obtain ⟨answers,agrees'',there,executions⟩ := operation_reaches op agrees' jobs rfl
  refine ⟨.calls op :: answers.map .works,?_,?_,?_,?_,?_⟩
  · rw [Machine.run_cons,Machine.run_cons,begun]
    exact agrees''
  · rw [Machine.run_cons,begun]
    exact there
  · simp [Machine.trace,called,agrees.used,idle,works_called,jobs]
  · rw [Machine.trace,begun]
    exact executions
  · exact ⟨fun strikes => strikes,works_spared answers⟩

theorem between_realized (op : Operation) (event : Event) (absent : jobsOf op = []) (agrees : Agrees config d u)
    (idle : u.point = .idle) (silent : called u event = none ∧ executed u event = none)
    (executions : (operate d op).executions = d.executions)
    (same : (step config u event).misused = false →
      SameFields config (operate d op) (step config u event) ∧ (step config u event).point = .idle) :
    ∃ events, Realizes config d u [op] events := by
  have spared : ¬ Strikes u event := by
    cases event with
    | closeIdle tv =>
        rintro ⟨_,held⟩
        rw [idle] at held
        exact held rfl
    | _ => exact fun strikes => strikes
  obtain ⟨views,lostBlocks,valid⟩ := agrees.valid
  obtain ⟨views',more,valid',_⟩ := @step_kept _ _ config _ valid event spared
  obtain ⟨fields,there⟩ := same valid'.used
  refine ⟨[event],⟨fields,views',_,valid'⟩,there,?_,⟨[],?_,?_⟩,spared,trivial⟩
  · simp [Machine.trace,silent.1,absent]
  · simpa using executions
  · simp [Machine.trace,silent.2]

theorem hangUp_same (agrees : Agrees config d u) (used : (hangUp u).misused = false) :
    SameFields config (Database.hangUp d) (hangUp u) ∧ (hangUp u).point = u.point := by
  obtain ⟨⟨enabled,queries,limit,_,recent,since,_⟩,_⟩ := agrees
  unfold hangUp State.use at used ⊢
  cases ran : closeAllStatements u.stmtHolder u.heap with
  | none =>
      rw [ran] at used
      cases used
  | some reached => exact ⟨⟨enabled,queries,limit,rfl,recent,since,fun _ => rfl⟩,rfl⟩

theorem closeIdle_realized (tv : Timeval) (agrees : Agrees config d u) (idle : u.point = .idle) :
    ∃ events, Realizes config d u [.closeIdle tv] events := by
  refine between_realized _ (.closeIdle tv) rfl agrees idle ⟨rfl,rfl⟩ (closeIdle_executions d tv) fun used => ?_
  have stepped : step config u (.closeIdle tv) = closeIdle u tv := by
    simp only [step,agrees.used,Bool.false_eq_true,if_false]
  rw [stepped] at used ⊢
  unfold closeIdle at used ⊢
  have same : closes u tv = true ↔ d.connected = true ∧ databaseTimeout < elapsedTime tv d.recentUseTime := by
    simp [closes,agrees.connected,agrees.recentUseTime]
  by_cases fires : closes u tv = true
  · rw [if_pos fires] at used ⊢
    rw [operate,Database.closeIdle,if_pos (same.mp fires)]
    obtain ⟨fields,there⟩ := hangUp_same agrees used
    exact ⟨fields,there.trans idle⟩
  · rw [if_neg fires,operate,Database.closeIdle,if_neg (fun holds => fires (same.mpr holds))]
    exact ⟨agrees.toSameFields,idle⟩

theorem dbServiceDone_keeps (d : DbService) (stays : ¬ (d.connected = true ∧
    d.maxConnectionTime < elapsedTime (d.replies d.asked).now d.connectionTime)) :
    Database.dbServiceDone d = d ∨ Database.dbServiceDone d = {d with asked := d.asked+1} := by
  unfold Database.dbServiceDone DbService.answer
  split
  · next opened => exact .inr (if_neg fun old => stays ⟨opened,old⟩)
  · exact .inl rfl

theorem done_realized (agrees : Agrees config d u) (idle : u.point = .idle) :
    ∃ events, Realizes config d u [.done] events := by
  refine between_realized _ (.done (d.replies d.asked).now) rfl agrees idle ⟨rfl,rfl⟩ (dbServiceDone_executions d) fun used => ?_
  have stepped : step config u (.done (d.replies d.asked).now) = dbServiceDone config u (d.replies d.asked).now := by
    simp only [step,agrees.used,Bool.false_eq_true,if_false,idle]
  rw [stepped] at used ⊢
  unfold dbServiceDone at used ⊢
  have same : (u.connected && decide (config.maxConnectionTime < elapsedTime (d.replies d.asked).now u.connectionTime)) = true ↔
      d.connected = true ∧ d.maxConnectionTime < elapsedTime (d.replies d.asked).now d.connectionTime := by
    simp [agrees.connected,agrees.connectionTime,agrees.maxConnectionTime]
  have answered : Agrees config {d with asked := d.asked+1} u := by
    obtain ⟨⟨enabled,queries,limit,connected,recent,since,held⟩,valid⟩ := agrees
    exact ⟨⟨enabled,queries,limit,connected,recent,since,held⟩,valid⟩
  split at used
  · next fires =>
      obtain ⟨opened,old⟩ := same.mp fires
      rw [if_pos fires]
      simp only [operate,Database.dbServiceDone,DbService.answer,opened,if_true,old]
      obtain ⟨fields,there⟩ := hangUp_same answered used
      exact ⟨fields,there.trans idle⟩
  · next stays =>
      rw [if_neg stays,operate]
      rcases dbServiceDone_keeps d (fun holds => stays (same.mpr holds)) with kept | kept
      · rw [kept]
        exact ⟨agrees.toSameFields,idle⟩
      · rw [kept]
        exact ⟨answered.toSameFields,idle⟩

theorem operate_realized (op : Operation) (agrees : Agrees config d u) (idle : u.point = .idle) :
    ∃ events, Realizes config d u [op] events := by
  cases op with
  | closeIdle tv => exact closeIdle_realized tv agrees idle
  | done => exact done_realized agrees idle
  | updateMachineOwner info cmid =>
      cases account : info.requestInDb.bind DbProxyRequest.account with
      | none => exact called_realized _ (by simp only [jobsOf,updateMachineOwner,account]; rfl) agrees idle
      | some name => exact called_realized _ (by simp only [jobsOf,updateMachineOwner,account]; rfl) agrees idle
  | _ => exact called_realized _ rfl agrees idle

theorem history_realized (ops : List Operation) (agrees : Agrees config d u) (idle : u.point = .idle) :
    ∃ events, Realizes config d u ops events := by
  induction ops using List.reverseRecOn with
  | nil => exact ⟨[],agrees,idle,rfl,⟨[],by simp,rfl⟩,trivial⟩
  | append_singleton ops op ih =>
      obtain ⟨events,earlier⟩ := ih
      obtain ⟨events',last⟩ := operate_realized op earlier.agrees earlier.idle
      exact ⟨events++events',earlier.append last⟩

theorem service_realized (enabled : Bool) (queries : QueryName → Option String) (maxConnectionTime : Int) (lastRow : Nat)
    (replies : Nat → Reply) (ops : List Operation) :
    let service := newDatabaseService enabled queries maxConnectionTime lastRow replies
    let config : Config := ⟨enabled,service.queries,maxConnectionTime⟩
    ∃ events, Realizes config service started ops events ∧ Intact (Machine.run (step config) started events) := by
  intro service config
  have agrees : Agrees config service started :=
    ⟨⟨rfl,rfl,rfl,rfl,rfl,rfl,fun _ => rfl⟩,_,_,started_valid⟩
  obtain ⟨events,realizes⟩ := history_realized ops agrees rfl
  obtain ⟨_,_,valid⟩ := realizes.agrees.valid
  exact ⟨events,realizes,valid_intact valid⟩

end StatementUse

end TcpProxy.Database
