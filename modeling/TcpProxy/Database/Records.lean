import TcpProxy.Database.Sessions

namespace TcpProxy.Database
open Proxying

variable {s : DbService}

def insertedBy (s : DbService) (sn : Int) (account : Option String) (ipaddr : String) : Option Nat :=
  ((connectionEstablished s sn account ipaddr).2.executions.drop s.executions.length).findSome? fun x =>
    if x.query = .connectionBegin then x.inserted else none

-- What MySQL makes of the insert: the number of the new row, unless it fails.
def begunRow (s : DbService) (stmt : Stmt) : Option Nat :=
  if (s.replies s.asked).execute ∧ s.session = some stmt.session then
    some (s.lastRow+1+(s.replies s.asked).skipped)
  else none

-- Where connection_established asks for LAST_INSERT_ID (), and what became of
-- the insert it has made before.
def atQuery (s : DbService) (sn : Int) (account : Option String) (ipaddr : String) :
    Option (Option Nat × Stmt × DbService) :=
  match connectToDatabase s with
  | (true,s) =>
    match retrieveStatement s .connectionEstablished with
    | (some stmt,s) =>
      match retrieveStatement (dbmysqlExecuteUpdate s .connectionEstablished stmt [.int sn]).2 .connectionBegin with
      | (some stmt,s) =>
        match retrieveStatement (dbmysqlExecuteUpdate s .connectionBegin stmt
          [.string ipaddr,.string (account.getD "")]).2 .lastInsertId with
        | (some query,after) => some (begunRow s stmt,query,after)
        | (none,_) => none
      | (none,_) => none
    | (none,_) => none
  | (false,_) => none

def Told (s : DbService) (stmt : Stmt) : Prop :=
  (s.replies s.asked).execute = true ∧ s.session = some stmt.session ∧
    ∃ result, (s.replies s.asked).results.head? = some (some result) ∧ result.rows ≠ []

-- What makes the answer trustworthy: the insert of the same call has succeeded
-- with an id that an int can hold, or the session has no last id at all.
def Traceable (s : DbService) (sn : Int) (account : Option String) (ipaddr : String) : Prop :=
  ∀ row stmt db, atQuery s sn account ipaddr = some (row,stmt,db) → Told db stmt →
    toInt32 db.lastInsertId = 0 ∨ ∃ n, row = some n ∧ n < 2^31

theorem retrieveStatement_frame (s : DbService) (name : QueryName) :
    (retrieveStatement s name).2.executions = s.executions ∧ (retrieveStatement s name).2.lastRow = s.lastRow ∧
    ((retrieveStatement s name).2.lastInsertId = s.lastInsertId ∨
      (retrieveStatement s name).2.lastInsertId = 0) := by
  cases held : s.stmtHolder name with
  | some stmt => simp [retrieveStatement,held]
  | none =>
      cases query : s.queries name with
      | none => simp [retrieveStatement,held,query]
      | some text =>
          simp only [retrieveStatement,held,query]
          rcases createStatement_cases 59 s with ⟨n,_,_,outcome⟩ | ⟨_,reopened,_⟩
          · rw [outcome]
            exact ⟨rfl,rfl,.inl rfl⟩
          · exact ⟨reopened.executions,reopened.rows,reopened.lastId⟩

theorem begin_executed (s : DbService) (stmt : Stmt) (parameters : List Parameter) :
    let next := (dbmysqlLocalExecute s .connectionBegin stmt parameters).2
    next.executions = s.executions ++ [⟨.connectionBegin,parameters,stmt.session,s.session,begunRow s stmt⟩] ∧
    next.lastInsertId = (begunRow s stmt).getD s.lastInsertId ∧
    next.lastRow = (begunRow s stmt).getD s.lastRow := by
  unfold dbmysqlLocalExecute begunRow
  dsimp only [DbService.answer]
  split
  · exact ⟨rfl,rfl,rfl⟩
  · exact ⟨rfl,rfl,rfl⟩

theorem other_executed (s : DbService) (name : QueryName) (stmt : Stmt) (parameters : List Parameter)
    (different : name ≠ .connectionBegin) :
    (dbmysqlLocalExecute s name stmt parameters).2.lastRow = s.lastRow ∧
    ∃ x, (dbmysqlLocalExecute s name stmt parameters).2.executions = s.executions ++ [x] ∧ x.query = name := by
  unfold dbmysqlLocalExecute
  dsimp only [DbService.answer]
  split
  · exact ⟨rfl,_,rfl,rfl⟩
  · exact ⟨rfl,_,rfl,rfl⟩

def lastIdOf (s : DbService) (stmt : Stmt) : Int :=
  match dbmysqlExecuteQuery s .lastInsertId stmt [] with
  | (some result,_) =>
    match result.rows with
    | row :: _ => row.ints 1
    | [] => 0
  | (none,_) => 0

theorem lastIdOf_cases (s : DbService) (stmt : Stmt) :
    (Told s stmt ∧ lastIdOf s stmt = toInt32 s.lastInsertId) ∨ (¬ Told s stmt ∧ lastIdOf s stmt = 0) := by
  by_cases executes : (s.replies s.asked).execute = true ∧ s.session = some stmt.session
  · obtain ⟨executed,session⟩ := executes
    have answer : (dbmysqlLocalExecute s .lastInsertId stmt []).1 = some (s.replies s.asked) := by
      simp [dbmysqlLocalExecute,DbService.answer,executed,session]
    have lastId : (dbmysqlLocalExecute s .lastInsertId stmt []).2.lastInsertId = s.lastInsertId := by
      simp [dbmysqlLocalExecute,DbService.answer,executed,session,generated]
    rcases outcome : dbmysqlLocalExecute s .lastInsertId stmt [] with ⟨reply,db⟩
    rw [outcome] at answer lastId
    dsimp only at answer lastId
    subst reply
    cases results : (s.replies s.asked).results.head? with
    | none => exact .inr ⟨by simp [Told,results],by simp [lastIdOf,dbmysqlExecuteQuery,outcome,results]⟩
    | some result =>
        cases result with
        | none => exact .inr ⟨by simp [Told,results],by simp [lastIdOf,dbmysqlExecuteQuery,outcome,results]⟩
        | some result =>
            cases rows : result.rows with
            | nil =>
                refine .inr ⟨by simp [Told,results,rows],?_⟩
                simp [lastIdOf,dbmysqlExecuteQuery,outcome,results,ResultSet.answering,rows]
            | cons row rest =>
                refine .inl ⟨⟨executed,session,result,results,by simp [rows]⟩,?_⟩
                simp [lastIdOf,dbmysqlExecuteQuery,outcome,results,ResultSet.answering,rows,lastId,List.replicate_succ]
  · have answer : (dbmysqlLocalExecute s .lastInsertId stmt []).1 = none := by
      simp [dbmysqlLocalExecute,DbService.answer,executes]
    rcases outcome : dbmysqlLocalExecute s .lastInsertId stmt [] with ⟨reply,db⟩
    rw [outcome] at answer
    dsimp only at answer
    subst reply
    exact .inr ⟨fun told => executes ⟨told.1,told.2.1⟩,by simp only [lastIdOf,dbmysqlExecuteQuery,outcome]⟩

-- The part of connection_established from the insert on, which is made in the
-- state `db` behind the first statement.
theorem established_from_insert {insert : Stmt} (sn : Int) (account : Option String) (ipaddr : String)
    (connected : connectToDatabase s = (true,one)) (first : retrieveStatement one .connectionEstablished = (some stmt,two))
    (second : retrieveStatement (dbmysqlLocalExecute two .connectionEstablished stmt [.int sn]).2 .connectionBegin =
      (some insert,db))
    (executions : db.executions = s.executions ++ [x]) (query : x.query = .connectionEstablished)
    (rows : db.lastRow = s.lastRow) :
    let answer := connectionEstablished s sn account ipaddr
    answer.2.lastRow = (begunRow db insert).getD s.lastRow ∧ insertedBy s sn account ipaddr = begunRow db insert ∧
      ((answer.1 = 0 ∧ atQuery s sn account ipaddr = none) ∨
        ∃ query after, atQuery s sn account ipaddr = some (begunRow db insert,query,after) ∧
          answer.1 = lastIdOf after query ∧
          (after.lastInsertId = (begunRow db insert).getD db.lastInsertId ∨ after.lastInsertId = 0)) := by
  intro answer
  obtain ⟨begun,lastId,begunRows⟩ := begin_executed db insert [.string ipaddr,.string (account.getD "")]
  have frame := retrieveStatement_frame (dbmysqlLocalExecute db .connectionBegin insert
    [.string ipaddr,.string (account.getD "")]).2 .lastInsertId
  rcases third : retrieveStatement (dbmysqlLocalExecute db .connectionBegin insert
    [.string ipaddr,.string (account.getD "")]).2 .lastInsertId with ⟨asking,four⟩
  rw [third,begun,lastId,begunRows,executions,rows] at frame
  obtain ⟨executions₄,rows₄,lastId₄⟩ := frame
  dsimp only at executions₄ rows₄ lastId₄
  cases asking with
  | none =>
      refine ⟨?_,?_,.inl ⟨?_,?_⟩⟩
      · simp [answer,connectionEstablished,connected,first,second,third,rows₄]
      · simp [insertedBy,connectionEstablished,connected,first,second,third,executions₄,query]
      · simp [answer,connectionEstablished,connected,first,second,third]
      · simp [atQuery,connected,first,second,third]
  | some asking =>
      obtain ⟨rows₅,y,executions₅,query₅⟩ := other_executed four .lastInsertId asking [] (by decide)
      have state : answer.2 = (dbmysqlLocalExecute four .lastInsertId asking []).2 := by
        simp only [answer,connectionEstablished_state,afterConnect,connected,establishWith,afterRetrieve,first,beginWith,
          second,readId,third]
      refine ⟨?_,?_,.inr ⟨asking,four,?_,?_,lastId₄⟩⟩
      · rw [state,rows₅,rows₄]
      · unfold insertedBy
        rw [show (connectionEstablished s sn account ipaddr).2 = answer.2 from rfl,state,executions₅,executions₄]
        cases begunRow db insert with
        | none => simp [query,query₅]
        | some n => simp [query]
      · simp [atQuery,connected,first,second,third]
      · simp only [answer,connectionEstablished,connected,first,dbmysqlExecuteUpdate_state,second,third,lastIdOf]
        rcases dbmysqlExecuteQuery four .lastInsertId asking [] with ⟨result,db⟩
        cases result with
        | none => rfl
        | some result =>
            cases rows : result.rows with
            | nil => simp [rows]
            | cons row rest => simp [rows]

-- How a call of connection_established can go: it does not come to the insert,
-- or it makes the insert in some state `db` and then asks for the id, or not.
theorem connectionEstablished_cases (s : DbService) (sn : Int) (account : Option String) (ipaddr : String) :
    let answer := connectionEstablished s sn account ipaddr
    (answer.1 = 0 ∧ insertedBy s sn account ipaddr = none ∧ atQuery s sn account ipaddr = none) ∨
    ∃ db stmt, db.lastRow = s.lastRow ∧ answer.2.lastRow = (begunRow db stmt).getD s.lastRow ∧
      insertedBy s sn account ipaddr = begunRow db stmt ∧
      ((answer.1 = 0 ∧ atQuery s sn account ipaddr = none) ∨
        ∃ query after, atQuery s sn account ipaddr = some (begunRow db stmt,query,after) ∧
          answer.1 = lastIdOf after query ∧
          (after.lastInsertId = (begunRow db stmt).getD db.lastInsertId ∨ after.lastInsertId = 0)) := by
  intro answer
  have connects := connectToDatabase_spec s
  rcases connected : connectToDatabase s with ⟨ok,one⟩
  rw [connected] at connects
  obtain ⟨_,executions,rows,_⟩ := connects
  dsimp only at executions rows
  cases ok with
  | false =>
      left
      simp [answer,insertedBy,atQuery,connectionEstablished,connected,executions]
  | true =>
      have frame := retrieveStatement_frame one .connectionEstablished
      rcases first : retrieveStatement one .connectionEstablished with ⟨stmt,two⟩
      rw [first] at frame
      obtain ⟨executions₂,rows₂,_⟩ := frame
      dsimp only at executions₂ rows₂
      cases stmt with
      | none =>
          left
          simp [answer,insertedBy,atQuery,connectionEstablished,connected,first,executions,executions₂]
      | some stmt =>
          obtain ⟨rows₃,x,executions₃,query⟩ := other_executed two .connectionEstablished stmt [.int sn] (by decide)
          have frame := retrieveStatement_frame
            (dbmysqlLocalExecute two .connectionEstablished stmt [.int sn]).2 .connectionBegin
          rcases second : retrieveStatement (dbmysqlLocalExecute two .connectionEstablished stmt [.int sn]).2
            .connectionBegin with ⟨insert,three⟩
          rw [second,executions₃,rows₃,executions₂,rows₂,executions,rows] at frame
          obtain ⟨executions₄,rows₄,_⟩ := frame
          dsimp only at executions₄ rows₄
          cases insert with
          | none =>
              left
              simp [answer,insertedBy,atQuery,connectionEstablished,connected,first,second,executions₄,query]
          | some insert =>
              exact .inr ⟨three,insert,rows₄,
                established_from_insert sn account ipaddr connected first second executions₄ query rows₄⟩

-- The condition is exact: the id is zero or the row of the same call.
theorem traceable_iff (s : DbService) (sn : Int) (account : Option String) (ipaddr : String) :
    Traceable s sn account ipaddr ↔
      (connectionEstablished s sn account ipaddr).1 = 0 ∨
      ∃ n, insertedBy s sn account ipaddr = some n ∧ (connectionEstablished s sn account ipaddr).1 = n := by
  rcases connectionEstablished_cases s sn account ipaddr with
    ⟨zero,_,nowhere⟩ | ⟨db,stmt,_,_,inserted,⟨zero,nowhere⟩ | ⟨query,after,here,answer,lastId⟩⟩
  · exact ⟨fun _ => .inl zero,fun _ row stmt db place => by rw [nowhere] at place; cases place⟩
  · exact ⟨fun _ => .inl zero,fun _ row stmt db place => by rw [nowhere] at place; cases place⟩
  · rw [answer,inserted]
    rcases lastIdOf_cases after query with ⟨told,id⟩ | ⟨untold,zero⟩
    · rw [id]
      constructor
      · intro traceable
        rcases traceable _ _ _ here told with zero | ⟨n,begun,small⟩
        · exact .inl zero
        · rcases lastId with same | absent
          · refine .inr ⟨n,begun,?_⟩
            rw [same,begun]
            exact toInt32_eq (by omega) (by simpa using (Int.ofNat_lt.mpr small))
          · exact .inl (by rw [absent]; rfl)
      · intro own row stmt db place _
        obtain ⟨rfl,rfl,rfl⟩ : begunRow _ _ = row ∧ query = stmt ∧ after = db := by
          simpa using here.symm.trans place
        rcases own with zero | ⟨n,begun,same⟩
        · exact .inl zero
        · have small := toInt32_lt (after.lastInsertId : Int)
          exact .inr ⟨n,begun,by omega⟩
    · refine ⟨fun _ => .inl zero,fun _ row stmt db place told => ?_⟩
      obtain ⟨rfl,rfl,rfl⟩ : begunRow _ _ = row ∧ query = stmt ∧ after = db := by
        simpa using here.symm.trans place
      exact absurd told untold

theorem connectionEstablished_int (s : DbService) (sn : Int) (account : Option String) (ipaddr : String) :
    -2^31 ≤ (connectionEstablished s sn account ipaddr).1 ∧ (connectionEstablished s sn account ipaddr).1 < 2^31 := by
  rcases connectionEstablished_cases s sn account ipaddr with
    ⟨zero,_⟩ | ⟨_,_,_,_,_,⟨zero,_⟩ | ⟨query,after,_,answer,_⟩⟩
  · omega
  · omega
  · rcases lastIdOf_cases after query with ⟨_,id⟩ | ⟨_,zero⟩
    · rw [answer,id]
      exact ⟨le_toInt32 _,toInt32_lt _⟩
    · omega

theorem insertedBy_bounds (found : insertedBy s sn account ipaddr = some n) :
    s.lastRow < n ∧ n ≤ (connectionEstablished s sn account ipaddr).2.lastRow := by
  rcases connectionEstablished_cases s sn account ipaddr with ⟨_,nothing,_⟩ | ⟨db,stmt,rows,total,inserted,_⟩
  · rw [nothing] at found
    cases found
  · rw [inserted] at found
    rw [total,found]
    unfold begunRow at found
    split at found
    · have value := Option.some.inj found
      exact ⟨by omega,Nat.le_refl _⟩
    · cases found

theorem afterConnect_later {use : DbService → DbService} (later : ∀ db, Later db (use db)) (s : DbService) :
    Later s (afterConnect s use) := by
  have connects := connectToDatabase_later s
  unfold afterConnect
  split
  · rename_i outcome
    rw [outcome] at connects
    exact connects.trans (later _)
  · rename_i outcome
    rw [outcome] at connects
    exact connects

theorem useOnce_later (s : DbService) (name : QueryName) (parameters : List Parameter) :
    Later s (useOnce s name parameters) :=
  afterConnect_later (fun db => afterRetrieve_later
    (fun stmt db => dbmysqlLocalExecute_later db name stmt parameters) db name) s

theorem operate_rows (s : DbService) (op : Operation) : s.lastRow ≤ (operate s op).lastRow := by
  rcases operate_cases s op with
    ⟨remoteIp,rfl⟩ | ⟨sn,account,ipaddr,rfl⟩ | ⟨name,parameters,state,_⟩ | ⟨_,db,source,state⟩
  · simp only [operate,checkAvailable_state]
    exact (afterConnect_later (fun db => afterRetrieve_later (checkWith_later remoteIp) db _) s).rows
  · simp only [operate,connectionEstablished_state]
    exact (afterConnect_later (fun db => afterRetrieve_later (fun stmt db =>
      (dbmysqlLocalExecute_later db .connectionEstablished stmt [.int sn]).trans (beginWith_later _ _ _))
      db _) s).rows
  · rw [state]
    exact (useOnce_later s name parameters).rows
  · have same : db.lastRow = s.lastRow := by
      rcases source with rfl | rfl
      · rfl
      · rfl
    rcases state with unchanged | closed
    · rw [unchanged,same]
    · rw [closed]
      exact Nat.le_of_eq same.symm

end TcpProxy.Database
