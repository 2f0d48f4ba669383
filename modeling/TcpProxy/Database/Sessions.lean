import TcpProxy.Lib.Run
import TcpProxy.Database.Service

namespace TcpProxy.Database
open Proxying

variable {s next : DbService}

-- Every statement that was ever executed belonged to the session open at that
-- time, and every cached statement belongs to the session open now.
structure SessionsMatch (s : DbService) : Prop where
  executed : ∀ x ∈ s.executions, x.opened = some x.session
  cached : ∀ name stmt, s.stmtHolder name = some stmt → s.session = some stmt.session

-- Asking for a statement loses nothing: it is cached, it is not configured,
-- nothing is cached at all, or it can be prepared.
def Prepares (s : DbService) (name : QueryName) : Prop :=
  s.stmtHolder name = none → s.queries name ≠ none → (∃ other, s.stmtHolder other ≠ none) →
    (s.replies s.asked).prepare = true

-- Asking for a statement, and what is to hold where it has been obtained.
def Retrieves (s : DbService) (name : QueryName) (after : Stmt → DbService → Prop) : Prop :=
  Prepares s name ∧
    ∀ stmt, (retrieveStatement s name).1 = some stmt → after stmt (retrieveStatement s name).2

def Answers (s : DbService) : Prop :=
  (s.replies s.asked).execute = true ∧
    ∃ result, (s.replies s.asked).results.head? = some (some result) ∧ (result.rows = [] → result.errno = 0)

-- No operation has to reconnect while a statement is cached.
def Calm (s : DbService) (op : Operation) : Prop :=
  let db := (connectToDatabase s).2
  (connectToDatabase s).1 = true →
    match op with
    | .checkAvailable _ => Retrieves db .checkAvailable fun _ db => Answers db
    | .connectionClose _ _ _ _ => Prepares db .connectionClose
    | .connectionEstablished sn account ipaddr =>
      Retrieves db .connectionEstablished fun stmt db =>
        Retrieves (dbmysqlExecuteUpdate db .connectionEstablished stmt [.int sn]).2 .connectionBegin fun stmt db =>
          Prepares (dbmysqlExecuteUpdate db .connectionBegin stmt [.string ipaddr,.string (account.getD "")]).2
            .lastInsertId
    | .connectionNotAllowed _ => Prepares db .connectionNotAllowed
    | .connectionBlacklisted _ => Prepares db .blacklist
    | .checkVip _ => Prepares db .checkVip
    | .addIpToAutoBlacklist _ => Prepares db .addToBlacklist
    | .addKmsDetails _ _ _ _ _ _ _ _ => Prepares db .addDetails
    | .updateMachineOwner info _ =>
      Prepares db (if (info.requestInDb.bind DbProxyRequest.account).isSome then .addMachineOwner
        else .updateMachineAccess)
    | .readAllProductNames => Prepares db .allProductNames
    | .failGuessing _ => Prepares db .callFailureGuessing
    | .closeIdle _ => True
    | .done => True

-- What an operation does on its way: sessions are numbered upwards, so that
-- the open one is the one of before or younger than all of before, no cached
-- statement is taken out of its place, and no row number is given back.
structure Later (s next : DbService) : Prop where
  grown : s.sessions ≤ next.sessions
  session : next.session = s.session ∨ ∀ k, next.session = some k → s.sessions ≤ k ∧ k < next.sessions
  held : ∀ name stmt, s.stmtHolder name = some stmt → next.stmtHolder name = some stmt
  rows : s.lastRow ≤ next.lastRow

theorem Later.refl (s : DbService) : Later s s := ⟨Nat.le_refl _,.inl rfl,fun _ _ held => held,Nat.le_refl _⟩

theorem Later.trans (one : Later s middle) (two : Later middle next) : Later s next := by
  refine ⟨one.grown.trans two.grown,?_,fun name stmt held => two.held name stmt (one.held name stmt held),
    one.rows.trans two.rows⟩
  rcases two.session with same | young
  · rw [same]
    rcases one.session with before | young
    · exact .inl before
    · exact .inr fun k opened => ⟨(young k opened).1,(young k opened).2.trans_le two.grown⟩
  · exact .inr fun k opened => ⟨one.grown.trans (young k opened).1,(young k opened).2⟩

def Stale (s : DbService) : Prop :=
  ∃ name stmt, s.stmtHolder name = some stmt ∧ stmt.session < s.sessions ∧ s.session ≠ some stmt.session

theorem Stale.later (stale : Stale s) (later : Later s next) : Stale next := by
  obtain ⟨name,stmt,held,old,closed⟩ := stale
  refine ⟨name,stmt,later.held name stmt held,old.trans_le later.grown,fun opened => ?_⟩
  rcases later.session with same | young
  · exact closed (same.symm.trans opened)
  · exact absurd (young _ opened).1 (Nat.not_le.mpr old)

structure Live (s : DbService) : Prop extends SessionsMatch s where
  numbered : ∀ k, s.session = some k → k < s.sessions

theorem Stale.not_live (stale : Stale s) : ¬ SessionsMatch s := by
  obtain ⟨name,stmt,held,_,closed⟩ := stale
  exact fun live => closed (live.cached name stmt held)

theorem connectToDatabase_spec (s : DbService) :
    (connectToDatabase s).2.stmtHolder = s.stmtHolder ∧ (connectToDatabase s).2.executions = s.executions ∧
    (connectToDatabase s).2.lastRow = s.lastRow ∧
    ((connectToDatabase s).2.lastInsertId = s.lastInsertId ∨ (connectToDatabase s).2.lastInsertId = 0) ∧
    ((connectToDatabase s).2.session = s.session ∧ (connectToDatabase s).2.sessions = s.sessions ∨
      s.session = none ∧ (connectToDatabase s).2.session = some s.sessions ∧
        (connectToDatabase s).2.sessions = s.sessions+1) := by
  by_cases asked : (s.enabled && !s.connected) = true
  · cases session : s.session with
    | some n => simp [connectToDatabase,asked,dbmysqlConnect,session,DbService.answer]
    | none =>
        cases reply : (s.replies s.asked).connect with
        | true => simp [connectToDatabase,asked,dbmysqlConnect,session,DbService.answer,reply]
        | false => simp [connectToDatabase,asked,dbmysqlConnect,session,DbService.answer,reply]
  · simp [connectToDatabase,asked,DbService.answer]

theorem connectToDatabase_later (s : DbService) : Later s (connectToDatabase s).2 := by
  obtain ⟨holder,_,rows,_,⟨session,sessions⟩ | ⟨_,session,sessions⟩⟩ := connectToDatabase_spec s
  · exact ⟨sessions.ge,.inl session,fun name stmt held => holder ▸ held,rows.ge⟩
  · refine ⟨by omega,.inr fun k opened => ?_,fun name stmt held => holder ▸ held,rows.ge⟩
    obtain rfl : s.sessions = k := Option.some.inj (session.symm.trans opened)
    omega

theorem connectToDatabase_live (live : Live s) : Live (connectToDatabase s).2 := by
  obtain ⟨holder,executions,_,_,⟨session,sessions⟩ | ⟨closed,session,sessions⟩⟩ := connectToDatabase_spec s
  · refine ⟨⟨?_,?_⟩,?_⟩
    · rw [executions]; exact live.executed
    · rw [holder,session]; exact live.cached
    · rw [session,sessions]; exact live.numbered
  · refine ⟨⟨?_,?_⟩,?_⟩
    · rw [executions]; exact live.executed
    · intro name stmt held
      rw [holder] at held
      have isOpen := live.cached name stmt held
      rw [closed] at isOpen
      cases isOpen
    · intro k opened
      obtain rfl : s.sessions = k := Option.some.inj (session.symm.trans opened)
      omega

-- After a reconnect the open session, if there is one, is a new one; the
-- cached statements are those of before.
structure Reopened (s next : DbService) : Prop where
  holder : next.stmtHolder = s.stmtHolder
  executions : next.executions = s.executions
  rows : next.lastRow = s.lastRow
  lastId : next.lastInsertId = s.lastInsertId ∨ next.lastInsertId = 0
  grown : s.sessions ≤ next.sessions
  young : ∀ k, next.session = some k → s.sessions ≤ k ∧ k < next.sessions

theorem Reopened.later (reopened : Reopened s next) : Later s next :=
  ⟨reopened.grown,.inr reopened.young,fun _ _ held => reopened.holder ▸ held,reopened.rows.ge⟩

theorem Reopened.trans (one : Reopened s middle) (two : Reopened middle next) : Reopened s next := by
  refine ⟨two.holder.trans one.holder,two.executions.trans one.executions,two.rows.trans one.rows,?_,
    one.grown.trans two.grown,fun k opened => ⟨one.grown.trans (two.young k opened).1,(two.young k opened).2⟩⟩
  rcases two.lastId with same | zero
  · rw [same]
    exact one.lastId
  · exact .inr zero

theorem Reopened.stale (reopened : Reopened s next) (live : Live s) (held : s.stmtHolder name = some stmt) :
    Stale next := by
  have old := live.numbered _ (live.cached name stmt held)
  refine ⟨name,stmt,by rw [reopened.holder]; exact held,old.trans_le reopened.grown,fun opened => ?_⟩
  exact absurd (reopened.young _ opened).1 (Nat.not_le.mpr old)

theorem reconnectToDatabase_reopened (s : DbService) : Reopened s (reconnectToDatabase s).2 := by
  obtain ⟨holder,executions,rows,lastId,⟨session,sessions⟩ | ⟨_,session,sessions⟩⟩ :=
    connectToDatabase_spec {dbmysqlDisconnect s with connected := false}
  · refine ⟨holder,executions,rows,lastId,sessions.ge,fun k opened => ?_⟩
    have closed : (reconnectToDatabase s).2.session = none := session
    rw [closed] at opened
    cases opened
  · have grown : (reconnectToDatabase s).2.sessions = s.sessions+1 := sessions
    refine ⟨holder,executions,rows,lastId,by omega,fun k opened => ?_⟩
    obtain rfl : s.sessions = k := Option.some.inj (session.symm.trans opened)
    omega

theorem safeReconnectToDatabase_reopened (left : Nat) (s : DbService) :
    Reopened s (safeReconnectToDatabase (left+1) s) := by
  have first := reconnectToDatabase_reopened s
  induction left generalizing s with
  | zero =>
      have once : safeReconnectToDatabase 1 s = (reconnectToDatabase s).2 := by
        simp only [safeReconnectToDatabase]
        split
        · rename_i outcome; rw [outcome]
        · rename_i outcome; rw [outcome]
      rw [once]
      exact first
  | succ left ih =>
      rw [safeReconnectToDatabase]
      split
      · rename_i outcome
        rw [outcome] at first
        exact first
      · rename_i after outcome
        rw [outcome] at first
        exact first.trans (ih after (reconnectToDatabase_reopened after))

theorem tryReconnect_reopened (s : DbService) : Reopened s (tryReconnect s) :=
  safeReconnectToDatabase_reopened 20 s

theorem dbmysqlCreateStatement_cases (s : DbService) :
    (∃ n, s.session = some n ∧ (s.replies s.asked).prepare = true ∧
      dbmysqlCreateStatement s = (some ⟨n⟩,{s with asked := s.asked+1})) ∨
    ((s.session = none ∨ (s.replies s.asked).prepare = false) ∧
      dbmysqlCreateStatement s = (none,{s with asked := s.asked+1})) := by
  cases session : s.session with
  | none => simp [dbmysqlCreateStatement,DbService.answer,session]
  | some n =>
      cases prepare : (s.replies s.asked).prepare with
      | true => simp [dbmysqlCreateStatement,DbService.answer,session,prepare]
      | false => simp [dbmysqlCreateStatement,DbService.answer,session,prepare]

-- A prepared statement belongs to the session that is open when the loop ends.
-- The loop starts, or has started, with a reconnect.
theorem createStatement_reopened (left : Nat) (one : Reopened s middle) :
    Reopened s (createStatement left middle).2 ∧
      ∀ stmt, (createStatement left middle).1 = some stmt →
        (createStatement left middle).2.session = some stmt.session := by
  induction left generalizing middle with
  | zero => exact ⟨one,by simp [createStatement]⟩
  | succ left ih =>
      have clock : Reopened s {middle with asked := middle.asked+1} :=
        ⟨one.holder,one.executions,one.rows,one.lastId,one.grown,one.young⟩
      rcases dbmysqlCreateStatement_cases middle with ⟨n,session,_,outcome⟩ | ⟨_,outcome⟩
      · simp only [createStatement,outcome]
        refine ⟨clock,fun stmt found => ?_⟩
        cases found
        exact session
      · simp only [createStatement,outcome]
        exact ih (clock.trans (tryReconnect_reopened _))

theorem createStatement_cases (left : Nat) (s : DbService) :
    (∃ n, s.session = some n ∧ (s.replies s.asked).prepare = true ∧
      createStatement (left+1) s = (some ⟨n⟩,{s with asked := s.asked+1})) ∨
    ((s.session = none ∨ (s.replies s.asked).prepare = false) ∧ Reopened s (createStatement (left+1) s).2 ∧
      ∀ stmt, (createStatement (left+1) s).1 = some stmt →
        (createStatement (left+1) s).2.session = some stmt.session) := by
  rcases dbmysqlCreateStatement_cases s with ⟨n,session,prepare,outcome⟩ | ⟨failed,outcome⟩
  · exact .inl ⟨n,session,prepare,by simp only [createStatement,outcome]⟩
  · have reopened : Reopened s (tryReconnect {s with asked := s.asked+1}) := by
      have after := tryReconnect_reopened {s with asked := s.asked+1}
      exact ⟨after.holder,after.executions,after.rows,after.lastId,after.grown,after.young⟩
    refine .inr ⟨failed,?_⟩
    simp only [createStatement,outcome]
    exact createStatement_reopened left reopened

theorem retrieveStatement_later (s : DbService) (name : QueryName) : Later s (retrieveStatement s name).2 := by
  cases held : s.stmtHolder name with
  | some stmt => simpa [retrieveStatement,held] using Later.refl s
  | none =>
      cases query : s.queries name with
      | none => simpa [retrieveStatement,held,query] using Later.refl s
      | some text =>
          simp only [retrieveStatement,held,query]
          have keeps : ∀ {next : DbService} {stmt}, Later s next →
              Later s {next with stmtHolder := Function.update next.stmtHolder name stmt} := by
            intro next stmt later
            refine ⟨later.grown,later.session,fun other old there => ?_,later.rows⟩
            have different : other ≠ name := by
              rintro rfl
              rw [held] at there
              cases there
            simpa [Function.update_of_ne different] using later.held other old there
          rcases createStatement_cases 59 s with ⟨n,_,_,outcome⟩ | ⟨_,reopened,_⟩
          · rw [outcome]
            exact keeps ⟨Nat.le_refl _,.inl rfl,fun _ _ there => there,Nat.le_refl _⟩
          · exact keeps reopened.later

theorem retrieveStatement_live (live : Live s) (prepares : Prepares s name) :
    Live (retrieveStatement s name).2 ∧
      ∀ stmt, (retrieveStatement s name).1 = some stmt →
        (retrieveStatement s name).2.stmtHolder name = some stmt := by
  cases held : s.stmtHolder name with
  | some stmt => simpa [retrieveStatement,held] using live
  | none =>
      cases query : s.queries name with
      | none => simpa [retrieveStatement,held,query] using live
      | some text =>
          simp only [retrieveStatement,held,query]
          refine ⟨?_,fun stmt found => by simp [← found]⟩
          rcases createStatement_cases 59 s with ⟨n,session,_,outcome⟩ | ⟨failed,reopened,own⟩
          · rw [outcome]
            refine ⟨⟨live.executed,fun other stmt there => ?_⟩,live.numbered⟩
            by_cases same : other = name
            · subst other
              obtain rfl : ⟨n⟩ = stmt := by simpa using there
              exact session
            · exact live.cached other stmt (by simpa [Function.update_of_ne same] using there)
          · -- The reconnect was harmless: there was nothing in the holder.
            have empty : ∀ other, s.stmtHolder other = none := by
              intro other
              by_contra there
              have prepared := prepares held (by simp [query]) ⟨other,there⟩
              obtain ⟨stmt,cached⟩ := Option.ne_none_iff_exists'.mp there
              rcases failed with closed | refused
              · rw [live.cached other stmt cached] at closed
                cases closed
              · rw [prepared] at refused
                cases refused
            refine ⟨⟨?_,fun other stmt there => ?_⟩,fun k opened => (reopened.young k opened).2⟩
            · exact reopened.executions.symm ▸ live.executed
            · by_cases same : other = name
              · subst other
                exact own stmt (by simpa using there)
              · have absent : s.stmtHolder other = some stmt := by
                  simpa [Function.update_of_ne same,reopened.holder] using there
                rw [empty other] at absent
                cases absent

theorem retrieveStatement_stale (live : Live s) (loses : ¬ Prepares s name) : Stale (retrieveStatement s name).2 := by
  unfold Prepares at loses
  push Not at loses
  obtain ⟨held,query,⟨other,there⟩,refused⟩ := loses
  obtain ⟨text,query⟩ := Option.ne_none_iff_exists'.mp query
  obtain ⟨stmt,there⟩ := Option.ne_none_iff_exists'.mp there
  have different : other ≠ name := by
    rintro rfl
    rw [held] at there
    cases there
  simp only [retrieveStatement,held,query]
  rcases createStatement_cases 59 s with ⟨_,_,prepared,_⟩ | ⟨_,reopened,_⟩
  · exact absurd prepared refused
  · obtain ⟨old,closed⟩ : stmt.session < (createStatement 60 s).2.sessions ∧
        (createStatement 60 s).2.session ≠ some stmt.session := by
      have below := live.numbered _ (live.cached other stmt there)
      exact ⟨below.trans_le reopened.grown,
        fun opened => absurd (reopened.young _ opened).1 (Nat.not_le.mpr below)⟩
    exact ⟨other,stmt,by simpa [Function.update_of_ne different,reopened.holder] using there,old,closed⟩

section Execute
variable (s : DbService) (name : QueryName) (stmt : Stmt) (parameters : List Parameter)

theorem dbmysqlLocalExecute_spec :
    let next := (dbmysqlLocalExecute s name stmt parameters).2
    next.stmtHolder = s.stmtHolder ∧ next.session = s.session ∧ next.sessions = s.sessions ∧
    s.lastRow ≤ next.lastRow ∧ ∃ x, next.executions = s.executions ++ [x] ∧ x.opened = s.session ∧ x.session = stmt.session := by
  unfold dbmysqlLocalExecute
  dsimp only [DbService.answer]
  split
  · refine ⟨rfl,rfl,rfl,?_,_,rfl,rfl,rfl⟩
    dsimp only
    split
    · rename_i begins
      subst begins
      simp only [generated,Option.getD_some]
      omega
    · exact Nat.le_refl _
  · exact ⟨rfl,rfl,rfl,Nat.le_refl _,_,rfl,rfl,rfl⟩

@[simp] theorem dbmysqlExecuteUpdate_state :
    (dbmysqlExecuteUpdate s name stmt parameters).2 = (dbmysqlLocalExecute s name stmt parameters).2 := by
  unfold dbmysqlExecuteUpdate
  split
  · rename_i outcome; rw [outcome]
  · rename_i outcome; rw [outcome]

@[simp] theorem dbmysqlExecuteQuery_state :
    (dbmysqlExecuteQuery s name stmt parameters).2 = (dbmysqlLocalExecute s name stmt parameters).2 := by
  unfold dbmysqlExecuteQuery
  split
  · rename_i outcome; rw [outcome]
  · rename_i outcome; rw [outcome]

theorem dbmysqlLocalExecute_later : Later s (dbmysqlLocalExecute s name stmt parameters).2 := by
  obtain ⟨holder,session,sessions,rows,_⟩ := dbmysqlLocalExecute_spec s name stmt parameters
  exact ⟨sessions.ge,.inl session,fun _ _ held => holder ▸ held,rows⟩

variable {s name stmt}

theorem dbmysqlLocalExecute_live (live : Live s) (held : s.stmtHolder name = some stmt) :
    Live (dbmysqlLocalExecute s name stmt parameters).2 := by
  obtain ⟨holder,session,sessions,_,x,executions,opened,own⟩ := dbmysqlLocalExecute_spec s name stmt parameters
  refine ⟨⟨?_,?_⟩,?_⟩
  · intro y member
    rw [executions,List.mem_append] at member
    rcases member with old | new
    · exact live.executed y old
    · obtain rfl : y = x := by simpa using new
      rw [opened,own]
      exact live.cached name stmt held
  · rw [holder,session]; exact live.cached
  · rw [session,sessions]; exact live.numbered

end Execute

-- A condition that decides between the two: the service stays live, or ends
-- with a statement of a closed session in its hands.
def Decides (calm : Prop) (next : DbService) : Prop := (calm → Live next) ∧ (¬ calm → Stale next)

theorem Decides.congr (decides : Decides calm next) (same : calm ↔ other) : Decides other next :=
  ⟨fun holds => decides.1 (same.mpr holds),fun fails => decides.2 (fun holds => fails (same.mp holds))⟩

theorem live_decides (live : Live next) : Decides True next := ⟨fun _ => live,fun fails => absurd trivial fails⟩

def afterConnect (s : DbService) (use : DbService → DbService) : DbService :=
  match connectToDatabase s with
  | (true,s) => use s
  | (false,s) => s

def afterRetrieve (s : DbService) (name : QueryName) (use : Stmt → DbService → DbService) : DbService :=
  match retrieveStatement s name with
  | (some stmt,s) => use stmt s
  | (none,s) => s

theorem afterConnect_decides {use : DbService → DbService} {P : DbService → Prop} (live : Live s)
    (body : ∀ db, Live db → Decides (P db) (use db)) :
    Decides ((connectToDatabase s).1 = true → P (connectToDatabase s).2) (afterConnect s use) := by
  have after := connectToDatabase_live live
  unfold afterConnect
  split
  · rename_i db outcome
    rw [outcome] at after
    exact (body db after).congr (by simp [outcome])
  · rename_i db outcome
    rw [outcome] at after
    exact (live_decides after).congr (by simp [outcome])

theorem afterRetrieve_path {use : Stmt → DbService → DbService} (later : ∀ stmt db, Later db (use stmt db))
    (s : DbService) (name : QueryName) : Later (retrieveStatement s name).2 (afterRetrieve s name use) := by
  unfold afterRetrieve
  split
  · rename_i outcome
    rw [outcome]
    exact later _ _
  · rename_i outcome
    rw [outcome]
    exact Later.refl _

theorem afterRetrieve_later {use : Stmt → DbService → DbService} (later : ∀ stmt db, Later db (use stmt db))
    (s : DbService) (name : QueryName) : Later s (afterRetrieve s name use) :=
  (retrieveStatement_later s name).trans (afterRetrieve_path later s name)

theorem afterRetrieve_decides {use : Stmt → DbService → DbService} {P : Stmt → DbService → Prop} (live : Live s)
    (later : ∀ stmt db, Later db (use stmt db))
    (body : ∀ stmt db, Live db → db.stmtHolder name = some stmt → Decides (P stmt db) (use stmt db)) :
    Decides (Retrieves s name P) (afterRetrieve s name use) := by
  by_cases prepares : Prepares s name
  · obtain ⟨after,held⟩ := retrieveStatement_live live prepares
    unfold afterRetrieve
    split
    · rename_i stmt db outcome
      rw [outcome] at after held
      exact (body stmt db after (held stmt rfl)).congr (by simp [Retrieves,prepares,outcome])
    · rename_i db outcome
      rw [outcome] at after
      exact (live_decides after).congr (by simp [Retrieves,prepares,outcome])
  · exact ⟨fun retrieves => absurd retrieves.1 prepares,
      fun _ => (retrieveStatement_stale live prepares).later (afterRetrieve_path later s name)⟩

def useOnce (s : DbService) (name : QueryName) (parameters : List Parameter) : DbService :=
  afterConnect s fun db => afterRetrieve db name fun stmt db => (dbmysqlLocalExecute db name stmt parameters).2

theorem useOnce_decides (live : Live s) (name : QueryName) (parameters : List Parameter) :
    Decides ((connectToDatabase s).1 = true → Prepares (connectToDatabase s).2 name) (useOnce s name parameters) := by
  refine afterConnect_decides (P := fun db => Prepares db name) live fun db after => ?_
  refine (afterRetrieve_decides (P := fun _ _ => True) after
    (fun stmt db => dbmysqlLocalExecute_later db name stmt parameters) fun stmt db after held => ?_).congr ?_
  · exact live_decides (dbmysqlLocalExecute_live parameters after held)
  · simp [Retrieves]

theorem updateOnce_state (s : DbService) (name : QueryName) (parameters : List Parameter) :
    (updateOnce s name parameters).2 = useOnce s name parameters := by
  rcases connected : connectToDatabase s with ⟨ok,db⟩
  cases ok with
  | false => simp only [updateOnce,useOnce,afterConnect,connected]
  | true =>
      rcases found : retrieveStatement db name with ⟨stmt,db⟩
      cases stmt with
      | none => simp only [updateOnce,useOnce,afterConnect,connected,afterRetrieve,found]
      | some stmt =>
          simp only [updateOnce,useOnce,afterConnect,connected,afterRetrieve,found,dbmysqlExecuteUpdate_state]

theorem readAllProductNames_state (s : DbService) : (readAllProductNames s).2 = useOnce s .allProductNames [] := by
  rcases connected : connectToDatabase s with ⟨ok,db⟩
  cases ok with
  | false => simp only [readAllProductNames,useOnce,afterConnect,connected]
  | true =>
      rcases found : retrieveStatement db .allProductNames with ⟨stmt,db⟩
      cases stmt with
      | none => simp only [readAllProductNames,useOnce,afterConnect,connected,afterRetrieve,found]
      | some stmt =>
          simp only [readAllProductNames,useOnce,afterConnect,connected,afterRetrieve,found]
          rw [← dbmysqlExecuteQuery_state]
          split
          · rename_i outcome; rw [outcome]
          · rename_i outcome; rw [outcome]

theorem failGuessing_state (s : DbService) (ipAddress : String) :
    (failGuessing s ipAddress).2 = useOnce s .callFailureGuessing [.string ipAddress] := by
  rcases connected : connectToDatabase s with ⟨ok,db⟩
  cases ok with
  | false => simp only [failGuessing,useOnce,afterConnect,connected]
  | true =>
      rcases found : retrieveStatement db .callFailureGuessing with ⟨stmt,db⟩
      cases stmt with
      | none => simp only [failGuessing,useOnce,afterConnect,connected,afterRetrieve,found]
      | some stmt =>
          simp only [failGuessing,useOnce,afterConnect,connected,afterRetrieve,found]
          split
          · rename_i outcome; rw [outcome]
          · rename_i outcome; rw [outcome]

def checkWith (remoteIp : String) (stmt : Stmt) (s : DbService) : DbService :=
  match dbmysqlExecuteQuery s .checkAvailable stmt [.string remoteIp] with
  | (some result,s) => if result.rows = [] ∧ result.errno ≠ 0 then tryReconnect s else s
  | (none,s) => tryReconnect s

theorem checkAvailable_state (s : DbService) (remoteIp : String) :
    (checkAvailable s remoteIp).2 =
      afterConnect s fun db => afterRetrieve db .checkAvailable (checkWith remoteIp) := by
  rcases connected : connectToDatabase s with ⟨ok,db⟩
  cases ok with
  | false => simp only [checkAvailable,afterConnect,connected]
  | true =>
      rcases found : retrieveStatement db .checkAvailable with ⟨stmt,db⟩
      cases stmt with
      | none => simp only [checkAvailable,afterConnect,connected,afterRetrieve,found]
      | some stmt =>
          simp only [checkAvailable,afterConnect,connected,afterRetrieve,found,checkWith]
          rcases answered : dbmysqlExecuteQuery db .checkAvailable stmt [.string remoteIp] with ⟨result,db⟩
          cases result with
          | none => rfl
          | some result =>
              cases rows : result.rows with
              | nil => simp [rows]
              | cons row rest => simp [rows]

theorem checkWith_later (remoteIp : String) (stmt : Stmt) (s : DbService) : Later s (checkWith remoteIp stmt s) := by
  have executed := dbmysqlLocalExecute_later s .checkAvailable stmt [.string remoteIp]
  rw [← dbmysqlExecuteQuery_state] at executed
  unfold checkWith
  split
  · rename_i outcome
    rw [outcome] at executed
    split
    · exact executed.trans (tryReconnect_reopened _).later
    · exact executed
  · rename_i outcome
    rw [outcome] at executed
    exact executed.trans (tryReconnect_reopened _).later

theorem checkWith_decides (remoteIp : String) (live : Live s) (held : s.stmtHolder .checkAvailable = some stmt) :
    Decides (Answers s) (checkWith remoteIp stmt s) := by
  have after := dbmysqlLocalExecute_live [.string remoteIp] live held
  have kept := (dbmysqlLocalExecute_spec s .checkAvailable stmt [.string remoteIp]).1
  have session := live.cached _ _ held
  have stale : ¬ Answers s → Stale (tryReconnect (dbmysqlLocalExecute s .checkAvailable stmt [.string remoteIp]).2) :=
    fun _ => (tryReconnect_reopened _).stale after (by rw [kept]; exact held)
  cases executed : (s.replies s.asked).execute with
  | false =>
      have outcome : dbmysqlExecuteQuery s .checkAvailable stmt [.string remoteIp] =
          (none,(dbmysqlLocalExecute s .checkAvailable stmt [.string remoteIp]).2) := by
        simp [dbmysqlExecuteQuery,dbmysqlLocalExecute,DbService.answer,executed]
      simp only [checkWith,outcome]
      exact ⟨fun answers => absurd answers.1 (by simp [executed]),stale⟩
  | true =>
      have outcome : dbmysqlExecuteQuery s .checkAvailable stmt [.string remoteIp] =
          ((s.replies s.asked).results.head?.join,
            (dbmysqlLocalExecute s .checkAvailable stmt [.string remoteIp]).2) := by
        simp [dbmysqlExecuteQuery,dbmysqlLocalExecute,DbService.answer,executed,session]
      cases results : (s.replies s.asked).results.head? with
      | none =>
          rw [results] at outcome
          simp only [checkWith,outcome,Option.join_none]
          exact ⟨fun ⟨_,_,found,_⟩ => absurd (results.symm.trans found) (by simp),stale⟩
      | some result =>
          rw [results] at outcome
          cases result with
          | none =>
              simp only [checkWith,outcome,Option.join_some]
              exact ⟨fun ⟨_,_,found,_⟩ => absurd (results.symm.trans found) (by simp),stale⟩
          | some result =>
              simp only [checkWith,outcome,Option.join_some]
              have answers : Answers s ↔ ¬ (result.rows = [] ∧ result.errno ≠ 0) := by
                simp [Answers,executed,results]
              by_cases failing : result.rows = [] ∧ result.errno ≠ 0
              · rw [if_pos failing]
                exact ⟨fun holds => absurd failing (answers.mp holds),stale⟩
              · rw [if_neg failing]
                exact ⟨fun _ => after,fun fails => absurd (answers.mpr failing) fails⟩

def readId (s : DbService) : DbService :=
  afterRetrieve s .lastInsertId fun stmt db => (dbmysqlLocalExecute db .lastInsertId stmt []).2

def beginWith (account : Option String) (ipaddr : String) (s : DbService) : DbService :=
  afterRetrieve s .connectionBegin fun stmt db =>
    readId (dbmysqlLocalExecute db .connectionBegin stmt [.string ipaddr,.string (account.getD "")]).2

def establishWith (sn : Int) (account : Option String) (ipaddr : String) (s : DbService) : DbService :=
  afterRetrieve s .connectionEstablished fun stmt db =>
    beginWith account ipaddr (dbmysqlLocalExecute db .connectionEstablished stmt [.int sn]).2

theorem connectionEstablished_state (s : DbService) (sn : Int) (account : Option String) (ipaddr : String) :
    (connectionEstablished s sn account ipaddr).2 = afterConnect s (establishWith sn account ipaddr) := by
  rcases connected : connectToDatabase s with ⟨ok,db⟩
  cases ok with
  | false => simp only [connectionEstablished,afterConnect,connected]
  | true =>
      rcases first : retrieveStatement db .connectionEstablished with ⟨stmt,db⟩
      cases stmt with
      | none => simp only [connectionEstablished,afterConnect,connected,establishWith,afterRetrieve,first]
      | some stmt =>
          simp only [connectionEstablished,afterConnect,connected,establishWith,afterRetrieve,first,
            dbmysqlExecuteUpdate_state,beginWith]
          rcases second : retrieveStatement
            (dbmysqlLocalExecute db .connectionEstablished stmt [.int sn]).2 .connectionBegin with ⟨stmt,db⟩
          cases stmt with
          | none => rfl
          | some stmt =>
              simp only [readId,afterRetrieve]
              rcases third : retrieveStatement (dbmysqlLocalExecute db .connectionBegin stmt
                [.string ipaddr,.string (account.getD "")]).2 .lastInsertId with ⟨stmt,db⟩
              cases stmt with
              | none => rfl
              | some stmt =>
                  simp only
                  rw [← dbmysqlExecuteQuery_state]
                  rcases dbmysqlExecuteQuery db .lastInsertId stmt [] with ⟨result,db⟩
                  cases result with
                  | none => rfl
                  | some result =>
                      cases rows : result.rows with
                      | nil => simp [rows]
                      | cons row rest => simp [rows]

theorem readId_later (s : DbService) : Later s (readId s) :=
  afterRetrieve_later (fun stmt db => dbmysqlLocalExecute_later db .lastInsertId stmt []) s _

theorem beginWith_later (account : Option String) (ipaddr : String) (s : DbService) :
    Later s (beginWith account ipaddr s) :=
  afterRetrieve_later (fun stmt db =>
    (dbmysqlLocalExecute_later db .connectionBegin stmt [.string ipaddr,.string (account.getD "")]).trans
      (readId_later _)) s _

theorem readId_decides (live : Live s) : Decides (Prepares s .lastInsertId) (readId s) := by
  refine (afterRetrieve_decides (P := fun _ _ => True) live
    (fun stmt db => dbmysqlLocalExecute_later db .lastInsertId stmt []) fun stmt db after held => ?_).congr ?_
  · exact live_decides (dbmysqlLocalExecute_live [] after held)
  · simp [Retrieves]

theorem connectionEstablished_decides (live : Live s) (sn : Int) (account : Option String) (ipaddr : String) :
    Decides (Calm s (.connectionEstablished sn account ipaddr)) (connectionEstablished s sn account ipaddr).2 := by
  rw [connectionEstablished_state]
  unfold Calm
  simp only [dbmysqlExecuteUpdate_state]
  refine afterConnect_decides (P := fun db =>
    Retrieves db .connectionEstablished fun stmt db =>
      Retrieves (dbmysqlLocalExecute db .connectionEstablished stmt [.int sn]).2 .connectionBegin fun stmt db =>
        Prepares (dbmysqlLocalExecute db .connectionBegin stmt [.string ipaddr,.string (account.getD "")]).2
          .lastInsertId) live fun db after => ?_
  refine afterRetrieve_decides after (fun stmt db =>
    (dbmysqlLocalExecute_later db .connectionEstablished stmt [.int sn]).trans (beginWith_later _ _ _)) ?_
  intro stmt db after held
  refine afterRetrieve_decides (dbmysqlLocalExecute_live [.int sn] after held) (fun stmt db =>
    (dbmysqlLocalExecute_later db .connectionBegin stmt [.string ipaddr,.string (account.getD "")]).trans
      (readId_later _)) ?_
  intro stmt db after held
  exact readId_decides (dbmysqlLocalExecute_live _ after held)

theorem hangUp_live (live : Live s) : Live (hangUp s) := by
  refine ⟨⟨live.executed,fun _ _ held => ?_⟩,fun _ opened => ?_⟩
  · cases held
  · cases opened

theorem operate_cases (s : DbService) (op : Operation) :
    (∃ remoteIp, op = .checkAvailable remoteIp) ∨
    (∃ sn account ipaddr, op = .connectionEstablished sn account ipaddr) ∨
    (∃ name parameters, operate s op = useOnce s name parameters ∧
      (Calm s op ↔ ((connectToDatabase s).1 = true → Prepares (connectToDatabase s).2 name))) ∨
    (Calm s op ∧ ∃ db, (db = s ∨ db = s.answer.2) ∧ (operate s op = db ∨ operate s op = hangUp db)) := by
  cases op with
  | checkAvailable remoteIp => exact .inl ⟨remoteIp,rfl⟩
  | connectionEstablished sn account ipaddr => exact .inr (.inl ⟨sn,account,ipaddr,rfl⟩)
  | connectionClose sn bytes count idle => exact .inr (.inr (.inl ⟨_,_,updateOnce_state s _ _,Iff.rfl⟩))
  | connectionNotAllowed ipaddr => exact .inr (.inr (.inl ⟨_,_,updateOnce_state s _ _,Iff.rfl⟩))
  | connectionBlacklisted ipaddr => exact .inr (.inr (.inl ⟨_,_,updateOnce_state s _ _,Iff.rfl⟩))
  | checkVip ipaddr => exact .inr (.inr (.inl ⟨_,_,updateOnce_state s _ _,Iff.rfl⟩))
  | addIpToAutoBlacklist ipaddr => exact .inr (.inr (.inl ⟨_,_,updateOnce_state s _ _,Iff.rfl⟩))
  | addKmsDetails info workstation major minor appId kmsId cmid remaining =>
      exact .inr (.inr (.inl ⟨_,_,updateOnce_state s _ _,Iff.rfl⟩))
  | updateMachineOwner info cmid =>
      refine .inr (.inr (.inl ?_))
      cases account : info.requestInDb.bind DbProxyRequest.account with
      | none =>
          have state : operate s (.updateMachineOwner info cmid) = (updateOnce s .updateMachineAccess
              [.string cmid,.string "",.string info.remoteIp,.string info.remoteIp]).2 := by
            simp only [operate,updateMachineOwner,account]
          exact ⟨_,_,state.trans (updateOnce_state s _ _),by simp [Calm,account]⟩
      | some name =>
          have state : operate s (.updateMachineOwner info cmid) = (updateOnce s .addMachineOwner
              [.string cmid,.string name,.string info.remoteIp,.string info.remoteIp,.string name]).2 := by
            simp only [operate,updateMachineOwner,account]
          exact ⟨_,_,state.trans (updateOnce_state s _ _),by simp [Calm,account]⟩
  | readAllProductNames => exact .inr (.inr (.inl ⟨_,_,readAllProductNames_state s,Iff.rfl⟩))
  | failGuessing ipAddress => exact .inr (.inr (.inl ⟨_,_,failGuessing_state s ipAddress,Iff.rfl⟩))
  | closeIdle tv =>
      refine .inr (.inr (.inr ⟨by simp [Calm],s,.inl rfl,?_⟩))
      simp only [operate,closeIdle]
      split
      · exact .inr rfl
      · exact .inl rfl
  | done =>
      refine .inr (.inr (.inr ⟨by simp [Calm],?_⟩))
      simp only [operate,dbServiceDone]
      split
      · refine ⟨s.answer.2,.inr rfl,?_⟩
        split
        · exact .inr rfl
        · exact .inl rfl
      · exact ⟨s,.inl rfl,.inl rfl⟩

theorem operate_decides (live : Live s) (op : Operation) : Decides (Calm s op) (operate s op) := by
  rcases operate_cases s op with
    ⟨remoteIp,rfl⟩ | ⟨sn,account,ipaddr,rfl⟩ | ⟨name,parameters,state,calm⟩ | ⟨calm,db,source,state⟩
  · simp only [operate,checkAvailable_state]
    exact afterConnect_decides (P := fun db => Retrieves db .checkAvailable fun _ db => Answers db) live fun db after =>
      afterRetrieve_decides after (checkWith_later remoteIp) fun _ _ after held => checkWith_decides remoteIp after held
  · exact connectionEstablished_decides live sn account ipaddr
  · rw [state]
    exact (useOnce_decides live name parameters).congr calm.symm
  · refine (live_decides ?_).congr (iff_true_intro calm).symm
    have before : Live db := by
      rcases source with rfl | rfl
      · exact live
      · exact ⟨⟨live.executed,live.cached⟩,live.numbered⟩
    rcases state with same | closed
    · rwa [same]
    · rw [closed]
      exact hangUp_live before

theorem sessions_match_iff_calm (enabled : Bool) (queries : QueryName → Option String) (maxConnectionTime : Int)
    (lastRow : Nat) (replies : Nat → Reply) (ops : List Operation) :
    let start := newDatabaseService enabled queries maxConnectionTime lastRow replies
    (∀ earlier later, ops = earlier ++ later → SessionsMatch (Machine.run operate start earlier)) ↔
    Machine.Along operate Calm start ops := by
  intro start
  have initial : Live start := by
    refine ⟨⟨fun _ member => ?_,fun _ _ held => ?_⟩,fun _ opened => ?_⟩
    · cases member
    · cases held
    · cases opened
  refine Machine.exact_condition Live initial (fun s op live calm => (operate_decides live op).1 calm)
    (fun s live => live.toSessionsMatch) ?_ ops
  intro s op live keeps
  exact Classical.byContradiction fun restless => (operate_decides live op).2 restless |>.not_live keeps

-- MySQL answers every request but the eighth, the query of check_available.
-- The session is replaced, and check_vip goes on with the statement of the old
-- one.
theorem failed_query_leaves_stale_statement :
    ¬ SessionsMatch (Machine.run operate
      (newDatabaseService true (fun _ => some "") 3600 0 fun n => ⟨⟨0,0⟩,true,true,n ≠ 7,1,none,0,[]⟩)
      [.checkVip "10.0.0.9",.checkAvailable "10.0.0.9",.checkVip "10.0.0.9"]) := by
  intro live
  have late := live.executed ⟨.checkVip,[.string "10.0.0.9"],0,some 1,none⟩ (by decide)
  exact absurd late (by decide)

end TcpProxy.Database
