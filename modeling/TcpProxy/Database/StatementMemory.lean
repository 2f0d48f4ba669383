import TcpProxy.Lib.Ownership

namespace TcpProxy.DbMysql.Memory
open Ownership

-- db_mysql_stmt_t
structure MysqlStmt where
  statement : Nat
  paramBind : Option Nat
  paramBindData : Option Nat
  resultBind : Option Nat
  resultBindData : Option Nat
  paramCount : Nat
  numberFields : Nat
deriving DecidableEq, Repr

-- db_mysql_result_t
structure MysqlResult where
  stmt : Nat
  numberFields : Nat
  fields : Nat
deriving DecidableEq, Repr

-- Of an array of MYSQL_BIND there are the strings that its buffers point to, of
-- an array of db_mysql_result_bind_data_t the str_data, of one of db_xsql_field_t
-- the names. A MYSQL_STMT knows where it is to store the rows.
inductive Block where
  | raw
  | object (data : Nat)
  | stmt (s : MysqlStmt)
  | result (r : MysqlResult)
  | statement (bound : Option Nat)
  | binds (strings : List (Option Nat))
  | bindData (strData : List (Option Nat))
  | fields (names : List (Option Nat))
  | text
deriving DecidableEq, Repr

def Block.object? : Block → Option Nat
  | .object data => some data
  | _ => none

def Block.stmt? : Block → Option MysqlStmt
  | .stmt s => some s
  | _ => none

def Block.result? : Block → Option MysqlResult
  | .result r => some r
  | _ => none

def Block.statement? : Block → Option (Option Nat)
  | .statement bound => some bound
  | _ => none

def Block.binds? : Block → Option (List (Option Nat))
  | .binds strings => some strings
  | _ => none

def Block.bindData? : Block → Option (List (Option Nat))
  | .bindData strData => some strData
  | _ => none

def Block.fields? : Block → Option (List (Option Nat))
  | .fields names => some names
  | _ => none

def Block.text? : Block → Option Unit
  | .text => some ()
  | _ => none

def put {α : Type} (l : List α) (i : Nat) (x : α) : Option (List α) := if i < l.length then some (l.set i x) else none

def freeEach (part : Block → Option (List (Option Nat))) (p n : Nat) : Program Block Unit :=
  forRange n fun i => do
    let pointers ← read part p
    freeAny (← lift pointers[i]?)

def clearParameter (binds data i : Nat) : Program Block Unit := do
  let strings ← read Block.binds? binds
  store binds (.binds (← lift (put strings i none)))
  let strData ← read Block.bindData? data
  freeAny (← lift strData[i]?)
  store data (.bindData (← lift (put strData i none)))

def clearParameters (self : Nat) : Program Block Unit := do
  let s ← read Block.stmt? (← read Block.object? self)
  if 0 < s.paramCount then
    let binds ← lift s.paramBind
    let data ← lift s.paramBindData
    forRange s.paramCount (clearParameter binds data)

inductive Preparing where
  | noStatement
  | refused
  | prepared (paramCount : Nat)
deriving DecidableEq, Repr

-- A MYSQL_STMT whose text is refused is not closed.
def createStatement (preparing : Preparing) : Program Block (Option Nat) := do
  let st ← malloc .raw
  let stmt ← malloc .raw
  store st (.object stmt)
  match preparing with
  | .noStatement =>
    free stmt
    free st
    return none
  | .refused =>
    let _ ← malloc (.statement none)
    free stmt
    free st
    return none
  | .prepared paramCount =>
    let statement ← malloc (.statement none)
    if 0 < paramCount then
      let paramBind ← malloc (.binds (List.replicate paramCount none))
      let paramBindData ← malloc (.bindData (List.replicate paramCount none))
      store stmt (.stmt ⟨statement,some paramBind,some paramBindData,none,none,paramCount,0⟩)
      clearParameters st
    else
      store stmt (.stmt ⟨statement,none,none,none,none,paramCount,0⟩)
    return some st

def MysqlStmt.index (s : MysqlStmt) (parameterIndex : Nat) : Option Nat :=
  if 1 ≤ parameterIndex ∧ parameterIndex ≤ s.paramCount then some (parameterIndex-1) else none

def setInt (self parameterIndex : Nat) : Program Block Unit := do
  let s ← read Block.stmt? (← read Block.object? self)
  match s.index parameterIndex with
  | none => return
  | some i =>
    let data ← lift s.paramBindData
    let strData ← read Block.bindData? data
    let _ ← lift strData[i]?
    let binds ← lift s.paramBind
    let strings ← read Block.binds? binds
    store binds (.binds (← lift (put strings i none)))

def setString (self parameterIndex : Nat) : Program Block Unit := do
  let s ← read Block.stmt? (← read Block.object? self)
  match s.index parameterIndex with
  | none => return
  | some i =>
    let data ← lift s.paramBindData
    let strData ← read Block.bindData? data
    freeAny (← lift strData[i]?)
    let copy ← malloc .text
    store data (.bindData (← lift (put strData i (some copy))))
    let binds ← lift s.paramBind
    let strings ← read Block.binds? binds
    store binds (.binds (← lift (put strings i (some copy))))

def mysqlStmtExecute (statement : Nat) (strings : List (Option Nat)) : Program Block Unit := do
  let _ ← read Block.statement? statement
  forRange strings.length fun i => do
    match ← lift strings[i]? with
    | some p => read Block.text? p
    | none => return

-- `binds` and `executes` are what mysql_stmt_bind_param and mysql_stmt_execute
-- answer.
def localExecute (self : Nat) (binds executes : Bool) : Program Block Bool := do
  let s ← read Block.stmt? (← read Block.object? self)
  if 0 < s.paramCount then
    let strings ← read Block.binds? (← lift s.paramBind)
    if binds then
      mysqlStmtExecute s.statement strings
      return executes
    else return false
  else
    mysqlStmtExecute s.statement []
    return executes

-- mysql_stmt_affected_rows, mysql_stmt_field_count, mysql_stmt_next_result,
-- mysql_stmt_free_result
def useStatement (stmt : Nat) : Program Block Unit := do
  let s ← read Block.stmt? stmt
  let _ ← read Block.statement? s.statement

def executeUpdate (self : Nat) (binds executes : Bool) : Program Block Unit := do
  let stmt ← read Block.object? self
  if ← localExecute self binds executes then useStatement stmt

-- dbmysql_executeQuery and dbmysql_executeMultipleQuery up to the results
def execute (self : Nat) (binds executes : Bool) : Program Block (Nat × Bool) := do
  let stmt ← read Block.object? self
  let done ← localExecute self binds executes
  return (stmt,done)

def nameField (fields i : Nat) : Program Block Unit := do
  let name ← malloc .text
  let names ← read Block.fields? fields
  store fields (.fields (← lift (put names i (some name))))

structure Columns where
  count : Nat
  positive : 0 < count

def internalFetchResult (stmt : Nat) (metadata : Option Columns) : Program Block (Option Nat) := do
  let res ← malloc .raw
  let result ← malloc .raw
  store res (.object result)
  let s ← read Block.stmt? stmt
  let _ ← read Block.statement? s.statement
  match metadata with
  | none =>
    free res
    free result
    return none
  | some columns =>
    let bind ← malloc (.binds (List.replicate columns.count none))
    let fields ← malloc (.fields (List.replicate columns.count none))
    store result (.result ⟨stmt,columns.count,fields⟩)
    let data ← malloc (.bindData (List.replicate columns.count none))
    store stmt (.stmt {s with numberFields := columns.count,resultBind := some bind,resultBindData := some data})
    forRange columns.count (nameField fields)
    store s.statement (.statement (some data))
    return some res

-- A row that is fetched is written to where the statement was told to store it.
def next (self : Nat) (fetched : Bool) : Program Block Bool := do
  let r ← read Block.result? (← read Block.object? self)
  let s ← read Block.stmt? r.stmt
  let bound ← read Block.statement? s.statement
  if fetched then
    let _ ← read Block.bindData? (← lift bound)
  return fetched

def MysqlResult.index (r : MysqlResult) (parameterIndex : Nat) : Option Nat :=
  if 1 ≤ parameterIndex ∧ parameterIndex ≤ r.numberFields then some (parameterIndex-1) else none

def getInt (self parameterIndex : Nat) : Program Block Unit := do
  let r ← read Block.result? (← read Block.object? self)
  match r.index parameterIndex with
  | none => return
  | some i =>
    let s ← read Block.stmt? r.stmt
    let strData ← read Block.bindData? (← lift s.resultBindData)
    let _ ← lift strData[i]?

-- A column of the row as getString finds it: NULL, without a byte, a fetch of
-- the text that fails, and one that succeeds.
inductive Cell where
  | null
  | empty
  | failed
  | text
deriving DecidableEq, Repr

def getString (self parameterIndex : Nat) (cell : Cell) : Program Block (Option Nat) := do
  let r ← read Block.result? (← read Block.object? self)
  match r.index parameterIndex with
  | none => return none
  | some i =>
    let s ← read Block.stmt? r.stmt
    let data ← lift s.resultBindData
    let strData ← read Block.bindData? data
    let old ← lift strData[i]?
    match cell with
    | .null => return none
    | .empty => return none
    | .failed =>
      freeAny old
      store data (.bindData (← lift (put strData i none)))
      let text ← malloc .text
      let _ ← read Block.statement? s.statement
      free text
      return none
    | .text =>
      freeAny old
      store data (.bindData (← lift (put strData i none)))
      let text ← malloc .text
      let _ ← read Block.statement? s.statement
      store data (.bindData (← lift (put strData i (some text))))
      return some text

def resultClose (self : Nat) : Program Block Unit := do
  let result ← read Block.object? self
  let r ← read Block.result? result
  let s ← read Block.stmt? r.stmt
  let _ ← read Block.statement? s.statement
  if 0 < r.numberFields then
    freeEach Block.fields? r.fields r.numberFields
    free r.fields
  free result
  free self

def freeArrays (bind data : Option Nat) (n : Nat) : Program Block Unit := do
  freeAny bind
  match data with
  | some data =>
    freeEach Block.bindData? data n
    free data
  | none => return

def stmtClose (self : Nat) : Program Block Unit := do
  let stmt ← read Block.object? self
  let s ← read Block.stmt? stmt
  free s.statement
  freeArrays s.resultBind s.resultBindData s.numberFields
  freeArrays s.paramBind s.paramBindData s.paramCount
  free stmt
  free self

def text : Option Nat → Blocks Block
  | some p => {(p,.text)}
  | none => 0

def texts (pointers : List (Option Nat)) : Blocks Block := (pointers.map text).sum

@[simp] theorem texts_nil : texts [] = 0 := rfl

@[simp] theorem texts_cons (p : Option Nat) (rest : List (Option Nat)) : texts (p :: rest) = text p+texts rest := by
  simp [texts]

@[simp] theorem texts_append (one two : List (Option Nat)) : texts (one ++ two) = texts one+texts two := by
  simp [texts]

@[simp] theorem texts_replicate (n : Nat) : texts (List.replicate n none) = 0 := by
  simp [texts,text]

-- A parameter: the str_data of its entry, and the string that its buffer points
-- to.
structure Param where
  strData : Option Nat
  buffer : Option Nat
  held : buffer = none ∨ buffer = strData

structure ParamArrays where
  bind : Nat
  data : Nat
  params : List Param

structure ResultArrays where
  bind : Nat
  data : Nat
  strings : List (Option Nat)

structure Statement where
  self : Nat
  stmt : Nat
  statement : Nat
  params : Option ParamArrays
  result : Option ResultArrays

structure Result where
  self : Nat
  result : Nat
  stmt : Nat
  fields : Nat
  names : List (Option Nat)

def ParamArrays.blocks (arrays : ParamArrays) : Blocks Block :=
  {(arrays.bind,.binds (arrays.params.map Param.buffer))}+{(arrays.data,.bindData (arrays.params.map Param.strData))}+
    texts (arrays.params.map Param.strData)

def ResultArrays.blocks (arrays : ResultArrays) : Blocks Block :=
  {(arrays.bind,.binds (List.replicate arrays.strings.length none))}+{(arrays.data,.bindData arrays.strings)}+
    texts arrays.strings

def paramBlocks (params : Option ParamArrays) : Blocks Block := params.elim 0 ParamArrays.blocks
def resultBlocks (result : Option ResultArrays) : Blocks Block := result.elim 0 ResultArrays.blocks

def Statement.record (v : Statement) : MysqlStmt where
  statement := v.statement
  paramBind := v.params.map ParamArrays.bind
  paramBindData := v.params.map ParamArrays.data
  resultBind := v.result.map ResultArrays.bind
  resultBindData := v.result.map ResultArrays.data
  paramCount := v.params.elim 0 fun arrays => arrays.params.length
  numberFields := v.result.elim 0 fun arrays => arrays.strings.length

@[simp] theorem Statement.record_statement (v : Statement) : v.record.statement = v.statement := rfl

def Statement.blocks (v : Statement) : Blocks Block :=
  {(v.self,.object v.stmt)}+{(v.stmt,.stmt v.record)}+{(v.statement,.statement (v.result.map ResultArrays.data))}+
    paramBlocks v.params+resultBlocks v.result

theorem mem_self (v : Statement) : (v.self,.object v.stmt) ∈ v.blocks := by
  simp [Statement.blocks]

theorem mem_stmt (v : Statement) : (v.stmt,.stmt v.record) ∈ v.blocks := by
  simp [Statement.blocks]

theorem mem_statement (v : Statement) : (v.statement,.statement (v.result.map ResultArrays.data)) ∈ v.blocks := by
  simp [Statement.blocks]

def Result.blocks (r : Result) : Blocks Block :=
  {(r.self,.object r.result)}+{(r.result,.result ⟨r.stmt,r.names.length,r.fields⟩)}+{(r.fields,.fields r.names)}+
    texts r.names

theorem mem_object (r : Result) : (r.self,.object r.result) ∈ r.blocks := by
  simp [Result.blocks]

theorem mem_record (r : Result) : (r.result,.result ⟨r.stmt,r.names.length,r.fields⟩) ∈ r.blocks := by
  simp [Result.blocks]

theorem texts_set (pointers : List (Option Nat)) (below : i < pointers.length) (p : Option Nat) :
    texts (pointers.set i p) = text p+texts (pointers.set i none) := by
  rw [List.set_eq_take_append_cons_drop,List.set_eq_take_append_cons_drop,if_pos below,if_pos below]
  simp only [texts_append,texts_cons,text,zero_add]
  ac_rfl

theorem texts_at (pointers : List (Option Nat)) (below : i < pointers.length) :
    texts pointers = text pointers[i]+texts (pointers.set i none) := by
  have same := texts_set pointers below pointers[i]
  rwa [List.set_getElem_self] at same

theorem mem_texts (member : some p ∈ pointers) : (p,.text) ∈ texts pointers := by
  obtain ⟨before,after,rfl⟩ := List.append_of_mem member
  simp [text]

theorem put_some {α : Type} (l : List α) (below : i < l.length) (x : α) : put l i x = some (l.set i x) := if_pos below

theorem spec_freeAny (p : Option Nat) : Spec (text p) (freeAny p) fun _ own => own = 0 := by
  cases p with
  | none => exact spec_pure rfl
  | some p => exact spec_free p Block.text

theorem spec_freeEach (p : Nat) (b : Block) {part : Block → Option (List (Option Nat))} (pointers : List (Option Nat))
    (there : part b = some pointers) :
    Spec ({(p,b)}+texts pointers) (freeEach part p pointers.length) fun _ own => own = {(p,b)} := by
  refine spec_mono (spec_forRange (fun i own => own = {(p,b)}+texts (pointers.drop i)) _ ?_ rfl) ?_
  · rintro i below own rfl
    rw [List.drop_eq_getElem_cons below,texts_cons]
    refine spec_readThen (b := b) (by simp) there (spec_liftThen (List.getElem?_eq_getElem below) ?_)
    refine spec_last _ (spec_freeAny _) ({(p,b)}+texts (pointers.drop (i+1))) (by ac_rfl) fun _ mine gone => ?_
    rw [gone,zero_add]
  · rintro _ own rfl
    simp

theorem spec_freeArrays (bind data : Nat) (b : Block) (strings : List (Option Nat)) :
    Spec ({(bind,b)}+{(data,.bindData strings)}+texts strings)
      (freeArrays (some bind) (some data) strings.length) fun _ own => own = 0 := by
  refine spec_freeThen ({(data,.bindData strings)}+texts strings) (by ac_rfl) ?_
  refine spec_bind (spec_freeEach data (.bindData strings) strings rfl) fun _ own left => ?_
  rw [left]
  exact spec_free data _

theorem spec_freeParams (v : Statement) :
    Spec (paramBlocks v.params) (freeArrays v.record.paramBind v.record.paramBindData v.record.paramCount)
      fun _ own => own = 0 := by
  cases stored : v.params with
  | none =>
      simp only [Statement.record,stored]
      exact spec_pure rfl
  | some arrays =>
      have freed := spec_freeArrays arrays.bind arrays.data (.binds (arrays.params.map Param.buffer))
        (arrays.params.map Param.strData)
      simpa [Statement.record,stored,paramBlocks,ParamArrays.blocks] using freed

theorem spec_freeResult (v : Statement) :
    Spec (resultBlocks v.result) (freeArrays v.record.resultBind v.record.resultBindData v.record.numberFields)
      fun _ own => own = 0 := by
  cases stored : v.result with
  | none =>
      simp only [Statement.record,stored]
      exact spec_pure rfl
  | some arrays =>
      have freed := spec_freeArrays arrays.bind arrays.data (.binds (List.replicate arrays.strings.length none))
        arrays.strings
      simpa [Statement.record,stored,resultBlocks,ResultArrays.blocks] using freed

theorem spec_stmtClose (v : Statement) : Spec v.blocks (stmtClose v.self) fun _ own => own = 0 := by
  unfold Statement.blocks
  refine spec_readThen (b := .object v.stmt) (by simp) rfl (spec_readThen (b := .stmt v.record) (by simp) rfl ?_)
  refine spec_freeThen (p := v.statement)
    ({(v.self,.object v.stmt)}+{(v.stmt,.stmt v.record)}+paramBlocks v.params+resultBlocks v.result)
    (by ac_rfl) ?_
  refine spec_call _ (spec_freeResult v) ({(v.self,.object v.stmt)}+{(v.stmt,.stmt v.record)}+paramBlocks v.params)
    (by ac_rfl) fun _ mine gone => ?_
  rw [gone,zero_add]
  refine spec_call _ (spec_freeParams v) ({(v.self,.object v.stmt)}+{(v.stmt,.stmt v.record)}) (by ac_rfl)
    fun _ mine gone => ?_
  rw [gone,zero_add]
  refine spec_freeThen (p := v.stmt) {(v.self,.object v.stmt)} (by ac_rfl) ?_
  exact spec_free v.self _

def Param.clear : Param := ⟨none,none,.inl rfl⟩

theorem spec_clearParameter (bind data : Nat) (params : List Param) (below : i < params.length) :
    Spec (ParamArrays.blocks ⟨bind,data,params⟩) (clearParameter bind data i)
      fun _ own => own = ParamArrays.blocks ⟨bind,data,params.set i .clear⟩ := by
  simp only [ParamArrays.blocks,List.map_set]
  generalize equal : params.map Param.strData = strData
  generalize equal' : params.map Param.buffer = strings
  have inData : i < strData.length := by simpa [← equal] using below
  have inBinds : i < strings.length := by simpa [← equal'] using below
  refine spec_readThen (b := .binds strings) (by simp) rfl (spec_liftThen (put_some _ inBinds _) ?_)
  refine spec_storeThen ({(data,.bindData strData)}+texts strData) (by ac_rfl) ?_
  refine spec_readThen (b := .bindData strData) (by simp) rfl (spec_liftThen (List.getElem?_eq_getElem inData) ?_)
  refine spec_call _ (spec_freeAny _)
    ({(bind,.binds (strings.set i none))}+{(data,.bindData strData)}+texts (strData.set i none))
    (by rw [texts_at strData inData]; ac_rfl) fun _ mine gone => ?_
  rw [gone,zero_add]
  refine spec_liftThen (put_some _ inData _) ?_
  refine spec_last _ (spec_store data _ _) ({(bind,.binds (strings.set i none))}+texts (strData.set i none)) (by ac_rfl)
    fun _ mine same => ?_
  rw [same]
  simp only [Param.clear]
  ac_rfl

theorem spec_clearing (arrays : ParamArrays) :
    Spec arrays.blocks (forRange arrays.params.length (clearParameter arrays.bind arrays.data))
      fun _ own => own = ParamArrays.blocks {arrays with params := List.replicate arrays.params.length .clear} := by
  let cleared := fun i => List.replicate i Param.clear ++ arrays.params.drop i
  refine spec_mono (spec_forRange (fun i own => own = ParamArrays.blocks ⟨arrays.bind,arrays.data,cleared i⟩) _ ?_ rfl) ?_
  · rintro i below own rfl
    have one : cleared (i+1) = (cleared i).set i .clear := by
      simp only [cleared]
      rw [List.drop_eq_getElem_cons below,List.set_append_right _ _ (by simp)]
      simp only [List.length_replicate,Nat.sub_self,List.set_cons_zero,List.replicate_succ',List.append_assoc,
        List.singleton_append]
    rw [one]
    exact spec_clearParameter _ _ _ (by simp [cleared]; omega)
  · rintro _ own rfl
    simp [cleared]

def Statement.with (v : Statement) (params : Option ParamArrays) : Statement := {v with params := params}

def Statement.list (v : Statement) : List Param := v.params.elim [] ParamArrays.params

-- Only the parameter of the index becomes another.
def SetAt (before after : List Param) (index : Option Nat) (becomes : Param → Param → Prop) : Prop :=
  match index with
  | none => after = before
  | some i => ∃ old new, before[i]? = some old ∧ after = before.set i new ∧ becomes old new

theorem Statement.with_blocks (v : Statement) (arrays arrays' : ParamArrays) (there : v.params = some arrays)
    (same : arrays'.bind = arrays.bind ∧ arrays'.data = arrays.data ∧ arrays'.params.length = arrays.params.length) :
    ∃ rest, v.blocks = arrays.blocks+rest ∧ (v.with (some arrays')).blocks = arrays'.blocks+rest ∧
      (v.self,.object v.stmt) ∈ rest ∧ (v.stmt,.stmt v.record) ∈ rest := by
  obtain ⟨bind,data,length⟩ := same
  refine ⟨{(v.self,.object v.stmt)}+{(v.stmt,.stmt v.record)}+
    {(v.statement,.statement (v.result.map ResultArrays.data))}+resultBlocks v.result,?_,?_,by simp,by simp⟩
  · simp only [Statement.blocks,there,paramBlocks,Option.elim_some]
    ac_rfl
  · have record : (v.with (some arrays')).record = v.record := by
      simp [Statement.record,Statement.with,there,bind,data,length]
    simp only [Statement.blocks,record]
    simp only [Statement.with,paramBlocks,Option.elim_some]
    ac_rfl

theorem spec_clearParameters (v : Statement) :
    Spec v.blocks (clearParameters v.self) fun _ own => ∃ params, own = (v.with params).blocks ∧
      (v.with params).list = List.replicate v.list.length .clear := by
  refine spec_readThen (mem_self v) rfl
    (spec_readThen (mem_stmt v) rfl ?_)
  cases there : v.params with
  | none =>
      have absent : v.record.paramCount = 0 := by simp [Statement.record,there]
      rw [if_neg (by omega)]
      exact spec_pure ⟨none,by simp [Statement.with,← there],by simp [Statement.list,Statement.with,there]⟩
  | some arrays =>
      have record : v.record.paramBind = some arrays.bind ∧ v.record.paramBindData = some arrays.data ∧
          v.record.paramCount = arrays.params.length := by simp [Statement.record,there]
      obtain ⟨bind,data,count⟩ := record
      split
      · obtain ⟨rest,before,after,_,_⟩ := v.with_blocks arrays
          {arrays with params := List.replicate arrays.params.length .clear} there ⟨rfl,rfl,by simp⟩
        refine spec_liftThen bind (spec_liftThen data ?_)
        rw [count]
        refine spec_last _ (spec_clearing arrays) rest before fun _ mine same =>
          ⟨some {arrays with params := List.replicate arrays.params.length .clear},by rw [same,after],?_⟩
        simp [Statement.list,Statement.with,there]
      · next empty =>
          refine spec_pure ⟨some arrays,by simp [Statement.with,← there],?_⟩
          have unset : arrays.params = [] := List.eq_nil_of_length_eq_zero (by omega)
          simp [Statement.list,Statement.with,there,unset]

variable {v : Statement} {r : Result}

theorem index_some (found : v.record.index parameterIndex = some i) :
    ∃ arrays, v.params = some arrays ∧ i < arrays.params.length ∧ v.record.paramBind = some arrays.bind ∧
      v.record.paramBindData = some arrays.data := by
  unfold MysqlStmt.index at found
  split at found
  · next range =>
      obtain rfl := Option.some.inj found
      cases there : v.params with
      | none =>
          simp only [Statement.record,there,Option.elim_none] at range
          omega
      | some arrays =>
          simp only [Statement.record,there,Option.elim_some] at range
          exact ⟨arrays,rfl,by omega,by simp [Statement.record,there],by simp [Statement.record,there]⟩
  · cases found

theorem spec_setInt (v : Statement) (parameterIndex : Nat) :
    Spec v.blocks (setInt v.self parameterIndex) fun _ own => ∃ params, own = (v.with params).blocks ∧
      SetAt v.list (v.with params).list (v.record.index parameterIndex) fun old new =>
        new.strData = old.strData ∧ new.buffer = none := by
  refine spec_readThen (mem_self v) rfl
    (spec_readThen (mem_stmt v) rfl ?_)
  split
  · next outside => exact spec_pure ⟨v.params,by simp [Statement.with],by rw [outside]; rfl⟩
  · next i found =>
      obtain ⟨arrays,there,below,bind,data⟩ := index_some found
      let param : Param := ⟨arrays.params[i].strData,none,.inl rfl⟩
      obtain ⟨rest,before,after,_,_⟩ := v.with_blocks arrays {arrays with params := arrays.params.set i param} there
        ⟨rfl,rfl,by simp⟩
      refine spec_liftThen data (spec_readThen (b := .bindData (arrays.params.map Param.strData))
        (by simp [before,ParamArrays.blocks]) rfl ?_)
      refine spec_liftThen (List.getElem?_eq_getElem (by simpa using below)) (spec_liftThen bind ?_)
      refine spec_readThen (b := .binds (arrays.params.map Param.buffer)) (by simp [before,ParamArrays.blocks]) rfl
        (spec_liftThen (put_some _ (by simpa using below) _) ?_)
      refine spec_last _ (spec_store arrays.bind _ _) ({(arrays.data,.bindData (arrays.params.map Param.strData))}+
        texts (arrays.params.map Param.strData)+rest) (by rw [before,ParamArrays.blocks]; ac_rfl) fun _ mine same => ?_
      have kept : (arrays.params.map Param.strData).set i param.strData = arrays.params.map Param.strData := by
        rw [show param.strData = Param.strData arrays.params[i] from rfl,← List.map_set,List.set_getElem_self]
      refine ⟨some {arrays with params := arrays.params.set i param},?_,by
        rw [found]
        exact ⟨arrays.params[i],param,by simp [Statement.list,there],by simp [Statement.list,Statement.with,there],rfl,rfl⟩⟩
      rw [same,after]
      simp only [ParamArrays.blocks,List.map_set,kept]
      simp only [param]
      ac_rfl

theorem spec_setString (v : Statement) (parameterIndex : Nat) :
    Spec v.blocks (setString v.self parameterIndex) fun _ own => ∃ params, own = (v.with params).blocks ∧
      SetAt v.list (v.with params).list (v.record.index parameterIndex) fun _ new =>
        ∃ p, new.strData = some p ∧ new.buffer = some p := by
  refine spec_readThen (mem_self v) rfl
    (spec_readThen (mem_stmt v) rfl ?_)
  split
  · next outside => exact spec_pure ⟨v.params,by simp [Statement.with],by rw [outside]; rfl⟩
  · next i found =>
      obtain ⟨arrays,there,below,bind,data⟩ := index_some found
      have inData : i < (arrays.params.map Param.strData).length := by simpa using below
      have inBinds : i < (arrays.params.map Param.buffer).length := by simpa using below
      let others : Blocks Block := {(arrays.bind,.binds (arrays.params.map Param.buffer))}+
        {(arrays.data,.bindData (arrays.params.map Param.strData))}+
        texts ((arrays.params.map Param.strData).set i none)
      have parts : arrays.blocks = text (arrays.params.map Param.strData)[i]+others := by
        simp only [ParamArrays.blocks,others]
        rw [texts_at _ inData]
        ac_rfl
      obtain ⟨rest,before,_,_,_⟩ := v.with_blocks arrays arrays there ⟨rfl,rfl,rfl⟩
      refine spec_liftThen data (spec_readThen (b := .bindData (arrays.params.map Param.strData))
        (by simp [before,ParamArrays.blocks]) rfl (spec_liftThen (List.getElem?_eq_getElem inData) ?_))
      refine spec_call _ (spec_freeAny _) (others+rest) (by rw [before,parts]; ac_rfl) fun _ mine gone => ?_
      rw [gone,zero_add]
      refine spec_mallocThen fun copy => spec_liftThen (put_some _ inData _) ?_
      let param : Param := ⟨some copy,some copy,.inr rfl⟩
      obtain ⟨rest',before',after,_,_⟩ := v.with_blocks arrays {arrays with params := arrays.params.set i param} there
        ⟨rfl,rfl,by simp⟩
      obtain rfl : rest = rest' := by
        rw [before] at before'
        exact add_left_cancel before'
      refine spec_storeThen (p := arrays.data) ({(copy,.text)}+{(arrays.bind,.binds (arrays.params.map Param.buffer))}+
        texts ((arrays.params.map Param.strData).set i none)+rest) (by simp only [others]; ac_rfl) ?_
      refine spec_liftThen bind (spec_readThen (b := .binds (arrays.params.map Param.buffer)) (by simp) rfl
        (spec_liftThen (put_some _ inBinds _) ?_))
      refine spec_last _ (spec_store arrays.bind _ _) ({(arrays.data,.bindData ((arrays.params.map Param.strData).set i copy))}+
        {(copy,.text)}+texts ((arrays.params.map Param.strData).set i none)+rest) (by ac_rfl) fun _ mine same => ?_
      refine ⟨some {arrays with params := arrays.params.set i param},?_,by
        rw [found]
        exact ⟨arrays.params[i],param,by simp [Statement.list,there],by simp [Statement.list,Statement.with,there],copy,rfl,
          rfl⟩⟩
      rw [same,after]
      simp only [ParamArrays.blocks,List.map_set,param]
      rw [texts_set _ inData (some copy),text]
      ac_rfl

theorem spec_mysqlStmtExecute {own : Blocks Block} (statement : Nat) (bound : Option Nat) (strings : List (Option Nat))
    (there : (statement,.statement bound) ∈ own) (held : ∀ p, some p ∈ strings → (p,.text) ∈ own) :
    Spec own (mysqlStmtExecute statement strings) fun _ own' => own' = own := by
  refine spec_readThen there rfl (spec_forRange (fun _ own' => own' = own) _ ?_ rfl)
  rintro i below own' rfl
  refine spec_liftThen (List.getElem?_eq_getElem below) ?_
  cases stored : strings[i] with
  | none => exact spec_pure rfl
  | some p =>
      have member : some p ∈ strings := stored ▸ List.getElem_mem below
      exact spec_mono (spec_read (b := .text) (held p member) rfl) fun _ _ same => same.2

theorem spec_localExecute (v : Statement) (binds executes : Bool) :
    Spec v.blocks (localExecute v.self binds executes) fun _ own => own = v.blocks := by
  refine spec_readThen (mem_self v) rfl
    (spec_readThen (mem_stmt v) rfl ?_)
  split
  · next present =>
      cases there : v.params with
      | none => simp [Statement.record,there] at present
      | some arrays =>
          obtain ⟨rest,before,_,_,_⟩ := v.with_blocks arrays arrays there ⟨rfl,rfl,rfl⟩
          refine spec_liftThen (a := arrays.bind) (by simp [Statement.record,there])
            (spec_readThen (b := .binds (arrays.params.map Param.buffer)) (by simp [before,ParamArrays.blocks]) rfl ?_)
          split
          · refine spec_bind (spec_mysqlStmtExecute _ _ _ (mem_statement v) fun p member => ?_)
              fun _ own same => spec_pure same
            obtain ⟨param,inside,points⟩ := List.mem_map.mp member
            have string : param.strData = some p := by
              rcases param.held with never | same
              · rw [points] at never
                cases never
              · rw [← same,points]
            have among := mem_texts (List.mem_map.mpr ⟨param,inside,string⟩)
            simp [before,ParamArrays.blocks,among]
          · exact spec_pure rfl
  · exact spec_bind (spec_mysqlStmtExecute _ _ _ (mem_statement v) fun p member => by cases member)
      fun _ own same => spec_pure same

theorem spec_useStatement (v : Statement) : Spec v.blocks (useStatement v.stmt) fun _ own => own = v.blocks := by
  refine spec_readThen (mem_stmt v) rfl ?_
  exact spec_readThen (mem_statement v) rfl (spec_pure rfl)

theorem spec_executeUpdate (v : Statement) (binds executes : Bool) :
    Spec v.blocks (executeUpdate v.self binds executes) fun _ own => own = v.blocks := by
  refine spec_readThen (mem_self v) rfl ?_
  refine spec_bind (spec_localExecute v binds executes) fun done own same => ?_
  subst same
  cases done with
  | true => exact spec_useStatement v
  | false => exact spec_pure rfl

theorem spec_execute (v : Statement) (binds executes : Bool) :
    Spec v.blocks (execute v.self binds executes) fun done own => done.1 = v.stmt ∧ own = v.blocks := by
  refine spec_readThen (mem_self v) rfl ?_
  refine spec_bind (spec_localExecute v binds executes) fun done own same => ?_
  exact spec_pure ⟨rfl,same⟩

theorem spec_createStatement (preparing : Preparing) :
    Spec 0 (createStatement preparing) fun st own => match preparing with
      | .noStatement => st = none ∧ own = 0
      | .refused => st = none ∧ ∃ p, own = {(p,.statement none)}
      | .prepared paramCount => ∃ v : Statement, st = some v.self ∧ own = v.blocks ∧
        v.list = List.replicate paramCount .clear := by
  refine spec_mallocThen fun st => spec_mallocThen fun stmt => ?_
  refine spec_storeThen (p := st) {(stmt,.raw)} (by simp only [add_zero]; ac_rfl) ?_
  cases preparing with
  | noStatement =>
      refine spec_freeThen (p := stmt) {(st,.object stmt)} (by ac_rfl) ?_
      exact spec_freeThen (p := st) (b := .object stmt) 0 (add_zero _).symm (spec_pure ⟨rfl,rfl⟩)
  | refused =>
      refine spec_mallocThen fun statement => ?_
      refine spec_freeThen (p := stmt) ({(statement,.statement none)}+{(st,.object stmt)}) (by ac_rfl) ?_
      refine spec_freeThen (p := st) {(statement,.statement none)} (by ac_rfl) ?_
      exact spec_pure ⟨rfl,statement,rfl⟩
  | prepared paramCount =>
      refine spec_mallocThen fun statement => ?_
      simp only
      split
      · refine spec_mallocThen fun paramBind => spec_mallocThen fun paramBindData => ?_
        let v : Statement := ⟨st,stmt,statement,
          some ⟨paramBind,paramBindData,List.replicate paramCount .clear⟩,none⟩
        refine spec_storeThen (p := stmt) ({(paramBindData,.bindData (List.replicate paramCount none))}+
          {(paramBind,.binds (List.replicate paramCount none))}+{(statement,.statement none)}+{(st,.object stmt)})
          (by ac_rfl) ?_
        refine spec_call v.blocks (spec_clearParameters v) 0 ?_ fun _ own cleared => ?_
        · simp only [v,Statement.blocks,paramBlocks,ParamArrays.blocks,resultBlocks,Statement.record,Param.clear,
            Option.elim_some,Option.elim_none,Option.map_some,Option.map_none,List.map_replicate,List.length_replicate,
            texts_replicate,add_zero]
          ac_rfl
        · obtain ⟨params,rfl,list⟩ := cleared
          exact spec_pure ⟨v.with params,rfl,by simp,by simpa [v,Statement.list] using list⟩
      · next absent =>
          refine spec_storeThen (p := stmt) ({(statement,.statement none)}+{(st,.object stmt)}) (by ac_rfl) ?_
          refine spec_pure ⟨⟨st,stmt,statement,none,none⟩,rfl,?_,by simp [Statement.list,Nat.eq_zero_of_not_pos absent]⟩
          simp only [Statement.blocks,paramBlocks,resultBlocks,Statement.record,Nat.eq_zero_of_not_pos absent,
            Option.elim_none,Option.map_none,add_zero]
          ac_rfl

-- The MYSQL_STMT that stays behind was asked for after the two that are freed.
theorem createStatement_refused (ran : createStatement .refused h = some (st,h')) :
    h'.block (h.next+2) = some (.statement none) := by
  rw [createStatement,malloc_then,malloc_then,store_there (b := .raw) (by simp)] at ran
  simp only at ran
  rw [malloc_then,free_there (b := .raw) (by simp),
    free_there (b := .object (h.next+1)) (by simp [Function.update_apply]; omega)] at ran
  cases ran
  simp

theorem spec_nameFields (fields n : Nat) :
    Spec {(fields,.fields (List.replicate n none))} (forRange n (nameField fields)) fun _ own =>
      ∃ names : List (Option Nat), names.length = n ∧ own = {(fields,.fields names)}+texts names := by
  let named := fun (i : Nat) (own : Blocks Block) => ∃ done : List (Option Nat), done.length = i ∧
    own = {(fields,.fields (done ++ List.replicate (n-i) none))}+texts done
  refine spec_mono (spec_forRange named n ?_ ⟨[],rfl,by simp⟩) ?_
  · rintro i below own ⟨done,rfl,rfl⟩
    refine spec_mallocThen fun name => ?_
    refine spec_readThen (b := .fields (done ++ List.replicate (n-done.length) none)) (by simp) rfl
      (spec_liftThen (put_some _ (by simp; omega) _) ?_)
    refine spec_last _ (spec_store fields _ _) ({(name,.text)}+texts done) (by ac_rfl) fun _ mine same => ?_
    refine ⟨done ++ [some name],by simp,?_⟩
    have left : n-done.length = (n-(done.length+1))+1 := by omega
    rw [same,left,List.replicate_succ,List.set_append_right _ _ (Nat.le_refl _),Nat.sub_self,List.set_cons_zero]
    simp only [texts_append,texts_cons,texts_nil,text,add_zero,List.append_assoc,List.singleton_append]
    ac_rfl
  · rintro _ own ⟨done,length,rfl⟩
    exact ⟨done,length,by rw [Nat.sub_self,List.replicate_zero,List.append_nil]⟩

structure Opens (v : Statement) (r : Result) : Prop where
  stmt : r.stmt = v.stmt
  named : 0 < r.names.length
  result : ∃ arrays, v.result = some arrays ∧ arrays.strings.length = r.names.length

def Statement.fetching (v : Statement) (arrays : ResultArrays) : Statement := {v with result := some arrays}

-- What the statement had allocated for the result set before is held by nobody.
theorem spec_internalFetchResult (v : Statement) (metadata : Option Columns) :
    Spec v.blocks (internalFetchResult v.stmt metadata) fun res own => match metadata with
      | none => res = none ∧ own = v.blocks
      | some _ => ∃ r arrays, res = some r.self ∧ Opens (v.fetching arrays) r ∧
          own = (v.fetching arrays).blocks+r.blocks+resultBlocks v.result := by
  refine spec_mallocThen fun res => spec_mallocThen fun result => ?_
  refine spec_storeThen (p := res) ({(result,.raw)}+v.blocks) (by ac_rfl) ?_
  refine spec_readThen (b := .stmt v.record) (by simp [mem_stmt]) rfl ?_
  refine spec_readThen (b := .statement (v.result.map ResultArrays.data)) (by simp [mem_statement]) rfl ?_
  cases metadata with
  | none =>
      refine spec_freeThen (p := res) ({(result,.raw)}+v.blocks) (by ac_rfl) ?_
      exact spec_freeThen (p := result) v.blocks rfl (spec_pure ⟨rfl,rfl⟩)
  | some columns =>
      refine spec_mallocThen fun bind => spec_mallocThen fun fields => ?_
      refine spec_storeThen (p := result) (b := .raw) ({(fields,.fields (List.replicate columns.count none))}+
        {(bind,.binds (List.replicate columns.count none))}+{(res,.object result)}+v.blocks) (by ac_rfl) ?_
      refine spec_mallocThen fun data => ?_
      let arrays : ResultArrays := ⟨bind,data,List.replicate columns.count none⟩
      let statement : Blocks Block := {(v.statement,.statement (v.result.map ResultArrays.data))}
      let own : Blocks Block := {(v.self,.object v.stmt)}+paramBlocks v.params+resultBlocks v.result+
        {(bind,.binds (List.replicate columns.count none))}+{(data,.bindData (List.replicate columns.count none))}+
        {(res,.object result)}+{(result,.result ⟨v.stmt,columns.count,fields⟩)}
      refine spec_storeThen (p := v.stmt) (b := .stmt v.record) (statement+own+
        {(fields,.fields (List.replicate columns.count none))}) (by simp only [Statement.blocks,statement,own]; ac_rfl) ?_
      have record : (v.fetching arrays).record = {v.record with
          numberFields := columns.count,resultBind := some bind,resultBindData := some data} := by
        simp [Statement.record,Statement.fetching,arrays]
      rw [← record]
      refine spec_call _ (spec_nameFields fields columns.count) ({(v.stmt,.stmt (v.fetching arrays).record)}+statement+own)
        (by ac_rfl) fun _ mine named => ?_
      obtain ⟨names,length,rfl⟩ := named
      refine spec_storeThen (p := v.statement) (b := .statement (v.result.map ResultArrays.data))
        ({(fields,.fields names)}+texts names+{(v.stmt,.stmt (v.fetching arrays).record)}+own)
        (by simp only [statement]; ac_rfl) ?_
      refine spec_pure ⟨⟨res,result,v.stmt,fields,names⟩,arrays,rfl,?_,?_⟩
      · exact ⟨rfl,length ▸ columns.positive,arrays,rfl,by simp [arrays,length]⟩
      · simp only [own,Statement.blocks,record,Result.blocks,length]
        simp only [Statement.fetching,arrays,resultBlocks,Option.elim_some,ResultArrays.blocks,List.length_replicate,
          texts_replicate,Option.map_some,add_zero]
        simp only [Statement.record]
        ac_rfl

theorem result_index (found : MysqlResult.index ⟨r.stmt,r.names.length,r.fields⟩ parameterIndex = some i) :
    i < r.names.length := by
  unfold MysqlResult.index at found
  split at found
  · next range =>
      obtain rfl := Option.some.inj found
      simp only at range
      omega
  · cases found

theorem mem_result (v : Statement) (r : Result) :
    (r.self,.object r.result) ∈ v.blocks+r.blocks ∧
      (r.result,.result ⟨r.stmt,r.names.length,r.fields⟩) ∈ v.blocks+r.blocks ∧
      (v.stmt,.stmt v.record) ∈ v.blocks+r.blocks ∧
      (v.statement,.statement (v.result.map ResultArrays.data)) ∈ v.blocks+r.blocks := by
  simp [mem_object r,mem_record r,mem_stmt v,mem_statement v]

theorem mem_resultArrays (there : v.result = some arrays) : (arrays.data,.bindData arrays.strings) ∈ v.blocks := by
  simp [Statement.blocks,there,resultBlocks,ResultArrays.blocks]

theorem spec_next (opens : Opens v r) (fetched : Bool) :
    Spec (v.blocks+r.blocks) (next r.self fetched) fun found own => found = fetched ∧ own = v.blocks+r.blocks := by
  obtain ⟨atSelf,atResult,atStmt,atStatement⟩ := mem_result v r
  obtain ⟨arrays,there,_⟩ := opens.result
  refine spec_readThen atSelf rfl (spec_readThen atResult rfl ?_)
  rw [opens.stmt]
  refine spec_readThen atStmt rfl (spec_readThen atStatement rfl ?_)
  cases fetched with
  | false => exact spec_pure ⟨rfl,rfl⟩
  | true =>
      refine spec_liftThen (a := arrays.data) (by simp [there]) ?_
      exact spec_readThen (Multiset.mem_add.mpr (.inl (mem_resultArrays there))) rfl (spec_pure ⟨rfl,rfl⟩)

theorem spec_getInt (opens : Opens v r) (parameterIndex : Nat) :
    Spec (v.blocks+r.blocks) (getInt r.self parameterIndex) fun _ own => own = v.blocks+r.blocks := by
  obtain ⟨atSelf,atResult,atStmt,_⟩ := mem_result v r
  obtain ⟨arrays,there,length⟩ := opens.result
  refine spec_readThen atSelf rfl (spec_readThen atResult rfl ?_)
  split
  · exact spec_pure rfl
  · next i found =>
      have below := result_index found
      rw [← length] at below
      rw [opens.stmt]
      refine spec_readThen atStmt rfl (spec_liftThen (a := arrays.data) (by simp [Statement.record,there]) ?_)
      refine spec_readThen (Multiset.mem_add.mpr (.inl (mem_resultArrays there))) rfl ?_
      exact spec_liftThen (List.getElem?_eq_getElem below) (spec_pure rfl)

theorem Opens.fetching (opens : Opens v r) (there : v.result = some arrays) (strings : List (Option Nat))
    (length : strings.length = arrays.strings.length) : Opens (v.fetching {arrays with strings := strings}) r := by
  obtain ⟨_,there',same⟩ := opens.result
  obtain rfl := Option.some.inj (there.symm.trans there')
  exact ⟨opens.stmt,opens.named,_,rfl,by rw [length,same]⟩

theorem fetching_blocks (there : v.result = some arrays) (strings : List (Option Nat))
    (length : strings.length = arrays.strings.length) :
    ∃ rest, (v.fetching {arrays with strings := strings}).blocks = {(arrays.data,.bindData strings)}+texts strings+rest ∧
      v.blocks = {(arrays.data,.bindData arrays.strings)}+texts arrays.strings+rest ∧
      (v.stmt,.stmt v.record) ∈ rest ∧ (v.statement,.statement (v.result.map ResultArrays.data)) ∈ rest := by
  refine ⟨{(v.self,.object v.stmt)}+{(v.stmt,.stmt v.record)}+{(v.statement,.statement (some arrays.data))}+
    paramBlocks v.params+{(arrays.bind,.binds (List.replicate arrays.strings.length none))},?_,?_,by simp,by simp [there]⟩
  · have record : (v.fetching {arrays with strings := strings}).record = v.record := by
      simp [Statement.record,Statement.fetching,there,length]
    simp only [Statement.blocks,record]
    simp only [Statement.fetching,resultBlocks,Option.elim_some,ResultArrays.blocks,length,Option.map_some]
    ac_rfl
  · simp only [Statement.blocks,there,resultBlocks,Option.elim_some,ResultArrays.blocks,Option.map_some]
    ac_rfl

theorem spec_getString (opens : Opens v r) (parameterIndex : Nat) (cell : Cell) :
    Spec (v.blocks+r.blocks) (getString r.self parameterIndex cell) fun _ own =>
      ∃ v' : Statement, v'.self = v.self ∧ Opens v' r ∧ own = v'.blocks+r.blocks := by
  obtain ⟨atSelf,atResult,atStmt,_⟩ := mem_result v r
  obtain ⟨arrays,there,length⟩ := opens.result
  refine spec_readThen atSelf rfl (spec_readThen atResult rfl ?_)
  split
  · exact spec_pure ⟨v,rfl,opens,rfl⟩
  · next i found =>
      have below := result_index found
      rw [← length] at below
      rw [opens.stmt]
      refine spec_readThen atStmt rfl (spec_liftThen (a := arrays.data) (by simp [Statement.record,there]) ?_)
      refine spec_readThen (Multiset.mem_add.mpr (.inl (mem_resultArrays there))) rfl ?_
      refine spec_liftThen (List.getElem?_eq_getElem below) ?_
      obtain ⟨rest,cleared,before,_,inside⟩ := fetching_blocks there (arrays.strings.set i none) (by simp)
      have parts : v.blocks+r.blocks = text arrays.strings[i]+({(arrays.data,.bindData arrays.strings)}+
          texts (arrays.strings.set i none)+rest+r.blocks) := by
        rw [before,texts_at _ below]
        ac_rfl
      cases cell with
      | null => exact spec_pure ⟨v,rfl,opens,rfl⟩
      | empty => exact spec_pure ⟨v,rfl,opens,rfl⟩
      | failed =>
          refine spec_call _ (spec_freeAny _) _ parts fun _ mine gone => ?_
          rw [gone,zero_add]
          refine spec_liftThen (put_some _ below _) ?_
          refine spec_storeThen (p := arrays.data) (b := .bindData arrays.strings)
            (texts (arrays.strings.set i none)+rest+r.blocks) (by ac_rfl) ?_
          refine spec_mallocThen fun p => spec_readThen (b := .statement (v.result.map ResultArrays.data)) (by simp [inside]) rfl ?_
          refine spec_freeThen _ rfl (spec_pure ⟨v.fetching {arrays with strings := arrays.strings.set i none},rfl,
            opens.fetching there _ (by simp),?_⟩)
          rw [cleared]
          ac_rfl
      | text =>
          refine spec_call _ (spec_freeAny _) _ parts fun _ mine gone => ?_
          rw [gone,zero_add]
          refine spec_liftThen (put_some _ below _) ?_
          refine spec_storeThen (p := arrays.data) (b := .bindData arrays.strings)
            (texts (arrays.strings.set i none)+rest+r.blocks) (by ac_rfl) ?_
          refine spec_mallocThen fun p => spec_readThen (b := .statement (v.result.map ResultArrays.data)) (by simp [inside]) rfl ?_
          refine spec_liftThen (put_some _ below _) ?_
          refine spec_storeThen (p := arrays.data) (b := .bindData (arrays.strings.set i none))
            ({(p,.text)}+texts (arrays.strings.set i none)+rest+r.blocks) (by ac_rfl) ?_
          obtain ⟨rest',after,before',_,_⟩ := fetching_blocks there (arrays.strings.set i (some p)) (by simp)
          obtain rfl : rest = rest' := add_left_cancel (before.symm.trans before')
          refine spec_pure ⟨v.fetching {arrays with strings := arrays.strings.set i (some p)},rfl,
            opens.fetching there _ (by simp),?_⟩
          rw [after,texts_set _ below (some p),text]
          ac_rfl

theorem spec_resultClose (opens : Opens v r) :
    Spec (v.blocks+r.blocks) (resultClose r.self) fun _ own => own = v.blocks := by
  obtain ⟨atSelf,atResult,atStmt,atStatement⟩ := mem_result v r
  refine spec_readThen atSelf rfl (spec_readThen atResult rfl ?_)
  rw [opens.stmt]
  refine spec_readThen atStmt rfl (spec_readThen atStatement rfl ?_)
  rw [if_pos opens.named]
  refine spec_call _ (spec_freeEach r.fields (.fields r.names) r.names rfl)
    ({(r.self,.object r.result)}+{(r.result,.result ⟨r.stmt,r.names.length,r.fields⟩)}+v.blocks)
    (by simp only [Result.blocks]; ac_rfl) fun _ mine same => ?_
  rw [same]
  refine spec_freeThen _ rfl (spec_freeThen (p := r.result)
    (b := .result ⟨r.stmt,r.names.length,r.fields⟩) ({(r.self,.object r.result)}+v.blocks) (by ac_rfl) ?_)
  exact spec_last _ (spec_free r.self _) v.blocks rfl fun _ mine gone => by rw [gone,zero_add]

end TcpProxy.DbMysql.Memory
