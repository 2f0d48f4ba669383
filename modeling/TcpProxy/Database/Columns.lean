import TcpProxy.Database.Parameters

namespace TcpProxy.DbMysql
open LittleEndian

-- The bind of result column i. A column of the last kind gets no buffer.
def bindColumn (i : Nat) (type : FieldType) : MysqlBind :=
  let bind := {MysqlBind.zero with isNull := some i, length := some i}
  match type with
  | .newdecimal | .decimal | .tiny | .short | .long | .int24 =>
    {bind with bufferType := .long, buffer := some (.union i)}
  | .longlong => {bind with bufferType := .longlong, buffer := some (.union i)}
  | .timestamp | .date | .time | .datetime | .year | .newdate =>
    {bind with bufferType := .timestamp, buffer := some (.union i)}
  | .varchar | .string | .varString | .enum => {bind with bufferType := .string}
  | _ => bind

structure ResultSet where
  fields : List FieldType
  bind : Nat → MysqlBind
  data : Nat → BindData

def internalFetchResult (fields : List FieldType) : ResultSet :=
  ⟨fields,fun i => (fields[i]?).elim .zero (bindColumn i),fun _ => .zero⟩

-- A row has the number that the driver stores in a column, or none for NULL.
-- What it stores in a column of another kind is left out.
abbrev Row := Nat → Option Int

def fetchColumn (bind : MysqlBind) (cell : Option Int) (data : BindData) : BindData :=
  match cell,bind.buffer,width bind.bufferType with
  | none,_,_ => {data with isNull := true}
  | some value,some _,some w => {data with isNull := false, union := store data.union w value}
  | some _,_,_ => {data with isNull := false}

def next (s : ResultSet) (row : Row) : ResultSet :=
  {s with data := fun i => if i < s.fields.length then fetchColumn (s.bind i) (row i) (s.data i) else s.data i}

def getNumber (s : ResultSet) (parameterIndex : Int) (w : Nat) (isUnsigned : Bool) : Int :=
  if 1 ≤ parameterIndex ∧ parameterIndex ≤ s.fields.length then
    let data := s.data (parameterIndex-1).toNat
    if data.isNull then 0 else readNumber data.union isUnsigned w
  else 0

def getInt (s : ResultSet) (parameterIndex : Int) : Int := getNumber s parameterIndex 4 false
def getShort (s : ResultSet) (parameterIndex : Int) : Int := getNumber s parameterIndex 2 false
def getuInt (s : ResultSet) (parameterIndex : Int) : Int := getNumber s parameterIndex 4 true
def getuBigint (s : ResultSet) (parameterIndex : Int) : Int := getNumber s parameterIndex 8 true
def getBigint (s : ResultSet) (parameterIndex : Int) : Int := getNumber s parameterIndex 8 false

inductive Getter where
  | getShort
  | getInt
  | getuInt
  | getBigint
  | getuBigint
deriving DecidableEq, Repr

def Getter.get (s : ResultSet) (parameterIndex : Int) : Getter → Int
  | .getShort => DbMysql.getShort s parameterIndex
  | .getInt => DbMysql.getInt s parameterIndex
  | .getuInt => DbMysql.getuInt s parameterIndex
  | .getBigint => DbMysql.getBigint s parameterIndex
  | .getuBigint => DbMysql.getuBigint s parameterIndex

def Fits (w : Nat) (isUnsigned : Bool) (value : Int) : Prop :=
  if isUnsigned then 0 ≤ value ∧ value < 256^w else -(256^w/2) ≤ value ∧ value < 256^w/2

def Getter.returns (value : Int) : Getter → Prop
  | .getShort => Fits 2 false value
  | .getInt => Fits 4 false value
  | .getuInt => Fits 4 true value
  | .getBigint => Fits 8 false value
  | .getuBigint => Fits 8 true value

def columnWidth (fields : List FieldType) (i : Nat) : Option Nat :=
  (fields[i]?).bind fun type => width (bindColumn i type).bufferType

def fetched (fields : List FieldType) (rows : List Row) : ResultSet := Machine.run next (internalFetchResult fields) rows

def ReadsBack (fields : List FieldType) (rows : List Row) (row : Row) (i : Nat) (value : Int) (getter : Getter) : Prop :=
  getter.returns value → getter.get (fetched fields (rows ++ [row])) (i+1) = value

theorem bindColumn_numeric (bound : width (bindColumn i type).bufferType = some w) :
    (bindColumn i type).buffer = some (.union i) ∧ (w = 4 ∨ w = 8) := by
  cases type <;> cases bound
  all_goals exact ⟨rfl,by decide⟩

-- Bytes behind those that the driver stores in a column have never been written.
structure Blank (s : ResultSet) (fields : List FieldType) : Prop where
  columns : s.fields = fields
  bind : ∀ i type, fields[i]? = some type → s.bind i = bindColumn i type
  zeros : ∀ i w, columnWidth fields i = some w → ∀ k, w ≤ k → (s.data i).union k = 0

theorem columnWidth_some (bound : columnWidth fields i = some w) :
    ∃ type, fields[i]? = some type ∧ width (bindColumn i type).bufferType = some w :=
  Option.bind_eq_some_iff.mp bound

theorem fetchColumn_number (bound : width (bindColumn i type).bufferType = some w) (value : Int) (data : BindData) :
    fetchColumn (bindColumn i type) (some value) data =
      {data with isNull := false, union := store data.union w value} := by
  simp only [fetchColumn,bound,(bindColumn_numeric bound).1]

theorem fetched_blank (fields : List FieldType) (rows : List Row) : Blank (fetched fields rows) fields := by
  refine Machine.run_preserves (fun s => Blank s fields) ?_ (fun s row blank => ?_) rows
  · exact ⟨rfl,fun i type indexed => by simp [internalFetchResult,indexed],fun _ _ _ _ _ => rfl⟩
  · refine ⟨blank.columns,blank.bind,fun i w bound k behind => ?_⟩
    obtain ⟨type,indexed,wide⟩ := columnWidth_some bound
    have before := blank.zeros i w bound k behind
    simp only [next]
    split
    · rw [blank.bind i type indexed]
      cases row i with
      | none => exact before
      | some value =>
          rw [fetchColumn_number wide]
          exact (if_neg (Nat.not_lt.mpr behind)).trans before
    · exact before

theorem fetched_number (fields : List FieldType) (rows : List Row) (row : Row)
    (bound : columnWidth fields i = some w) (stored : row i = some value) :
    ∃ union, (∀ k, w ≤ k → union k = 0) ∧ ∀ r isUnsigned,
      getNumber (fetched fields (rows ++ [row])) (i+1) r isUnsigned = readNumber (store union w value) isUnsigned r := by
  obtain ⟨type,indexed,wide⟩ := columnWidth_some bound
  have blank := fetched_blank fields rows
  have inside : i < fields.length := (List.getElem?_eq_some_iff.mp indexed).choose
  have data : (fetched fields (rows ++ [row])).data i = {(fetched fields rows).data i with
      isNull := false, union := store ((fetched fields rows).data i).union w value} := by
    rw [fetched,Machine.run_concat]
    change (next (fetched fields rows) row).data i = _
    simp only [next]
    rw [if_pos (by rw [blank.columns]; exact inside),blank.bind i type indexed,stored,fetchColumn_number wide]
  refine ⟨_,blank.zeros i w bound,fun r isUnsigned => ?_⟩
  have index : 1 ≤ (i : Int)+1 ∧ (i : Int)+1 ≤ (fetched fields (rows ++ [row])).fields.length := by
    rw [(fetched_blank fields (rows ++ [row])).columns]
    omega
  have back : ((i : Int)+1-1).toNat = i := by omega
  simp only [getNumber,if_pos index,back,data]
  rfl

theorem read_part (union : Memory) (part : r ≤ w) (isUnsigned : Bool) (fits : Fits r isUnsigned value) :
    readNumber (store union w value) isUnsigned r = value := by
  cases isUnsigned with
  | false =>
      have bounds : -(256^r/2) ≤ value ∧ value < 256^r/2 := fits
      have read := loadSigned_store union value part
      have even : ((256^r : Nat) : Int) = 256^r := by push_cast; rfl
      exact read.trans (Int.bmod_eq_of_le (by omega) (by omega))
  | true =>
      have bounds : 0 ≤ value ∧ value < 256^r := fits
      exact (load_store union value part).trans (Int.emod_eq_of_lt bounds.1 bounds.2)

-- Eight bytes of which the driver has stored four: the sign is lost.
theorem load_wide (union : Memory) (zeros : ∀ k, 4 ≤ k → union k = 0) (value : Int) :
    (load (store union 4 value) 8 : Int) = value % 256^4 := by
  have tail : load (store union 4 value) (4+4) = load (store union 4 value) 4 := load_zeros fun k low _ => by
    rw [store,if_neg (Nat.not_lt.mpr low)]
    exact zeros k low
  rw [tail]
  exact load_store union value (Nat.le_refl 4)

theorem read_wide (union : Memory) (zeros : ∀ k, 4 ≤ k → union k = 0) (value : Int) :
    readNumber (store union 4 value) true 8 = value % 256^4 ∧ readNumber (store union 4 value) false 8 = value % 256^4 := by
  have wide := load_wide union zeros value
  have low := Int.emod_nonneg value (show (256^4 : Int) ≠ 0 by decide)
  have high := Int.emod_lt_of_pos value (show (0 : Int) < 256^4 by decide)
  constructor
  · exact wide
  · rw [readNumber,if_neg Bool.false_ne_true,loadSigned,wide]
    exact Int.bmod_eq_of_le (by omega) (by omega)

-- Only getBigint asks for more bytes than there are, and then for their sign.
theorem reads_back_iff (fields : List FieldType) (rows : List Row) (row : Row) (i : Nat) (value : Int)
    (getter : Getter) (bound : columnWidth fields i = some w) (stored : row i = some value) (fits : Fits w false value) :
    ReadsBack fields rows row i value getter ↔ w = 8 ∨ 0 ≤ value ∨ getter ≠ .getBigint := by
  obtain ⟨union,zeros,read⟩ := fetched_number fields rows row bound stored
  obtain ⟨type,_,wide⟩ := columnWidth_some bound
  have size := (bindColumn_numeric wide).2
  cases getter with
  | getShort => exact iff_of_true (fun has => (read 2 false).trans (read_part union (by omega) false has)) (by simp)
  | getInt => exact iff_of_true (fun has => (read 4 false).trans (read_part union (by omega) false has)) (by simp)
  | getuInt => exact iff_of_true (fun has => (read 4 true).trans (read_part union (by omega) true has)) (by simp)
  | getuBigint =>
      refine iff_of_true (fun has => (read 8 true).trans ?_) (by simp)
      rcases size with rfl | rfl
      · have bounds : 0 ≤ value ∧ value < 256^8 := has
        have narrow : -(256^4/2) ≤ value ∧ value < 256^4/2 := fits
        rw [(read_wide union zeros value).1]
        omega
      · exact read_part union (Nat.le_refl 8) true has
  | getBigint =>
      rcases size with rfl | rfl
      · have narrow : -(256^4/2) ≤ value ∧ value < 256^4/2 := fits
        have has : Getter.getBigint.returns value := show -(256^8/2) ≤ value ∧ value < 256^8/2 by omega
        have got : Getter.getBigint.get (fetched fields (rows ++ [row])) (i+1) = value % 256^4 :=
          (read 8 false).trans (read_wide union zeros value).2
        rw [ReadsBack,got]
        constructor
        · intro back
          have same := back has
          omega
        · intro condition _
          have nonneg := (condition.resolve_left (by decide)).resolve_right (by simp)
          omega
      · exact iff_of_true (fun has => (read 8 false).trans (read_part union (Nat.le_refl 8) false has)) (by simp)

theorem reads_back_iff_positive :
    ReadsBack [.varString,.long] [fun _ => none] (fun _ => some 7) 1 7 .getBigint :=
  (reads_back_iff [.varString,.long] [fun _ => none] (fun _ => some 7) 1 7 .getBigint rfl rfl
    (show -(256^4/2) ≤ (7 : Int) ∧ (7 : Int) < 256^4/2 by decide)).mpr (by decide)

-- The value -1 of a column of 32 bits is read as 2^32-1.
theorem negative_read_as_bigint :
    (fetched [.long] [fun _ => some (-1)]).fields = [.long] ∧ getBigint (fetched [.long] [fun _ => some (-1)]) 1 = 4294967295 ∧
      ¬ ReadsBack [.long] [] (fun _ => some (-1)) 0 (-1) .getBigint := by
  have got : getBigint (fetched [.long] [fun _ => some (-1)]) 1 = 4294967295 := by decide
  refine ⟨rfl,got,fun back => ?_⟩
  have same := back (show -(256^8/2) ≤ (-1 : Int) ∧ (-1 : Int) < 256^8/2 by decide)
  exact absurd (got.symm.trans same) (by decide)

end TcpProxy.DbMysql
