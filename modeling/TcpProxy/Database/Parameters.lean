import Mathlib.Logic.Function.Basic
import TcpProxy.Lib.LittleEndian
import TcpProxy.Lib.Run

namespace TcpProxy.DbMysql
open LittleEndian

-- enum_field_types, from zero on.
inductive FieldType where
  | decimal | tiny | short | long | float | double | null | timestamp | longlong | int24 | date | time | datetime | year
  | newdate | varchar | bit | newdecimal | enum | set | tinyBlob | mediumBlob | longBlob | blob | varString | string
  | geometry
deriving DecidableEq, Repr

-- Where a bind's buffer points to: the union of a record, or a string that
-- strdup has returned.
inductive Buffer where
  | union (i : Nat)
  | string (p : Nat)
deriving DecidableEq, Repr

-- The pointers isNull and length are the number of the record they point into.
structure MysqlBind where
  bufferType : FieldType
  buffer : Option Buffer
  bufferLength : Nat
  isNull : Option Nat
  length : Option Nat
  isUnsigned : Bool
deriving DecidableEq, Repr

def MysqlBind.zero : MysqlBind := ⟨.decimal,none,0,none,none,false⟩

-- `union` has the bytes that short_data, int_data, uint_data, int64_data and
-- uint64_data share.
structure BindData where
  length : Nat
  isNull : Bool
  union : Memory
  strData : Option Nat

def BindData.zero : BindData := ⟨0,false,fun _ => 0,none⟩

structure Stmt where
  paramCount : Nat
  paramBind : Nat → MysqlBind
  paramBindData : Nat → BindData
  strings : Nat → Option (List UInt8)
  allocated : Nat

def Stmt.free (s : Stmt) : Option Nat → Stmt
  | some p => {s with strings := Function.update s.strings p none}
  | none => s

def Stmt.set (s : Stmt) (i : Nat) (bind : MysqlBind) (data : BindData) : Stmt :=
  {s with paramBind := Function.update s.paramBind i bind, paramBindData := Function.update s.paramBindData i data}

def clearParameter (s : Stmt) (i : Nat) : Stmt :=
  let data := s.paramBindData i
  (s.free data.strData).set i {MysqlBind.zero with bufferType := .null, isNull := some i, length := some i}
    {data with isNull := true, length := 0, strData := none}

def clearParameters (s : Stmt) : Stmt := (List.range s.paramCount).foldl clearParameter s

def Stmt.index (s : Stmt) (parameterIndex : Int) : Option Nat :=
  if 1 ≤ parameterIndex ∧ parameterIndex ≤ s.paramCount then some (parameterIndex-1).toNat else none

def setNumber (s : Stmt) (parameterIndex : Int) (type : FieldType) (width : Nat) (isUnsigned : Bool) (value : Int) :
    Stmt :=
  match s.index parameterIndex with
  | none => s
  | some i =>
    let data := s.paramBindData i
    s.set i {s.paramBind i with bufferType := type, buffer := some (.union i), isUnsigned := isUnsigned, length := none}
      {data with union := store data.union width value, isNull := false, length := 0}

def setBigint (s : Stmt) (parameterIndex : Int) (value : Int64) : Stmt :=
  setNumber s parameterIndex .longlong 8 false value.toInt

def setuBigint (s : Stmt) (parameterIndex : Int) (value : UInt64) : Stmt :=
  setNumber s parameterIndex .longlong 8 true value.toNat

def setShort (s : Stmt) (parameterIndex : Int) (value : Int16) : Stmt :=
  setNumber s parameterIndex .short 2 false value.toInt

def setuInt (s : Stmt) (parameterIndex : Int) (value : UInt32) : Stmt :=
  setNumber s parameterIndex .long 4 true value.toNat

def setInt (s : Stmt) (parameterIndex : Int) (value : Int32) : Stmt :=
  setNumber s parameterIndex .long 4 false value.toInt

def setString (s : Stmt) (parameterIndex : Int) (str : List UInt8) : Stmt :=
  match s.index parameterIndex with
  | none => s
  | some i =>
    let data := s.paramBindData i
    let s := s.free data.strData
    let s := {s with strings := Function.update s.strings s.allocated (some str), allocated := s.allocated+1}
    s.set i
      {s.paramBind i with
        bufferType := .string, buffer := some (.string (s.allocated-1)), length := some i,
        bufferLength := str.length, isNull := none}
      {data with strData := some (s.allocated-1), length := str.length, isNull := false}

def setNull (s : Stmt) (parameterIndex : Int) : Stmt :=
  match s.index parameterIndex with
  | none => s
  | some i => s.set i {s.paramBind i with bufferType := .null, buffer := none, bufferLength := 0} (s.paramBindData i)

def createStatement (paramCount : Nat) : Stmt :=
  clearParameters ⟨paramCount,fun _ => .zero,fun _ => .zero,fun _ => none,0⟩

inductive Setting where
  | clearParameters
  | setInt (parameterIndex : Int) (value : Int32)
  | setuInt (parameterIndex : Int) (value : UInt32)
  | setShort (parameterIndex : Int) (value : Int16)
  | setBigint (parameterIndex : Int) (value : Int64)
  | setuBigint (parameterIndex : Int) (value : UInt64)
  | setString (parameterIndex : Int) (str : List UInt8)
  | setNull (parameterIndex : Int)

def apply (s : Stmt) : Setting → Stmt
  | .clearParameters => clearParameters s
  | .setInt parameterIndex value => setInt s parameterIndex value
  | .setuInt parameterIndex value => setuInt s parameterIndex value
  | .setShort parameterIndex value => setShort s parameterIndex value
  | .setBigint parameterIndex value => setBigint s parameterIndex value
  | .setuBigint parameterIndex value => setuBigint s parameterIndex value
  | .setString parameterIndex str => setString s parameterIndex str
  | .setNull parameterIndex => setNull s parameterIndex

inductive Meaning where
  | null
  | number (type : FieldType) (isUnsigned : Bool) (value : Int)
  | string (text : List UInt8)
deriving DecidableEq, Repr

def width : FieldType → Option Nat
  | .short => some 2
  | .long => some 4
  | .longlong => some 8
  | _ => none

def readNumber (union : Memory) (isUnsigned : Bool) (width : Nat) : Int :=
  if isUnsigned then load union width else loadSigned union width

-- The reading of a bind: NULL by its type or by the flag that it points to, or
-- what is in its buffer. Nothing else has a meaning.
def denotes (s : Stmt) (bind : MysqlBind) : Option Meaning :=
  if bind.bufferType = .null ∨ bind.isNull.any (fun i => (s.paramBindData i).isNull) then some .null
  else match bind.buffer with
    | some (.union i) => (width bind.bufferType).map fun w =>
      .number bind.bufferType bind.isUnsigned (readNumber (s.paramBindData i).union bind.isUnsigned w)
    | some (.string p) =>
      let length := match bind.length with
        | some i => (s.paramBindData i).length
        | none => bind.bufferLength
      if bind.bufferType = .string then (s.strings p).map fun text => .string (text.take length) else none
    | none => none

def boundParameters (s : Stmt) : List MysqlBind := (List.range s.paramCount).map s.paramBind

def Setting.parameterIndex : Setting → Option Int
  | .clearParameters => none
  | .setInt parameterIndex _ | .setuInt parameterIndex _ | .setShort parameterIndex _ | .setBigint parameterIndex _
  | .setuBigint parameterIndex _ | .setString parameterIndex _ | .setNull parameterIndex => some parameterIndex

def Setting.meaning : Setting → Meaning
  | .clearParameters | .setNull _ => .null
  | .setInt _ value => .number .long false value.toInt
  | .setuInt _ value => .number .long true value.toNat
  | .setShort _ value => .number .short false value.toInt
  | .setBigint _ value => .number .longlong false value.toInt
  | .setuBigint _ value => .number .longlong true value.toNat
  | .setString _ str => .string str

def Setting.concerns (i : Nat) (setting : Setting) : Bool := setting.parameterIndex.all fun n : Int => n = i+1

-- The last setter of the parameter, unless it was cleared after it.
def lastSetting (i : Nat) (settings : List Setting) : Meaning :=
  ((settings.filter (Setting.concerns i)).getLast?.map Setting.meaning).getD .null

structure Sound (s : Stmt) : Prop where
  single : ∀ i j p, (s.paramBindData i).strData = some p → (s.paramBindData j).strData = some p → i = j
  below : ∀ i p, (s.paramBindData i).strData = some p → p < s.allocated

def Carries (s : Stmt) (i : Nat) : Meaning → Prop
  | .null => (s.paramBind i).bufferType = .null
  | .number type isUnsigned value => ∃ w, width type = some w ∧ (s.paramBind i).bufferType = type ∧
    (s.paramBind i).buffer = some (.union i) ∧ (s.paramBind i).isUnsigned = isUnsigned ∧
    (s.paramBindData i).isNull = false ∧ readNumber (s.paramBindData i).union isUnsigned w = value
  | .string text => ∃ p, (s.paramBind i).bufferType = .string ∧ (s.paramBind i).buffer = some (.string p) ∧
    (s.paramBindData i).strData = some p ∧ s.strings p = some text ∧ (s.paramBind i).length = some i ∧
    (s.paramBindData i).length = text.length ∧ (s.paramBind i).isNull = none

structure Held (s : Stmt) (i : Nat) (meaning : Meaning) : Prop where
  pointer : ∀ j, (s.paramBind i).isNull = some j → j = i
  carries : Carries s i meaning

theorem Held.denotes (held : Held s i meaning) : denotes s (s.paramBind i) = some meaning := by
  obtain ⟨pointer,carries⟩ := held
  cases meaning with
  | null =>
      have type : (s.paramBind i).bufferType = .null := carries
      rw [DbMysql.denotes,if_pos (.inl type)]
  | number type isUnsigned value =>
      obtain ⟨w,wide,typed,buffer,sign,present,reads⟩ := carries
      have known : type ≠ .null := fun same => by
        rw [same] at wide
        cases wide
      have flag : ¬ (s.paramBind i).isNull.any (fun j => (s.paramBindData j).isNull) := by
        cases indexed : (s.paramBind i).isNull with
        | none => simp
        | some j => simp [pointer j indexed,present]
      rw [DbMysql.denotes,if_neg (not_or.mpr ⟨by rw [typed]; exact known,flag⟩),buffer,typed,sign]
      simp only [wide,Option.map_some,reads]
  | string text =>
      obtain ⟨p,typed,buffer,_,content,length,size,plain⟩ := carries
      rw [DbMysql.denotes,if_neg (by simp [typed,plain]),buffer,typed,length]
      simp [content,size]

-- What a setter may do: it works on the records of one parameter. Of the strings
-- it frees that parameter's, and it may allocate one.
structure Changes (s next : Stmt) (i : Nat) : Prop where
  paramCount : next.paramCount = s.paramCount
  bind : ∀ j, j ≠ i → next.paramBind j = s.paramBind j
  data : ∀ j, j ≠ i → next.paramBindData j = s.paramBindData j
  strings : ∀ p, p < s.allocated → (s.paramBindData i).strData ≠ some p → next.strings p = s.strings p
  strData : ∀ p, (next.paramBindData i).strData = some p →
    (s.paramBindData i).strData = some p ∨ p = s.allocated ∧ next.allocated = s.allocated+1
  allocated : s.allocated ≤ next.allocated

namespace Changes

variable {s next : Stmt} {i : Nat}

theorem sound (changes : Changes s next i) (sound : Sound s) : Sound next := by
  have owned : ∀ j p, (next.paramBindData j).strData = some p →
      (s.paramBindData j).strData = some p ∨ j = i ∧ p = s.allocated ∧ next.allocated = s.allocated+1 := by
    intro j p held
    by_cases same : j = i
    · subst j
      exact (changes.strData p held).imp id fun new => ⟨rfl,new⟩
    · rw [changes.data j same] at held
      exact .inl held
  constructor
  · intro j k p one two
    rcases owned j p one with old | ⟨rfl,rfl,_⟩
    · rcases owned k p two with old' | ⟨_,rfl,_⟩
      · exact sound.single j k p old old'
      · exact absurd (sound.below j _ old) (Nat.lt_irrefl _)
    · rcases owned k s.allocated two with old' | ⟨rfl,_⟩
      · exact absurd (sound.below k _ old') (Nat.lt_irrefl _)
      · rfl
  · intro j p held
    rcases owned j p held with old | ⟨_,rfl,more⟩
    · exact Nat.lt_of_lt_of_le (sound.below j p old) changes.allocated
    · omega

theorem other (changes : Changes s next i) (sound : Sound s) (different : j ≠ i) (held : Held s j meaning) :
    Held next j meaning := by
  obtain ⟨pointer,carries⟩ := held
  refine ⟨by rw [changes.bind j different]; exact pointer,?_⟩
  cases meaning with
  | null => simpa only [Carries,changes.bind j different] using carries
  | number type isUnsigned value => simpa only [Carries,changes.bind j different,changes.data j different] using carries
  | string text =>
      obtain ⟨p,typed,buffer,own,content,rest⟩ := carries
      have apart : (s.paramBindData i).strData ≠ some p := fun both => different (sound.single j i p own both)
      have kept := changes.strings p (sound.below j p own) apart
      refine ⟨p,?_⟩
      rw [changes.bind j different,changes.data j different,kept]
      exact ⟨typed,buffer,own,content,rest⟩

end Changes

theorem free_strings (s : Stmt) (old : Option Nat) (apart : old ≠ some p) : (s.free old).strings p = s.strings p := by
  cases old with
  | none => rfl
  | some q => exact Function.update_of_ne (fun same => apart (congrArg some same.symm)) _ _

@[simp] theorem free_paramCount (s : Stmt) (old : Option Nat) : (s.free old).paramCount = s.paramCount := by
  cases old <;> rfl

@[simp] theorem free_paramBind (s : Stmt) (old : Option Nat) : (s.free old).paramBind = s.paramBind := by
  cases old <;> rfl

@[simp] theorem free_paramBindData (s : Stmt) (old : Option Nat) : (s.free old).paramBindData = s.paramBindData := by
  cases old <;> rfl

@[simp] theorem free_allocated (s : Stmt) (old : Option Nat) : (s.free old).allocated = s.allocated := by
  cases old <;> rfl

theorem clearParameter_spec (s : Stmt) (i : Nat) :
    Changes s (clearParameter s i) i ∧ Held (clearParameter s i) i .null := by
  constructor
  · constructor
    case paramCount => simp [clearParameter,Stmt.set]
    case bind => exact fun j different => by simp [clearParameter,Stmt.set,different]
    case data => exact fun j different => by simp [clearParameter,Stmt.set,different]
    case strings => exact fun p _ apart => free_strings s _ apart
    case strData => simp [clearParameter,Stmt.set]
    case allocated => simp [clearParameter,Stmt.set]
  · exact ⟨fun j indexed => by simpa [clearParameter,Stmt.set,eq_comm] using indexed,by simp [Carries,clearParameter,Stmt.set]⟩

theorem set_changes (s : Stmt) (i : Nat) (bind : MysqlBind) (data : BindData)
    (kept : data.strData = (s.paramBindData i).strData) : Changes s (s.set i bind data) i := by
  constructor
  case paramCount => rfl
  case bind => exact fun j different => Function.update_of_ne different _ _
  case data => exact fun j different => Function.update_of_ne different _ _
  case strings => exact fun _ _ _ => rfl
  case strData => exact fun p held => .inl (by simpa [Stmt.set,kept] using held)
  case allocated => exact Nat.le_refl _

theorem setNumber_spec (indexed : s.index parameterIndex = some i) (wide : width type = some w) (isUnsigned : Bool)
    (value : Int) (pointer : ∀ j, (s.paramBind i).isNull = some j → j = i) :
    Changes s (setNumber s parameterIndex type w isUnsigned value) i ∧
      Held (setNumber s parameterIndex type w isUnsigned value) i
        (.number type isUnsigned (readNumber (store (s.paramBindData i).union w value) isUnsigned w)) := by
  simp only [setNumber,indexed]
  constructor
  · exact set_changes s i _ _ rfl
  · refine ⟨fun j same => pointer j (by simpa [Stmt.set] using same),w,wide,?_⟩
    simp [Stmt.set]

theorem setString_spec (indexed : s.index parameterIndex = some i) (str : List UInt8) :
    Changes s (setString s parameterIndex str) i ∧ Held (setString s parameterIndex str) i (.string str) := by
  simp only [setString,indexed]
  constructor
  · constructor
    case paramCount => simp [Stmt.set]
    case bind => exact fun j different => by simp [Stmt.set,different]
    case data => exact fun j different => by simp [Stmt.set,different]
    case strings =>
      intro p below apart
      simp only [Stmt.set,free_allocated]
      rw [Function.update_of_ne (Nat.ne_of_lt below)]
      exact free_strings s _ apart
    case strData => exact fun p held => .inr (by simpa [Stmt.set,eq_comm] using held)
    case allocated => simp [Stmt.set]
  · refine ⟨fun j same => by simp [Stmt.set] at same,s.allocated,?_⟩
    simp [Stmt.set]

theorem setNull_spec (indexed : s.index parameterIndex = some i)
    (pointer : ∀ j, (s.paramBind i).isNull = some j → j = i) :
    Changes s (setNull s parameterIndex) i ∧ Held (setNull s parameterIndex) i .null := by
  simp only [setNull,indexed]
  constructor
  · exact set_changes s i _ _ rfl
  · exact ⟨fun j same => pointer j (by simpa [Stmt.set] using same),by simp [Carries,Stmt.set]⟩

theorem readNumber_signed (union : Memory) (w : Nat) (value : Int) (low : -((256 : Int)^w/2) ≤ value)
    (high : value < (256^w+1)/2) : readNumber (store union w value) false w = value := by
  have read := loadSigned_store union value (Nat.le_refl w)
  exact read.trans (Int.bmod_eq_of_le (by exact_mod_cast low) (by exact_mod_cast high))

theorem readNumber_unsigned (union : Memory) (w : Nat) (value : Nat) (high : value < 256^w) :
    readNumber (store union w value) true w = value := by
  have read := load_store union value (Nat.le_refl w)
  exact read.trans (Int.emod_eq_of_lt (Int.natCast_nonneg _) (by exact_mod_cast high))

theorem index_some {s : Stmt} (indexed : s.index n = some i) : n = i+1 ∧ i < s.paramCount := by
  unfold Stmt.index at indexed
  split at indexed
  · rename_i inside
    obtain rfl := Option.some.inj indexed
    omega
  · cases indexed

theorem index_none {s : Stmt} (indexed : s.index n = none) : ¬ (1 ≤ n ∧ n ≤ s.paramCount) := by
  unfold Stmt.index at indexed
  split at indexed
  · cases indexed
  · assumption

theorem lastSetting_concat (i : Nat) (settings : List Setting) (setting : Setting) :
    lastSetting i (settings ++ [setting]) =
      if setting.concerns i then setting.meaning else lastSetting i settings := by
  unfold lastSetting
  rw [List.filter_append]
  by_cases own : setting.concerns i
  · simp [own]
  · simp [own]

structure Valid (s : Stmt) (n : Nat) (settings : List Setting) : Prop where
  paramCount : s.paramCount = n
  sound : Sound s
  held : ∀ i < n, Held s i (lastSetting i settings)

theorem apply_setter (s : Stmt) (named : setting.parameterIndex = some n) :
    (s.index n = none → apply s setting = s) ∧
    ∀ i, s.index n = some i → (∀ j, (s.paramBind i).isNull = some j → j = i) →
      Changes s (apply s setting) i ∧ Held (apply s setting) i setting.meaning := by
  cases setting with
  | clearParameters => cases named
  | setNull parameterIndex =>
      cases named
      exact ⟨fun absent => by simp [apply,setNull,absent],fun i indexed pointer => setNull_spec indexed pointer⟩
  | setString parameterIndex str =>
      cases named
      exact ⟨fun absent => by simp [apply,setString,absent],fun i indexed _ => setString_spec indexed str⟩
  | setInt parameterIndex value =>
      cases named
      refine ⟨fun absent => by simp [apply,setInt,setNumber,absent],fun i indexed pointer => ?_⟩
      have spec := setNumber_spec indexed (show width .long = some 4 from rfl) false value.toInt pointer
      rwa [readNumber_signed _ _ _ value.le_toInt value.toInt_lt] at spec
  | setShort parameterIndex value =>
      cases named
      refine ⟨fun absent => by simp [apply,setShort,setNumber,absent],fun i indexed pointer => ?_⟩
      have spec := setNumber_spec indexed (show width .short = some 2 from rfl) false value.toInt pointer
      rwa [readNumber_signed _ _ _ value.le_toInt value.toInt_lt] at spec
  | setBigint parameterIndex value =>
      cases named
      refine ⟨fun absent => by simp [apply,setBigint,setNumber,absent],fun i indexed pointer => ?_⟩
      have spec := setNumber_spec indexed (show width .longlong = some 8 from rfl) false value.toInt pointer
      rwa [readNumber_signed _ _ _ value.le_toInt value.toInt_lt] at spec
  | setuInt parameterIndex value =>
      cases named
      refine ⟨fun absent => by simp [apply,setuInt,setNumber,absent],fun i indexed pointer => ?_⟩
      have spec := setNumber_spec indexed (show width .long = some 4 from rfl) true value.toNat pointer
      rwa [readNumber_unsigned _ _ _ value.toNat_lt] at spec
  | setuBigint parameterIndex value =>
      cases named
      refine ⟨fun absent => by simp [apply,setuBigint,setNumber,absent],fun i indexed pointer => ?_⟩
      have spec := setNumber_spec indexed (show width .longlong = some 8 from rfl) true value.toNat pointer
      rwa [readNumber_unsigned _ _ _ value.toNat_lt] at spec

theorem clearing_spec (todo : List Nat) (sound : Sound s) :
    (todo.foldl clearParameter s).paramCount = s.paramCount ∧ Sound (todo.foldl clearParameter s) ∧
      ∀ i, i ∈ todo ∨ Held s i .null → Held (todo.foldl clearParameter s) i .null := by
  induction todo generalizing s with
  | nil => exact ⟨rfl,sound,fun i held => held.resolve_left (by simp)⟩
  | cons e rest ih =>
      obtain ⟨changes,now⟩ := clearParameter_spec s e
      obtain ⟨count,after,held⟩ := ih (changes.sound sound)
      refine ⟨count.trans changes.paramCount,after,fun i either => held i ?_⟩
      by_cases own : i = e
      · exact .inr (own ▸ now)
      · refine either.imp (fun member => (List.mem_cons.mp member).resolve_left own) fun before => ?_
        exact changes.other sound own before

theorem clearParameters_spec (sound : Sound s) :
    (clearParameters s).paramCount = s.paramCount ∧ Sound (clearParameters s) ∧
      ∀ i < s.paramCount, Held (clearParameters s) i .null := by
  obtain ⟨count,after,held⟩ := clearing_spec (List.range s.paramCount) sound
  exact ⟨count,after,fun i below => held i (.inl (List.mem_range.mpr below))⟩

theorem createStatement_valid (n : Nat) : Valid (createStatement n) n [] := by
  have sound : Sound ⟨n,fun _ => .zero,fun _ => .zero,fun _ => none,0⟩ :=
    ⟨fun _ _ _ held => (by cases held),fun _ _ held => (by cases held)⟩
  obtain ⟨count,after,held⟩ := clearParameters_spec sound
  exact ⟨count,after,held⟩

theorem apply_valid (valid : Valid s n settings) (setting : Setting) :
    Valid (apply s setting) n (settings ++ [setting]) := by
  cases named : setting.parameterIndex with
  | none =>
      obtain rfl : setting = .clearParameters := by cases setting <;> first | rfl | cases named
      obtain ⟨count,sound,held⟩ := clearParameters_spec valid.sound
      refine ⟨count.trans valid.paramCount,sound,fun i below => ?_⟩
      rw [lastSetting_concat]
      exact held i (valid.paramCount ▸ below)
  | some index =>
      obtain ⟨ignored,changed⟩ := apply_setter s named
      have concerns : ∀ i, setting.concerns i = true ↔ index = i+1 := fun i => by simp [Setting.concerns,named]
      cases indexed : s.index index with
      | none =>
          rw [ignored indexed]
          refine ⟨valid.paramCount,valid.sound,fun i below => ?_⟩
          have outside : ¬ setting.concerns i = true := fun own => index_none indexed (by
            rw [(concerns i).mp own,valid.paramCount]
            omega)
          rw [lastSetting_concat,if_neg outside]
          exact valid.held i below
      | some i =>
          obtain ⟨rfl,inside⟩ := index_some indexed
          obtain ⟨changes,now⟩ := changed i indexed (valid.held i (valid.paramCount ▸ inside)).pointer
          refine ⟨changes.paramCount.trans valid.paramCount,changes.sound valid.sound,fun j below => ?_⟩
          rw [lastSetting_concat]
          by_cases own : j = i
          · subst j
            rw [if_pos ((concerns i).mpr rfl)]
            exact now
          · rw [if_neg fun other => own (by have := (concerns j).mp other; omega)]
            exact changes.other valid.sound own (valid.held j below)

theorem settings_valid (n : Nat) (settings : List Setting) :
    Valid (Machine.run apply (createStatement n) settings) n settings :=
  Machine.run_history (fun settings s => Valid s n settings) (createStatement_valid n)
    (fun _ setting valid _ => apply_valid valid setting) settings (Machine.along_true settings)

theorem Valid.bound (valid : Valid s n settings) :
    (boundParameters s).map (denotes s) = (List.range n).map fun i => some (lastSetting i settings) := by
  rw [boundParameters,valid.paramCount,List.map_map]
  exact List.map_congr_left fun i member => (valid.held i (List.mem_range.mp member)).denotes

-- Whatever was set before, each parameter is handed over as the last setter of
-- it after the last clear has left it. A setter out of range does nothing.
theorem last_setting_is_bound (n : Nat) (settings : List Setting) :
    let s := Machine.run apply (createStatement n) settings
    (boundParameters s).map (denotes s) = (List.range n).map (fun i => some (lastSetting i settings)) ∧
      ∀ (setting : Setting) (index : Int), setting.parameterIndex = some index → ¬ (1 ≤ index ∧ index ≤ n) → apply s setting = s := by
  intro s
  have valid : Valid s n settings := settings_valid n settings
  refine ⟨valid.bound,fun setting index named outside => ?_⟩
  cases indexed : s.index index with
  | none => exact (apply_setter s named).1 indexed
  | some i =>
      obtain ⟨rfl,inside⟩ := index_some indexed
      rw [valid.paramCount] at inside
      omega

-- A string is replaced by a number, and a number by NULL.
example : (List.range 2).map (fun i => lastSetting i
    [.setString 1 [97],.setInt 2 5,.setShort 1 7,.setNull 2,.setInt 3 1]) = [.number .short false 7,.null] := by decide

end TcpProxy.DbMysql
