import TcpProxy.Sysconf.Lexer

namespace TcpProxy.Sysconf

inductive EntryType where
  | integerList
  | stringList
  | integerValue
  | stringValue
  | booleanValue
deriving DecidableEq, Repr

-- A field that malloc left as it was is none.
structure Entry where
  key : Text
  entryType : EntryType
  ivalue : Int
  value : Option Text
  list : Option (List Int)
  slist : Option (List Text)
deriving DecidableEq, Repr

inductive StackType where
  | integerStack
  | stringStack
  | uninitializedStack
deriving DecidableEq, Repr

inductive GenericStack where
  | intval (n : Int)
  | str (text : Text)
deriving DecidableEq, Repr

def GenericStack.intval? : GenericStack → Option Int
  | .intval n => some n
  | .str _ => none

def GenericStack.str? : GenericStack → Option Text
  | .intval _ => none
  | .str text => some text

-- The list of entries, the newest first, and the stack from its top.
structure Config where
  sysconfRoot : List Entry
  stackType : StackType
  stk : List GenericStack
deriving DecidableEq, Repr

def literal (s : String) : Text := s.toList.map fun c => UInt8.ofNat c.toNat

def Config.new : Config := ⟨[],.uninitializedStack,[]⟩

def maxIntStkLen : Nat := 64

-- A copy of the bytes in front of the first NUL.
def strdup (bytes : Text) : Text := bytes.takeWhile (· != 0)

-- The number of a string of digits, as strtol reads it.
def number (digits : Text) : Nat := digits.foldl (fun n c => 10*n + (c.toNat-48)) 0

-- (int) strtol: a number that is too large for a long is LONG_MAX.
def atoi (digits : Text) : Int := toInt32 (min (number digits) (2^63-1))

-- A lone quote is both the first and the last byte, and the length of the
-- memcpy is then -1. Without a result the program does not go on.
def dupQuotedString (qst : Text) : Option Text :=
  if qst.head? = some 34 ∧ qst.getLast? = some 34 then
    if qst.length < 2 then none else some ((qst.drop 1).take (qst.length-2))
  else some qst

def push (c : Config) (entry : Entry) : Config := {c with sysconfRoot := entry :: c.sysconfRoot}

def stringEntry (entry value : Text) : Option Entry :=
  if value.head? = some 34 then (dupQuotedString value).map fun text => ⟨entry,.stringValue,-1,some text,none,none⟩
  else some ⟨entry,.stringValue,-1,some value,none,none⟩

def addentryString (c : Config) (entry value : Text) : Option Config := (stringEntry entry value).map (push c)

-- addentry_integer and addentry_flag_* change the entry of addentry_string.
def addentryInteger (c : Config) (entry value : Text) : Option Config :=
  (stringEntry entry value).map fun ptr => push c {ptr with ivalue := atoi value,entryType := .integerValue}

def addentryFlagOn (c : Config) (entry : Text) : Option Config :=
  (stringEntry entry [111,110]).map fun ptr => push c {ptr with ivalue := 1,entryType := .booleanValue}

def addentryFlagOff (c : Config) (entry : Text) : Option Config :=
  (stringEntry entry [111,102,102]).map fun ptr => push c {ptr with ivalue := 0,entryType := .booleanValue}

def addentryIntList (c : Config) (entry : Text) (list : List Int) (len : Int) : Config :=
  push c ⟨entry,.integerList,len,none,some list,none⟩

def addentryStringList (c : Config) (entry : Text) (list : List Text) (len : Int) : Config :=
  push c ⟨entry,.stringList,len,none,none,some list⟩

-- list[i] is stk[sp-i-1]: the top of the stack comes first.
def addPreparedList (c : Config) (entry : Text) : Option Config := do
  let added ← match c.stackType with
    | .integerStack => (c.stk.mapM GenericStack.intval?).map fun list => addentryIntList c entry list c.stk.length
    | .stringStack => (c.stk.mapM GenericStack.str?).map fun list => addentryStringList c entry list c.stk.length
    | .uninitializedStack => some c
  some {added with stk := [],stackType := .uninitializedStack}

def setListAsInteger (c : Config) : Config := {c with stackType := .integerStack}

def setListAsString (c : Config) : Config := {c with stackType := .stringStack}

def listAppendInt (c : Config) (entry : Text) : Config :=
  if c.stk.length < maxIntStkLen then {c with stk := .intval (atoi entry) :: c.stk} else c

def listAppendStr (c : Config) (entry : Text) : Option Config :=
  if c.stk.length < maxIntStkLen then (dupQuotedString entry).map fun text => {c with stk := .str text :: c.stk}
  else some c

def tolower (c : UInt8) : UInt8 := if 65 ≤ c ∧ c ≤ 90 then c+32 else c

-- strcasecmp (...) == 0
def sameIgnoringCase (one two : Text) : Prop := one.map tolower = two.map tolower

instance (one two : Text) : Decidable (sameIgnoringCase one two) := inferInstanceAs (Decidable (_ = _))

def sysconfPtr (c : Config) (key : Text) : Option Entry :=
  c.sysconfRoot.find? fun entry => sameIgnoringCase key entry.key

-- A pointer is none for NULL. Where the entry has no value, what is returned
-- is not determined.
def sysconfStrOrDefault (c : Config) (key : Text) (defaultValue : Option Text) : Option (Option Text) :=
  match sysconfPtr c key with
  | some ptr => ptr.value.map some
  | none => some defaultValue

def sysconfStr (c : Config) (key : Text) : Option (Option Text) := sysconfStrOrDefault c key none

def sysconfIntOrDefault (c : Config) (key : Text) (defaultValue : Int) : Int :=
  match sysconfPtr c key with
  | some ptr => ptr.ivalue
  | none => defaultValue

def dataType (c : Config) (key : Text) : EntryType :=
  match sysconfPtr c key with
  | some ptr => ptr.entryType
  | none => .integerValue

def integerList (c : Config) (key : Text) : Option (List Int × Int) := do
  let ptr ← sysconfPtr c key
  if ptr.entryType = .integerList then ptr.list.map (·,ptr.ivalue) else none

def stringList (c : Config) (key : Text) : Option (List Text × Int) := do
  let ptr ← sysconfPtr c key
  if ptr.entryType = .stringList then ptr.slist.map (·,ptr.ivalue) else none

end TcpProxy.Sysconf
