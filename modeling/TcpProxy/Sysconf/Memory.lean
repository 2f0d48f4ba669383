import TcpProxy.Sysconf.Lists

namespace TcpProxy.Sysconf

-- struct sysconf_entry_t as it lies in memory. A pointer is none for NULL.
structure Record where
  key : Text
  entryType : EntryType
  ivalue : Int
  value : Option Text
  list : Option (List Int)
  slist : Option (List Text)
deriving DecidableEq, Repr

-- An entry in the record that malloc has handed out: a field that the
-- constructor did not assign is what it was.
def Entry.stored (entry : Entry) (fresh : Record) : Record :=
  ⟨entry.key,entry.entryType,entry.ivalue,entry.value.or fresh.value,entry.list.or fresh.list,
    entry.slist.or fresh.slist⟩

-- The list behind sysconf_root, when `fresh n` is what the call number n of
-- malloc has handed out.
def records (fresh : Nat → Record) : List Entry → List Record
  | [] => []
  | entry :: older => entry.stored (fresh older.length) :: records fresh older

namespace Memory

def sysconfPtr (root : List Record) (key : Text) : Option Record :=
  root.find? fun ptr => sameIgnoringCase key ptr.key

def sysconfStrOrDefault (root : List Record) (key : Text) (defaultValue : Option Text) : Option Text :=
  match sysconfPtr root key with
  | some ptr => ptr.value
  | none => defaultValue

def sysconfStr (root : List Record) (key : Text) : Option Text := sysconfStrOrDefault root key none

def sysconfIntOrDefault (root : List Record) (key : Text) (defaultValue : Int) : Int :=
  match sysconfPtr root key with
  | some ptr => ptr.ivalue
  | none => defaultValue

def dataType (root : List Record) (key : Text) : EntryType :=
  match sysconfPtr root key with
  | some ptr => ptr.entryType
  | none => .integerValue

def integerList (root : List Record) (key : Text) : Option (List Int) × Option Int :=
  match sysconfPtr root key with
  | some ptr => if ptr.entryType = .integerList then (ptr.list,some ptr.ivalue) else (none,none)
  | none => (none,none)

def stringList (root : List Record) (key : Text) : Option (List Text) × Option Int :=
  match sysconfPtr root key with
  | some ptr => if ptr.entryType = .stringList then (ptr.slist,some ptr.ivalue) else (none,none)
  | none => (none,none)

end Memory

structure Answers where
  str : Option Text
  strOrDefault : Option Text
  intOrDefault : Int
  dataType : EntryType
  stringList : Option (List Text) × Option Int
  integerList : Option (List Int) × Option Int
deriving DecidableEq, Repr

def answers (root : List Record) (key : Text) (text : Option Text) (number : Int) : Answers where
  str := Memory.sysconfStr root key
  strOrDefault := Memory.sysconfStrOrDefault root key text
  intOrDefault := Memory.sysconfIntOrDefault root key number
  dataType := Memory.dataType root key
  stringList := Memory.stringList root key
  integerList := Memory.integerList root key

-- Two runs on one text differ in what malloc left behind only.
def TextOnly (c : Config) (key : Text) : Prop :=
  ∀ fresh fresh' text number,
    answers (records fresh c.sysconfRoot) key text number = answers (records fresh' c.sysconfRoot) key text number

variable {input : Text} {c : Config} {ds : List Definition} {d : Definition}

theorem sysconfPtr_records (root : List Entry) (key : Text) :
    ∃ n, ∀ fresh, Memory.sysconfPtr (records fresh root) key =
      (root.find? fun entry => sameIgnoringCase key entry.key).map fun entry => entry.stored (fresh n) := by
  induction root with
  | nil => exact ⟨0,fun _ => rfl⟩
  | cons entry older ih =>
      obtain ⟨n,found⟩ := ih
      by_cases same : sameIgnoringCase key entry.key
      · refine ⟨older.length,fun fresh => ?_⟩
        simp [records,Memory.sysconfPtr,Entry.stored,same]
      · refine ⟨n,fun fresh => ?_⟩
        have later := found fresh
        rw [Memory.sysconfPtr] at later ⊢
        simpa [records,Entry.stored,same] using later

-- Where the accessor of the configuration has a result, it is that of the
-- memory, whatever malloc has left there.
theorem sysconfStrOrDefault_records (c : Config) (key : Text) (given : Option Text)
    (determined : sysconfStrOrDefault c key given = some result) (fresh : Nat → Record) :
    Memory.sysconfStrOrDefault (records fresh c.sysconfRoot) key given = result := by
  obtain ⟨n,found⟩ := sysconfPtr_records c.sysconfRoot key
  have ptr : Memory.sysconfPtr (records fresh c.sysconfRoot) key =
    (sysconfPtr c key).map fun entry => entry.stored (fresh n) := found fresh
  rw [sysconfStrOrDefault] at determined
  rw [Memory.sysconfStrOrDefault,ptr]
  cases entryAt : sysconfPtr c key with
  | none =>
      rw [entryAt] at determined
      exact Option.some.inj determined
  | some entry =>
      rw [entryAt] at determined
      obtain ⟨text,value,rfl⟩ := Option.map_eq_some_iff.mp determined
      simp [Entry.stored,value]

-- What the constructors have assigned: a text unless it is a list, and of the
-- two lists the one of the type.
structure Entry.Assigned (entry : Entry) (list : Bool) : Prop where
  value : entry.value.isSome = !list
  integers : entry.entryType = .integerList → entry.list.isSome
  strings : entry.entryType = .stringList → entry.slist.isSome

theorem entered_assigned (lexed : d.Lexed) (entered : d.entered = some entry) : entry.Assigned d.value.isList := by
  rcases entered_cases lexed entered with ⟨scalar,_,_,_,noInts,noStrings,_,_,rfl⟩ | ⟨list,_,_,rfl⟩ | ⟨list,_,_,rfl⟩
  · exact ⟨by rw [scalar]; rfl,fun isList => absurd isList noInts,fun isList => absurd isList noStrings⟩
  · exact ⟨by rw [list]; rfl,fun _ => rfl,by simp⟩
  · exact ⟨by rw [list]; rfl,by simp,fun _ => rfl⟩

theorem textOnly_scalar (c : Config) (key : Text)
    (assigned : ∀ entry, sysconfPtr c key = some entry → entry.Assigned false) : TextOnly c key := by
  intro fresh fresh' text number
  obtain ⟨n,found⟩ := sysconfPtr_records c.sysconfRoot key
  have one : Memory.sysconfPtr (records fresh c.sysconfRoot) key =
    (sysconfPtr c key).map fun entry => entry.stored (fresh n) := found fresh
  have two : Memory.sysconfPtr (records fresh' c.sysconfRoot) key =
    (sysconfPtr c key).map fun entry => entry.stored (fresh' n) := found fresh'
  have determined : ∀ given, (sysconfStrOrDefault c key given).isSome := by
    intro given
    rw [sysconfStrOrDefault]
    cases entryAt : sysconfPtr c key with
    | none => rfl
    | some entry => simpa using (assigned entry entryAt).value
  have same : ∀ given, Memory.sysconfStrOrDefault (records fresh c.sysconfRoot) key given =
      Memory.sysconfStrOrDefault (records fresh' c.sysconfRoot) key given := by
    intro given
    obtain ⟨result,place⟩ := Option.isSome_iff_exists.mp (determined given)
    rw [sysconfStrOrDefault_records c key given place fresh,sysconfStrOrDefault_records c key given place fresh']
  simp only [answers,Memory.sysconfStr,same,Memory.sysconfIntOrDefault,Memory.dataType,Memory.stringList,
    Memory.integerList,one,two]
  cases entryAt : sysconfPtr c key with
  | none => rfl
  | some entry =>
      obtain ⟨_,integers,strings⟩ := assigned entry entryAt
      simp only [Option.map_some,Entry.stored,Answers.mk.injEq,true_and]
      refine ⟨?_,?_⟩
      · split
        · next isList =>
            obtain ⟨list,place⟩ := Option.isSome_iff_exists.mp (strings isList)
            simp [place]
        · rfl
      · split
        · next isList =>
            obtain ⟨list,place⟩ := Option.isSome_iff_exists.mp (integers isList)
            simp [place]
        · rfl

theorem str_list (assigned : Entry.Assigned entry true) (found : sysconfPtr c key = some entry) (text : Option Text) :
    ∃ fresh, Memory.sysconfStr (records fresh c.sysconfRoot) key = text := by
  obtain ⟨n,ptr⟩ := sysconfPtr_records c.sysconfRoot key
  refine ⟨fun _ => ⟨[],.integerValue,0,text,none,none⟩,?_⟩
  have unassigned : entry.value = none := by simpa using assigned.value
  rw [Memory.sysconfStr,Memory.sysconfStrOrDefault,ptr]
  rw [show c.sysconfRoot.find? (fun entry => sameIgnoringCase key entry.key) = some entry from found]
  simp [Entry.stored,unassigned]

-- What the accessors say is in the text, and str of a list is NULL, exactly
-- for the keys whose last definition is no list.
theorem accessors_text_only_iff (accepted : yyparse input = some c) (reads : Reads input ds) (key : Text) :
    (TextOnly c key ∧ ∀ d, lastDefinition ds key = some d → d.value.isList = true →
      ∀ fresh, Memory.sysconfStr (records fresh c.sysconfRoot) key = none) ↔
    ∀ d, lastDefinition ds key = some d → d.value.isList = false := by
  have ptr := sysconfPtr_accepted accepted reads key
  have each : ∀ d, lastDefinition ds key = some d → ∃ entry, sysconfPtr c key = some entry ∧
      entry.Assigned d.value.isList := by
    intro d last
    have member := lastDefinition_mem last
    obtain ⟨entry,entered⟩ := accepted_entered accepted reads member
    rw [last,Option.bind_some,entered] at ptr
    exact ⟨entry,ptr,entered_assigned (visible_lexed input ds reads d member) entered⟩
  constructor
  · intro ⟨_,null⟩ d last
    cases list : d.value.isList with
    | false => rfl
    | true =>
        obtain ⟨entry,found,assigned⟩ := each d last
        rw [list] at assigned
        obtain ⟨fresh,given⟩ := str_list assigned found (some [])
        rw [null d last list fresh] at given
        cases given
  · intro scalar
    refine ⟨textOnly_scalar c key fun entry found => ?_,fun d last list => ?_⟩
    · rw [ptr] at found
      obtain ⟨d,last,_⟩ := Option.bind_eq_some_iff.mp found
      obtain ⟨entry',found',assigned⟩ := each d last
      rw [ptr] at found'
      obtain rfl := Option.some.inj (found.symm.trans found')
      rwa [scalar d last] at assigned
    · rw [scalar d last] at list
      cases list

-- log-file=["x"];Log-File="y";
theorem accessors_text_only_iff_shadowed :
    ∃ c, yyparse [108,111,103,45,102,105,108,101,61,91,34,120,34,93,59,
      76,111,103,45,70,105,108,101,61,34,121,34,59] = some c ∧ TextOnly c [108,111,103,45,102,105,108,101] := by
  have parsed : (yyparse [108,111,103,45,102,105,108,101,61,91,34,120,34,93,59,
      76,111,103,45,70,105,108,101,61,34,121,34,59]).isSome := by decide +kernel
  obtain ⟨c,accepted⟩ := Option.isSome_iff_exists.mp parsed
  have reads : Reads [108,111,103,45,102,105,108,101,61,91,34,120,34,93,59,
      76,111,103,45,70,105,108,101,61,34,121,34,59]
      [⟨[108,111,103,45,102,105,108,101],.strings [34,120,34] []⟩,
        ⟨[76,111,103,45,70,105,108,101],.string [34,121,34]⟩] := by
    show visible (tokens _) = _
    decide +kernel
  refine ⟨c,accepted,((accessors_text_only_iff accepted reads _).mpr ?_).1⟩
  intro d last
  obtain rfl : (⟨[76,111,103,45,70,105,108,101],.string [34,121,34]⟩ : Definition) = d :=
    Option.some.inj (Eq.trans (by decide) last)
  rfl

-- log-file=["x"]; and str of log-file is any text that was in the memory.
theorem str_of_list_reads_garbage :
    ∃ c, yyparse [108,111,103,45,102,105,108,101,61,91,34,120,34,93,59] = some c ∧
      (∃ fresh, Memory.sysconfStr (records fresh c.sysconfRoot) [108,111,103,45,102,105,108,101] = some [120]) ∧
      ¬ TextOnly c [108,111,103,45,102,105,108,101] := by
  have parsed : yyparse [108,111,103,45,102,105,108,101,61,91,34,120,34,93,59] =
      some ⟨[⟨[108,111,103,45,102,105,108,101],.stringList,1,none,none,some [[120]]⟩],.uninitializedStack,[]⟩ := by
    decide +kernel
  refine ⟨_,parsed,⟨fun _ => ⟨[],.integerValue,0,some [120],none,none⟩,by decide⟩,fun same => ?_⟩
  have equal := congrArg Answers.str (same (fun _ => ⟨[],.integerValue,0,some [120],none,none⟩)
    (fun _ => ⟨[],.integerValue,0,none,none,none⟩) none 0)
  exact absurd equal (by decide)

end TcpProxy.Sysconf
