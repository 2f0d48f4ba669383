import TcpProxy.Sysconf.RoundTrip

namespace TcpProxy.Sysconf

variable {input : Text} {c : Config} {ds : List Definition} {d : Definition}

-- The definitions that the parser has read when it returned 0.
def Reads (input : Text) (ds : List Definition) : Prop := visible (tokens input) = ds.flatMap Definition.tokens

theorem reads_unique (one : Reads input ds) (two : Reads input ds') : ds = ds' :=
  definitions_unique ds ds' (one.symm.trans two)

theorem accepted_reads (accepted : yyparse input = some c) : ∃ ds, Reads input ds := by
  obtain ⟨ds,_,_,same,_⟩ := (yyparse_iff input c).mp accepted
  exact ⟨ds,same⟩

def Value.isList : Value → Bool
  | .numbers _ _ | .strings _ _ => true
  | _ => false

theorem entered_cases (lexed : d.Lexed) (entered : d.entered = some entry) :
    (d.value.isList = false ∧ ∃ type n text, type ≠ .integerList ∧ type ≠ .stringList ∧ -2^31 ≤ n ∧ n < 2^31 ∧
      entry = ⟨d.key,type,n,some text,none,none⟩) ∨
    (d.value.isList = true ∧ ∃ list : List Int, list.length ≤ maxIntStkLen ∧
      entry = ⟨d.key,.integerList,list.length,none,some list,none⟩) ∨
    (d.value.isList = true ∧ ∃ list : List Text, list.length ≤ maxIntStkLen ∧
      entry = ⟨d.key,.stringList,list.length,none,none,some list⟩) := by
  obtain ⟨key,value⟩ := d
  have plain := strdup_eq key (identifier_plain lexed.key)
  unfold Definition.entered at entered
  dsimp only at entered
  rw [plain] at entered
  cases value with
  | number digits =>
      dsimp only at entered
      rw [stringEntry_digits _ (lexed.value _ List.mem_cons_self)] at entered
      cases entered
      exact .inl ⟨rfl,_,_,_,by decide,by decide,le_toInt32 _,toInt32_lt _,rfl⟩
  | string quoted =>
      dsimp only at entered
      rw [stringEntry_quoted _ (lexed.value _ List.mem_cons_self)] at entered
      obtain ⟨text,_,rfl⟩ := Option.map_eq_some_iff.mp entered
      exact .inl ⟨rfl,_,_,_,by decide,by decide,by decide,by decide,rfl⟩
  | flag on =>
      cases on with
      | false =>
          cases entered
          exact .inl ⟨rfl,_,_,_,by decide,by decide,by decide,by decide,rfl⟩
      | true =>
          cases entered
          exact .inl ⟨rfl,_,_,_,by decide,by decide,by decide,by decide,rfl⟩
  | numbers first more =>
      cases entered
      refine .inr (.inl ⟨rfl,_,?_,rfl⟩)
      rw [List.length_map,kept_length]
      exact Nat.min_le_left _ _
  | strings first more =>
      obtain ⟨list,copied,rfl⟩ := Option.map_eq_some_iff.mp entered
      refine .inr (.inr ⟨rfl,list,?_,rfl⟩)
      rw [mapM_length _ _ _ copied,kept_length]
      exact Nat.min_le_left _ _

theorem entered_key (lexed : d.Lexed) (entered : d.entered = some entry) : entry.key = d.key := by
  rcases entered_cases lexed entered with ⟨_,_,_,_,_,_,_,_,rfl⟩ | ⟨_,_,_,rfl⟩ | ⟨_,_,_,rfl⟩
  · rfl
  · rfl
  · rfl

theorem entered_int (lexed : d.Lexed) (entered : d.entered = some entry) :
    -2^31 ≤ entry.ivalue ∧ entry.ivalue < 2^31 := by
  rcases entered_cases lexed entered with ⟨_,_,_,_,_,_,low,high,rfl⟩ | ⟨_,list,short,rfl⟩ | ⟨_,list,short,rfl⟩
  · exact ⟨low,high⟩
  · rw [maxIntStkLen] at short
    dsimp only
    omega
  · rw [maxIntStkLen] at short
    dsimp only
    omega

theorem find_entered {entries : List Entry} (entered : ds.map Definition.entered = entries.map some) (lexed : ∀ d ∈ ds, d.Lexed) (key : Text) :
    entries.find? (fun entry => sameIgnoringCase key entry.key) =
      (ds.find? fun d => sameIgnoringCase key d.key).bind Definition.entered := by
  induction ds generalizing entries with
  | nil =>
      obtain rfl : entries = [] := by simpa using entered
      rfl
  | cons d rest ih =>
      cases entries with
      | nil => simp at entered
      | cons entry later =>
          obtain ⟨first,others⟩ := List.cons.inj entered
          have same := entered_key (lexed d List.mem_cons_self) first
          rw [List.find?_cons,List.find?_cons,same]
          cases decide (sameIgnoringCase key d.key) with
          | true => simp [first]
          | false => exact ih others fun d member => lexed d (List.mem_cons_of_mem _ member)

theorem sysconfPtr_accepted (accepted : yyparse input = some c) (reads : Reads input ds) (key : Text) :
    sysconfPtr c key = (lastDefinition ds key).bind Definition.entered := by
  obtain ⟨ds',entries,_,same,entered,rfl⟩ := (yyparse_iff input c).mp accepted
  obtain rfl := reads_unique reads same
  have lexed := visible_lexed input ds reads
  refine find_entered ?_ (fun d member => lexed d (List.mem_reverse.mp member)) key
  rw [List.map_reverse,List.map_reverse,(mapM_eq_some_iff _ _ _).mp entered]

theorem accepted_entered (accepted : yyparse input = some c) (reads : Reads input ds) (member : d ∈ ds) :
    ∃ entry, d.entered = some entry := by
  obtain ⟨ds',entries,_,same,entered,_⟩ := (yyparse_iff input c).mp accepted
  obtain rfl := reads_unique reads same
  refine Option.ne_none_iff_exists'.mp fun failed => ?_
  rw [(mapM_none_iff _ ds).mpr ⟨d,member,failed⟩] at entered
  cases entered

theorem lastDefinition_mem (last : lastDefinition ds key = some d) : d ∈ ds :=
  List.mem_reverse.mp (List.mem_of_find?_eq_some last)

-- int_or_default answers an int, and any int can be written into the file.
theorem sysconfIntOrDefault_int (accepted : yyparse input = some c) (key : Text) (low : -2^31 ≤ given)
    (high : given < 2^31) : -2^31 ≤ sysconfIntOrDefault c key given ∧ sysconfIntOrDefault c key given < 2^31 := by
  obtain ⟨ds,reads⟩ := accepted_reads accepted
  have ptr := sysconfPtr_accepted accepted reads key
  rw [sysconfIntOrDefault]
  cases last : lastDefinition ds key with
  | none =>
      rw [ptr,last]
      exact ⟨low,high⟩
  | some d =>
      have member := lastDefinition_mem last
      obtain ⟨entry,entered⟩ := accepted_entered accepted reads member
      rw [ptr,last,Option.bind_some,entered]
      exact entered_int (visible_lexed input ds reads d member) entered

def Value.isStrings : Value → Bool
  | .strings _ _ => true
  | _ => false

theorem entered_strings_iff (entered : d.entered = some entry) :
    entry.entryType = .stringList ↔ d.value.isStrings = true := by
  obtain ⟨key,value⟩ := d
  cases value with
  | number digits =>
      obtain ⟨_,_,rfl⟩ := Option.map_eq_some_iff.mp entered
      simp [Value.isStrings]
  | string quoted =>
      simp only [Definition.entered,stringEntry] at entered
      split at entered
      · obtain ⟨_,_,rfl⟩ := Option.map_eq_some_iff.mp entered
        simp [Value.isStrings]
      · cases entered
        simp [Value.isStrings]
  | flag on =>
      cases on with
      | false => cases entered; simp [Value.isStrings]
      | true => cases entered; simp [Value.isStrings]
  | numbers first more => cases entered; simp [Value.isStrings]
  | strings first more =>
      obtain ⟨_,_,rfl⟩ := Option.map_eq_some_iff.mp entered
      simp [Value.isStrings]

-- string_list gives a list, and never an empty one, for a key whose last
-- definition is a list of strings, and NULL for any other.
theorem stringList_strings (accepted : yyparse input = some c) (reads : Reads input ds)
    (last : lastDefinition ds key = some d) (isStrings : d.value.isStrings = true) :
    ∃ list, list ≠ [] ∧ stringList c key = some (list,(list.length : Int)) := by
  have ptr := sysconfPtr_accepted accepted reads key
  obtain ⟨entry,entered⟩ := accepted_entered accepted reads (lastDefinition_mem last)
  rw [last,Option.bind_some,entered] at ptr
  obtain ⟨name,value⟩ := d
  cases value with
  | strings first more =>
      obtain ⟨list,copied,rfl⟩ := Option.map_eq_some_iff.mp entered
      refine ⟨list,?_,by simp [stringList,ptr]⟩
      have length := mapM_length _ _ _ copied
      rw [kept_length,maxIntStkLen,List.length_cons] at length
      exact List.ne_nil_of_length_pos (by omega)
  | _ => cases isStrings

theorem stringList_other (accepted : yyparse input = some c) (reads : Reads input ds)
    (other : ∀ d, lastDefinition ds key = some d → d.value.isStrings = false) : stringList c key = none := by
  have ptr := sysconfPtr_accepted accepted reads key
  cases last : lastDefinition ds key with
  | none =>
      rw [last] at ptr
      simp [stringList,ptr]
  | some d =>
      obtain ⟨entry,entered⟩ := accepted_entered accepted reads (lastDefinition_mem last)
      rw [last,Option.bind_some,entered] at ptr
      simp [stringList,ptr,entered_strings_iff entered,other d last]

end TcpProxy.Sysconf
