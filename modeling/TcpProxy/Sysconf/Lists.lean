import TcpProxy.Sysconf.Accepted

namespace TcpProxy.Sysconf

variable {input : Text} {c : Config} {ds : List Definition} {d : Definition}

def ListKept (c : Config) (key : Text) : Value → Prop
  | .numbers first more =>
    integerList c key = some ((first :: more).map fun digits => (number digits : Int),((first :: more).length : Int))
  | .strings first more => stringList c key = some ((first :: more).map unquote,((first :: more).length : Int))
  | _ => True

def Value.listFits : Value → Prop
  | .numbers first more => (first :: more).length ≤ maxIntStkLen ∧ ∀ digits ∈ first :: more, fitsInt digits
  | .strings first more => (first :: more).length ≤ maxIntStkLen ∧ ∀ quoted ∈ first :: more, 0 ∉ quoted
  | _ => True

theorem entered_numbers (lexed : (⟨key,.numbers first more⟩ : Definition).Lexed) :
    (⟨key,.numbers first more⟩ : Definition).entered =
      some ⟨key,.integerList,(kept (first :: more)).length,none,
        some ((kept (first :: more)).map fun text => atoi (strdup text)),none⟩ := by
  simp [Definition.entered,strdup_eq key (identifier_plain lexed.key)]

theorem entered_strings (lexed : (⟨key,.strings first more⟩ : Definition).Lexed)
    (entered : (⟨key,.strings first more⟩ : Definition).entered = some entry) :
    ∃ list, entry = ⟨key,.stringList,list.length,none,none,some list⟩ := by
  obtain ⟨list,_,rfl⟩ := Option.map_eq_some_iff.mp entered
  exact ⟨list,by rw [strdup_eq key (identifier_plain lexed.key)]⟩

-- Whatever other lists stand in the file: a list comes back as it was written
-- exactly if it fits.
theorem lists_kept_whole_iff (accepted : yyparse input = some c) (reads : Reads input ds)
    (last : lastDefinition ds key = some d) : ListKept c key d.value ↔ d.value.listFits := by
  have member := lastDefinition_mem last
  have lexed := visible_lexed input ds reads d member
  have ptr := sysconfPtr_accepted accepted reads key
  obtain ⟨entry,entered⟩ := accepted_entered accepted reads member
  rw [last,Option.bind_some,entered] at ptr
  have precise := entered_iff d lexed
  obtain ⟨name,value⟩ := d
  cases value with
  | number digits => exact Iff.rfl
  | string quoted => exact Iff.rfl
  | flag on => exact Iff.rfl
  | numbers first more =>
      refine Iff.trans ?_ precise
      rw [entered_numbers lexed] at entered ⊢
      cases entered
      simp [ListKept,integerList,ptr,Definition.entry,and_comm]
  | strings first more =>
      refine Iff.trans ?_ precise
      obtain ⟨list,rfl⟩ := entered_strings lexed entered
      rw [entered]
      simp [ListKept,stringList,ptr,Definition.entry,and_comm]

-- a=["x","y"];b=[1];
theorem lists_kept_whole_iff_two_lists :
    ∃ c, yyparse [97,61,91,34,120,34,44,34,121,34,93,59,98,61,91,49,93,59] = some c ∧
      stringList c [65] = some ([[120],[121]],2) ∧ integerList c [98] = some ([1],1) := by
  have parsed : (yyparse [97,61,91,34,120,34,44,34,121,34,93,59,98,61,91,49,93,59]).isSome := by decide +kernel
  obtain ⟨c,accepted⟩ := Option.isSome_iff_exists.mp parsed
  have reads : Reads [97,61,91,34,120,34,44,34,121,34,93,59,98,61,91,49,93,59]
      [⟨[97],.strings [34,120,34] [[34,121,34]]⟩,⟨[98],.numbers [49] []⟩] := by
    show visible (tokens _) = _
    decide +kernel
  refine ⟨c,accepted,?_,?_⟩
  · exact (@lists_kept_whole_iff _ _ _ ⟨[97],.strings [34,120,34] [[34,121,34]]⟩ [65] accepted reads (by decide)).mpr
      ⟨by decide,by simp⟩
  · exact (@lists_kept_whole_iff _ _ _ ⟨[98],.numbers [49] []⟩ [98] accepted reads (by decide)).mpr
      ⟨by decide,by decide⟩

def longList : Text := [97,61,91,49] ++ (List.replicate 64 [44,50]).flatten ++ [93,59]

-- The first of 65 numbers is gone, and the others have moved up.
theorem long_list_loses_its_head : ∃ c, yyparse longList = some c ∧
    Reads longList [⟨[97],.numbers [49] (List.replicate 64 [50])⟩] ∧
    integerList c [97] = some (List.replicate 64 2,64) ∧
    ¬ ListKept c [97] (.numbers [49] (List.replicate 64 [50])) := by
  have parsed : (yyparse longList).map (fun c => integerList c [97]) = some (some (List.replicate 64 2,64)) := by
    decide +kernel
  obtain ⟨c,accepted,list⟩ := Option.map_eq_some_iff.mp parsed
  refine ⟨c,accepted,?_,list,?_⟩
  · show visible (tokens _) = _
    decide +kernel
  · intro whole
    have same := list.symm.trans whole
    simp at same

end TcpProxy.Sysconf
