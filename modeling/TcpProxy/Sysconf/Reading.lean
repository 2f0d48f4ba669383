import TcpProxy.Sysconf.Parser

namespace TcpProxy.Sysconf

theorem mapM_eq_some_iff (f : α → Option β) (items : List α) (results : List β) :
    items.mapM f = some results ↔ items.map f = results.map some := by
  induction items generalizing results with
  | nil =>
      cases results with
      | nil => simp
      | cons result rest => simp
  | cons item items ih =>
      cases results with
      | nil =>
          simp [Option.bind_eq_some_iff]
      | cons result rest =>
          simp [Option.bind_eq_some_iff,ih]

theorem mapM_map_iff (f : α → Option β) (g : α → β) (items : List α) :
    items.mapM f = some (items.map g) ↔ ∀ item ∈ items, f item = some (g item) := by
  rw [mapM_eq_some_iff,List.map_map]
  exact List.map_inj_left

theorem mapM_none_iff (f : α → Option β) (items : List α) : items.mapM f = none ↔ ∃ item ∈ items, f item = none := by
  induction items with
  | nil => simp
  | cons item items ih =>
      cases first : f item with
      | none => simp [first]
      | some result =>
          cases later : items.mapM f with
          | none => simpa [first,later] using ih.mp later
          | some results => simpa [first,later] using ih

theorem mapM_length (f : α → Option β) (items : List α) (results : List β) (done : items.mapM f = some results) :
    results.length = items.length := by
  have same := congrArg List.length ((mapM_eq_some_iff f items results).mp done)
  simpa using same.symm

-- The texts that are on the stack when the list is made: appending stops at
-- 64, and starts with the last text.
def kept (texts : List Text) : List Text := texts.drop (texts.length - maxIntStkLen)

theorem kept_length (texts : List Text) : (kept texts).length = min maxIntStkLen texts.length := by
  rw [kept,List.length_drop]
  omega

theorem kept_cons (text : Text) (texts : List Text) :
    kept (text :: texts) = if (kept texts).length < maxIntStkLen then text :: kept texts else kept texts := by
  rw [kept_length]
  simp only [kept,List.length_cons]
  by_cases short : texts.length < maxIntStkLen
  · have whole : texts.length+1-maxIntStkLen = 0 := by omega
    have rest : texts.length-maxIntStkLen = 0 := by omega
    rw [if_pos (by omega),whole,rest]
    rfl
  · have next : texts.length+1-maxIntStkLen = texts.length-maxIntStkLen+1 := by omega
    rw [if_neg (by omega),next,List.drop_succ_cons]

theorem kept_short (texts : List Text) (short : texts.length ≤ maxIntStkLen) : kept texts = texts := by
  have whole : texts.length - maxIntStkLen = 0 := by omega
  rw [kept,whole,List.drop_zero]

def Definition.entered (d : Definition) : Option Entry :=
  match d.value with
  | .number digits => (stringEntry (strdup d.key) (strdup digits)).map fun ptr =>
      {ptr with ivalue := atoi (strdup digits),entryType := .integerValue}
  | .string quoted => stringEntry (strdup d.key) (strdup quoted)
  | .flag true => some ⟨strdup d.key,.booleanValue,1,some [111,110],none,none⟩
  | .flag false => some ⟨strdup d.key,.booleanValue,0,some [111,102,102],none,none⟩
  | .numbers first more =>
    let list := (kept (first :: more)).map fun text => atoi (strdup text)
    some ⟨strdup d.key,.integerList,list.length,none,some list,none⟩
  | .strings first more => ((kept (first :: more)).mapM fun text => dupQuotedString (strdup text)).map fun list =>
      ⟨strdup d.key,.stringList,list.length,none,none,some list⟩

theorem append_ints (c : Config) (empty : c.stk = []) (texts : List Text) :
    texts.foldr (fun text c => listAppendInt c (strdup text)) c =
      {c with stk := (kept texts).map fun text => .intval (atoi (strdup text))} := by
  induction texts with
  | nil =>
      cases c
      cases empty
      rfl
  | cons text texts ih =>
      rw [List.foldr_cons,ih,kept_cons,listAppendInt]
      simp only [List.length_map]
      split
      · rfl
      · rfl

theorem append_strs (c : Config) (empty : c.stk = []) (texts : List Text) :
    texts.foldrM (fun text c => listAppendStr c (strdup text)) c =
      ((kept texts).mapM fun text => dupQuotedString (strdup text)).map fun list => {c with stk := list.map .str} := by
  induction texts with
  | nil =>
      cases c
      cases empty
      rfl
  | cons text texts ih =>
      rw [List.foldrM_cons,ih,kept_cons]
      cases below : (kept texts).mapM fun text => dupQuotedString (strdup text) with
      | none =>
          split
          · simp [below]
          · simp [below]
      | some list =>
          have length := mapM_length _ _ _ below
          split
          · next room =>
              cases copied : dupQuotedString (strdup text) with
              | none => simp [below,copied,listAppendStr,length,room]
              | some copy => simp [below,copied,listAppendStr,length,room]
          · next full => simp [below,listAppendStr,length,full]

theorem reduceDefinition_eq (root : List Entry) (d : Definition) :
    reduceDefinition ⟨root,.uninitializedStack,[]⟩ d =
      d.entered.map fun entry => ⟨entry :: root,.uninitializedStack,[]⟩ := by
  obtain ⟨key,value⟩ := d
  cases value with
  | number digits =>
      simp [reduceDefinition,Definition.entered,addentryInteger,push]
      rfl
  | string quoted =>
      simp [reduceDefinition,Definition.entered,addentryString]
      rfl
  | flag on =>
      cases on with
      | false => rfl
      | true => rfl
  | numbers first more =>
      have ints : ((kept (first :: more)).map fun text => GenericStack.intval (atoi (strdup text))).mapM
          GenericStack.intval? = some ((kept (first :: more)).map fun text => atoi (strdup text)) := by
        rw [mapM_eq_some_iff,List.map_map,List.map_map]
        rfl
      simp only [reduceDefinition,Definition.entered]
      rw [append_ints _ rfl]
      simp [addPreparedList,setListAsInteger,ints,addentryIntList,push]
  | strings first more =>
      simp only [reduceDefinition,Definition.entered]
      rw [append_strs _ rfl]
      cases copied : (kept (first :: more)).mapM fun text => dupQuotedString (strdup text) with
      | none => simp
      | some list =>
          have strs : (list.map GenericStack.str).mapM GenericStack.str? = some list := by
            rw [mapM_eq_some_iff,List.map_map]
            rfl
          simp [addPreparedList,setListAsString,strs,addentryStringList,push]

theorem reduceDefinitions_eq (root : List Entry) (ds : List Definition) :
    ds.foldlM reduceDefinition ⟨root,.uninitializedStack,[]⟩ =
      (ds.mapM Definition.entered).map fun entries => ⟨entries.reverse ++ root,.uninitializedStack,[]⟩ := by
  induction ds generalizing root with
  | nil => rfl
  | cons d ds ih =>
      rw [List.foldlM_cons,reduceDefinition_eq]
      cases entered : d.entered with
      | none => simp [entered]
      | some entry =>
          simp only [Option.map_some,Option.bind_eq_bind,Option.bind_some,ih]
          cases later : ds.mapM Definition.entered with
          | none => simp [entered,later]
          | some entries => simp [entered,later]

theorem tokens_long (ds : List Definition) : ds.length ≤ (ds.flatMap Definition.tokens).length := by
  induction ds with
  | nil => exact Nat.le_refl _
  | cons d ds ih =>
      rw [List.flatMap_cons,List.length_append,List.length_cons]
      have present : 1 ≤ d.tokens.length := by simp [Definition.tokens]
      omega

theorem yyparse_iff (input : Text) (c : Config) :
    yyparse input = some c ↔ ∃ ds entries, ds ≠ [] ∧ visible (tokens input) = ds.flatMap Definition.tokens ∧
      ds.mapM Definition.entered = some entries ∧ c = ⟨entries.reverse,.uninitializedStack,[]⟩ := by
  constructor
  · intro accepted
    obtain ⟨ds,present,same,folded⟩ := systemDefinitions_sound _ _ _ accepted
    rw [Config.new,reduceDefinitions_eq] at folded
    obtain ⟨entries,entered,rfl⟩ := Option.map_eq_some_iff.mp folded
    exact ⟨ds,entries,present,same,entered,by simp⟩
  · intro ⟨ds,entries,present,same,entered,config⟩
    obtain ⟨d,ds,rfl⟩ := List.exists_cons_of_ne_nil present
    have long := tokens_long (d :: ds)
    unfold yyparse
    dsimp only
    rw [same,systemDefinitions_complete d ds (by rw [List.length_cons] at long; omega),Config.new,reduceDefinitions_eq,
      entered,config]
    simp

def unquote (quoted : Text) : Text := (quoted.drop 1).take (quoted.length-2)

def Definition.entry (d : Definition) : Entry :=
  match d.value with
  | .number digits => ⟨d.key,.integerValue,number digits,some digits,none,none⟩
  | .string quoted => ⟨d.key,.stringValue,-1,some (unquote quoted),none,none⟩
  | .flag true => ⟨d.key,.booleanValue,1,some [111,110],none,none⟩
  | .flag false => ⟨d.key,.booleanValue,0,some [111,102,102],none,none⟩
  | .numbers first more =>
    ⟨d.key,.integerList,(first :: more).length,none,some ((first :: more).map fun text => (number text : Int)),none⟩
  | .strings first more => ⟨d.key,.stringList,(first :: more).length,none,none,some ((first :: more).map unquote)⟩

def fitsInt (digits : Text) : Prop := number digits < 2^31

instance (digits : Text) : Decidable (fitsInt digits) := inferInstanceAs (Decidable (_ < _))

def Value.Faithful : Value → Prop
  | .number digits => fitsInt digits
  | .string quoted => 0 ∉ quoted
  | .flag _ => True
  | .numbers first more => (first :: more).length ≤ maxIntStkLen ∧ ∀ digits ∈ first :: more, fitsInt digits
  | .strings first more => (first :: more).length ≤ maxIntStkLen ∧ ∀ quoted ∈ first :: more, 0 ∉ quoted

-- A string with NUL behind the opening quote makes the length of a memcpy
-- negative, unless it is in front of the last 64 of a list.
def beginsWithNul (quoted : Text) : Prop := (quoted.drop 1).head? = some 0

def Value.Overruns : Value → Prop
  | .string quoted => beginsWithNul quoted
  | .strings first more => ∃ quoted ∈ kept (first :: more), beginsWithNul quoted
  | _ => False

theorem strdup_eq (text : Text) (plain : 0 ∉ text) : strdup text = text := by
  rw [strdup,List.takeWhile_eq_self_iff]
  intro c member
  rw [bne_iff_ne]
  rintro rfl
  exact plain member

theorem identifier_plain (lexed : (Token.identifier text).Lexed) : 0 ∉ text := by
  obtain ⟨c,rest,rfl,start,inside,_⟩ := lexed
  intro nul
  rcases List.mem_cons.mp nul with rfl | later
  · exact absurd start (by decide)
  · exact absurd (inside 0 later) (by decide)

theorem digit_plain (lexed : (Token.digit text).Lexed) : 0 ∉ text := by
  intro nul
  exact absurd (lexed.2 0 nul) (by decide)

theorem digit_head (lexed : (Token.digit text).Lexed) : text.head? ≠ some 34 := by
  intro quote
  exact absurd (lexed.2 34 (List.mem_of_mem_head? quote)) (by decide)

theorem atoi_iff (digits : Text) : atoi digits = number digits ↔ fitsInt digits := by
  unfold fitsInt
  constructor
  · intro same
    have bound := toInt32_lt (min (number digits) (2^63-1) : Int)
    rw [atoi] at same
    omega
  · intro small
    rw [atoi]
    have least : (min (number digits : Int) (2^63-1)) = number digits := by omega
    rw [least]
    exact toInt32_eq (by omega) (by omega)

theorem dupQuotedString_plain (body : Text) (plain : 0 ∉ body) :
    dupQuotedString (strdup (34 :: body ++ [34])) = some body := by
  have last : (34 :: body ++ [34]).getLast? = some 34 := List.getLast?_concat
  rw [strdup_eq _ (by simp [plain]),dupQuotedString,if_pos ⟨rfl,last⟩]
  simp

theorem dupQuotedString_nul (body : Text) (inside : ∀ d ∈ body, isStringBody d) (nul : 0 ∈ body) :
    dupQuotedString (strdup (34 :: body ++ [34])) =
      if body.head? = some 0 then none else some (34 :: strdup body) := by
  have cut : strdup (34 :: body ++ [34]) = 34 :: strdup body := by
    rw [strdup,strdup,List.cons_append,List.takeWhile_cons_of_pos (by decide),List.takeWhile_append,if_neg]
    intro whole
    have all := List.takeWhile_eq_self_iff.mp ((List.takeWhile_prefix (· != 0)).eq_of_length whole)
    exact absurd (all 0 nul) (by decide)
  rw [cut]
  cases body with
  | nil => cases nul
  | cons c rest =>
      by_cases first : c = 0
      · subst first
        simp [strdup,dupQuotedString]
      · have copy : strdup (c :: rest) = c :: strdup rest := List.takeWhile_cons_of_pos (by simpa using first)
        have opened : (34 :: strdup (c :: rest)).getLast? ≠ some 34 := by
          rw [copy]
          intro last
          have member : 34 ∈ c :: strdup rest := by
            rw [List.getLast?_cons_cons] at last
            exact List.mem_of_getLast? last
          rw [← copy] at member
          exact absurd (inside 34 ((List.takeWhile_prefix _).subset member)) (by decide)
        rw [dupQuotedString,if_neg (fun both => opened both.2)]
        simp [first]

theorem unquote_quoted (body : Text) : unquote (34 :: body ++ [34]) = body := by simp [unquote]

theorem dupQuotedString_iff (lexed : (Token.qstring quoted).Lexed) :
    dupQuotedString (strdup quoted) = some (unquote quoted) ↔ 0 ∉ quoted := by
  obtain ⟨body,rfl,inside⟩ := lexed
  rw [unquote_quoted]
  by_cases nul : 0 ∈ body
  · rw [dupQuotedString_nul body inside nul]
    refine iff_of_false ?_ (by simp [nul])
    split
    · simp
    · intro same
      have member : 34 ∈ body := by
        rw [← Option.some.inj same]
        exact List.mem_cons_self
      exact absurd (inside 34 member) (by decide)
  · rw [dupQuotedString_plain body nul]
    simp [nul]

theorem dupQuotedString_none (lexed : (Token.qstring quoted).Lexed) :
    dupQuotedString (strdup quoted) = none ↔ beginsWithNul quoted := by
  obtain ⟨body,rfl,inside⟩ := lexed
  have first : beginsWithNul (34 :: body ++ [34]) ↔ body.head? = some 0 := by
    cases body with
    | nil => simp [beginsWithNul]
    | cons c rest => simp [beginsWithNul]
  rw [first]
  by_cases nul : 0 ∈ body
  · rw [dupQuotedString_nul body inside nul]
    simp
  · rw [dupQuotedString_plain body nul]
    refine iff_of_false (by simp) fun head => nul (List.mem_of_mem_head? head)

theorem listTokens_mem (item : Text → Token) (member : text ∈ first :: more) : item text ∈ listTokens item first more := by
  rcases List.mem_cons.mp member with rfl | later
  · exact List.mem_cons_self
  · refine List.mem_cons_of_mem _ (List.mem_flatMap.mpr ⟨text,later,?_⟩)
    exact List.mem_cons_of_mem _ List.mem_cons_self

structure Definition.Lexed (d : Definition) : Prop where
  key : (Token.identifier d.key).Lexed
  value : ∀ token ∈ d.value.tokens, token.Lexed

theorem Definition.lexed (d : Definition) (all : ∀ token ∈ d.tokens, token.Lexed) : d.Lexed := by
  refine ⟨all _ List.mem_cons_self,fun token member => all token ?_⟩
  exact List.mem_append_left _ (List.mem_cons_of_mem _ (List.mem_cons_of_mem _ member))

theorem numbers_lexed (all : ∀ token ∈ (Value.numbers first more).tokens, token.Lexed) (member : text ∈ first :: more) :
    (Token.digit text).Lexed :=
  all _ (List.mem_append_left _ (List.mem_cons_of_mem _ (listTokens_mem .digit member)))

theorem strings_lexed (all : ∀ token ∈ (Value.strings first more).tokens, token.Lexed) (member : text ∈ first :: more) :
    (Token.qstring text).Lexed :=
  all _ (List.mem_append_left _ (List.mem_cons_of_mem _ (listTokens_mem .qstring member)))

theorem kept_mem (member : text ∈ kept texts) : text ∈ texts := List.mem_of_mem_drop member

theorem stringEntry_digits (key : Text) (lexed : (Token.digit digits).Lexed) :
    stringEntry key (strdup digits) = some ⟨key,.stringValue,-1,some digits,none,none⟩ := by
  rw [strdup_eq digits (digit_plain lexed),stringEntry,if_neg (digit_head lexed)]

theorem stringEntry_quoted (key : Text) (lexed : (Token.qstring quoted).Lexed) :
    stringEntry key (strdup quoted) =
      (dupQuotedString (strdup quoted)).map fun text => ⟨key,.stringValue,-1,some text,none,none⟩ := by
  obtain ⟨body,rfl,_⟩ := lexed
  rw [stringEntry,if_pos]
  rfl

-- The definition is entered as it is exactly when its value can be held.
theorem entered_iff (d : Definition) (lexed : d.Lexed) : d.entered = some d.entry ↔ d.value.Faithful := by
  obtain ⟨key,value⟩ := d
  have plain := strdup_eq key (identifier_plain lexed.key)
  cases value with
  | number digits =>
      have isDigit := lexed.value _ List.mem_cons_self
      unfold Definition.entered
      dsimp only
      rw [stringEntry_digits _ isDigit]
      simp [Definition.entry,Value.Faithful,plain,strdup_eq digits (digit_plain isDigit),atoi_iff]
  | string quoted =>
      have isString := lexed.value _ List.mem_cons_self
      simp only [Definition.entered,Definition.entry,Value.Faithful,stringEntry_quoted _ isString,plain,
        ← dupQuotedString_iff isString]
      simp
  | flag on =>
      cases on with
      | false => simp [Definition.entered,Definition.entry,Value.Faithful,plain]
      | true => simp [Definition.entered,Definition.entry,Value.Faithful,plain]
  | numbers first more =>
      have each : ∀ text ∈ first :: more, atoi (strdup text) = number text ↔ fitsInt text := by
        intro text member
        rw [strdup_eq text (digit_plain (numbers_lexed lexed.value member)),atoi_iff]
      simp only [Definition.entered,Definition.entry,Value.Faithful,plain,Option.some.injEq,Entry.mk.injEq,true_and,
        and_true,List.length_map]
      constructor
      · intro ⟨count,list⟩
        rw [kept_length] at count
        have short : (first :: more).length ≤ maxIntStkLen := by omega
        rw [kept_short _ short,List.map_inj_left] at list
        exact ⟨short,fun text member => (each text member).mp (list text member)⟩
      · intro ⟨short,all⟩
        rw [kept_short _ short]
        exact ⟨rfl,List.map_inj_left.mpr fun text member => (each text member).mpr (all text member)⟩
  | strings first more =>
      have each := fun text member => dupQuotedString_iff (@strings_lexed first more text lexed.value member)
      simp only [Definition.entered,Definition.entry,Value.Faithful,plain,Option.map_eq_some_iff,Entry.mk.injEq,true_and,
        Option.some.injEq]
      constructor
      · intro ⟨list,copied,count,same⟩
        have length := mapM_length _ _ _ copied
        rw [kept_length] at length
        have short : (first :: more).length ≤ maxIntStkLen := by omega
        rw [kept_short _ short,same,mapM_map_iff] at copied
        exact ⟨short,fun text member => (each text member).mp (copied text member)⟩
      · intro ⟨short,all⟩
        rw [kept_short _ short]
        refine ⟨_,(mapM_map_iff _ unquote _).mpr fun text member => (each text member).mpr (all text member),?_,rfl⟩
        rw [List.length_map]

theorem entered_none (d : Definition) (lexed : d.Lexed) : d.entered = none ↔ d.value.Overruns := by
  obtain ⟨key,value⟩ := d
  cases value with
  | number digits =>
      have isDigit := lexed.value _ List.mem_cons_self
      simp [Definition.entered,Value.Overruns,stringEntry_digits _ isDigit]
  | string quoted =>
      have isString := lexed.value _ List.mem_cons_self
      simp [Definition.entered,Value.Overruns,stringEntry_quoted _ isString,dupQuotedString_none isString]
  | flag on =>
      cases on with
      | false => simp [Definition.entered,Value.Overruns]
      | true => simp [Definition.entered,Value.Overruns]
  | numbers first more => simp [Definition.entered,Value.Overruns]
  | strings first more =>
      have each := fun text member => dupQuotedString_none (@strings_lexed first more text lexed.value (kept_mem member))
      simp only [Definition.entered,Value.Overruns,Option.map_eq_none_iff,mapM_none_iff]
      constructor
      · intro ⟨text,member,failed⟩
        exact ⟨text,member,(each text member).mp failed⟩
      · intro ⟨text,member,nul⟩
        exact ⟨text,member,(each text member).mpr nul⟩

theorem listTokens_visible (item : Text → Token) (items : ∀ text, (item text).ends = false) (first : Text) (more : List Text) :
    ∀ token ∈ listTokens item first more, token.ends = false := by
  rw [listTokens,List.forall_mem_cons]
  refine ⟨items first,fun token member => ?_⟩
  obtain ⟨text,_,one⟩ := List.mem_flatMap.mp member
  rcases List.mem_cons.mp one with rfl | one
  · decide
  · obtain rfl := List.mem_singleton.mp one
    exact items text

theorem value_visible (value : Value) : ∀ token ∈ value.tokens, token.ends = false := by
  cases value with
  | number digits => simp [Value.tokens,Token.ends]
  | string quoted => simp [Value.tokens,Token.ends]
  | flag on =>
      cases on with
      | false => simp [Value.tokens,Token.ends]
      | true => simp [Value.tokens,Token.ends]
  | numbers first more =>
      rw [Value.tokens,List.forall_mem_append,List.forall_mem_cons,List.forall_mem_singleton]
      exact ⟨⟨by decide,listTokens_visible .digit (fun _ => rfl) first more⟩,by decide⟩
  | strings first more =>
      rw [Value.tokens,List.forall_mem_append,List.forall_mem_cons,List.forall_mem_singleton]
      exact ⟨⟨by decide,listTokens_visible .qstring (fun _ => rfl) first more⟩,by decide⟩

-- No token of the grammar ends the input.
theorem definitions_visible (ds : List Definition) : ∀ token ∈ ds.flatMap Definition.tokens, token.ends = false := by
  intro token member
  obtain ⟨d,_,one⟩ := List.mem_flatMap.mp member
  rw [Definition.tokens,List.mem_append,List.mem_cons,List.mem_cons,List.mem_singleton] at one
  rcases one with (rfl | rfl | inside) | rfl
  · rfl
  · decide
  · exact value_visible d.value token inside
  · decide

theorem visible_eq (given : List Token) : visible given = given ↔ ∀ token ∈ given, token.ends = false := by
  rw [visible,List.takeWhile_eq_self_iff]
  simp

-- The whole input is definitions, and these are entered in their order.
def ReadRightly (input : Text) (c : Config) : Prop :=
  ∃ ds, ds ≠ [] ∧ tokens input = ds.flatMap Definition.tokens ∧ c.sysconfRoot = (ds.map Definition.entry).reverse

-- Where the text in front of the first byte that ends the input is definitions,
-- there is no such byte, and every value can be held.
def Readable (input : Text) : Prop :=
  ∀ ds, ds ≠ [] → visible (tokens input) = ds.flatMap Definition.tokens → (∀ d ∈ ds, ¬ d.value.Overruns) →
    (∀ token ∈ tokens input, token.ends = false) ∧ ∀ d ∈ ds, d.value.Faithful

theorem visible_lexed (input : Text) (ds : List Definition) (same : visible (tokens input) = ds.flatMap Definition.tokens) :
    ∀ d ∈ ds, d.Lexed := by
  intro d member
  refine d.lexed fun token inside => tokens_lexed input token ?_
  have seen : token ∈ visible (tokens input) := by
    rw [same]
    exact List.mem_flatMap.mpr ⟨d,member,inside⟩
  exact (List.takeWhile_prefix _).subset seen

-- A byte that is not positive as a char ends the parse, and what stands behind
-- it is dropped with the result 0.
theorem yyparse_reads_rightly_iff (input : Text) :
    (∀ c, yyparse input = some c → ReadRightly input c) ↔ Readable input := by
  constructor
  · intro right ds present same held
    have lexed := visible_lexed input ds same
    obtain ⟨entries,entered⟩ : ∃ entries, ds.mapM Definition.entered = some entries := by
      refine Option.ne_none_iff_exists'.mp fun failed => ?_
      obtain ⟨d,member,absent⟩ := (mapM_none_iff _ ds).mp failed
      exact held d member ((entered_none d (lexed d member)).mp absent)
    obtain ⟨ds',_,whole,root⟩ := right _ ((yyparse_iff input _).mpr ⟨ds,entries,present,same,entered,rfl⟩)
    have ends : ∀ token ∈ tokens input, token.ends = false := by
      rw [whole]
      exact definitions_visible ds'
    rw [(visible_eq _).mpr ends,whole] at same
    obtain rfl := definitions_unique ds' ds same
    obtain rfl : entries = ds'.map Definition.entry := List.reverse_injective root
    refine ⟨ends,fun d member => (entered_iff d (lexed d member)).mp ?_⟩
    exact (mapM_map_iff _ _ _).mp entered d member
  · intro readable c accepted
    obtain ⟨ds,entries,present,same,entered,rfl⟩ := (yyparse_iff input c).mp accepted
    have lexed := visible_lexed input ds same
    have held : ∀ d ∈ ds, ¬ d.value.Overruns := by
      intro d member overruns
      have failed := (mapM_none_iff _ ds).mpr ⟨d,member,(entered_none d (lexed d member)).mpr overruns⟩
      rw [entered] at failed
      cases failed
    obtain ⟨ends,faithful⟩ := readable ds present same held
    rw [(visible_eq _).mpr ends] at same
    have all := (mapM_map_iff Definition.entered _ ds).mpr fun d member =>
      (entered_iff d (lexed d member)).mpr (faithful d member)
    rw [entered] at all
    obtain rfl := Option.some.inj all
    exact ⟨ds,present,same,rfl⟩

-- a=1; and then the byte 0x80, and text that is in no grammar.
theorem yyparse_drops_the_rest :
    yyparse [97,61,49,59,128,61,61] = some ⟨[⟨[97],.integerValue,1,some [49],none,none⟩],.uninitializedStack,[]⟩ ∧
      ¬ ReadRightly [97,61,49,59,128,61,61]
        ⟨[⟨[97],.integerValue,1,some [49],none,none⟩],.uninitializedStack,[]⟩ := by
  refine ⟨by decide +kernel,?_⟩
  intro ⟨ds,_,whole,_⟩
  have ends := definitions_visible ds
  rw [← whole] at ends
  exact absurd (ends (.char 128) (by decide +kernel)) (by decide)

end TcpProxy.Sysconf
