import Mathlib.Data.List.Chain
import TcpProxy.Sysconf.Reading

namespace TcpProxy.Sysconf

-- What may stand between two tokens. A comment goes up to the end of its line.
inductive Separator : Text → Prop where
  | empty : Separator []
  | blank : isBlank c → Separator rest → Separator (c :: rest)
  | newline : Separator rest → Separator (10 :: rest)
  | slashes : (∀ d ∈ body, isDot d) → Separator rest → Separator (47 :: 47 :: body ++ 10 :: rest)
  | hash : (∀ d ∈ body, isDot d) → Separator rest → Separator (35 :: body ++ 10 :: rest)

def Token.spelling : Token → Text
  | .rwFlagOn => [111,110]
  | .rwFlagOff => [111,102,102]
  | .identifier text => text
  | .qstring text => text
  | .digit text => text
  | .char c => [c]

inductive Rendering : List Token → Text → Prop where
  | nil : Separator gap → Rendering [] gap
  | cons : Separator gap → Rendering later text → Rendering (token :: later) (gap ++ token.spelling ++ text)

theorem tokens_comment_line (begins : c = 35 ∨ c = 47 ∧ (body ++ 10 :: rest).head? = some 47)
    (inside : ∀ d ∈ body, isDot d) : tokens (c :: (body ++ 10 :: rest)) = tokens rest := by
  rw [tokens_comment begins,List.dropWhile_append_of_pos inside,List.dropWhile_cons_of_neg (by decide),tokens_newline]

theorem tokens_separator (separator : Separator gap) (rest : Text) : tokens (gap ++ rest) = tokens rest := by
  induction separator with
  | empty => rfl
  | blank isBlank _ ih =>
      rw [List.cons_append,tokens_blank isBlank]
      exact ih
  | newline _ ih =>
      rw [List.cons_append,tokens_newline]
      exact ih
  | @slashes body later inside _ ih =>
      have comment := @tokens_comment_line 47 (47 :: body) (later ++ rest) (.inr ⟨rfl,rfl⟩)
        (List.forall_mem_cons.mpr ⟨by decide,inside⟩)
      rw [← ih,← comment]
      simp
  | @hash body later inside _ ih =>
      rw [← ih,← @tokens_comment_line 35 body (later ++ rest) (.inl rfl) inside]
      simp

-- A text that does not go on with the word in front of it.
def Stops (text : Text) : Prop := ∀ c, text.head? = some c → isIdRest c = false

theorem separator_stops (separator : Separator gap) (rest : Text) (stops : Stops rest) : Stops (gap ++ rest) := by
  cases separator with
  | empty => exact stops
  | @blank c _ blank _ =>
      intro next first
      cases first
      obtain rfl | rfl : c = 32 ∨ c = 9 := by simpa [isBlank] using blank
      · decide
      · decide
  | newline _ =>
      intro c first
      cases first
      decide
  | slashes _ _ =>
      intro c first
      cases first
      decide
  | hash _ _ =>
      intro c first
      cases first
      decide

theorem stops_takeWhile (p : UInt8 → Bool) (word rest : Text) (inside : ∀ d ∈ word, p d = true)
    (stops : ∀ c, rest.head? = some c → p c = false) :
    (word ++ rest).takeWhile p = word := by
  rw [List.takeWhile_append_of_pos inside]
  cases rest with
  | nil => simp
  | cons c later => rw [List.takeWhile_cons_of_neg (by simp [stops c rfl]),List.append_nil]

theorem stops_dropWhile (p : UInt8 → Bool) (word rest : Text) (inside : ∀ d ∈ word, p d = true)
    (stops : ∀ c, rest.head? = some c → p c = false) :
    (word ++ rest).dropWhile p = rest := by
  rw [List.dropWhile_append_of_pos inside]
  cases rest with
  | nil => rfl
  | cons c later => rw [List.dropWhile_cons_of_neg (by simp [stops c rfl])]

theorem digit_idRest (digit : isDigit c) : isIdRest c := by simp [isIdRest,digit]

theorem stops_digit (stops : Stops rest) : ∀ c, rest.head? = some c → isDigit c = false := by
  intro c first
  have stop := stops c first
  cases digit : isDigit c with
  | false => rfl
  | true =>
      rw [digit_idRest digit] at stop
      cases stop

theorem tokens_whole_word (start : isIdStart c) (inside : ∀ d ∈ word, isIdRest d) (stops : Stops rest) :
    tokens (c :: word ++ rest) = wordToken (c :: word) :: tokens rest := by
  rw [List.cons_append,tokens_word start,stops_takeWhile _ word rest inside stops,stops_dropWhile _ word rest inside stops]

def punctuation : List UInt8 := [61,59,44,91,93]

theorem punctuation_alone (mark : c ∈ punctuation) (rest : Text) : isAlone c rest := by
  simp only [punctuation,List.mem_cons,List.not_mem_nil,or_false] at mark
  rcases mark with rfl | rfl | rfl | rfl | rfl
  all_goals simp [isAlone,isBlank,isIdStart,isDigit]

theorem punctuation_stops (mark : c ∈ punctuation) : isIdRest c = false := by
  simp only [punctuation,List.mem_cons,List.not_mem_nil,or_false] at mark
  rcases mark with rfl | rfl | rfl | rfl | rfl
  all_goals decide

def Token.Written : Token → Prop
  | .char c => c ∈ punctuation
  | token => token.Lexed

def Token.isMark : Token → Bool
  | .char _ => true
  | _ => false

-- A token is read back in front of any text that does not go on with it.
theorem tokens_spelling (token : Token) (written : token.Written) (apart : token.isMark ∨ Stops rest) :
    tokens (token.spelling ++ rest) = token :: tokens rest := by
  cases token with
  | rwFlagOn => exact @tokens_whole_word 111 [110] rest (by decide) (by simp [isIdRest,isIdStart]) (apart.resolve_left (by decide))
  | rwFlagOff =>
      exact @tokens_whole_word 111 [102,102] rest (by decide) (by simp [isIdRest,isIdStart]) (apart.resolve_left (by decide))
  | identifier text =>
      obtain ⟨c,word,rfl,start,inside,notOn,notOff⟩ := written
      have whole := tokens_whole_word start inside (apart.resolve_left (by simp [Token.isMark]))
      rwa [wordToken,if_neg notOn,if_neg notOff] at whole
  | qstring text =>
      obtain ⟨body,rfl,inside⟩ := written
      have string := tokens_string body rest inside
      simpa [Token.spelling] using string
  | digit text =>
      obtain ⟨present,digits⟩ := written
      obtain ⟨c,word,rfl⟩ := List.exists_cons_of_ne_nil present
      obtain ⟨first,inside⟩ := List.forall_mem_cons.mp digits
      have stops := stops_digit (apart.resolve_left (by simp [Token.isMark]))
      rw [Token.spelling,List.cons_append,tokens_digits first,stops_takeWhile _ word rest inside stops,
        stops_dropWhile _ word rest inside stops]
  | char c => exact tokens_any (punctuation_alone written rest)

def Apart (one two : Token) : Prop := one.isMark ∨ two.isMark

theorem rendering_stops (rendering : Rendering given text) (first : ∀ token, given.head? = some token → token.isMark)
    (written : ∀ token ∈ given, token.Written) : Stops text := by
  cases rendering with
  | nil separator =>
      have stops := separator_stops separator [] (by intro c head; cases head)
      rwa [List.append_nil] at stops
  | @cons gap later text token separator _ =>
      rw [List.append_assoc]
      refine separator_stops separator _ ?_
      have mark := first token rfl
      have isWritten := written token List.mem_cons_self
      cases token with
      | char c =>
          intro next head
          cases head
          exact punctuation_stops isWritten
      | _ => cases mark

-- The lexer gives back the tokens of every rendering.
theorem tokens_rendering (rendering : Rendering given text) (written : ∀ token ∈ given, token.Written)
    (apart : given.IsChain Apart) : tokens text = given := by
  induction rendering with
  | nil separator =>
      have gap := tokens_separator separator []
      rwa [List.append_nil,tokens_nil] at gap
  | @cons gap later text token separator rendering ih =>
      obtain ⟨next,chain⟩ := List.isChain_cons.mp apart
      obtain ⟨first,rest⟩ := List.forall_mem_cons.mp written
      have stops : token.isMark ∨ Stops text := by
        cases mark : token.isMark with
        | true => exact .inl rfl
        | false =>
            refine .inr (rendering_stops rendering (fun token head => ?_) rest)
            exact (next token head).resolve_left (by rw [mark]; decide)
      rw [List.append_assoc,tokens_separator separator,tokens_spelling token first stops,ih rest chain]

theorem token_written (token : Token) (lexed : token.Lexed) (mark : ∀ c, token = .char c → c ∈ punctuation) : token.Written := by
  cases token with
  | char c => exact mark c rfl
  | _ => exact lexed

theorem listTokens_marks (item : Text → Token) (items : ∀ text c, item text ≠ .char c)
    (member : .char c ∈ listTokens item first more) : c ∈ punctuation := by
  rcases List.mem_cons.mp member with same | later
  · exact absurd same.symm (items first c)
  · obtain ⟨text,_,one⟩ := List.mem_flatMap.mp later
    rcases List.mem_cons.mp one with same | one
    · cases same
      decide
    · exact absurd (List.mem_singleton.mp one).symm (items text c)

theorem value_marks (value : Value) (member : .char c ∈ value.tokens) : c ∈ punctuation := by
  cases value with
  | number digits => simp [Value.tokens] at member
  | string quoted => simp [Value.tokens] at member
  | flag on => cases on <;> simp [Value.tokens] at member
  | numbers first more =>
      rw [Value.tokens,List.mem_append,List.mem_cons,List.mem_singleton] at member
      rcases member with (same | inside) | same
      · cases same
        decide
      · exact listTokens_marks .digit (by simp) inside
      · cases same
        decide
  | strings first more =>
      rw [Value.tokens,List.mem_append,List.mem_cons,List.mem_singleton] at member
      rcases member with (same | inside) | same
      · cases same
        decide
      · exact listTokens_marks .qstring (by simp) inside
      · cases same
        decide

theorem definition_written (d : Definition) (lexed : d.Lexed) : ∀ token ∈ d.tokens, token.Written := by
  intro token member
  rw [Definition.tokens,List.mem_append,List.mem_cons,List.mem_cons,List.mem_singleton] at member
  rcases member with (rfl | rfl | inside) | rfl
  · exact lexed.key
  · show (61 : UInt8) ∈ punctuation
    decide
  · refine token_written token (lexed.value token inside) ?_
    rintro c rfl
    exact value_marks d.value inside
  · show (59 : UInt8) ∈ punctuation
    decide

theorem apart_mark (c : UInt8) (chain : List.IsChain Apart given) : List.IsChain Apart (.char c :: given) :=
  List.isChain_cons.mpr ⟨fun _ _ => .inl rfl,chain⟩

theorem apart_before_mark (token : Token) (c : UInt8) (chain : List.IsChain Apart (.char c :: given)) :
    List.IsChain Apart (token :: .char c :: given) :=
  List.isChain_cons_cons.mpr ⟨.inr rfl,chain⟩

theorem listTokens_apart (item : Text → Token) (c : UInt8) (chain : List.IsChain Apart (.char c :: rest))
    (first : Text) (more : List Text) : List.IsChain Apart (listTokens item first more ++ .char c :: rest) := by
  induction more generalizing first with
  | nil => exact apart_before_mark _ c chain
  | cons second more ih => exact apart_before_mark _ 44 (apart_mark 44 (ih second))

theorem value_apart (value : Value) (chain : List.IsChain Apart rest) :
    List.IsChain Apart (value.tokens ++ .char 59 :: rest) := by
  have closed := apart_mark 59 chain
  cases value with
  | number digits => exact apart_before_mark _ 59 closed
  | string quoted => exact apart_before_mark _ 59 closed
  | flag on => exact apart_before_mark _ 59 closed
  | numbers first more =>
      rw [Value.tokens,List.append_assoc,List.cons_append]
      exact apart_mark 91 (listTokens_apart .digit 93 (apart_mark 93 closed) first more)
  | strings first more =>
      rw [Value.tokens,List.append_assoc,List.cons_append]
      exact apart_mark 91 (listTokens_apart .qstring 93 (apart_mark 93 closed) first more)

theorem definitions_apart (ds : List Definition) : (ds.flatMap Definition.tokens).IsChain Apart := by
  induction ds with
  | nil => exact List.isChain_nil
  | cons d ds ih =>
      rw [List.flatMap_cons,Definition.tokens,List.append_assoc,List.cons_append,List.cons_append]
      exact apart_before_mark _ 61 (apart_mark 61 (value_apart d.value ih))

structure Definition.WellFormed (d : Definition) : Prop extends d.Lexed where
  faithful : d.value.Faithful

theorem yyparse_rendering (ds : List Definition) (present : ds ≠ []) (formed : ∀ d ∈ ds, d.WellFormed)
    (rendering : Rendering (ds.flatMap Definition.tokens) input) :
    yyparse input = some ⟨(ds.map Definition.entry).reverse,.uninitializedStack,[]⟩ := by
  have lexed : tokens input = ds.flatMap Definition.tokens := by
    refine tokens_rendering rendering ?_ (definitions_apart ds)
    intro token member
    obtain ⟨d,inside,one⟩ := List.mem_flatMap.mp member
    exact definition_written d (formed d inside).toLexed token one
  refine (yyparse_iff input _).mpr ⟨ds,_,present,?_,?_,rfl⟩
  · rw [← lexed,visible_eq,lexed]
    exact definitions_visible ds
  · exact (mapM_map_iff _ _ _).mpr fun d member => (entered_iff d (formed d member).toLexed).mpr (formed d member).faithful

def lastDefinition (ds : List Definition) (key : Text) : Option Definition :=
  ds.reverse.find? fun d => sameIgnoringCase key d.key

def ReadBack (c : Config) (key : Text) : Value → Prop
  | .number digits =>
    dataType c key = .integerValue ∧ (∀ given, sysconfIntOrDefault c key given = number digits) ∧
      integerList c key = none ∧ stringList c key = none
  | .string quoted =>
    dataType c key = .stringValue ∧ (∀ given, sysconfStrOrDefault c key given = some (some (unquote quoted))) ∧
      sysconfStr c key = some (some (unquote quoted)) ∧ integerList c key = none ∧ stringList c key = none
  | .flag on =>
    dataType c key = .booleanValue ∧ (∀ given, sysconfIntOrDefault c key given = if on then 1 else 0) ∧
      integerList c key = none ∧ stringList c key = none
  | .numbers first more =>
    dataType c key = .integerList ∧ stringList c key = none ∧
      integerList c key = some ((first :: more).map fun digits => (number digits : Int),((first :: more).length : Int))
  | .strings first more =>
    dataType c key = .stringList ∧ integerList c key = none ∧
      stringList c key = some ((first :: more).map unquote,((first :: more).length : Int))

def NotDefined (c : Config) (key : Text) : Prop :=
  (∀ given, sysconfIntOrDefault c key given = given) ∧ (∀ given, sysconfStrOrDefault c key given = some given) ∧
    sysconfStr c key = some none ∧ integerList c key = none ∧ stringList c key = none

theorem entry_key (d : Definition) : d.entry.key = d.key := by
  obtain ⟨key,value⟩ := d
  cases value with
  | flag on => cases on <;> rfl
  | _ => rfl

theorem sysconfPtr_entries (ds : List Definition) (key : Text) (t : StackType) (stk : List GenericStack) :
    sysconfPtr ⟨(ds.map Definition.entry).reverse,t,stk⟩ key = (lastDefinition ds key).map Definition.entry := by
  rw [sysconfPtr,lastDefinition,← List.map_reverse,List.find?_map]
  simp only [Function.comp_def,entry_key]

theorem entry_read_back (c : Config) (key : Text) (d : Definition) (found : sysconfPtr c key = some d.entry) :
    ReadBack c key d.value := by
  obtain ⟨name,value⟩ := d
  cases value with
  | flag on =>
      cases on with
      | false => simp [ReadBack,dataType,sysconfIntOrDefault,integerList,stringList,found,Definition.entry]
      | true => simp [ReadBack,dataType,sysconfIntOrDefault,integerList,stringList,found,Definition.entry]
  | _ =>
      simp [ReadBack,dataType,sysconfIntOrDefault,sysconfStrOrDefault,sysconfStr,integerList,stringList,found,
        Definition.entry]

theorem not_defined (c : Config) (key : Text) (missing : sysconfPtr c key = none) : NotDefined c key := by
  simp [NotDefined,sysconfIntOrDefault,sysconfStrOrDefault,sysconfStr,integerList,stringList,missing]

theorem configuration_round_trip (ds : List Definition) (present : ds ≠ []) (formed : ∀ d ∈ ds, d.WellFormed)
    (rendering : Rendering (ds.flatMap Definition.tokens) input) :
    ∃ c, yyparse input = some c ∧ ∀ key, match lastDefinition ds key with
      | some d => ReadBack c key d.value
      | none => NotDefined c key := by
  refine ⟨_,yyparse_rendering ds present formed rendering,fun key => ?_⟩
  have ptr := sysconfPtr_entries ds key .uninitializedStack []
  cases last : lastDefinition ds key with
  | none =>
      rw [last] at ptr
      exact not_defined _ key ptr
  | some d =>
      rw [last] at ptr
      exact entry_read_back _ key d ptr

-- Ab=1; and, behind a comment, ab = [ 2,3 ] ;
theorem configuration_round_trip_shadowed :
    ∃ c, yyparse [65,98,61,49,59,10,35,120,10,97,98,32,61,32,91,32,50,44,51,32,93,32,59] = some c ∧
      ∀ key, match lastDefinition [⟨[65,98],.number [49]⟩,⟨[97,98],.numbers [50] [[51]]⟩] key with
        | some d => ReadBack c key d.value
        | none => NotDefined c key := by
  have space : Separator [32] := .blank (by decide) .empty
  have line : Separator [10,35,120,10] := .newline (@Separator.hash [120] [] (by simp [isDot]) .empty)
  have second : Rendering [.identifier [97,98],.char 61,.char 91,.digit [50],.char 44,.digit [51],.char 93,.char 59]
      ([10,35,120,10] ++ [97,98] ++ ([32] ++ [61] ++ ([32] ++ [91] ++ ([32] ++ [50] ++ ([] ++ [44] ++ ([] ++ [51] ++
        ([32] ++ [93] ++ ([32] ++ [59] ++ [])))))))) :=
    .cons line (.cons space (.cons space (.cons space (.cons .empty (.cons .empty
      (.cons space (.cons space (.nil .empty))))))))
  have first : Rendering (.identifier [65,98] :: .char 61 :: .digit [49] :: .char 59 :: _)
      ([] ++ [65,98] ++ ([] ++ [61] ++ ([] ++ [49] ++ ([] ++ [59] ++ _)))) :=
    .cons .empty (.cons .empty (.cons .empty (.cons .empty second)))
  refine configuration_round_trip [⟨[65,98],.number [49]⟩,⟨[97,98],.numbers [50] [[51]]⟩] (by decide) ?_ ?_
  · intro d member
    simp only [List.mem_cons,List.not_mem_nil,or_false] at member
    rcases member with rfl | rfl
    · refine ⟨⟨⟨65,[98],rfl,by decide,by simp [isIdRest,isIdStart],by decide,by decide⟩,?_⟩,(by decide : fitsInt [49])⟩
      simp [Value.tokens,Token.Lexed,isDigit]
    · refine ⟨⟨⟨97,[98],rfl,by decide,by simp [isIdRest,isIdStart],by decide,by decide⟩,?_⟩,by decide,by decide⟩
      simp [Value.tokens,listTokens,Token.Lexed,isDigit]
  · exact first

end TcpProxy.Sysconf
