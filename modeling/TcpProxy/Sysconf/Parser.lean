import TcpProxy.Sysconf.Entries

namespace TcpProxy.Sysconf

-- A variable_definition of the grammar, with the texts of its tokens.
inductive Value where
  | number (digits : Text)
  | string (quoted : Text)
  | flag (on : Bool)
  | numbers (first : Text) (more : List Text)
  | strings (first : Text) (more : List Text)
deriving DecidableEq, Repr

structure Definition where
  key : Text
  value : Value
deriving DecidableEq, Repr

def listTokens (item : Text → Token) (first : Text) (more : List Text) : List Token :=
  item first :: more.flatMap fun text => [.char 44,item text]

def Value.tokens : Value → List Token
  | .number digits => [.digit digits]
  | .string quoted => [.qstring quoted]
  | .flag on => [if on then .rwFlagOn else .rwFlagOff]
  | .numbers first more => .char 91 :: listTokens .digit first more ++ [.char 93]
  | .strings first more => .char 91 :: listTokens .qstring first more ++ [.char 93]

def Definition.tokens (d : Definition) : List Token :=
  .identifier d.key :: .char 61 :: d.value.tokens ++ [.char 59]

def expect (token : Token) : List Token → Option (List Token)
  | [] => none
  | next :: rest => if next = token then some rest else none

def digit? : Token → Option Text
  | .digit text => some text
  | _ => none

def qstring? : Token → Option Text
  | .qstring text => some text
  | _ => none

-- comma_list_number and comma_list_string: a comma leads to one more item.
def commaList (item? : Token → Option Text) : List Token → Option (Text × List Text × List Token)
  | [] => none
  | token :: rest => do
    let text ← item? token
    match rest with
    | [] => some (text,[],[])
    | next :: later =>
      if next = .char 44 then
        let (first,more,left) ← commaList item? later
        some (text,first :: more,left)
      else some (text,[],next :: later)

-- comma_list_data: the first item tells which of the lists it is.
def commaListData (tokens : List Token) : Option (Value × List Token) :=
  match commaList digit? tokens with
  | some (first,more,left) => some (.numbers first more,left)
  | none => (commaList qstring? tokens).map fun (first,more,left) => (.strings first more,left)

def valueOf : List Token → Option (Value × List Token)
  | .digit text :: rest => some (.number text,rest)
  | .qstring text :: rest => some (.string text,rest)
  | .rwFlagOn :: rest => some (.flag true,rest)
  | .rwFlagOff :: rest => some (.flag false,rest)
  | tokens => do
    let (value,left) ← commaListData (← expect (.char 91) tokens)
    some (value,← expect (.char 93) left)

def variableDefinition : List Token → Option (Definition × List Token)
  | .identifier key :: rest => do
    let (value,left) ← valueOf (← expect (.char 61) rest)
    some (⟨key,value⟩,← expect (.char 59) left)
  | _ => none

def reduceDefinition (c : Config) (d : Definition) : Option Config :=
  match d.value with
  | .number digits => addentryInteger c (strdup d.key) (strdup digits)
  | .string quoted => addentryString c (strdup d.key) (strdup quoted)
  | .flag true => addentryFlagOn c (strdup d.key)
  | .flag false => addentryFlagOff c (strdup d.key)
  | .numbers first more =>
    let c := (first :: more).foldr (fun text c => listAppendInt c (strdup text)) c
    addPreparedList (setListAsInteger c) (strdup d.key)
  | .strings first more => do
    let c ← (first :: more).foldrM (fun text c => listAppendStr c (strdup text)) c
    addPreparedList (setListAsString c) (strdup d.key)

-- system_definitions is not empty, and ends at the end of the input.
def systemDefinitions : Nat → Config → List Token → Option Config
  | 0,_,_ => none
  | left+1,c,tokens => do
    let (d,rest) ← variableDefinition tokens
    let c ← reduceDefinition c d
    if rest = [] then some c else systemDefinitions left c rest

-- The token code of a byte is its value as a signed char. A code that is not
-- positive is the end of the input for the parser.
def Token.ends : Token → Bool
  | .char c => c.toInt8.toInt ≤ 0
  | _ => false

def visible (tokens : List Token) : List Token := tokens.takeWhile fun token => !token.ends

-- The configuration behind yyparse returning 0.
def yyparse (input : Text) : Option Config :=
  let tokens := visible (tokens input)
  systemDefinitions tokens.length Config.new tokens

@[simp] theorem expect_self (token : Token) (rest : List Token) : expect token (token :: rest) = some rest := if_pos rfl

theorem expect_eq (found : expect token given = some rest) : given = token :: rest := by
  cases given with
  | nil => cases found
  | cons next later =>
      simp only [expect] at found
      split at found
      · next same =>
          cases found
          rw [same]
      · cases found

structure ItemKind (item : Text → Token) (item? : Token → Option Text) : Prop where
  reads : ∀ text, item? (item text) = some text
  only : ∀ token text, item? token = some text → token = item text

theorem digit_kind : ItemKind .digit digit? := by
  refine ⟨fun _ => rfl,?_⟩
  intro token text found
  cases token <;> cases found
  rfl

theorem qstring_kind : ItemKind .qstring qstring? := by
  refine ⟨fun _ => rfl,?_⟩
  intro token text found
  cases token <;> cases found
  rfl

theorem commaList_complete (kind : ItemKind item item?) (first : Text) (more : List Text) (rest : List Token)
    (stops : rest.head? ≠ some (.char 44)) :
    commaList item? (listTokens item first more ++ rest) = some (first,more,rest) := by
  induction more generalizing first with
  | nil =>
      cases rest with
      | nil => simp [listTokens,commaList,kind.reads]
      | cons next later =>
          have different : next ≠ .char 44 := fun same => stops (by rw [same]; rfl)
          simp [listTokens,commaList,kind.reads,different]
  | cons second more ih =>
      have tail : commaList item? (item second :: (more.flatMap fun text => [.char 44,item text]) ++ rest) =
          some (second,more,rest) := ih second
      simp only [List.cons_append] at tail
      simp [listTokens,commaList,kind.reads,tail]


theorem commaList_sound (kind : ItemKind item item?) (given : List Token)
    (found : commaList item? given = some (first,more,rest)) : given = listTokens item first more ++ rest := by
  induction given using commaList.induct generalizing first more with
  | case1 => cases found
  | case2 token behind ih =>
      rw [commaList] at found
      obtain ⟨text,isItem,further⟩ := Option.bind_eq_some_iff.mp found
      obtain rfl := kind.only token text isItem
      cases behind with
      | nil =>
          cases further
          rfl
      | cons next later =>
          dsimp only at further
          split at further
          · next comma =>
              obtain ⟨⟨second,others,left⟩,list,same⟩ := Option.bind_eq_some_iff.mp further
              cases same
              rw [comma,ih list]
              rfl
          · cases further
            rfl

theorem commaListData_complete (value : Value) (rest : List Token) (list : ∃ first more, value = .numbers first more ∨
      value = .strings first more) :
    (do let (value,left) ← commaListData (← expect (.char 91) (value.tokens ++ rest))
        some (value,← expect (.char 93) left)) = some (value,rest) := by
  obtain ⟨first,more,rfl | rfl⟩ := list
  · have items := commaList_complete digit_kind first more (.char 93 :: rest) (by simp)
    simp [Value.tokens,commaListData,items]
  · have items := commaList_complete qstring_kind first more (.char 93 :: rest) (by simp)
    have other : commaList digit? (listTokens .qstring first more ++ .char 93 :: rest) = none := by
      simp [listTokens,commaList,digit?]
    simp [Value.tokens,commaListData,items,other]

theorem valueOf_complete (value : Value) (rest : List Token) : valueOf (value.tokens ++ rest) = some (value,rest) := by
  cases value with
  | number digits => rfl
  | string quoted => rfl
  | flag on => cases on <;> rfl
  | numbers first more => exact commaListData_complete (.numbers first more) rest ⟨first,more,.inl rfl⟩
  | strings first more => exact commaListData_complete (.strings first more) rest ⟨first,more,.inr rfl⟩

theorem commaListData_sound (found : commaListData given = some (value,.char 93 :: rest)) :
    .char 91 :: given = value.tokens ++ rest := by
  unfold commaListData at found
  split at found
  · next first more behind list =>
      cases found
      rw [commaList_sound digit_kind given list]
      simp [Value.tokens]
  · obtain ⟨⟨first,more,behind⟩,list,same⟩ := Option.map_eq_some_iff.mp found
    cases same
    rw [commaList_sound qstring_kind given list]
    simp [Value.tokens]

theorem valueOf_sound (given : List Token) (found : valueOf given = some (value,rest)) :
    given = value.tokens ++ rest := by
  unfold valueOf at found
  split at found
  · cases found; rfl
  · cases found; rfl
  · cases found; rfl
  · cases found; rfl
  · obtain ⟨inside,opened,further⟩ := Option.bind_eq_some_iff.mp found
    obtain ⟨⟨list,left⟩,items,closing⟩ := Option.bind_eq_some_iff.mp further
    obtain ⟨behind,closed,same⟩ := Option.bind_eq_some_iff.mp closing
    cases same
    rw [expect_eq closed] at items
    rw [expect_eq opened,commaListData_sound items]

theorem variableDefinition_complete (d : Definition) (rest : List Token) :
    variableDefinition (d.tokens ++ rest) = some (d,rest) := by
  have value := valueOf_complete d.value (.char 59 :: rest)
  simp [Definition.tokens,variableDefinition,value]

theorem variableDefinition_sound (given : List Token) (found : variableDefinition given = some (d,rest)) :
    given = d.tokens ++ rest := by
  unfold variableDefinition at found
  split at found
  · next key behind =>
      obtain ⟨inside,equals,further⟩ := Option.bind_eq_some_iff.mp found
      obtain ⟨⟨value,left⟩,read,closing⟩ := Option.bind_eq_some_iff.mp further
      obtain ⟨tail,closed,same⟩ := Option.bind_eq_some_iff.mp closing
      cases same
      rw [expect_eq equals,valueOf_sound inside read,expect_eq closed]
      simp [Definition.tokens]
  · cases found

theorem definitions_unique (one two : List Definition)
    (same : one.flatMap Definition.tokens = two.flatMap Definition.tokens) : one = two := by
  induction one generalizing two with
  | nil =>
      cases two with
      | nil => rfl
      | cons d rest => simp [Definition.tokens] at same
  | cons d rest ih =>
      cases two with
      | nil => simp [Definition.tokens] at same
      | cons d' rest' =>
          rw [List.flatMap_cons,List.flatMap_cons] at same
          have read := congrArg variableDefinition same
          rw [variableDefinition_complete,variableDefinition_complete] at read
          obtain ⟨rfl,tail⟩ := Prod.mk.inj (Option.some.inj read)
          rw [ih rest' tail]

theorem systemDefinitions_complete (d : Definition) (ds : List Definition) (enough : ds.length < left) (c : Config) :
    systemDefinitions left c ((d :: ds).flatMap Definition.tokens) = (d :: ds).foldlM reduceDefinition c := by
  induction ds generalizing d c left with
  | nil =>
      cases left with
      | zero => cases enough
      | succ left =>
          rw [List.flatMap_cons,systemDefinitions,variableDefinition_complete]
          simp
  | cons next ds ih =>
      cases left with
      | zero => cases enough
      | succ left =>
          rw [List.flatMap_cons,systemDefinitions,variableDefinition_complete]
          have present : (next :: ds).flatMap Definition.tokens ≠ [] := by simp [Definition.tokens]
          simp only [Option.bind_eq_bind,Option.bind_some,present,if_false,List.foldlM_cons]
          cases reduced : reduceDefinition c d with
          | none => rfl
          | some c' => exact ih next (Nat.lt_of_succ_lt_succ enough) c'

theorem systemDefinitions_sound (left : Nat) (c : Config) (given : List Token)
    (accepted : systemDefinitions left c given = some final) :
    ∃ ds, ds ≠ [] ∧ given = ds.flatMap Definition.tokens ∧ ds.foldlM reduceDefinition c = some final := by
  induction left generalizing c given with
  | zero => cases accepted
  | succ left ih =>
      rw [systemDefinitions] at accepted
      obtain ⟨⟨d,rest⟩,read,further⟩ := Option.bind_eq_some_iff.mp accepted
      obtain ⟨c',reduced,last⟩ := Option.bind_eq_some_iff.mp further
      have consumed := variableDefinition_sound given read
      split at last
      · next ended =>
          cases last
          refine ⟨[d],by simp,?_,by simp [reduced]⟩
          rw [consumed,ended]
          simp
      · obtain ⟨ds,_,rfl,folded⟩ := ih c' rest last
        exact ⟨d :: ds,by simp,by rw [consumed]; rfl,by simp [reduced,folded]⟩

end TcpProxy.Sysconf
