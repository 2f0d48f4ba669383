import Mathlib.Data.List.TakeWhile
import TcpProxy.Lib.LongestMatch
import TcpProxy.Utils

namespace TcpProxy.Sysconf
open LongestMatch

abbrev Text := List UInt8

-- Character classes of the lexer's definitions. A dot is any byte but newline.
def isBlank (c : UInt8) : Bool := c == 32 || c == 9
def isDot (c : UInt8) : Bool := c != 10
def isIdStart (c : UInt8) : Bool := c == 95 || (97 ≤ c && c ≤ 122) || (65 ≤ c && c ≤ 90)
def isDigit (c : UInt8) : Bool := 48 ≤ c && c ≤ 57
def isIdRest (c : UInt8) : Bool := c == 45 || isIdStart c || isDigit c
def isStringBody (c : UInt8) : Bool := c != 34 && c != 10

inductive Rule where
  | ws
  | comment
  | line
  | newline
  | ignored
  | on
  | off
  | id
  | string
  | digits
  | any
deriving DecidableEq, Repr

def rules : List Rule := [.ws,.comment,.line,.newline,.ignored,.on,.off,.id,.string,.digits,.any]

-- The length of a rule's longest match at the start of the input, 0 for none.
-- The rule `^.*` is tried only at the beginning of a line.
def Rule.matches (bol : Bool) (c : UInt8) (rest : Text) : Rule → Nat
  | .ws => if isBlank c then (rest.takeWhile isBlank).length+1 else 0
  | .comment => if c = 35 ∨ c = 47 ∧ rest.head? = some 47 then (rest.takeWhile isDot).length+1 else 0
  | .line => if bol ∧ isDot c then (rest.takeWhile isDot).length+1 else 0
  | .newline => if c = 10 then 1 else 0
  | .ignored => if c = 26 ∨ c = 13 then 1 else 0
  | .on => if c = 111 ∧ rest.head? = some 110 then 2 else 0
  | .off => if c = 111 ∧ rest.take 2 = [102,102] then 3 else 0
  | .id => if isIdStart c then (rest.takeWhile isIdRest).length+1 else 0
  | .string =>
    if c = 34 ∧ (rest.dropWhile isStringBody).head? = some 34 then (rest.takeWhile isStringBody).length+2 else 0
  | .digits => if isDigit c then (rest.takeWhile isDigit).length+1 else 0
  | .any => if isDot c then 1 else 0

def Rule.length (bol : Bool) (input : Text) (rule : Rule) : Nat :=
  match input with
  | [] => 0
  | c :: rest => rule.matches bol c rest

structure Lexeme where
  rule : Rule
  text : Text
deriving DecidableEq, Repr

@[irreducible] def chooseRule (bol : Bool) (input : Text) : Option (Rule × Nat) := choose (Rule.length bol input) rules

-- The scanner from one match to the next, up to the end of the file. The line
-- is pushed back with yyless(0), and what is scanned again is not at the
-- beginning of a line: yy_at_bol was set from the last byte of the match.
def scan : Nat → Bool → Text → List Lexeme
  | 0,_,_ => []
  | left+1,bol,input =>
    match chooseRule bol input with
    | none => []
    | some (rule,n) =>
      if rule = .line then scan left false input
      else ⟨rule,input.take n⟩ :: scan left (rule = .newline) (input.drop n)

def lexemes (input : Text) : List Lexeme := scan (2*input.length+1) true input

inductive Token where
  | rwFlagOn
  | rwFlagOff
  | identifier (text : Text)
  | qstring (text : Text)
  | digit (text : Text)
  | char (c : UInt8)
deriving DecidableEq, Repr

def Lexeme.token (lexeme : Lexeme) : Option Token :=
  match lexeme.rule with
  | .ws | .comment | .line | .newline | .ignored => none
  | .on => some .rwFlagOn
  | .off => some .rwFlagOff
  | .id => some (.identifier lexeme.text)
  | .string => some (.qstring lexeme.text)
  | .digits => some (.digit lexeme.text)
  | .any => lexeme.text.head?.map .char

def tokens (input : Text) : List Token := (lexemes input).filterMap Lexeme.token

theorem chooseRule_def (bol : Bool) (input : Text) : chooseRule bol input = choose (Rule.length bol input) rules := by
  delta chooseRule
  rfl

theorem matched (chosen : chooseRule bol input = some (rule,n)) :
    n = rule.length bol input ∧ 0 < n := by
  rw [chooseRule_def] at chosen
  exact (choose_spec rules chosen).2

theorem length_nil (bol : Bool) (rule : Rule) : rule.length bol [] = 0 := rfl

theorem length_line (input : Text) : Rule.line.length false input = 0 := by
  cases input with
  | nil => rfl
  | cons c rest => simp [Rule.length,Rule.matches]

theorem length_bol (rule : Rule) (different : rule ≠ .line) (input : Text) :
    rule.length true input = rule.length false input := by
  cases input with
  | nil => rfl
  | cons c rest => cases rule <;> first | rfl | exact absurd rfl different

theorem drop_shorter (chosen : chooseRule bol input = some (rule,n)) :
    (input.drop n).length < input.length := by
  have positive := (matched chosen).2
  cases input with
  | nil =>
      obtain ⟨same,_⟩ := matched chosen
      rw [length_nil] at same
      omega
  | cons c rest =>
      rw [List.length_drop]
      exact Nat.sub_lt (Nat.zero_lt_succ _) positive

theorem chooseRule_nil (bol : Bool) : chooseRule bol [] = none := by
  cases chosen : chooseRule bol [] with
  | none => rfl
  | some found =>
      obtain ⟨same,positive⟩ := matched chosen
      rw [length_nil] at same
      omega

theorem scan_nil (left : Nat) (bol : Bool) : scan left bol [] = [] := by
  cases left with
  | zero => rfl
  | succ left => rw [scan,chooseRule_nil]

-- Two units of fuel a byte are enough: a match that is pushed back is followed
-- by one that is not.
theorem scan_enough (bol : Bool) (input : Text) (one : 2*input.length + bol.toNat ≤ left)
    (two : 2*input.length + bol.toNat ≤ right) : scan left bol input = scan right bol input := by
  induction left generalizing bol input right with
  | zero =>
      obtain rfl : input = [] := List.eq_nil_of_length_eq_zero (by omega)
      rw [scan_nil,scan_nil]
  | succ left ih =>
      cases right with
      | zero =>
          obtain rfl : input = [] := List.eq_nil_of_length_eq_zero (by omega)
          rw [scan_nil,scan_nil]
      | succ right =>
          simp only [scan]
          cases chosen : chooseRule bol input with
          | none => rfl
          | some found =>
              obtain ⟨rule,n⟩ := found
              have shorter := drop_shorter chosen
              dsimp only
              split
              · next line =>
                  subst line
                  obtain ⟨same,positive⟩ := matched chosen
                  cases bol with
                  | false =>
                      rw [length_line] at same
                      omega
                  | true =>
                      rw [Bool.toNat_true] at one two
                      exact ih false input (by rw [Bool.toNat_false]; omega) (by rw [Bool.toNat_false]; omega)
              · have unit := Bool.toNat_le (decide (rule = .newline))
                exact congrArg _ (ih _ _ (by omega) (by omega))

theorem chooseRule_bol (input : Text) :
    (∃ n, chooseRule true input = some (.line,n)) ∨ chooseRule true input = chooseRule false input := by
  rw [chooseRule_def,chooseRule_def]
  exact choose_raise Rule.line (length_line input) (fun r different => length_bol r different input) rules

theorem scan_bol (input : Text) : scan (2*input.length+1) true input = scan (2*input.length) false input := by
  rcases chooseRule_bol input with ⟨n,found⟩ | same
  · rw [scan,found]
    rfl
  · rw [← scan_enough false input (show 2*input.length + false.toNat ≤ 2*input.length+1 by simp) (by simp),scan,scan,same]

-- The scanner without the beginning of a line: the pushed back line is scanned
-- as if the rule were not there.
theorem lexemes_eq (input : Text) :
    lexemes input = match chooseRule false input with
      | none => []
      | some (rule,n) => ⟨rule,input.take n⟩ :: lexemes (input.drop n) := by
  rw [lexemes,scan_bol,scan_enough false input (show 2*input.length + false.toNat ≤ 2*input.length by simp)
    (show 2*input.length + false.toNat ≤ 2*input.length+1 by simp),scan]
  cases chosen : chooseRule false input with
  | none => rfl
  | some found =>
      obtain ⟨rule,n⟩ := found
      have shorter := drop_shorter chosen
      have later : ∀ bol, scan (2*input.length) bol (input.drop n) = lexemes (input.drop n) := by
        intro bol
        rw [lexemes,scan_bol]
        cases bol with
        | false => exact scan_enough false _ (by rw [Bool.toNat_false]; omega) (by simp)
        | true =>
            rw [← scan_bol]
            exact scan_enough true _ (by rw [Bool.toNat_true]; omega) (by simp)
      have different : rule ≠ .line := by
        rintro rfl
        obtain ⟨zero,positive⟩ := matched chosen
        rw [length_line] at zero
        omega
      dsimp only
      rw [if_neg different,later]

theorem lexemes_nil : lexemes [] = [] := scan_nil _ _

theorem lexemes_cons (chosen : chooseRule false input = some (rule,n)) :
    lexemes input = ⟨rule,input.take n⟩ :: lexemes (input.drop n) := by
  rw [lexemes_eq,chosen]


variable {c : UInt8} {rest : Text}

theorem chooseRule_eq (before : List Rule) (rule : Rule) (after : List Rule) (split : rules = before ++ rule :: after)
    (present : 0 < rule.matches false c rest) (shorter : ∀ r ∈ before, r.matches false c rest < rule.matches false c rest)
    (later : ∀ r ∈ after, r.matches false c rest ≤ rule.matches false c rest) :
    chooseRule false (c :: rest) = some (rule,rule.matches false c rest) := by
  rw [chooseRule_def,split]
  exact choose_eq before rule after present shorter later

theorem chooseRule_blank (blank : isBlank c) (rest : Text) :
    chooseRule false (c :: rest) = some (.ws,(rest.takeWhile isBlank).length+1) := by
  obtain rfl | rfl : c = 32 ∨ c = 9 := by simpa [isBlank] using blank
  all_goals
    refine chooseRule_eq [] .ws _ rfl (Nat.succ_pos _) (by simp) ?_
    simp [Rule.matches,isBlank,isDot,isIdStart,isDigit]

theorem chooseRule_comment (begins : c = 35 ∨ c = 47 ∧ rest.head? = some 47) :
    chooseRule false (c :: rest) = some (.comment,(rest.takeWhile isDot).length+1) := by
  have length : Rule.comment.matches false c rest = (rest.takeWhile isDot).length+1 := if_pos begins
  have found := @chooseRule_eq c rest [.ws] .comment
    [.line,.newline,.ignored,.on,.off,.id,.string,.digits,.any] rfl
  rw [length] at found
  refine found (Nat.succ_pos _) ?_ ?_
  all_goals
    rcases begins with rfl | ⟨rfl,_⟩
    all_goals simp [Rule.matches,isBlank,isDot,isIdStart,isDigit]

theorem chooseRule_newline (rest : Text) : chooseRule false (10 :: rest) = some (.newline,1) := by
  refine chooseRule_eq [.ws,.comment,.line] .newline _ rfl (by simp [Rule.matches]) ?_ ?_
  · simp [Rule.matches,isBlank]
  · simp [Rule.matches,isIdStart,isDigit,isDot]

theorem chooseRule_ignored (skipped : c = 26 ∨ c = 13) (rest : Text) :
    chooseRule false (c :: rest) = some (.ignored,1) := by
  rcases skipped with rfl | rfl
  all_goals
    refine chooseRule_eq [.ws,.comment,.line,.newline] .ignored _ rfl (by simp [Rule.matches]) ?_ ?_
    all_goals simp [Rule.matches,isBlank,isIdStart,isDigit,isDot]

theorem idStart_facts (start : isIdStart c) :
    isBlank c = false ∧ isDigit c = false ∧ isDot c = true ∧ c ≠ 35 ∧ c ≠ 47 ∧ c ≠ 10 ∧ c ≠ 26 ∧ c ≠ 13 ∧ c ≠ 34 := by
  simp only [isIdStart,isBlank,isDigit,isDot] at *
  refine ⟨?_,?_,?_,?_,?_,?_,?_,?_,?_⟩ <;> grind

theorem digit_facts (digit : isDigit c) :
    isBlank c = false ∧ isIdStart c = false ∧ isDot c = true ∧ c ≠ 35 ∧ c ≠ 47 ∧ c ≠ 10 ∧ c ≠ 26 ∧ c ≠ 13 ∧ c ≠ 34 ∧
      c ≠ 111 := by
  simp only [isIdStart,isBlank,isDigit,isDot] at *
  refine ⟨?_,?_,?_,?_,?_,?_,?_,?_,?_,?_⟩ <;> grind

theorem chooseRule_digits (digit : isDigit c) (rest : Text) :
    chooseRule false (c :: rest) = some (.digits,(rest.takeWhile isDigit).length+1) := by
  obtain ⟨blank,start,dot,hash,slash,newline,ignored,ignored',quote,o⟩ := digit_facts digit
  have length : Rule.digits.matches false c rest = (rest.takeWhile isDigit).length+1 := if_pos digit
  have found := @chooseRule_eq c rest [.ws,.comment,.line,.newline,.ignored,.on,.off,.id,.string] .digits [.any] rfl
  rw [length] at found
  refine found (Nat.succ_pos _) ?_ ?_
  all_goals simp [Rule.matches,blank,start,dot,hash,slash,newline,ignored,ignored',quote,o]

theorem chooseRule_string (closed : (rest.dropWhile isStringBody).head? = some 34) :
    chooseRule false (34 :: rest) = some (.string,(rest.takeWhile isStringBody).length+2) := by
  have length : Rule.string.matches false 34 rest = (rest.takeWhile isStringBody).length+2 := if_pos ⟨rfl,closed⟩
  have found := @chooseRule_eq 34 rest [.ws,.comment,.line,.newline,.ignored,.on,.off,.id] .string [.digits,.any] rfl
  rw [length] at found
  refine found (Nat.succ_pos _) ?_ ?_
  all_goals simp [Rule.matches,isBlank,isIdStart,isDigit,isDot]

def isAlone (c : UInt8) (rest : Text) : Prop :=
  isBlank c = false ∧ isIdStart c = false ∧ isDigit c = false ∧ c ≠ 10 ∧ c ≠ 26 ∧ c ≠ 13 ∧ c ≠ 35 ∧
    ¬ (c = 47 ∧ rest.head? = some 47) ∧ ¬ (c = 34 ∧ (rest.dropWhile isStringBody).head? = some 34)

theorem chooseRule_any (alone : isAlone c rest) : chooseRule false (c :: rest) = some (.any,1) := by
  obtain ⟨blank,start,digit,newline,ignored,ignored',hash,comment,string⟩ := alone
  have o : c ≠ 111 := by
    rintro rfl
    exact absurd start (by decide)
  have length : Rule.any.matches false c rest = 1 := if_pos (by simp [isDot,newline])
  have found := @chooseRule_eq c rest [.ws,.comment,.line,.newline,.ignored,.on,.off,.id,.string,.digits] .any [] rfl
  rw [length] at found
  refine found (Nat.succ_pos _) ?_ ?_
  all_goals simp [Rule.matches,blank,start,digit,newline,ignored,ignored',hash,comment,string,o]

-- The rule of a word: the keywords come before the identifiers of their length.
def wordRule (word : Text) : Rule := if word = [111,110] then .on else if word = [111,102,102] then .off else .id

theorem on_word (word : c :: rest.takeWhile isIdRest = [111,110]) :
    Rule.on.matches false c rest = 2 ∧ Rule.off.matches false c rest = 0 := by
  have whole : rest.takeWhile isIdRest ++ rest.dropWhile isIdRest = rest := List.takeWhile_append_dropWhile
  obtain ⟨rfl,tail⟩ := List.cons.inj word
  rw [tail] at whole
  exact ⟨if_pos ⟨rfl,by rw [← whole]; rfl⟩,if_neg (by rw [← whole]; simp)⟩

theorem off_word (word : c :: rest.takeWhile isIdRest = [111,102,102]) :
    Rule.off.matches false c rest = 3 ∧ Rule.on.matches false c rest = 0 := by
  have whole : rest.takeWhile isIdRest ++ rest.dropWhile isIdRest = rest := List.takeWhile_append_dropWhile
  obtain ⟨rfl,tail⟩ := List.cons.inj word
  rw [tail] at whole
  exact ⟨if_pos ⟨rfl,by rw [← whole]; rfl⟩,if_neg (by rw [← whole]; simp)⟩

-- A longer word only begins with the keyword.
theorem on_shorter (word : c :: rest.takeWhile isIdRest ≠ [111,110]) :
    Rule.on.matches false c rest < (rest.takeWhile isIdRest).length+1 := by
  simp only [Rule.matches]
  split
  · next both =>
      obtain ⟨rfl,head⟩ := both
      obtain ⟨r,rfl⟩ := List.head?_eq_some_iff.mp head
      rw [List.takeWhile_cons_of_pos (by decide)] at word ⊢
      cases more : r.takeWhile isIdRest with
      | nil => exact absurd (by rw [more]) word
      | cons d ds => simp
  · exact Nat.succ_pos _

theorem off_shorter (word : c :: rest.takeWhile isIdRest ≠ [111,102,102]) :
    Rule.off.matches false c rest < (rest.takeWhile isIdRest).length+1 := by
  simp only [Rule.matches]
  split
  · next both =>
      obtain ⟨rfl,two⟩ := both
      obtain ⟨r,rfl⟩ : ∃ r, rest = 102 :: 102 :: r := ⟨rest.drop 2,by
        conv_lhs => rw [← List.take_append_drop 2 rest,two]
        rfl⟩
      rw [List.takeWhile_cons_of_pos (by decide),List.takeWhile_cons_of_pos (by decide)] at word ⊢
      cases more : r.takeWhile isIdRest with
      | nil => exact absurd (by rw [more]) word
      | cons d ds => simp
  · exact Nat.succ_pos _

theorem chooseRule_word (start : isIdStart c) (rest : Text) :
    chooseRule false (c :: rest) =
      some (wordRule (c :: rest.takeWhile isIdRest),(rest.takeWhile isIdRest).length+1) := by
  obtain ⟨blank,digit,dot,hash,slash,newline,ignored,ignored',quote⟩ := idStart_facts start
  have plain : ∀ r ∈ [Rule.ws,.comment,.line,.newline,.ignored,.string,.digits], r.matches false c rest = 0 := by
    simp [Rule.matches,blank,digit,hash,slash,newline,ignored,ignored',quote]
  have single : Rule.any.matches false c rest = 1 := if_pos dot
  have idMatches : Rule.id.matches false c rest = (rest.takeWhile isIdRest).length+1 := if_pos start
  simp only [List.forall_mem_cons] at plain
  by_cases isOn : c :: rest.takeWhile isIdRest = [111,110]
  · have found := @chooseRule_eq c rest [.ws,.comment,.line,.newline,.ignored] .on [.off,.id,.string,.digits,.any] rfl
    obtain ⟨length,off⟩ := on_word isOn
    obtain ⟨rfl,tail⟩ := List.cons.inj isOn
    rw [tail] at idMatches ⊢
    rw [length] at found
    refine found (by decide) ?_ ?_
    · simp [plain]
    · simp [plain,off,idMatches,single]
  · by_cases isOff : c :: rest.takeWhile isIdRest = [111,102,102]
    · have found := @chooseRule_eq c rest [.ws,.comment,.line,.newline,.ignored,.on] .off [.id,.string,.digits,.any] rfl
      obtain ⟨length,onMatches⟩ := off_word isOff
      obtain ⟨rfl,tail⟩ := List.cons.inj isOff
      rw [tail] at idMatches ⊢
      rw [length] at found
      refine found (by decide) ?_ ?_
      · simp [plain,onMatches]
      · simp [plain,idMatches,single]
    · have found := @chooseRule_eq c rest [.ws,.comment,.line,.newline,.ignored,.on,.off] .id [.string,.digits,.any] rfl
      rw [idMatches] at found
      rw [wordRule,if_neg isOn,if_neg isOff]
      refine found (Nat.succ_pos _) ?_ ?_
      · simp only [List.forall_mem_cons,plain,Nat.succ_pos,true_and]
        exact ⟨on_shorter isOn,off_shorter isOff,by simp⟩
      · simp [plain,single]

theorem drop_takeWhile (p : UInt8 → Bool) (input : Text) :
    input.drop (input.takeWhile p).length = input.dropWhile p := by
  calc input.drop (input.takeWhile p).length
      = (input.takeWhile p ++ input.dropWhile p).drop (input.takeWhile p).length := by
        rw [List.takeWhile_append_dropWhile]
    _ = input.dropWhile p := List.drop_left

theorem take_takeWhile (p : UInt8 → Bool) (input : Text) :
    input.take (input.takeWhile p).length = input.takeWhile p := by
  calc input.take (input.takeWhile p).length
      = (input.takeWhile p ++ input.dropWhile p).take (input.takeWhile p).length := by
        rw [List.takeWhile_append_dropWhile]
    _ = input.takeWhile p := List.take_left

theorem tokens_nil : tokens [] = [] := by rw [tokens,lexemes_nil]; rfl

theorem tokens_cons (chosen : chooseRule false input = some (rule,n)) :
    tokens input = (Lexeme.token ⟨rule,input.take n⟩).toList ++ tokens (input.drop n) := by
  rw [tokens,lexemes_cons chosen,tokens]
  cases found : Lexeme.token ⟨rule,input.take n⟩ with
  | none => rw [List.filterMap_cons_none found]; rfl
  | some token => rw [List.filterMap_cons_some found]; rfl

theorem tokens_blanks (input : Text) : tokens input = tokens (input.dropWhile isBlank) := by
  cases input with
  | nil => rfl
  | cons c rest =>
      by_cases blank : isBlank c
      · rw [tokens_cons (chooseRule_blank blank rest),List.drop_succ_cons,drop_takeWhile,List.dropWhile_cons_of_pos blank]
        rfl
      · rw [List.dropWhile_cons_of_neg blank]

theorem tokens_blank (blank : isBlank c) (rest : Text) : tokens (c :: rest) = tokens rest := by
  rw [tokens_blanks (c :: rest),List.dropWhile_cons_of_pos blank,← tokens_blanks]

theorem tokens_comment (begins : c = 35 ∨ c = 47 ∧ rest.head? = some 47) :
    tokens (c :: rest) = tokens (rest.dropWhile isDot) := by
  rw [tokens_cons (chooseRule_comment begins),List.drop_succ_cons,drop_takeWhile]
  rfl

theorem tokens_newline (rest : Text) : tokens (10 :: rest) = tokens rest := tokens_cons (chooseRule_newline rest)

theorem tokens_ignored (skipped : c = 26 ∨ c = 13) (rest : Text) : tokens (c :: rest) = tokens rest :=
  tokens_cons (chooseRule_ignored skipped rest)

def wordToken (word : Text) : Token :=
  if word = [111,110] then .rwFlagOn else if word = [111,102,102] then .rwFlagOff else .identifier word

theorem wordRule_token (word : Text) : Lexeme.token ⟨wordRule word,word⟩ = some (wordToken word) := by
  unfold wordRule wordToken
  split
  · rfl
  · split
    · rfl
    · rfl

theorem tokens_word (start : isIdStart c) (rest : Text) :
    tokens (c :: rest) = wordToken (c :: rest.takeWhile isIdRest) :: tokens (rest.dropWhile isIdRest) := by
  rw [tokens_cons (chooseRule_word start rest),List.drop_succ_cons,List.take_succ_cons,drop_takeWhile,take_takeWhile,
    wordRule_token]
  rfl

theorem tokens_digits (digit : isDigit c) (rest : Text) :
    tokens (c :: rest) = .digit (c :: rest.takeWhile isDigit) :: tokens (rest.dropWhile isDigit) := by
  rw [tokens_cons (chooseRule_digits digit rest),List.drop_succ_cons,List.take_succ_cons,drop_takeWhile,take_takeWhile]
  rfl

theorem tokens_string (body rest : Text) (inside : ∀ d ∈ body, isStringBody d) :
    tokens (34 :: body ++ 34 :: rest) = .qstring (34 :: body ++ [34]) :: tokens rest := by
  have taken : (body ++ 34 :: rest).takeWhile isStringBody = body := by
    rw [List.takeWhile_append_of_pos inside,List.takeWhile_cons_of_neg (by decide),List.append_nil]
  have dropped : (body ++ 34 :: rest).dropWhile isStringBody = 34 :: rest := by
    rw [List.dropWhile_append_of_pos inside,List.dropWhile_cons_of_neg (by decide)]
  have chosen := @chooseRule_string (body ++ 34 :: rest) (by rw [dropped]; rfl)
  rw [taken] at chosen
  rw [List.cons_append,tokens_cons chosen]
  simp [Lexeme.token,List.take_append,List.drop_append,List.take_of_length_le,List.drop_of_length_le]

theorem tokens_any (alone : isAlone c rest) : tokens (c :: rest) = .char c :: tokens rest :=
  tokens_cons (chooseRule_any alone)

theorem closed_split (closed : (rest.dropWhile isStringBody).head? = some 34) :
    ∃ body tail, rest = body ++ 34 :: tail ∧ ∀ d ∈ body, isStringBody d := by
  obtain ⟨tail,same⟩ := List.head?_eq_some_iff.mp closed
  refine ⟨rest.takeWhile isStringBody,tail,?_,fun d member => List.mem_takeWhile_imp member⟩
  rw [← same]
  exact List.takeWhile_append_dropWhile.symm

theorem head_cases (c : UInt8) (rest : Text) :
    isBlank c ∨ (c = 35 ∨ c = 47 ∧ rest.head? = some 47) ∨ c = 10 ∨ (c = 26 ∨ c = 13) ∨ isIdStart c ∨ isDigit c ∨
      (c = 34 ∧ (rest.dropWhile isStringBody).head? = some 34) ∨ isAlone c rest := by
  simp only [isAlone,← Bool.not_eq_true]
  tauto

theorem chooseRule_some (c : UInt8) (rest : Text) : ∃ rule n, chooseRule false (c :: rest) = some (rule,n) := by
  rcases head_cases c rest with blank | begins | rfl | skipped | start | digit | ⟨rfl,closed⟩ | alone
  · exact ⟨_,_,chooseRule_blank blank rest⟩
  · exact ⟨_,_,chooseRule_comment begins⟩
  · exact ⟨_,_,chooseRule_newline rest⟩
  · exact ⟨_,_,chooseRule_ignored skipped rest⟩
  · exact ⟨_,_,chooseRule_word start rest⟩
  · exact ⟨_,_,chooseRule_digits digit rest⟩
  · exact ⟨_,_,chooseRule_string closed⟩
  · exact ⟨_,_,chooseRule_any alone⟩

theorem input_induction {holds : Text → Prop} (empty : holds [])
    (byte : ∀ c rest, (∀ later : Text, later.length ≤ rest.length → holds later) → holds (c :: rest)) (input : Text) :
    holds input := by
  induction size : input.length using Nat.strongRecOn generalizing input with
  | ind n ih =>
      cases input with
      | nil => exact empty
      | cons c rest =>
          refine byte c rest fun later shorter => ih later.length ?_ later rfl
          rw [List.length_cons] at size
          omega

-- Nothing of the input is left out: the matches follow each other.
theorem lexemes_text (input : Text) : (lexemes input).flatMap Lexeme.text = input := by
  induction input using input_induction with
  | empty => rw [lexemes_nil]; rfl
  | byte c rest ih =>
      obtain ⟨rule,n,chosen⟩ := chooseRule_some c rest
      have shorter := drop_shorter chosen
      rw [lexemes_cons chosen,List.flatMap_cons,ih _ (Nat.le_of_lt_succ shorter)]
      exact List.take_append_drop n (c :: rest)

def Token.Lexed : Token → Prop
  | .identifier text =>
    ∃ c rest, text = c :: rest ∧ isIdStart c ∧ (∀ d ∈ rest, isIdRest d) ∧ text ≠ [111,110] ∧ text ≠ [111,102,102]
  | .qstring text => ∃ body, text = 34 :: body ++ [34] ∧ ∀ d ∈ body, isStringBody d
  | .digit text => text ≠ [] ∧ ∀ d ∈ text, isDigit d
  | _ => True

theorem wordToken_lexed (start : isIdStart c) (rest : Text) :
    (wordToken (c :: rest.takeWhile isIdRest)).Lexed := by
  unfold wordToken
  split
  · trivial
  · split
    · trivial
    · exact ⟨c,_,rfl,start,fun d member => List.mem_takeWhile_imp member,by assumption,by assumption⟩

theorem tokens_lexed (input : Text) : ∀ token ∈ tokens input, token.Lexed := by
  induction input using input_induction with
  | empty =>
      rw [tokens_nil]
      intro token member
      cases member
  | byte c rest ih =>
      have shorter : ∀ p : UInt8 → Bool, (rest.dropWhile p).length ≤ rest.length := fun p => List.length_dropWhile_le p rest
      rcases head_cases c rest with blank | begins | rfl | skipped | start | digit | ⟨rfl,closed⟩ | alone
      · rw [tokens_blank blank]
        exact ih rest (Nat.le_refl _)
      · rw [tokens_comment begins]
        exact ih _ (shorter _)
      · rw [tokens_newline]
        exact ih rest (Nat.le_refl _)
      · rw [tokens_ignored skipped]
        exact ih rest (Nat.le_refl _)
      · rw [tokens_word start]
        exact List.forall_mem_cons.mpr ⟨wordToken_lexed start rest,ih _ (shorter _)⟩
      · rw [tokens_digits digit]
        refine List.forall_mem_cons.mpr ⟨⟨by simp,?_⟩,ih _ (shorter _)⟩
        exact List.forall_mem_cons.mpr ⟨digit,fun d member => List.mem_takeWhile_imp member⟩
      · obtain ⟨body,tail,rfl,inside⟩ := closed_split closed
        rw [← List.cons_append,tokens_string body tail inside]
        refine List.forall_mem_cons.mpr ⟨⟨body,rfl,inside⟩,ih _ ?_⟩
        rw [List.length_append,List.length_cons]
        omega
      · rw [tokens_any alone]
        exact List.forall_mem_cons.mpr ⟨trivial,ih rest (Nat.le_refl _)⟩

end TcpProxy.Sysconf
