import TcpProxy.CommandLine.Dispatch
import TcpProxy.CommandLine.Handlers

namespace TcpProxy.CommandLine
open SiblingTree

variable {Func : Type}

-- n is an int that becomes a size_t.
def strncmp (a b : Text) (n : Int) : Bool := a.take (n % 2^64).toNat = b.take (n % 2^64).toNat

structure Hint where
  format : String
  nargs : Option Int
  doc : Text
deriving DecidableEq, Repr

-- The static variables of the two generators that are read in a later call than
-- they are written in, and what has been printed.
structure Generators (Func : Type) where
  entryLen : Int
  cptr : CommandTree Func
  generatorLen : Int
  ptr : CommandTree Func
  printed : List Hint
deriving DecidableEq, Repr

def Command.hint (command : Command Func) : Hint :=
  if command.nargs = 0 then ⟨"\n   <cr>\t\t%s\n",none,command.doc.getD []⟩
  else ⟨"\n   [%d args]\t\t%s\n",some command.nargs,command.doc.getD []⟩

-- The loop of both generators, and where their pointer is left.
def nextMatch (text : Text) (len : Int) : CommandTree Func → Option Text × CommandTree Func
  | .null => (none,.null)
  | .node name _ _ next => if strncmp name text len then (some name,next) else nextMatch text len next

def Generators.entry (s : Generators Func) (text : Text) : Option Text × Generators Func :=
  let found := nextMatch text s.entryLen s.cptr
  (found.1,{s with cptr := found.2})

def entryCompletion (root : CommandTree Func) (rlLineBuffer text : Text) (state : Nat) (s : Generators Func) :
    Option Text × Generators Func :=
  if state = 0 then
    let iwds := nofwords text
    let wds : Int := nofwords rlLineBuffer - iwds
    let s := {s with entryLen := toInt32 text.length, cptr := findMatchCommand rlLineBuffer wds root}
    match s.cptr with
    | .null => s.entry text
    | .node _ command .null _ => (none,if iwds = 0 then {s with printed := s.printed ++ [command.hint]} else s)
    | .node _ _ subcmd _ => {s with cptr := subcmd}.entry text
  else s.entry text

def commandGenerator (root : CommandTree Func) (text : Text) (state : Nat) (s : Generators Func) :
    Option Text × Generators Func :=
  let s := if state = 0 then {s with generatorLen := toInt32 text.length, ptr := root} else s
  let found := nextMatch text s.generatorLen s.ptr
  (found.1,{s with ptr := found.2})

-- readline's own loop: a generator is called with 0, 1, 2, ... until it returns NULL.
def rlCompletionMatches {S : Type} (generator : Nat → S → Option Text × S) : Nat → Nat → S → Option (List Text × S)
  | 0,_,_ => none
  | calls+1,state,s =>
    match generator state s with
    | (none,s) => some ([],s)
    | (some word,s) => (rlCompletionMatches generator calls (state+1) s).map fun found => (word :: found.1,found.2)

def commandCompletion (root : CommandTree Func) (calls : Nat) (text : Text) (start : Nat) (s : Generators Func) :
    Option (List Text × Generators Func) :=
  if start = 0 then rlCompletionMatches (commandGenerator root text) calls 0 s else some ([],s)

-- readline asks for the text of its line buffer that begins at `start`, and where
-- rl_attempted_completion_function has nothing, rl_completion_entry_function.
def rlComplete (root : CommandTree Func) (calls : Nat) (rlLineBuffer text : Text) (start : Nat) (s : Generators Func) :
    Option (List Text × Generators Func) :=
  match commandCompletion root calls text start s with
  | some ([],s) => rlCompletionMatches (entryCompletion root rlLineBuffer text) calls 0 s
  | found => found

inductive Help where
  | subcmds (names : List Text)
  | unrecognized
  | nothing
deriving DecidableEq, Repr

def showSubcmd (subcmd : CommandTree Func) : Help := .subcmds subcmd.keys

def findMatchCommands (root : CommandTree Func) (cmd : Text) : Help :=
  let found := findMatchAsPossible cmd root
  let i := (found.map Prod.snd).getD 0
  if cmd = [] ∧ i = 0 then showSubcmd root
  else
    match found with
    | none => .unrecognized
    | some (command,i) =>
      match funcOf command with
      | none => if i = nofwords cmd then showSubcmd command.child else .unrecognized
      | some _ => .nothing

def context (line text : Text) : List Text := (scannedWords line).take (nofwords line - nofwords text)

def offers (text : Text) (siblings : CommandTree Func) : List Text := siblings.keys.filter fun name => text <+: name

-- readline gets these words, after which a hint is printed or not, in however
-- many calls it may make from a number on; earlier completions do not matter.
def Completed (root : CommandTree Func) (line text : Text) (start : Nat) (offered : List Text) (hints : List Hint) : Prop :=
  ∀ s, ∃ s', s'.printed = s.printed ++ hints ∧
    ∃ enough, ∀ calls ≥ enough, rlComplete root calls line text start s = some (offered,s')

theorem strncmp_starts (short : text.length < 2^31) (name : Text) :
    strncmp name text (toInt32 text.length) = decide (text <+: name) := by
  have length : (toInt32 text.length % 2^64).toNat = text.length := by
    rw [toInt32_eq (by omega) (by omega)]
    omega
  rw [strncmp,length,List.take_length,decide_eq_decide,List.prefix_iff_eq_take]
  exact eq_comm

-- One call of a generator whose later calls give `rest s`: the end, or a word
-- and what comes behind it.
def Produces {S : Type} (kept : S → Prop) (rest : S → List Text) (all : List Text) (call : Option Text × S) : Prop :=
  kept call.2 ∧ match call.1 with
    | none => all = []
    | some word => all = word :: rest call.2

theorem rlCompletionMatches_all {S : Type} {s : S} {all : List Text} {kept : S → Prop} {rest : S → List Text}
    (generator : Nat → S → Option Text × S) (state : Nat)
    (later : ∀ state s, kept s → Produces kept rest (rest s) (generator (state+1) s))
    (first : Produces kept rest all (generator state s)) :
    ∃ s', kept s' ∧ ∀ calls ≥ all.length+1, rlCompletionMatches generator calls state s = some (all,s') := by
  induction all generalizing state s with
  | nil =>
      cases called : generator state s with
      | mk word s' =>
          rw [called] at first
          cases word with
          | none =>
              refine ⟨s',first.1,fun calls more => ?_⟩
              obtain ⟨calls,rfl⟩ : ∃ fewer, calls = fewer+1 := ⟨calls-1,by omega⟩
              rw [rlCompletionMatches,called]
          | some word => cases first.2
  | cons next all ih =>
      cases called : generator state s with
      | mk word s' =>
          rw [called] at first
          cases word with
          | none => cases first.2
          | some word =>
              have same : next :: all = word :: rest s' := first.2
              obtain ⟨rfl,rfl⟩ := List.cons.inj same
              obtain ⟨s'',kept'',further⟩ := ih (state+1) (later state s' first.1)
              refine ⟨s'',kept'',fun calls more => ?_⟩
              obtain ⟨calls,rfl⟩ : ∃ fewer, calls = fewer+1 := ⟨calls-1,by omega⟩
              have found := further calls (Nat.le_of_succ_le_succ more)
              rw [rlCompletionMatches,called]
              exact congrArg (Option.map fun found => (next :: found.1,found.2)) found

theorem nextMatch_offers (short : text.length < 2^31) (siblings : CommandTree Func) :
    match nextMatch text (toInt32 text.length) siblings with
    | (none,_) => offers text siblings = []
    | (some word,rest) => offers text siblings = word :: offers text rest := by
  induction siblings with
  | null => rfl
  | node name command subcmd next _ ih =>
      rw [nextMatch,strncmp_starts short]
      by_cases starts : text <+: name
      · simp [offers,Pointer.keys,starts]
      · simpa [offers,Pointer.keys,starts] using ih

theorem nextMatch_produces (short : text.length < 2^31) (length : len = toInt32 text.length)
    {kept : Generators Func → Prop} {pointer : Generators Func → CommandTree Func} (moved : CommandTree Func → Generators Func)
    (keeps : ∀ remaining, kept (moved remaining)) (points : ∀ remaining, pointer (moved remaining) = remaining) (siblings : CommandTree Func) :
    Produces kept (fun now => offers text (pointer now)) (offers text siblings)
      ((nextMatch text len siblings).1,moved (nextMatch text len siblings).2) := by
  have found := nextMatch_offers short siblings
  rw [← length] at found
  refine ⟨keeps _,?_⟩
  cases called : nextMatch text len siblings with
  | mk word remaining =>
      rw [called] at found
      cases word with
      | none => exact found
      | some word => exact found.trans (congrArg (fun remaining => word :: offers text remaining) (points remaining).symm)

theorem commandGenerator_all (short : text.length < 2^31) (root : CommandTree Func) (s : Generators Func) :
    ∃ s', s'.printed = s.printed ∧ ∀ calls ≥ (offers text root).length+1,
      rlCompletionMatches (commandGenerator root text) calls 0 s = some (offers text root,s') := by
  let kept (now : Generators Func) : Prop := now.generatorLen = toInt32 text.length ∧ now.printed = s.printed
  have next : ∀ now, kept now → Produces kept (fun now => offers text now.ptr) (offers text now.ptr)
      ((nextMatch text now.generatorLen now.ptr).1,{now with ptr := (nextMatch text now.generatorLen now.ptr).2}) := by
    intro now same
    exact nextMatch_produces short same.1 (fun remaining => {now with ptr := remaining}) (fun _ => same) (fun _ => rfl) now.ptr
  have asked : kept {s with generatorLen := toInt32 text.length, ptr := root} := by simp only [kept,and_self]
  have first := next _ asked
  obtain ⟨s',same,all⟩ := rlCompletionMatches_all (commandGenerator root text) 0 (fun _ => next) first
  exact ⟨s',same.2,all⟩

def entryHints (root : CommandTree Func) (line text : Text) : List Hint :=
  match lookup root (context line text) with
  | .node _ command .null _ => if nofwords text = 0 then [command.hint] else []
  | _ => []

theorem entryCompletion_all (short : text.length < 2^31) (root : CommandTree Func) (line : Text) (s : Generators Func) :
    ∃ s', s'.printed = s.printed ++ entryHints root line text ∧
      ∀ calls ≥ (offers text (lookup root (context line text)).child).length+1,
        rlCompletionMatches (entryCompletion root line text) calls 0 s =
          some (offers text (lookup root (context line text)).child,s') := by
  let kept (now : Generators Func) : Prop :=
    now.entryLen = toInt32 text.length ∧ now.printed = s.printed ++ entryHints root line text
  have next : ∀ now, kept now →
      Produces kept (fun now => offers text now.cptr) (offers text now.cptr) (now.entry text) := by
    intro now same
    exact nextMatch_produces short same.1 (fun remaining => {now with cptr := remaining}) (fun _ => same) (fun _ => rfl) now.cptr
  have matched : findMatchCommand line (nofwords line-nofwords text) root = lookup root (context line text) := by
    have counted : ((nofwords line : Int)-nofwords text).toNat = nofwords line-nofwords text := by omega
    rw [findMatchCommand_spec,counted,context]
  have first : Produces kept (fun now => offers text now.cptr) (offers text (lookup root (context line text)).child)
      (entryCompletion root line text 0 s) := by
    simp only [entryCompletion,if_pos,matched]
    cases place : lookup root (context line text) with
    | null =>
        apply next
        simp [kept,entryHints,place]
    | node name command subcmd _ =>
        cases subcmd with
        | null =>
            refine ⟨?_,rfl⟩
            by_cases absent : nofwords text = 0 <;> simp [kept,entryHints,place,absent]
        | node =>
            refine next {s with entryLen := _, cptr := _} ?_
            simp [kept,entryHints,place]
  obtain ⟨s',same,all⟩ := rlCompletionMatches_all (entryCompletion root line text) 0 (fun _ => next) first
  exact ⟨s',same.2,all⟩

def First (rs : List (Registration Func)) (text : Text) (start : Nat) : Prop :=
  start = 0 ∧ ∃ word, text <+: word ∧ IsPath rs [word]

structure Offered (rs : List (Registration Func)) (line text : Text) (start : Nat) (offered : List Text) : Prop where
  nodup : offered.Nodup
  first : First rs text start → ∀ word, word ∈ offered ↔ text <+: word ∧ IsPath rs [word]
  further : ¬ First rs text start → ∀ word, word ∈ offered ↔
    text <+: word ∧ context line text ≠ [] ∧ IsPath rs (context line text ++ [word])

inductive Hinted (rs : List (Registration Func)) (line text : Text) (start : Nat) : List Hint → Prop where
  | command (member : r ∈ rs) (own : scannedWords r.cmd = context line text)
      (last : ∀ word, ¬ IsPath rs (context line text ++ [word])) (blank : nofwords text = 0)
      (further : ¬ First rs text start) : Hinted rs line text start [r.command.hint]
  | none (other : First rs text start ∨ nofwords text ≠ 0 ∨
      ∀ r ∈ rs, scannedWords r.cmd = context line text → ∃ word, IsPath rs (context line text ++ [word])) :
      Hinted rs line text start []

theorem mem_offers {siblings : CommandTree Func} : word ∈ offers text siblings ↔ text <+: word ∧ word ∈ siblings.keys := by
  rw [offers,List.mem_filter,decide_eq_true_iff,and_comm]

theorem mem_keys (rs : List (Registration Func)) (word : Text) : word ∈ (registered rs).keys ↔ IsPath rs [word] := by
  rw [← not_iff_not,← registered_path,lookup,find_null]

theorem mem_subcmd_keys (rs : List (Registration Func)) (path : List Text) (word : Text) :
    word ∈ (lookup (registered rs) path).child.keys ↔ path ≠ [] ∧ IsPath rs (path ++ [word]) := by
  rw [mem_child_keys,ne_eq (lookup _ _),registered_path,not_not]

theorem offers_first (rs : List (Registration Func)) (text : Text) :
    offers text (registered rs) ≠ [] ↔ ∃ word, text <+: word ∧ IsPath rs [word] := by
  have present : offers text (registered rs) ≠ [] ↔ ∃ word, word ∈ offers text (registered rs) :=
    ⟨List.exists_mem_of_ne_nil _,fun ⟨_,member⟩ => List.ne_nil_of_mem member⟩
  rw [present]
  exact exists_congr fun word => by rw [mem_offers,mem_keys]

theorem rlComplete_first (short : text.length < 2^31) (line : Text) (first : First rs text start) :
    Completed (registered rs) line text start (offers text (registered rs)) [] := by
  intro s
  obtain ⟨s',printed,all⟩ := commandGenerator_all short (registered rs) s
  refine ⟨s',by simpa using printed,(offers text (registered rs)).length+1,fun calls enough => ?_⟩
  obtain ⟨word,rest,present⟩ := List.exists_cons_of_ne_nil ((offers_first rs text).mpr first.2)
  have found := all calls enough
  rw [rlComplete,commandCompletion,if_pos first.1,found]
  simp only [present]

theorem rlComplete_further (short : text.length < 2^31) (line : Text) (further : ¬ First rs text start) :
    Completed (registered rs) line text start (offers text (lookup (registered rs) (context line text)).child)
      (entryHints (registered rs) line text) := by
  intro s
  have attempted : ∃ s', s'.printed = s.printed ∧ ∀ calls ≥ 1, commandCompletion (registered rs) calls text start s = some ([],s') := by
    by_cases atStart : start = 0
    · have absent : offers text (registered rs) = [] := by
        by_contra present
        exact further ⟨atStart,(offers_first rs text).mp present⟩
      obtain ⟨s',printed,all⟩ := commandGenerator_all short (registered rs) s
      rw [absent] at all
      refine ⟨s',printed,fun calls enough => ?_⟩
      rw [commandCompletion,if_pos atStart]
      exact all calls enough
    · exact ⟨s,rfl,fun calls _ => by rw [commandCompletion,if_neg atStart]⟩
  obtain ⟨s',unchanged,nothing⟩ := attempted
  obtain ⟨s'',printed,all⟩ := entryCompletion_all short (registered rs) line s'
  refine ⟨s'',by rw [printed,unchanged],(offers text (lookup (registered rs) (context line text)).child).length+1,?_⟩
  intro calls enough
  rw [rlComplete,nothing calls (Nat.le_trans (Nat.le_add_left 1 _) enough)]
  exact all calls enough

theorem completed_unique (one : Completed root line text start offered hints)
    (other : Completed root line text start offered' hints') : offered = offered' ∧ hints = hints' := by
  obtain ⟨s,printed,enough,all⟩ := one ⟨0,.null,0,.null,[]⟩
  obtain ⟨s',printed',enough',all'⟩ := other ⟨0,.null,0,.null,[]⟩
  have same := (all (max enough enough') (Nat.le_max_left _ _)).symm.trans (all' (max enough enough') (Nat.le_max_right _ _))
  cases same
  exact ⟨rfl,by simpa using printed.symm.trans printed'⟩

theorem offers_nodup (distinct : siblings.Distinct) (text : Text) : (offers text (siblings : CommandTree Func)).Nodup :=
  (keys_nodup distinct).filter _

theorem offered_first (first : First rs text start) (line : Text) :
    Offered rs line text start (offers text (registered rs)) := by
  refine ⟨offers_nodup (registered_distinct rs) text,fun _ word => ?_,fun other => absurd first other⟩
  rw [mem_offers,mem_keys]

theorem offered_further (further : ¬ First rs text start) (line : Text) :
    Offered rs line text start (offers text (lookup (registered rs) (context line text)).child) := by
  refine ⟨offers_nodup (lookup_distinct (registered_distinct rs) _) text,fun first => absurd first further,fun _ word => ?_⟩
  rw [mem_offers,mem_subcmd_keys]

theorem isPath_last (accepted : IsPath rs path) (last : ∀ word, ¬ IsPath rs (path ++ [word])) :
    ∃ r ∈ rs, scannedWords r.cmd = path := by
  obtain ⟨nonempty,r,member,rest,starts⟩ := accepted
  cases rest with
  | nil => exact ⟨r,member,by rw [← starts,List.append_nil]⟩
  | cons word rest => exact absurd ⟨by simp,r,member,rest,by rw [← starts]; simp⟩ (last word)

theorem hinted_further (accepted : Accepted rs) (line : Text) (further : ¬ First rs text start) :
    Hinted rs line text start (entryHints (registered rs) line text) := by
  rw [entryHints]
  cases place : lookup (registered rs) (context line text) with
  | null =>
      refine .none (.inr (.inr fun r member own => ?_))
      have absent := (registered_path rs _).mp place
      exact absurd ⟨own ▸ ((accepted_iff rs).mp accepted).nonempty r member,r,member,own ▸ List.prefix_refl _⟩ absent
  | node name command subcmd next =>
      have below : ∀ word, word ∈ subcmd.keys ↔ context line text ≠ [] ∧ IsPath rs (context line text ++ [word]) := by
        intro word
        have keys := mem_subcmd_keys rs (context line text) word
        rwa [place] at keys
      cases subcmd with
      | node word _ _ _ =>
          have longer := ((below word).mp (List.mem_cons_self ..)).2
          exact .none (.inr (.inr fun _ _ _ => ⟨word,longer⟩))
      | null =>
          have nonempty : context line text ≠ [] := fun empty => by rw [empty] at place; cases place
          have last : ∀ word, ¬ IsPath rs (context line text ++ [word]) :=
            fun word longer => List.not_mem_nil ((below word).mpr ⟨nonempty,longer⟩)
          by_cases blank : nofwords text = 0
          · simp only [if_pos blank]
            rcases registered_holds accepted (context line text) command (by rw [place,Pointer.value]) with
              ⟨r,member,own,rfl⟩ | ⟨path,_⟩
            · exact .command member own last blank further
            · have present : IsPath rs (context line text) := by
                by_contra absent
                rw [(registered_path rs _).mpr absent] at place
                cases place
              obtain ⟨r,member,own⟩ := isPath_last present last
              exact absurd own (path r member)
          · simp only [if_neg blank]
            exact .none (.inr (.inl blank))

theorem first_perm {order rs : List (Registration Func)} (perm : order.Perm rs) : First order text start ↔ First rs text start := by
  simp only [First,isPath_perm perm]

theorem offered_perm {order rs : List (Registration Func)} (perm : order.Perm rs)
    (other : Offered order line text start offered') (one : Offered rs line text start offered) : offered'.Perm offered := by
  refine (List.perm_ext_iff_of_nodup other.nodup one.nodup).mpr fun word => ?_
  by_cases first : First rs text start
  · rw [one.first first,other.first ((first_perm perm).mpr first),isPath_perm perm]
  · rw [one.further first,other.further (fun first' => first ((first_perm perm).mp first')),isPath_perm perm]

theorem hinted_perm {order rs : List (Registration Func)} (perm : order.Perm rs)
    (hinted : Hinted order line text start hints) : Hinted rs line text start hints := by
  cases hinted with
  | command member own last blank further =>
      exact .command (perm.mem_iff.mp member) own (fun word longer => last word ((isPath_perm perm).mpr longer)) blank
        (fun first => further ((first_perm perm).mpr first))
  | none other =>
      refine .none (other.imp (first_perm perm).mp (Or.imp_right fun continued r member own => ?_))
      obtain ⟨word,longer⟩ := continued r (perm.mem_iff.mpr member) own
      exact ⟨word,(isPath_perm perm).mp longer⟩

theorem hinted_unique (firsts : PrefixesFirst rs) (one : Hinted rs line text start hints)
    (other : Hinted rs line text start hints') : hints = hints' := by
  have apart : ∀ {r}, r ∈ rs → scannedWords r.cmd = context line text →
      (∀ word, ¬ IsPath rs (context line text ++ [word])) → nofwords text = 0 → ¬ First rs text start →
      ¬ (First rs text start ∨ nofwords text ≠ 0 ∨
        ∀ r ∈ rs, scannedWords r.cmd = context line text → ∃ word, IsPath rs (context line text ++ [word])) := by
    intro r member own last blank further cause
    rcases cause with first | begun | continued
    · exact further first
    · exact begun blank
    · obtain ⟨word,longer⟩ := continued r member own
      exact last word longer
  cases one with
  | command member own last blank further =>
      cases other with
      | command member' own' _ _ _ => rw [own_unique firsts member member' (own.trans own'.symm)]
      | none cause => exact absurd cause (apart member own last blank further)
  | none cause =>
      cases other with
      | command member own last blank further => exact absurd cause (apart member own last blank further)
      | none _ => rfl

theorem offered_exists (accepted : Accepted rs) (short : text.length < 2^31) (line : Text) (start : Nat) :
    ∃ offered hints, Completed (registered rs) line text start offered hints ∧
      Offered rs line text start offered ∧ Hinted rs line text start hints := by
  by_cases first : First rs text start
  · exact ⟨_,_,rlComplete_first short line first,offered_first first line,.none (.inl first)⟩
  · exact ⟨_,_,rlComplete_further short line first,offered_further first line,hinted_further accepted line first⟩

def Begins (before : Text) : Prop := before = [] ∨ ∃ front c, before = front ++ [c] ∧ whitespace c = true

theorem words_behind (begins : Begins before) (s : Text) : words (before ++ s) = words before ++ words s := by
  rcases begins with rfl | ⟨front,c,rfl,blank⟩
  · rfl
  · simp only [words,List.append_assoc,List.singleton_append,Separators.runs_append_sep blank,Separators.runs_nil,List.append_nil]

theorem scannedWords_behind (begins : Begins before) (short : (before ++ s).length < 2^31) :
    scannedWords (before ++ s) = scannedWords before ++ scannedWords s := by
  have parts : (before ++ s).length = before.length+s.length := List.length_append
  rw [scannedWords,scannedWords,scannedWords,covered_eq short,covered_eq (by omega),covered_eq (by omega),
    words_behind begins,List.map_append]

theorem context_typed (begins : Begins before) (short : (before ++ text).length < 2^31) :
    context (before ++ text) text = scannedWords before := by
  rw [context,nofwords_scanned,nofwords_scanned,scannedWords_behind begins short,List.length_append,Nat.add_sub_cancel]
  exact List.take_left' rfl

theorem scannedWords_word (member : word ∈ scannedWords s) : scannedWords word = [word] := by
  obtain ⟨whole,inside,rfl⟩ := List.mem_map.mp member
  have length : (cut whole).length ≤ maxCmdWordLen-1 := by
    rw [cut,List.length_take]
    omega
  have letters : ∀ c ∈ cut whole, whitespace c = false := fun c place => Separators.runs_other inside (List.mem_of_mem_take place)
  rw [scannedWords,covered_eq (by rw [maxCmdWordLen] at length; omega),words,Separators.runs_single letters (cut_ne_nil inside),
    List.map_singleton,cut,List.take_of_length_le length]

theorem isPath_word (path : IsPath rs (before ++ [word])) : scannedWords word = [word] := by
  obtain ⟨_,r,_,starts⟩ := path
  exact scannedWords_word (starts.subset (List.mem_append_right before (List.mem_singleton_self word)))

theorem offered_typed (begins : Begins before) (short : (before ++ text).length < 2^31)
    (offered : Offered rs (before ++ text) text before.length texts) (word : Text) :
    word ∈ texts ↔ text <+: word ∧ IsPath rs (scannedWords before ++ [word]) ∧ (scannedWords before = [] → before = []) := by
  by_cases first : First rs text before.length
  · have empty := List.length_eq_zero_iff.mp first.1
    subst empty
    rw [offered.first first]
    exact and_congr_right fun _ => ⟨fun path => ⟨path,fun _ => rfl⟩,And.left⟩
  · rw [offered.further first,context_typed begins short]
    refine and_congr_right fun starts => ⟨fun further => ⟨further.2,fun absent => absurd absent further.1⟩,fun path => ⟨?_,path.1⟩⟩
    intro absent
    have empty := path.2 absent
    subst empty
    exact first ⟨rfl,word,starts,path.1⟩

structure Incomplete (rs : List (Registration Func)) (line : Text) : Prop where
  path : IsPath rs (scannedWords line)
  func : ∀ r ∈ rs, scannedWords r.cmd = scannedWords line → r.cmdfunc = none

theorem funcOf_none (accepted : Accepted rs) (path : IsPath rs (scannedWords line)) :
    funcOf (lookup (registered rs) (scannedWords line)) = none ↔ Incomplete rs line := by
  cases place : lookup (registered rs) (scannedWords line) with
  | null => exact absurd path ((registered_path rs _).mp place)
  | node name held subcmd next =>
      have func : funcOf (.node name held subcmd next) = held.func := rfl
      rw [func]
      rcases registered_holds accepted (scannedWords line) held (by rw [place,Pointer.value]) with ⟨r,member,own,rfl⟩ | ⟨other,absent⟩
      · constructor
        · intro absent
          refine ⟨path,fun r' member' own' => ?_⟩
          rw [own_unique ((accepted_iff rs).mp accepted) member' member (own'.trans own.symm)]
          exact absent
        · exact fun incomplete => incomplete.func r member own
      · exact iff_of_true absent ⟨path,fun r member own => absurd own (other r member)⟩

theorem findMatchCommands_subcmds (accepted : Accepted rs) (nonempty : line ≠ []) (names : List Text) :
    findMatchCommands (registered rs) line = .subcmds names ↔
      Incomplete rs line ∧ names = (lookup (registered rs) (scannedWords line)).child.keys := by
  have spec := longest_spec (registered rs) (scannedWords line)
  rw [findMatchCommands,if_neg (fun empty => nonempty empty.1),findMatchAsPossible_spec]
  cases found : longest (registered rs) (scannedWords line) with
  | none =>
      rw [found] at spec
      have absent := (registered_path rs _).mp (List.take_length (l := scannedWords line) ▸ spec (scannedWords line).length)
      exact iff_of_false (by simp) (fun incomplete => absent incomplete.1.path)
  | some pair =>
      obtain ⟨command,length⟩ := pair
      rw [found] at spec
      obtain ⟨_,within,here,there,further⟩ := spec
      by_cases whole : length = nofwords line
      · rw [nofwords_scanned] at whole
        rw [whole,List.take_length] at here
        have path : IsPath rs (scannedWords line) := by
          by_contra absent
          exact there (here.symm.trans ((registered_path rs _).mpr absent))
        have func := funcOf_none accepted path
        rw [here] at func ⊢
        simp only [whole,nofwords_scanned,if_pos]
        cases has : funcOf command with
        | none =>
            rw [has] at func
            simp only [showSubcmd,Help.subcmds.injEq,func.mp rfl,true_and]
            exact eq_comm
        | some f =>
            rw [has] at func
            exact iff_of_false (by simp) (fun incomplete => nomatch func.mpr incomplete.1)
      · have fewer : length < (scannedWords line).length := by
          rw [nofwords_scanned] at whole
          omega
        have absent := further (scannedWords line).length fewer (Nat.le_refl _)
        rw [List.take_length,registered_path] at absent
        refine iff_of_false ?_ (fun incomplete => absent incomplete.1.path)
        cases has : funcOf command <;> simp [whole,has]

def spaced (line : Text) : Text := if line = [] then [] else line ++ [32]

theorem offers_nil (siblings : CommandTree Func) : offers [] siblings = siblings.keys := by
  simp [offers]

theorem completed_top (rs : List (Registration Func)) :
    ∃ hints, Completed (registered rs) [] [] 0 (registered rs).keys hints := by
  by_cases first : First rs [] 0
  · exact ⟨[],offers_nil (registered rs) ▸ rlComplete_first (by decide) [] first⟩
  · have absent : (registered rs).keys = [] := by
      by_contra present
      exact first ⟨rfl,(offers_first rs []).mp (by rwa [offers_nil])⟩
    rw [absent]
    exact ⟨_,rlComplete_further (by decide) [] first⟩

theorem completed_spaced (rs : List (Registration Func)) (nonempty : line ≠ []) (short : line.length+1 < 2^31) :
    ∃ hints, Completed (registered rs) (spaced line) [] (spaced line).length
      (lookup (registered rs) (scannedWords line)).child.keys hints := by
  have behind : spaced line = line ++ [32] := if_neg nonempty
  have length : (line ++ [32]).length < 2^31 := by rwa [List.length_append]
  have same : scannedWords (line ++ [32]) = scannedWords line := by
    rw [scannedWords,scannedWords,covered_eq length,covered_eq (by omega),words,Separators.runs_append_sep (by decide),Separators.runs_nil,
      List.append_nil,words]
  have begins : Begins (line ++ [32]) := .inr ⟨line,32,rfl,by decide⟩
  have typed : context (line ++ [32] ++ []) [] = scannedWords (line ++ [32]) :=
    context_typed begins (by rwa [List.append_nil])
  rw [List.append_nil,same] at typed
  have further : ¬ First rs [] (line ++ [32]).length := fun first => by simp [First] at first
  have all := rlComplete_further (by decide) (line ++ [32]) further
  rw [typed,offers_nil] at all
  exact ⟨_,behind ▸ all⟩

theorem help_offered (accepted : Accepted rs) (short : line.length+1 < 2^31) (names : List Text) :
    findMatchCommands (registered rs) line = .subcmds names ↔ (line = [] ∨ Incomplete rs line) ∧
      ∃ hints, Completed (registered rs) (spaced line) [] (spaced line).length names hints := by
  by_cases empty : line = []
  · subst empty
    have lists : findMatchCommands (registered rs) [] = .subcmds (registered rs).keys := by
      rw [findMatchCommands,findMatchAsPossible_spec]
      exact if_pos ⟨rfl,rfl⟩
    obtain ⟨hints,top⟩ := completed_top rs
    rw [lists,Help.subcmds.injEq,and_iff_right (.inl rfl)]
    constructor
    · intro same
      exact ⟨hints,same ▸ top⟩
    · intro ⟨_,other⟩
      exact (completed_unique top other).1
  · obtain ⟨hints,all⟩ := completed_spaced rs empty short
    rw [findMatchCommands_subcmds accepted empty,or_iff_right empty]
    refine and_congr_right fun _ => ⟨fun same => ⟨hints,same ▸ all⟩,fun ⟨_,other⟩ => ?_⟩
    exact (completed_unique other all).1

-- `completes`: whatever was completed before. `order`: the commands may have been
-- registered in any other order. `typed`: at the end of the line, and a word that
-- is taken over leaves a line with nothing behind the path of a command.
structure Assists (rs : List (Registration Func)) : Prop where
  completes : ∀ line text start, text.length < 2^31 → ∃ offered hints,
    Completed (registered rs) line text start offered hints ∧ Offered rs line text start offered ∧ Hinted rs line text start hints
  order : ∀ order, order.Perm rs → Accepted order → ∀ line text start, text.length < 2^31 → ∀ offered hints,
    Completed (registered rs) line text start offered hints →
      ∃ offered', offered'.Perm offered ∧ Completed (registered order) line text start offered' hints
  typed : ∀ before text, Begins before → (before ++ text).length < 2^31 → ∀ offered hints,
    Completed (registered rs) (before ++ text) text before.length offered hints → ∀ word,
      (word ∈ offered ↔
        text <+: word ∧ IsPath rs (scannedWords before ++ [word]) ∧ (scannedWords before = [] → before = [])) ∧
      (word ∈ offered → (before ++ word).length < 2^31 → Matches rs (before ++ word) (nofwords (before ++ word)))
  help : ∀ line, line.length+1 < 2^31 → ∀ names,
    findMatchCommands (registered rs) line = .subcmds names ↔ (line = [] ∨ Incomplete rs line) ∧
      ∃ hints, Completed (registered rs) (spaced line) [] (spaced line).length names hints

theorem completion_assists (accepted : Accepted rs) : Assists rs := by
  refine ⟨fun line text start short => offered_exists accepted short line start,?_,?_,?_⟩
  · intro order perm accepted' line text start short offered hints completed
    obtain ⟨texts,helps,all,lists,hinted⟩ := offered_exists accepted short line start
    obtain ⟨words',hints',all',offered',hinted'⟩ := offered_exists accepted' short line start
    obtain ⟨rfl,rfl⟩ := completed_unique completed all
    have same := hinted_unique ((accepted_iff rs).mp accepted) hinted (hinted_perm perm hinted')
    exact ⟨words',offered_perm perm offered' lists,same ▸ all'⟩
  · intro before text begins short offered hints completed word
    have parts : (before ++ text).length = before.length+text.length := List.length_append
    have short' : text.length < 2^31 := by omega
    obtain ⟨texts,_,all,lists,_⟩ := offered_exists accepted short' (before ++ text) before.length
    obtain ⟨rfl,rfl⟩ := completed_unique completed all
    have member := offered_typed begins short lists word
    refine ⟨member,fun inside within => ?_⟩
    have path := (member.mp inside).2.1
    have whole : scannedWords (before ++ word) = scannedWords before ++ [word] := by
      rw [scannedWords_behind begins within,isPath_word path]
    rw [nofwords_scanned]
    refine ⟨Nat.le_refl _,.inr ?_,fun longer more inside => absurd inside (Nat.not_le.mpr more)⟩
    rw [List.take_length,whole]
    exact path
  · exact fun line short names => help_offered accepted short names

theorem completion_assists_commands : Assists registerCommands := completion_assists (by decide +kernel)

end TcpProxy.CommandLine
