import TcpProxy.CommandLine.Words
import TcpProxy.Lib.Run
import TcpProxy.Lib.SiblingTree

namespace TcpProxy.CommandLine
open SiblingTree

-- What a node holds beside its name and its pointers, over any type of functions.
structure Command (Func : Type) where
  isRmt : Bool
  func : Option Func
  cmdType : Int
  doc : Option Text
  nargs : Int
deriving DecidableEq, Repr

-- A pointer to a command, or what the subcmd of the root points to.
abbrev CommandTree (Func : Type) := Pointer Text (Command Func)

structure Registration (Func : Type) where
  cmd : Text
  rmt : Bool
  cmdfunc : Option Func
  doc : Option Text
  args : Int
  cmdtype : Int
deriving DecidableEq, Repr

variable {Func : Type}

def funcOf (command : CommandTree Func) : Option Func := command.value.bind Command.func
def isRmtOf (command : CommandTree Func) : Bool := command.value.any Command.isRmt
def cmdTypeOf (command : CommandTree Func) : Int := command.value.elim 0 Command.cmdType

def Registration.path (r : Registration Func) : Command Func := ⟨r.rmt,none,r.cmdtype,none,0⟩
def Registration.command (r : Registration Func) : Command Func :=
  {r.path with doc := r.doc, func := r.cmdfunc, nargs := r.args}

-- The loop from a level on, with the siblings there and the number of levels
-- up to wds. find is the search along the siblings, with strcmp.
def cliAddcmdLoop (r : Registration Func) (wds : Nat) : Nat → Nat → CommandTree Func → Int × CommandTree Func
  | 0,_,siblings => (0,siblings)
  | levels+1,level,siblings =>
    match nthword r.cmd level with
    | none => (0,siblings)
    | some word =>
      match find word siblings with
      | .null =>
        if level = wds then (1,.node word r.command .null siblings)
        else
          let made := cliAddcmdLoop r wds levels (level+1) .null
          (made.1,.node word r.path made.2 siblings)
      | .node _ _ subcmd _ =>
        -- "Duplicate Command", whether or not the node is one
        if level = wds then (0,siblings)
        else
          let made := cliAddcmdLoop r wds levels (level+1) subcmd
          (made.1,setChild word made.2 siblings)

def cliAddcmd (root : CommandTree Func) (r : Registration Func) : Int × CommandTree Func :=
  cliAddcmdLoop r (nofwords r.cmd) (nofwords r.cmd) 1 root

-- Both loops, over the levels and along the siblings of a level.
def findMatchAsPossibleLoop (text : Text) :
    CommandTree Func → Nat → Text → Option (CommandTree Func × Nat) → Option (CommandTree Func × Nat)
  | .null,_,_,fptr => fptr
  | .node name command subcmd next,i,word,fptr =>
    if name = word then
      match nthword text (i+1) with
      | none => some (.node name command subcmd next,i)
      | some word => findMatchAsPossibleLoop text subcmd (i+1) word (some (.node name command subcmd next,i))
    else findMatchAsPossibleLoop text next i word fptr

-- The pointer with the number of words in *mcnt, which is not set for NULL.
def findMatchAsPossible (text : Text) (root : CommandTree Func) : Option (CommandTree Func × Nat) :=
  match nthword text 1 with
  | none => none
  | some word => findMatchAsPossibleLoop text root 1 word none

def findMatchCommandLoop (text : Text) (mcnt : Int) : CommandTree Func → Nat → Text → CommandTree Func
  | .null,_,_ => .null
  | .node name command subcmd next,i,word =>
    if name = word then
      if (i : Int)+1 ≤ mcnt then
        match nthword text (i+1) with
        | none => .node name command subcmd next
        | some word => findMatchCommandLoop text mcnt subcmd (i+1) word
      else .node name command subcmd next
    else findMatchCommandLoop text mcnt next i word

def findMatchCommand (text : Text) (mcnt : Int) (root : CommandTree Func) : CommandTree Func :=
  if 1 ≤ mcnt then
    match nthword text 1 with
    | none => .null
    | some word => findMatchCommandLoop text mcnt root 1 word
  else .null

inductive Outcome (Func : Type) where
  | prints (format : String) (argument : Option Text)
  | sends (line : Text)
  | calls (func : Func) (argument : Option Text)
  | nothing
deriving DecidableEq, Repr

def restOf (cmd : Text) (n : Nat) : Option Text := (nthwordptr cmd n).map cmd.drop

def executeLine (root : CommandTree Func) (svcFd : Int) (cmd : Text) : Outcome Func :=
  match findMatchAsPossible cmd root with
  | none => .prints "%% %s: no such command\n" (nthword cmd 1)
  | some (command,i) =>
    match funcOf command with
    | none => .prints "%% %s: Incomplete command.\n" cmd
    | some func =>
      if isRmtOf command = false then .calls func (restOf cmd (i+1))
      else if 0 ≤ svcFd then .sends cmd
      else .calls func (restOf cmd (i+1))

def externalExecute (root : CommandTree Func) (cmd : Text) (cmdtype : Int) : Outcome Func :=
  match findMatchAsPossible cmd root with
  | none => .prints "%% %s: no such command\n" (nthword cmd 1)
  | some (command,i) =>
    match funcOf command with
    | none => .prints "%% %s: Incomplete command.\n" cmd
    | some func => if cmdtype = cmdTypeOf command then .calls func (restOf cmd (i+1)) else .nothing

def registered (rs : List (Registration Func)) : CommandTree Func :=
  Machine.run (fun root r => (cliAddcmd root r).2) .null rs

def WordsFrom (text : Text) (i : Nat) (rest : List Text) : Prop := (scannedWords text).drop i = rest

theorem wordsFrom_head (source : WordsFrom text i rest) : nthword text (i+1) = rest.head? := by
  have place := congrArg List.head? source
  rw [List.head?_drop] at place
  exact (nthword_spec text (Nat.succ_le_succ (Nat.zero_le i))).trans place

theorem wordsFrom_first (source : WordsFrom text i (word :: rest)) : nthword text (i+1) = some word := wordsFrom_head source

theorem wordsFrom_nil (source : WordsFrom text i []) : nthword text (i+1) = none := wordsFrom_head source

theorem wordsFrom_tail (source : WordsFrom text i (word :: rest)) : WordsFrom text (i+1) rest := by
  have tail := congrArg List.tail source
  rwa [List.tail_drop] at tail

theorem nofwords_scanned (cmd : Text) : nofwords cmd = (scannedWords cmd).length := by
  rw [nofwords_spec,scannedWords,List.length_map]

theorem cliAddcmdLoop_spec (r : Registration Func) (source : WordsFrom r.cmd i rest)
    (levels : wds = i + rest.length) (siblings : CommandTree Func) :
    cliAddcmdLoop r wds rest.length (i+1) siblings =
      let made := SiblingTree.insert r.path r.command rest siblings
      (if made.1 then 1 else 0,made.2) := by
  induction rest generalizing i siblings with
  | nil => rfl
  | cons word rest ih =>
      rw [List.length_cons] at levels ⊢
      have further := ih (wordsFrom_tail source) (by omega)
      rw [cliAddcmdLoop,wordsFrom_first source]
      rcases find_cases word siblings with absent | ⟨command,subcmd,next,found⟩
      · cases rest with
        | nil => simp [SiblingTree.insert,absent,levels]
        | cons second rest =>
            have inner : ¬ i+1 = wds := by rw [List.length_cons] at levels; omega
            simp only [SiblingTree.insert,attach,absent,Pointer.child,if_neg inner,further]
      · cases rest with
        | nil => simp [SiblingTree.insert,found,levels]
        | cons second rest =>
            have inner : ¬ i+1 = wds := by rw [List.length_cons] at levels; omega
            simp only [SiblingTree.insert,attach,found,Pointer.child,if_neg inner,further]

theorem cliAddcmd_spec (root : CommandTree Func) (r : Registration Func) :
    cliAddcmd root r =
      let made := SiblingTree.insert r.path r.command (scannedWords r.cmd) root
      (if made.1 then 1 else 0,made.2) := by
  rw [cliAddcmd,nofwords_scanned]
  exact cliAddcmdLoop_spec r rfl (Nat.zero_add _).symm root

theorem findMatchAsPossibleLoop_find (text : Text) (siblings : CommandTree Func) (i : Nat) (word : Text)
    (fptr : Option (CommandTree Func × Nat)) :
    findMatchAsPossibleLoop text siblings i word fptr =
      match find word siblings with
      | .null => fptr
      | .node name command subcmd next =>
        match nthword text (i+1) with
        | none => some (.node name command subcmd next,i)
        | some word => findMatchAsPossibleLoop text subcmd (i+1) word (some (.node name command subcmd next,i)) := by
  induction siblings with
  | null => rfl
  | node name command subcmd next _ ih =>
      rw [findMatchAsPossibleLoop,find]
      by_cases same : name = word
      · rw [if_pos same,if_pos same]
      · rw [if_neg same,if_neg same]
        exact ih

theorem findMatchAsPossibleLoop_spec (text : Text) (source : WordsFrom text i (word :: rest)) (siblings : CommandTree Func)
    (fptr : Option (CommandTree Func × Nat)) :
    findMatchAsPossibleLoop text siblings (i+1) word fptr =
      match longest siblings (word :: rest) with
      | none => fptr
      | some (command,length) => some (command,i+length) := by
  induction rest generalizing i word siblings fptr with
  | nil =>
      rw [findMatchAsPossibleLoop_find,wordsFrom_nil (wordsFrom_tail source)]
      rcases find_cases word siblings with absent | ⟨command,subcmd,next,found⟩
      · simp only [longest,absent]
      · simp only [longest,found]
  | cons second rest ih =>
      have behind := wordsFrom_tail source
      rw [findMatchAsPossibleLoop_find,wordsFrom_first behind]
      rcases find_cases word siblings with absent | ⟨command,subcmd,next,found⟩
      · simp only [longest,absent]
      · rw [longest]
        simp only [found,ih behind]
        cases longest subcmd (second :: rest) with
        | none => rfl
        | some deeper => simp only [Nat.add_assoc,Nat.add_comm 1]

theorem findMatchAsPossible_spec (text : Text) (root : CommandTree Func) :
    findMatchAsPossible text root = longest root (scannedWords text) := by
  cases all : scannedWords text with
  | nil =>
      have absent : nthword text 1 = none := wordsFrom_nil (i := 0) all
      rw [findMatchAsPossible,absent,longest]
  | cons word rest =>
      have first : nthword text 1 = some word := wordsFrom_first (i := 0) all
      have matched := findMatchAsPossibleLoop_spec text (i := 0) all root none
      rw [findMatchAsPossible,first]
      refine matched.trans ?_
      cases longest root (word :: rest) with
      | none => rfl
      | some deeper => simp only [Nat.zero_add]

theorem findMatchCommandLoop_find (text : Text) (mcnt : Int) (siblings : CommandTree Func) (i : Nat) (word : Text) :
    findMatchCommandLoop text mcnt siblings i word =
      match find word siblings with
      | .null => .null
      | .node name command subcmd next =>
        if (i : Int)+1 ≤ mcnt then
          match nthword text (i+1) with
          | none => .node name command subcmd next
          | some word => findMatchCommandLoop text mcnt subcmd (i+1) word
        else .node name command subcmd next := by
  induction siblings with
  | null => rfl
  | node name command subcmd next _ ih =>
      rw [findMatchCommandLoop,find]
      by_cases same : name = word
      · rw [if_pos same,if_pos same]
      · rw [if_neg same,if_neg same]
        exact ih

theorem findMatchCommandLoop_spec (text : Text) (mcnt : Int) (source : WordsFrom text i (word :: rest))
    (siblings : CommandTree Func) :
    findMatchCommandLoop text mcnt siblings (i+1) word = lookup siblings (word :: rest.take (mcnt-(i+1)).toNat) := by
  induction rest generalizing i word siblings with
  | nil =>
      rw [findMatchCommandLoop_find,wordsFrom_nil (wordsFrom_tail source),List.take_nil,lookup]
      rcases find_cases word siblings with absent | ⟨command,subcmd,next,found⟩
      · simp only [absent]
      · simp only [found,ite_self]
  | cons second rest ih =>
      have behind := wordsFrom_tail source
      rw [findMatchCommandLoop_find,wordsFrom_first behind]
      by_cases more : ((i+1 : Nat) : Int)+1 ≤ mcnt
      · have remaining : (mcnt-((i : Int)+1)).toNat = (mcnt-(((i+1 : Nat) : Int)+1)).toNat+1 := by omega
        rw [remaining,List.take_succ_cons,lookup]
        rcases find_cases word siblings with absent | ⟨command,subcmd,next,found⟩
        · simp only [absent,Pointer.child,lookup_null]
        · simp only [found,if_pos more,Pointer.child,ih behind]
      · have missing : (mcnt-((i : Int)+1)).toNat = 0 := by omega
        rw [missing,List.take_zero,lookup]
        rcases find_cases word siblings with absent | ⟨command,subcmd,next,found⟩
        · simp only [absent]
        · simp only [found,if_neg more]

theorem findMatchCommand_spec (text : Text) (mcnt : Int) (root : CommandTree Func) :
    findMatchCommand text mcnt root = lookup root ((scannedWords text).take mcnt.toNat) := by
  rw [findMatchCommand]
  split
  · next positive =>
      obtain ⟨count,rfl⟩ : ∃ count : Nat, mcnt = count+1 := ⟨(mcnt-1).toNat,by omega⟩
      cases all : scannedWords text with
      | nil =>
          have absent : nthword text 1 = none := wordsFrom_nil (i := 0) all
          rw [absent,List.take_nil,lookup]
      | cons word rest =>
          have first : nthword text 1 = some word := wordsFrom_first (i := 0) all
          have matched := findMatchCommandLoop_spec text (count+1) (i := 0) all root
          rw [first]
          refine matched.trans ?_
          have one : ((count : Int)+1-((0 : Nat)+1)).toNat = count := by omega
          have every : ((count : Int)+1).toNat = count+1 := by omega
          rw [one,every,List.take_succ_cons]
  · next small =>
      have absent : mcnt.toNat = 0 := by omega
      rw [absent,List.take_zero,lookup]

end TcpProxy.CommandLine
