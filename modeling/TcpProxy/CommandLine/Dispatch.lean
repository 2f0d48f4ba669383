import TcpProxy.CommandLine.Commands

namespace TcpProxy.CommandLine
open SiblingTree

variable {Func : Type}

def RestFrom (line : Text) (n : Nat) : Option Text → Prop
  | none => (words line).length < n
  | some rest => ∃ i, rest = line.drop i ∧ Separators.Starts whitespace line (n-1) i

structure DispatchesLongest (root : CommandTree Func) (line : Text) (mcnt : Int) : Prop where
  distinct : root.Distinct
  longest : IsLongest root ((words line).map cut) (findMatchAsPossible line root)
  calls : ∀ svcFd < 0, ∀ func argument, executeLine root svcFd line = .calls func argument ↔
    ∃ command length, findMatchAsPossible line root = some (command,length) ∧ funcOf command = some func ∧
      RestFrom line (length+1) argument
  external : ∀ cmdtype func argument, externalExecute root line cmdtype = .calls func argument ↔
    ∃ command length, findMatchAsPossible line root = some (command,length) ∧ funcOf command = some func ∧
      cmdTypeOf command = cmdtype ∧ RestFrom line (length+1) argument
  completion : findMatchCommand line mcnt root = lookup root (((words line).map cut).take mcnt.toNat)

theorem cliAddcmd_distinct (distinct : root.Distinct) (r : Registration Func) : (cliAddcmd root r).2.Distinct := by
  rw [cliAddcmd_spec]
  exact insert_distinct _ _ _ distinct

theorem registered_distinct (rs : List (Registration Func)) : (registered rs).Distinct :=
  Machine.run_preserves Pointer.Distinct (show Pointer.Distinct .null from trivial)
    (fun _ r distinct => cliAddcmd_distinct distinct r) rs

theorem restFrom_unique (one : RestFrom line n argument) (other : RestFrom line n argument') (positive : 1 ≤ n) :
    argument = argument' := by
  have few : ∀ {i}, Separators.Starts whitespace line (n-1) i → ¬ (words line).length < n := by
    intro i starts
    have inside : n-1 < (words line).length := starts.lt
    omega
  cases argument with
  | none =>
      cases argument' with
      | none => rfl
      | some rest =>
          obtain ⟨i,_,starts⟩ := other
          exact absurd one (few starts)
  | some rest =>
      obtain ⟨i,rfl,starts⟩ := one
      cases argument' with
      | none => exact absurd other (few starts)
      | some rest =>
          obtain ⟨o,rfl,starts'⟩ := other
          rw [starts.unique starts']

theorem restOf_spec (short : line.length < 2^31) (positive : 1 ≤ n) : RestFrom line n (restOf line n) := by
  rcases nthwordptr_spec line positive with ⟨null,few⟩ | ⟨i,found,starts⟩
  · rw [covered_eq short] at few
    rw [restOf,null]
    exact few
  · rw [covered_eq short] at starts
    rw [restOf,found]
    exact ⟨i,rfl,starts⟩

theorem executeLine_local (root : CommandTree Func) (alone : svcFd < 0) (line : Text) (func : Func)
    (argument : Option Text) :
    executeLine root svcFd line = .calls func argument ↔
      ∃ command length, findMatchAsPossible line root = some (command,length) ∧ funcOf command = some func ∧
        restOf line (length+1) = argument := by
  rw [executeLine]
  cases found : findMatchAsPossible line root with
  | none => simp
  | some pair =>
      obtain ⟨command,length⟩ := pair
      cases has : funcOf command with
      | none => simp [has]
      | some own => simp [has,show ¬ 0 ≤ svcFd by omega]

theorem externalExecute_calls (root : CommandTree Func) (line : Text) (cmdtype : Int) (func : Func)
    (argument : Option Text) :
    externalExecute root line cmdtype = .calls func argument ↔
      ∃ command length, findMatchAsPossible line root = some (command,length) ∧ funcOf command = some func ∧
        cmdTypeOf command = cmdtype ∧ restOf line (length+1) = argument := by
  rw [externalExecute]
  cases found : findMatchAsPossible line root with
  | none => simp
  | some pair =>
      obtain ⟨command,length⟩ := pair
      cases has : funcOf command with
      | none => simp [has]
      | some own =>
          by_cases same : cmdtype = cmdTypeOf command
          · simp [has,same]
          · simp [has,same,Ne.symm same]

theorem dispatches_longest (rs : List (Registration Func)) (line : Text) (mcnt : Int) (short : line.length < 2^31) :
    DispatchesLongest (registered rs) line mcnt := by
  have whole : scannedWords line = (words line).map cut := by rw [scannedWords,covered_eq short]
  have rest : ∀ length argument, restOf line (length+1) = argument ↔ RestFrom line (length+1) argument := by
    intro length argument
    have spec : RestFrom line (length+1) (restOf line (length+1)) := restOf_spec short (Nat.succ_le_succ (Nat.zero_le _))
    exact ⟨fun same => same ▸ spec,fun behind => restFrom_unique spec behind (Nat.succ_le_succ (Nat.zero_le _))⟩
  refine ⟨registered_distinct rs,?_,fun svcFd alone func argument => ?_,fun cmdtype func argument => ?_,?_⟩
  · rw [findMatchAsPossible_spec,whole]
    exact longest_spec _ _
  · rw [executeLine_local _ alone]
    simp only [rest]
  · rw [externalExecute_calls]
    simp only [rest]
  · rw [findMatchCommand_spec,whole]

-- The commands "s" and "s h", and a line with two blanks behind its first word.
theorem dispatches_longest_history :
    DispatchesLongest (@registered Nat [⟨[115],false,some 0,none,0,0⟩,⟨[115,32,104],true,some 1,none,0,0⟩])
      [115,32,32,104,32,120] 2 :=
  dispatches_longest _ _ _ (by decide)

theorem unmatched (dispatches : DispatchesLongest root line mcnt) (null : findMatchAsPossible line root = none)
    (length : Nat) : lookup root (((words line).map cut).take length) = .null := by
  have absent := dispatches.longest
  rw [null] at absent
  exact absent length

-- The first word of a line of 2^31 characters is not found.
theorem long_line_not_matched :
    ¬ DispatchesLongest (@registered Nat [⟨List.replicate 63 97,false,some 0,none,0,0⟩]) (List.replicate (2^31) 97) 1 := by
  intro dispatches
  have unseen : scannedWords (List.replicate (2^31) 97) = [] := by
    rw [scannedWords,covered_long]
    rfl
  have first : (words (List.replicate (2^31) 97)).map cut = [List.replicate 63 97] := by
    rw [words_long rfl,List.map_cons,cut,List.take_replicate]
    rfl
  have one := unmatched dispatches (by rw [findMatchAsPossible_spec,unseen,longest]) 1
  rw [first] at one
  exact absurd one (by decide +kernel)

end TcpProxy.CommandLine
