import Mathlib.Data.List.Nodup
import TcpProxy.CommandLine.Commands

namespace TcpProxy.CommandLine
open SiblingTree

variable {Func : Type}

def Accepted (rs : List (Registration Func)) : Prop :=
  Machine.Along (fun root r => (cliAddcmd root r).2) (fun root r => (cliAddcmd root r).1 = 1) .null rs

instance (rs : List (Registration Func)) : Decidable (Accepted rs) :=
  inferInstanceAs (Decidable (Machine.Along _ _ _ rs))

-- What follows, up to Expected, looks at the set of the commands only.
def IsPath (rs : List (Registration Func)) (path : List Text) : Prop :=
  path ≠ [] ∧ ∃ r ∈ rs, path <+: scannedWords r.cmd

structure Matches (rs : List (Registration Func)) (line : Text) (length : Nat) : Prop where
  within : length ≤ (scannedWords line).length
  path : length = 0 ∨ IsPath rs ((scannedWords line).take length)
  longest : ∀ longer, length < longer → longer ≤ (scannedWords line).length →
    ¬ IsPath rs ((scannedWords line).take longer)

def Registration.outcome (r : Registration Func) (svcFd : Int) (line : Text) (length : Nat) : Outcome Func :=
  match r.cmdfunc with
  | none => .prints "%% %s: Incomplete command.\n" line
  | some func => if r.rmt = true ∧ 0 ≤ svcFd then .sends line else .calls func (restOf line (length+1))

inductive Expected (rs : List (Registration Func)) (svcFd : Int) (line : Text) : Outcome Func → Prop where
  | unknown (nothing : Matches rs line 0) : Expected rs svcFd line (.prints "%% %s: no such command\n" (nthword line 1))
  | command (matched : Matches rs line (length+1)) (member : r ∈ rs)
      (own : scannedWords r.cmd = (scannedWords line).take (length+1)) : Expected rs svcFd line (r.outcome svcFd line (length+1))
  | incomplete (matched : Matches rs line (length+1))
      (path : ∀ r ∈ rs, scannedWords r.cmd ≠ (scannedWords line).take (length+1)) :
      Expected rs svcFd line (.prints "%% %s: Incomplete command.\n" line)

structure Independent (rs : List (Registration Func)) : Prop where
  accepted : Accepted rs
  dispatched : ∀ svcFd line, Expected rs svcFd line (executeLine (registered rs) svcFd line)
  same : ∀ order, order.Perm rs → Accepted order → ∀ svcFd line,
    executeLine (registered order) svcFd line = executeLine (registered rs) svcFd line
  own : ∀ r ∈ rs, ∀ func, r.cmdfunc = some func → ∀ svcFd < 0, ∀ line, scannedWords line = scannedWords r.cmd →
    executeLine (registered rs) svcFd line = .calls func none

structure PrefixesFirst (rs : List (Registration Func)) : Prop where
  nonempty : ∀ r ∈ rs, scannedWords r.cmd ≠ []
  ordered : rs.Pairwise fun earlier later => ¬ scannedWords later.cmd <+: scannedWords earlier.cmd

theorem registered_concat (rs : List (Registration Func)) (r : Registration Func) :
    registered (rs ++ [r]) = (cliAddcmd (registered rs) r).2 := Machine.run_concat _ _ _ _

theorem cliAddcmd_value (root : CommandTree Func) (r : Registration Func) (path : List Text) :
    (lookup (cliAddcmd root r).2 path).value = (lookup root path).value.or
      (if path ≠ [] ∧ path <+: scannedWords r.cmd then
        some (if path = scannedWords r.cmd then r.command else r.path) else none) := by
  rw [cliAddcmd_spec]
  cases all : scannedWords r.cmd with
  | nil => simp [SiblingTree.insert]
  | cons word rest => exact insert_value _ _ (List.cons_ne_nil word rest) root path

theorem registered_path (rs : List (Registration Func)) (path : List Text) :
    lookup (registered rs) path = .null ↔ ¬ IsPath rs path := by
  induction rs using List.reverseRecOn with
  | nil => simp [registered,IsPath]
  | append_singleton rs r ih =>
      rw [registered_concat,← Pointer.value_none,cliAddcmd_value,Option.or_eq_none_iff,Pointer.value_none,ih]
      simp only [IsPath,List.mem_append,List.mem_singleton]
      grind

theorem cliAddcmd_accepted (rs : List (Registration Func)) (r : Registration Func) :
    (cliAddcmd (registered rs) r).1 = 1 ↔
      scannedWords r.cmd ≠ [] ∧ ∀ earlier ∈ rs, ¬ scannedWords r.cmd <+: scannedWords earlier.cmd := by
  have made : (cliAddcmd (registered rs) r).1 = 1 ↔
      (SiblingTree.insert r.path r.command (scannedWords r.cmd) (registered rs)).1 = true := by
    rw [cliAddcmd_spec]
    simp
  rw [made,insert_fst,registered_path,IsPath]
  grind

theorem accepted_iff (rs : List (Registration Func)) : Accepted rs ↔ PrefixesFirst rs := by
  induction rs using List.reverseRecOn with
  | nil => exact iff_of_true trivial ⟨by simp,.nil⟩
  | append_singleton rs r ih =>
      have step : Accepted (rs ++ [r]) ↔ Accepted rs ∧ (cliAddcmd (registered rs) r).1 = 1 := Machine.along_concat _ _
      rw [step,ih,cliAddcmd_accepted]
      constructor
      · rintro ⟨before,nonempty,new⟩
        refine ⟨List.forall_mem_append.mpr ⟨before.nonempty,List.forall_mem_singleton.mpr nonempty⟩,?_⟩
        refine List.pairwise_append.mpr ⟨before.ordered,List.pairwise_singleton _ _,?_⟩
        exact fun earlier old => List.forall_mem_singleton.mpr (new earlier old)
      · intro all
        have last : r ∈ rs ++ [r] := List.mem_append_right rs (List.mem_singleton_self r)
        obtain ⟨ordered,_,new⟩ := List.pairwise_append.mp all.ordered
        exact ⟨⟨fun r' old => all.nonempty r' (List.mem_append_left [r] old),ordered⟩,all.nonempty r last,
          fun earlier old => new earlier old r (List.mem_singleton_self r)⟩

def Holds (rs : List (Registration Func)) (root : CommandTree Func) : Prop :=
  ∀ path command, (lookup root path).value = some command →
    (∃ r ∈ rs, scannedWords r.cmd = path ∧ command = r.command) ∨
      (∀ r ∈ rs, scannedWords r.cmd ≠ path) ∧ command.func = none

theorem registered_holds (accepted : Accepted rs) : Holds rs (registered rs) := by
  refine Machine.run_history (fun rs root => Holds rs root) ?_ ?_ rs accepted
  · intro path command has
    rw [lookup_null] at has
    cases has
  · intro rs r before allowed path command has
    change Holds rs (registered rs) at before
    change (cliAddcmd (registered rs) r).1 = 1 at allowed
    change (lookup (cliAddcmd (registered rs) r).2 path).value = some command at has
    obtain ⟨nonempty,new⟩ := (cliAddcmd_accepted rs r).mp allowed
    rw [cliAddcmd_value] at has
    cases old : (lookup (registered rs) path).value with
    | some there =>
        rw [old,Option.some_or] at has
        cases has
        have present : IsPath rs path := by
          by_contra absent
          rw [(registered_path rs path).mpr absent] at old
          cases old
        obtain ⟨given,e,member,starts⟩ := present
        have other : scannedWords r.cmd ≠ path := fun same => new e member (same ▸ starts)
        rcases before path command old with ⟨own,ownMember,same⟩ | ⟨missing,func⟩
        · exact .inl ⟨own,List.mem_append_left [r] ownMember,same⟩
        · exact .inr ⟨List.forall_mem_append.mpr ⟨missing,List.forall_mem_singleton.mpr other⟩,func⟩
    | none =>
        have absent := (registered_path rs path).mp (Pointer.value_none.mp old)
        rw [old,Option.none_or] at has
        split at has
        · next starts =>
            cases has
            split
            · next same => exact .inl ⟨r,List.mem_append_right rs (List.mem_singleton_self r),same.symm,rfl⟩
            · next other =>
                refine .inr ⟨List.forall_mem_append.mpr ⟨?_,List.forall_mem_singleton.mpr (Ne.symm other)⟩,rfl⟩
                intro earlier member same
                exact absent ⟨starts.1,earlier,member,same ▸ List.prefix_refl _⟩
        · cases has

theorem findMatch_matches (rs : List (Registration Func)) (line : Text) :
    (findMatchAsPossible line (registered rs) = none ∧ Matches rs line 0) ∨
      ∃ command held length, findMatchAsPossible line (registered rs) = some (command,length+1) ∧
        command.value = some held ∧ (lookup (registered rs) ((scannedWords line).take (length+1))).value = some held ∧
        Matches rs line (length+1) := by
  have spec := longest_spec (registered rs) (scannedWords line)
  rw [findMatchAsPossible_spec]
  cases found : longest (registered rs) (scannedWords line) with
  | none =>
      rw [found] at spec
      exact .inl ⟨rfl,Nat.zero_le _,.inl rfl,fun longer _ _ => (registered_path rs _).mp (spec longer)⟩
  | some pair =>
      obtain ⟨command,length⟩ := pair
      rw [found] at spec
      obtain ⟨positive,within,here,there,further⟩ := spec
      obtain ⟨length,rfl⟩ : ∃ shorter, length = shorter+1 := ⟨length-1,by omega⟩
      cases has : command.value with
      | none => exact absurd (Pointer.value_none.mp has) there
      | some held =>
          refine .inr ⟨command,held,length,rfl,has,here ▸ has,within,.inr ?_,?_⟩
          · by_contra absent
            exact there (here.symm.trans ((registered_path rs _).mpr absent))
          · exact fun longer more inside => (registered_path rs _).mp (further longer more inside)

theorem executeLine_found (root : CommandTree Func) (svcFd : Int) (line : Text)
    (found : findMatchAsPossible line root = some (command,length)) (has : command.value = some held) :
    executeLine root svcFd line = match held.func with
      | none => .prints "%% %s: Incomplete command.\n" line
      | some func => if held.isRmt = true ∧ 0 ≤ svcFd then .sends line else .calls func (restOf line (length+1)) := by
  rw [executeLine,found]
  simp only [funcOf,isRmtOf,has,Option.bind_some,Option.any_some]
  cases held.func with
  | none => rfl
  | some func =>
      cases held.isRmt with
      | false => simp
      | true => simp

theorem executeLine_expected (accepted : Accepted rs) (svcFd : Int) (line : Text) :
    Expected rs svcFd line (executeLine (registered rs) svcFd line) := by
  rcases findMatch_matches rs line with ⟨null,nothing⟩ | ⟨command,held,length,found,has,place,matched⟩
  · rw [executeLine,null]
    exact .unknown nothing
  · rw [executeLine_found _ svcFd line found has]
    rcases registered_holds accepted _ held place with ⟨r,member,own,rfl⟩ | ⟨path,absent⟩
    · exact .command matched member own
    · rw [absent]
      exact .incomplete matched path

theorem matches_unique (one : Matches rs line length) (other : Matches rs line length') : length = length' := by
  have le : ∀ {m n}, Matches rs line m → Matches rs line n → n ≤ m := by
    intro m n low high
    by_contra more
    rcases high.path with rfl | path
    · exact more (Nat.zero_le m)
    · exact low.longest n (by omega) high.within path
  exact Nat.le_antisymm (le other one) (le one other)

theorem own_unique (first : PrefixesFirst rs) (member : r ∈ rs) (member' : r' ∈ rs)
    (same : scannedWords r.cmd = scannedWords r'.cmd) : r = r' := by
  have different : (rs.map fun r => scannedWords r.cmd).Nodup := by
    refine List.pairwise_map.mpr (first.ordered.imp ?_)
    intro earlier later other equal
    exact other (equal ▸ List.prefix_refl _)
  exact List.inj_on_of_nodup_map different member member' same

theorem expected_unique (first : PrefixesFirst rs) (one : Expected rs svcFd line outcome)
    (other : Expected rs svcFd line outcome') : outcome = outcome' := by
  cases one with
  | unknown nothing =>
      cases other with
      | unknown _ => rfl
      | command matched _ _ => cases matches_unique nothing matched
      | incomplete matched _ => cases matches_unique nothing matched
  | command matched member own =>
      cases other with
      | unknown nothing => cases matches_unique nothing matched
      | command matches' member' own' =>
          cases matches_unique matched matches'
          cases own_unique first member member' (own.trans own'.symm)
          rfl
      | incomplete matches' path =>
          cases matches_unique matched matches'
          exact absurd own (path _ member)
  | incomplete matched path =>
      cases other with
      | unknown nothing => cases matches_unique nothing matched
      | command matches' member' own' =>
          cases matches_unique matched matches'
          exact absurd own' (path _ member')
      | incomplete _ _ => rfl

theorem isPath_perm {order rs : List (Registration Func)} (perm : order.Perm rs) : IsPath order path ↔ IsPath rs path := by
  simp only [IsPath,perm.mem_iff]

theorem expected_perm {order rs : List (Registration Func)} (perm : order.Perm rs)
    (expected : Expected order svcFd line outcome) : Expected rs svcFd line outcome := by
  have fits : ∀ {length}, Matches order line length → Matches rs line length := fun matched =>
    ⟨matched.within,matched.path.imp_right (isPath_perm perm).mp,
      fun longer more inside path => matched.longest longer more inside ((isPath_perm perm).mpr path)⟩
  cases expected with
  | unknown nothing => exact .unknown (fits nothing)
  | command matched member own => exact .command (fits matched) (perm.mem_iff.mp member) own
  | incomplete matched path => exact .incomplete (fits matched) fun r member => path r (perm.mem_iff.mpr member)

-- The words of a command match as a whole, and no argument is left.
theorem executeLine_own (accepted : Accepted rs) (member : r ∈ rs) (func : r.cmdfunc = some f) (alone : svcFd < 0)
    (typed : scannedWords line = scannedWords r.cmd) : executeLine (registered rs) svcFd line = .calls f none := by
  have first := (accepted_iff rs).mp accepted
  have nonempty := first.nonempty r member
  have whole : Matches rs line (scannedWords line).length := by
    refine ⟨Nat.le_refl _,.inr ?_,fun longer more inside => absurd inside (Nat.not_le.mpr more)⟩
    rw [List.take_length,typed]
    exact ⟨nonempty,r,member,List.prefix_refl _⟩
  obtain ⟨length,all⟩ : ∃ length, (scannedWords line).length = length+1 :=
    Nat.exists_eq_succ_of_ne_zero (fun zero => nonempty (typed ▸ List.length_eq_zero_iff.mp zero))
  have own : Expected rs svcFd line (r.outcome svcFd line (length+1)) :=
    .command (all ▸ whole) member (by rw [← all,List.take_length,typed])
  have absent : restOf line (length+1+1) = none := by
    rw [restOf,Option.map_eq_none_iff,nthwordptr_none line (by omega)]
    rw [scannedWords,List.length_map] at all
    omega
  rw [expected_unique first (executeLine_expected accepted svcFd line) own,Registration.outcome,func]
  simp [absent,show ¬ 0 ≤ svcFd by omega]

theorem independent_iff (rs : List (Registration Func)) : Independent rs ↔ PrefixesFirst rs := by
  constructor
  · exact fun independent => (accepted_iff rs).mp independent.accepted
  · intro first
    have accepted := (accepted_iff rs).mpr first
    refine ⟨accepted,executeLine_expected accepted,fun order perm other svcFd line => ?_,
      fun r member func has svcFd alone line typed => executeLine_own accepted member has alone typed⟩
    exact expected_unique first (expected_perm perm (executeLine_expected other svcFd line))
      (executeLine_expected accepted svcFd line)

-- "load module" before "load": the second is taken for a duplicate.
theorem prefix_behind_refused :
    (cliAddcmd (registered [⟨[108,111,97,100,32,109,111,100,117,108,101],true,some 0,none,1,1⟩])
        ⟨[108,111,97,100],true,some 1,none,0,1⟩).1 = 0 ∧
      @Accepted Nat [⟨[108,111,97,100],true,some 1,none,0,1⟩,
        ⟨[108,111,97,100,32,109,111,100,117,108,101],true,some 0,none,1,1⟩] ∧
      ¬ @Independent Nat [⟨[108,111,97,100,32,109,111,100,117,108,101],true,some 0,none,1,1⟩,
        ⟨[108,111,97,100],true,some 1,none,0,1⟩] := by
  refine ⟨by decide +kernel,by decide +kernel,fun independent => ?_⟩
  exact absurd independent.accepted (by decide +kernel)

end TcpProxy.CommandLine
