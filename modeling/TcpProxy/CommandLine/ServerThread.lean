import TcpProxy.Lib.Monitor

namespace TcpProxy.CommandLine.ServerThread
open Monitor

-- The caller of start_server_in_thread, and the thread that it creates.
inductive Thread where
  | parent
  | child
deriving DecidableEq, Repr

inductive Label where
  -- start_server_in_thread
  | locking
  | testing
  | waiting
  | unlocking
  | answering
  | returned
  -- command_main: start_server up to on_success
  | starting
  -- change_state_and_wakeup (1)
  | publishing
  | announcing
  | signalling
  | releasing
  -- the loop of cli_start
  | serving
  -- change_state_and_wakeup (0)
  | withdrawing
  | closing
  | closingSignal
  | closingRelease
  | finished
deriving DecidableEq, Repr

-- `bound` is set once bind has succeeded, `answer` is what the caller returns.
structure Shared where
  commandThreadSuccess : Int
  bound : Bool
  answer : Option Bool
deriving DecidableEq, Repr

-- The choice is whether start_server comes to bind, and whether the loop ends.
def code : Thread → Label → Instruction Label Shared Bool
  | .parent,.locking => .lock .testing
  | .parent,.testing => .act fun _ s => (s,if s.commandThreadSuccess = -1 then .waiting else .unlocking)
  | .parent,.waiting => .wait .testing
  | .parent,.unlocking => .unlock .answering
  | .parent,.answering => .act fun _ s => ({s with answer := some (decide (0 < s.commandThreadSuccess))},.returned)
  | .child,.starting => .act fun binds s => if binds then ({s with bound := true},.publishing) else (s,.withdrawing)
  | .child,.publishing => .act fun _ s => ({s with commandThreadSuccess := 1},.announcing)
  | .child,.announcing => .lock .signalling
  | .child,.signalling => .signal .releasing
  | .child,.releasing => .unlock .serving
  | .child,.serving => .act fun ends s => (s,if ends then .withdrawing else .serving)
  | .child,.withdrawing => .act fun _ s => ({s with commandThreadSuccess := 0},.closing)
  | .child,.closing => .lock .closingSignal
  | .child,.closingSignal => .signal .closingRelease
  | .child,.closingRelease => .unlock .finished
  | _,_ => .stop

def threads : Program Thread Label Shared Bool where
  code := code
  waiter := .parent
  alone := by
    intro t l next
    cases t <;> cases l <;> simp [code]

def started : State Thread Label Shared :=
  ⟨none,.up,fun t => match t with | .parent => .locking | .child => .starting,⟨-1,false,none⟩⟩

def inside : Thread → Label → Bool
  | .parent,.testing | .parent,.waiting | .parent,.unlocking => true
  | .child,.signalling | .child,.releasing | .child,.closingSignal | .child,.closingRelease => true
  | _,_ => false

def checked (l : Label) : Bool := l == .waiting

def due : Thread → Label → Bool
  | .child,.announcing | .child,.signalling | .child,.closing | .child,.closingSignal => true
  | _,_ => false

def need (s : Shared) : Bool := s.commandThreadSuccess != -1

theorem threads_bracketed : Bracketed threads inside := by
  refine ⟨?_,?_,?_,?_,?_⟩
  case refine_5 =>
    intro t l effect code choice shared
    cases t <;> cases l <;> simp [threads,ServerThread.code] at code <;> subst code
    case parent.testing => by_cases same : shared.commandThreadSuccess = -1 <;> simp [inside,same]
    all_goals cases choice <;> rfl
  all_goals
    intro t l
    cases t <;> cases l <;> simp [threads,code,inside]

theorem threads_alerts : Alerts threads inside need checked due := by
  refine ⟨?_,?_,?_,?_,?_,?_,?_,?_⟩
  · intro l effect code choice shared looked
    cases l <;> simp [threads,ServerThread.code] at code
    · subst code
      by_cases same : shared.commandThreadSuccess = -1
      · simp [need,same]
      · simp [checked,same] at looked
    · subst code
      cases looked
  · intro l next
    cases l <;> simp [threads,code,checked] <;> rintro rfl <;> decide
  · intro l looked
    cases l <;> first | rfl | cases looked
  · intro t l effect apart code choice shared
    cases t with
    | parent => exact absurd rfl apart
    | child =>
        cases l <;> simp [threads,ServerThread.code] at code
        all_goals
          subst code
          cases choice <;> simp [need,due]
  · intro t l next owed
    cases t <;> cases l <;> simp [due] at owed <;> simp [threads,code] <;> rintro rfl <;> rfl
  · intro t l effect owed
    cases t <;> cases l <;> simp [due] at owed <;> simp [threads,code]
  · intro t l next
    cases t <;> cases l <;> simp [threads,code,inside]
  · intro t l owed
    cases t with
    | parent => cases l <;> cases owed
    | child => exact fun same => by cases same

def Stands (child : Label) (s : Shared) : Prop :=
  match child with
  | .starting => s.commandThreadSuccess = -1 ∧ s.bound = false
  | .publishing => s.commandThreadSuccess = -1 ∧ s.bound = true
  | .announcing | .signalling | .releasing | .serving => s.commandThreadSuccess = 1 ∧ s.bound = true
  | .withdrawing => s.commandThreadSuccess = -1 ∧ s.bound = false ∨ s.commandThreadSuccess = 1 ∧ s.bound = true
  | .closing | .closingSignal | .closingRelease | .finished => s.commandThreadSuccess = 0
  | _ => False

def Left (parent : Label) (s : Shared) : Prop :=
  match parent with
  | .locking | .testing | .waiting => s.answer = none
  | .unlocking | .answering => s.answer = none ∧ s.commandThreadSuccess ≠ -1
  | .returned => s.commandThreadSuccess ≠ -1 ∧ ∃ b, s.answer = some b ∧ (b = true → s.bound = true) ∧
      (b = false → s.commandThreadSuccess = 0)
  | _ => False

structure Known (s : State Thread Label Shared) : Prop where
  child : Stands (s.label .child) s.shared
  parent : Left (s.label .parent) s.shared

theorem stands_success (stands : Stands child s) (published : s.commandThreadSuccess ≠ -1) :
    s.commandThreadSuccess = 0 ∨ s.commandThreadSuccess = 1 ∧ s.bound = true := by
  cases child with
  | starting | publishing => exact absurd stands.1 published
  | announcing | signalling | releasing | serving => exact .inr stands
  | withdrawing => exact .inr (stands.resolve_left fun unset => published unset.1)
  | closing | closingSignal | closingRelease | finished => exact .inl stands
  | _ => exact stands.elim

theorem known_moves (known : Known s) (t : Thread) (next : Label) (label : s'.label = Function.update s.label t next)
    (shared : s'.shared = s.shared)
    (parent : t = .parent → Left (s.label .parent) s.shared → Left next s.shared)
    (child : t = .child → Stands (s.label .child) s.shared → Stands next s.shared) : Known s' := by
  refine ⟨?_,?_⟩ <;> rw [label,shared] <;> cases t
  · exact known.child
  · rw [Function.update_self]
    exact child rfl known.child
  · rw [Function.update_self]
    exact parent rfl known.parent
  · exact known.parent

theorem left_publishes (left : Left parent s) (unset : s.commandThreadSuccess = -1) :
    parent = .locking ∨ parent = .testing ∨ parent = .waiting := by
  cases parent with
  | locking => exact .inl rfl
  | testing => exact .inr (.inl rfl)
  | waiting => exact .inr (.inr rfl)
  | unlocking | answering => exact absurd unset left.2
  | returned => exact absurd unset left.1
  | _ => exact left.elim

theorem stepped_known (known : Known s) (stepped : Stepped threads s s') : Known s' := by
  cases stepped with
  | still => exact known
  | woken asleep => exact ⟨known.child,known.parent⟩
  | waits next up code => exact ⟨known.child,known.parent⟩
  | resumed next code awake free =>
      refine known_moves known .parent next rfl rfl (fun _ left => ?_) (fun same => by cases same)
      cases place : s.label .parent <;> simp [threads,ServerThread.code,place] at code
      subst code
      rw [place] at left
      exact left
  | locked t next up code free =>
      refine known_moves known t next rfl rfl ?_ ?_ <;> rintro rfl before
      · cases place : s.label .parent <;> simp [threads,ServerThread.code,place] at code
        subst code
        rw [place] at before
        exact before
      · cases place : s.label .child <;> simp [threads,ServerThread.code,place] at code <;> subst code
        all_goals
          rw [place] at before
          exact before
  | unlocked t next up code =>
      refine known_moves known t next rfl rfl ?_ ?_ <;> rintro rfl before
      · cases place : s.label .parent <;> simp [threads,ServerThread.code,place] at code
        subst code
        rw [place] at before
        exact before
      · cases place : s.label .child <;> simp [threads,ServerThread.code,place] at code <;> subst code
        all_goals
          rw [place] at before
          exact before
  | signalled t next up code =>
      refine known_moves known t next (by simp [State.goTo]) wake_shared ?_ ?_ <;> rintro rfl before
      · cases place : s.label .parent <;> simp [threads,ServerThread.code,place] at code
      · cases place : s.label .child <;> simp [threads,ServerThread.code,place] at code <;> subst code
        all_goals
          rw [place] at before
          exact before
  | acted t choice effect up code =>
      obtain ⟨child,parent⟩ := known
      cases t with
      | parent =>
          cases place : s.label .parent <;> simp [threads,ServerThread.code,place] at code <;> subst code <;> rw [place] at parent
          case testing =>
            refine known_moves ⟨child,place ▸ parent⟩ .parent _ rfl rfl (fun _ _ => ?_) (fun same => by cases same)
            by_cases unset : s.shared.commandThreadSuccess = -1
            · simp only [if_pos unset]
              exact parent
            · simp only [if_neg unset]
              exact ⟨parent,unset⟩
          case answering =>
            refine ⟨?_,?_⟩
            · rw [goTo_other _ _ (by decide)]
              cases place : s.label .child <;> rw [place] at child <;> exact child
            · rw [goTo_label]
              refine ⟨parent.2,_,rfl,fun yes => ?_,fun no => ?_⟩
              · rcases stands_success child parent.2 with zero | one
                · simp [zero] at yes
                · exact one.2
              · rcases stands_success child parent.2 with zero | one
                · exact zero
                · simp [one.1] at no
      | child =>
          have apart : Thread.parent ≠ Thread.child := by decide
          cases place : s.label .child <;> simp [threads,ServerThread.code,place] at code <;> subst code <;> rw [place] at child
          case starting =>
            rcases left_publishes parent child.1 with stood | stood | stood <;> rw [stood] at parent
            all_goals
              cases choice <;> refine ⟨?_,?_⟩ <;> simp only [goTo_label,goTo_other _ _ apart,stood]
            all_goals first | exact parent | exact .inl child | exact ⟨child.1,rfl⟩
          case publishing =>
            rcases left_publishes parent child.1 with stood | stood | stood <;> rw [stood] at parent
            all_goals
              refine ⟨?_,?_⟩ <;> simp only [goTo_label,goTo_other _ _ apart,stood]
            all_goals first | exact parent | exact ⟨rfl,child.2⟩
          case serving =>
            refine known_moves ⟨place ▸ child,parent⟩ .child _ rfl rfl (fun same => by cases same) (fun _ _ => ?_)
            cases choice
            · exact child
            · exact .inr child
          case withdrawing =>
            have zero : (0 : Int) ≠ -1 := by decide
            refine ⟨?_,?_⟩
            · rw [goTo_label]
              rfl
            · rw [goTo_other _ _ apart]
              cases stood : s.label .parent <;> rw [stood] at parent
              case unlocking => exact ⟨parent.1,zero⟩
              case answering => exact ⟨parent.1,zero⟩
              case returned =>
                obtain ⟨_,b,answer,yes,_⟩ := parent
                exact ⟨zero,b,answer,yes,fun _ => rfl⟩
              all_goals exact parent

theorem started_known : Known started := ⟨⟨rfl,rfl⟩,rfl⟩

theorem started_owned : Owned threads inside started := by
  refine ⟨fun t => ?_,fun sleeping => absurd rfl sleeping⟩
  cases t <;> simp [started,inside]

theorem started_alerted : Alerted threads need checked due started := fun looked => by cases looked

-- The thread t runs n times, each time with the same luck.
def runs (s : State Thread Label Shared) (t : Thread) (choice : Bool) (n : Nat) : State Thread Label Shared :=
  Machine.run (step threads) s (List.replicate n (.runs t choice))

-- The start of the server has failed, or its loop has ended.
def ended : Label → Bool
  | .closing | .closingSignal | .closingRelease | .finished => true
  | _ => false

-- The child has signalled what became of it. A server tells twice, that it is
-- there and that it has ended.
def hasTold (s : State Thread Label Shared) : Bool :=
  match s.label .child with
  | .releasing | .serving | .closingRelease | .finished => true
  | .withdrawing | .closing | .closingSignal => s.shared.bound
  | _ => false

def unlocks : Label → Nat
  | .closingSignal => 2
  | .releasing | .closingRelease => 1
  | _ => 0

-- A true answer is given of a server that is there, a false one of a server
-- that never came to be or has ended. Once the child has told what it has to
-- tell and has left the mutex, four steps of its own take the caller to its
-- answer, wherever it was.
structure Handshake (s : State Thread Label Shared) : Prop where
  told : ∀ b, s.shared.answer = some b →
    (b = true → s.shared.bound = true) ∧ (b = false → ended (s.label .child) = true)
  exclusive : ¬ (inside .parent (s.label .parent) = true ∧ s.sleep = .up ∧ inside .child (s.label .child) = true)
  answers : hasTold s = true → ∀ luck choice,
    (runs (runs s .child luck (unlocks (s.label .child))) .parent choice 4).shared.answer.isSome = true

theorem stands_ended (stands : Stands child s) (zero : s.commandThreadSuccess = 0) : ended child = true := by
  cases child with
  | closing | closingSignal | closingRelease | finished => rfl
  | withdrawing =>
      rcases stands with unset | published
      · cases unset.1.symm.trans zero
      · cases published.1.symm.trans zero
  | starting | publishing | announcing | signalling | releasing | serving => cases stands.1.symm.trans zero
  | _ => exact stands.elim

theorem known_told (known : Known s) (b : Bool) (answer : s.shared.answer = some b) :
    (b = true → s.shared.bound = true) ∧ (b = false → ended (s.label .child) = true) := by
  have parent := known.parent
  cases place : s.label .parent <;> rw [place] at parent
  case returned =>
    obtain ⟨_,own,answered,yes,no⟩ := parent
    cases answer.symm.trans answered
    exact ⟨yes,fun refused => stands_ended known.child (no refused)⟩
  case locking | testing | waiting => cases answer.symm.trans parent
  case unlocking | answering => cases answer.symm.trans parent.1
  all_goals exact parent.elim

theorem runs_succ (s : State Thread Label Shared) (t : Thread) (choice : Bool) (n : Nat) :
    runs s t choice (n + 1) = runs (step threads s (.runs t choice)) t choice n := rfl

theorem answered_runs (answered : s.shared.answer.isSome = true) (place : s.label .parent = .returned) (up : s.sleep = .up)
    (choice : Bool) (n : Nat) : (runs s .parent choice n).shared.answer.isSome = true := by
  induction n with
  | zero => exact answered
  | succ n ih =>
      have still : step threads s (.runs .parent choice) = s := by simp [step,threads,code,place,up]
      rw [runs_succ,still]
      exact ih

theorem answering_runs (place : s.label .parent = .answering) (up : s.sleep = .up) (choice : Bool) (n : Nat) :
    (runs s .parent choice (n + 1)).shared.answer.isSome = true := by
  rw [runs_succ]
  refine answered_runs ?_ ?_ ?_ choice n <;> simp [step,threads,code,place,up,State.goTo]

theorem unlocking_runs (place : s.label .parent = .unlocking) (up : s.sleep = .up) (choice : Bool) (n : Nat) :
    (runs s .parent choice (n + 2)).shared.answer.isSome = true := by
  rw [runs_succ]
  refine answering_runs ?_ ?_ choice n <;> simp [step,threads,code,place,up,State.goTo]

theorem testing_runs (place : s.label .parent = .testing) (up : s.sleep = .up) (published : s.shared.commandThreadSuccess ≠ -1)
    (choice : Bool) (n : Nat) : (runs s .parent choice (n + 3)).shared.answer.isSome = true := by
  rw [runs_succ]
  refine unlocking_runs ?_ ?_ choice n <;> simp [step,threads,code,place,up,State.goTo,published]

-- Both a caller that has yet to lock and one that is to come out of its wait
-- have to find the mutex free.
theorem entering_runs (free : s.owner = none) (published : s.shared.commandThreadSuccess ≠ -1)
    (enters : s.label .parent = .locking ∧ s.sleep = .up ∨ s.label .parent = .waiting ∧ s.sleep = .awake)
    (choice : Bool) : (runs s .parent choice 4).shared.answer.isSome = true := by
  rw [runs_succ]
  rcases enters with ⟨place,sleep⟩ | ⟨place,sleep⟩
  · refine testing_runs ?_ ?_ ?_ choice 0 <;> simp [step,threads,code,place,sleep,free,State.goTo,published]
  · refine testing_runs ?_ ?_ ?_ choice 0 <;> simp [step,resume,threads,code,place,sleep,free,State.goTo,published]

-- Whoever sat waiting when a server came up has been woken then, and nobody
-- has gone to wait since.
def Heard (s : State Thread Label Shared) : Prop :=
  s.label .child = .closing → s.shared.bound = true → s.label .parent = .waiting → s.sleep = .awake

theorem alerted_awake (alerted : Alerted threads need checked due s) (published : s.shared.commandThreadSuccess ≠ -1)
    (silent : due .child (s.label .child) = false) (waiting : s.label .parent = .waiting) : s.sleep = .awake := by
  by_contra still
  rcases alerted (by rw [show threads.waiter = .parent from rfl,waiting]; rfl) still with needless | ⟨t,owed⟩
  · simp [need,published] at needless
  · cases t with
    | parent =>
        rw [waiting] at owed
        cases owed
    | child => cases owed.symm.trans silent

theorem stepped_heard (known : Known s) (alerted : Alerted threads need checked due s) (heard : Heard s)
    (stepped : Stepped threads s s') : Heard s' := by
  have apart : Thread.parent ≠ Thread.child := by decide
  cases stepped with
  | still => exact heard
  | woken asleep => exact fun _ _ _ => rfl
  | waits next up code =>
      intro closing bound waiting
      cases up.symm.trans (heard closing bound waiting)
  | resumed next code awake free =>
      intro closing bound waiting
      cases place : s.label .parent <;> simp [threads,ServerThread.code,place] at code
      subst code
      cases (goTo_label _ _).symm.trans waiting
  | locked t next up code free =>
      intro closing bound waiting
      cases t with
      | parent =>
          cases place : s.label .parent <;> simp [threads,ServerThread.code,place] at code
          subst code
          cases (goTo_label _ _).symm.trans waiting
      | child =>
          cases place : s.label .child <;> simp [threads,ServerThread.code,place] at code <;> subst code
          all_goals cases (goTo_label _ _).symm.trans closing
  | unlocked t next up code =>
      intro closing bound waiting
      cases t with
      | parent =>
          cases place : s.label .parent <;> simp [threads,ServerThread.code,place] at code
          subst code
          cases (goTo_label _ _).symm.trans waiting
      | child =>
          cases place : s.label .child <;> simp [threads,ServerThread.code,place] at code <;> subst code
          all_goals cases (goTo_label _ _).symm.trans closing
  | signalled t next up code =>
      intro closing bound waiting
      cases t with
      | parent => cases place : s.label .parent <;> simp [threads,ServerThread.code,place] at code
      | child =>
          cases place : s.label .child <;> simp [threads,ServerThread.code,place] at code <;> subst code
          all_goals cases (goTo_label _ _).symm.trans closing
  | acted t choice effect up code =>
      intro closing bound waiting
      cases t with
      | parent =>
          rw [goTo_other _ _ apart.symm] at closing
          have child := known.child
          rw [show s.label .child = .closing from closing] at child
          cases place : s.label .parent <;> simp [threads,ServerThread.code,place] at code <;> subst code
          case testing =>
            have zero : s.shared.commandThreadSuccess = 0 := child
            simp [goTo_label,zero] at waiting
          case answering => cases (goTo_label _ _).symm.trans waiting
      | child =>
          rw [goTo_other _ _ apart] at waiting
          cases place : s.label .child <;> simp [threads,ServerThread.code,place] at code <;> subst code
          case withdrawing =>
            have child := known.child
            rw [place] at child
            have published := child.resolve_left fun unset => by cases unset.2.symm.trans bound
            have awake : s.sleep = .awake :=
              alerted_awake alerted (by rw [published.1]; decide) (by rw [place]; rfl) waiting
            exact awake
          all_goals
            try cases choice
            all_goals cases (goTo_label _ _).symm.trans closing

structure Sound (s : State Thread Label Shared) : Prop where
  known : Known s
  owned : Owned threads inside s
  alerted : Alerted threads need checked due s
  heard : Heard s

theorem started_sound : Sound started :=
  ⟨started_known,started_owned,started_alerted,fun closing => by cases closing⟩

theorem step_sound (sound : Sound s) (event : Event Thread Bool) : Sound (step threads s event) := by
  have stepped := step_stepped threads s event
  exact ⟨stepped_known sound.known stepped,stepped_owned threads_bracketed sound.owned stepped,
    stepped_alerted threads_alerts sound.owned sound.alerted stepped,
    stepped_heard sound.known sound.alerted sound.heard stepped⟩

theorem run_sound (sound : Sound s) (events : List (Event Thread Bool)) : Sound (Machine.run (step threads) s events) :=
  Machine.run_preserves Sound sound (fun _ event before => step_sound before event) events

-- With the child out of the mutex and not about to signal, a caller that still
-- waits is awake.
theorem sound_answers (sound : Sound s) (told : hasTold s = true) (away : unlocks (s.label .child) = 0) (choice : Bool) :
    (runs s .parent choice 4).shared.answer.isSome = true := by
  obtain ⟨known,owned,alerted,heard⟩ := sound
  have published : s.shared.commandThreadSuccess ≠ -1 := fun unset => by
    have child := known.child
    unfold hasTold at told
    cases place : s.label .child <;> simp [place,unlocks] at told away <;> simp [place,Stands,unset,told] at child
  have outside : s.owner ≠ some .child := fun own => by
    have inner := ((owned.owner .child).mp own).1
    unfold hasTold at told
    cases place : s.label .child <;> simp [place,unlocks,inside] at told away inner
  have free : ¬ (inside .parent (s.label .parent) = true ∧ s.sleep = .up) → s.owner = none := fun elsewhere => by
    cases own : s.owner with
    | none => rfl
    | some t =>
        cases t with
        | child => exact absurd own outside
        | parent =>
            have holds := (owned.owner .parent).mp own
            exact absurd ⟨holds.1,holds.2 rfl⟩ elsewhere
  -- Nobody sleeps anywhere but in the wait.
  have up : s.label .parent ≠ .waiting → s.sleep = .up := fun elsewhere => by_contra fun sleeping => by
    obtain ⟨next,code⟩ := owned.waiting sleeping
    cases place : s.label .parent <;> simp [threads,ServerThread.code,place] at code elsewhere
  have awake : s.label .parent = .waiting → s.sleep = .awake := fun waiting => by
    by_cases closing : s.label .child = .closing
    · exact heard closing (by simpa [hasTold,closing] using told) waiting
    · refine alerted_awake alerted published ?_ waiting
      unfold hasTold at told
      cases place : s.label .child <;> simp [place,unlocks] at told away closing <;> rfl
  have parent := known.parent
  cases place : s.label .parent <;> rw [place] at parent
  case locking => exact entering_runs (free (by simp [place,inside])) published (.inl ⟨place,up (by simp [place])⟩) choice
  case testing => exact testing_runs place (up (by simp [place])) published choice 1
  case waiting => exact entering_runs (free (by simp [awake place])) published (.inr ⟨place,awake place⟩) choice
  case unlocking => exact unlocking_runs place (up (by simp [place])) choice 2
  case answering => exact answering_runs place (up (by simp [place])) choice 3
  case returned =>
    obtain ⟨_,b,answer,_⟩ := parent
    exact answered_runs (by rw [answer]; rfl) place (up (by simp [place])) choice 4
  all_goals exact parent.elim

theorem unlocks_runs (told : hasTold s = true) (luck : Bool) :
    hasTold (runs s .child luck (unlocks (s.label .child))) = true ∧
      unlocks ((runs s .child luck (unlocks (s.label .child))).label .child) = 0 := by
  cases place : s.label .child
  case releasing | closingRelease => simp [runs,Machine.run,unlocks,step,threads,code,place,State.goTo,hasTold]
  case closingSignal => simp [runs,Machine.run,unlocks,step,threads,code,place,State.goTo,hasTold]
  all_goals exact ⟨told,by rw [show runs s .child luck (unlocks _) = s from rfl,place]; rfl⟩

theorem handshake (events : List (Event Thread Bool)) : Handshake (Machine.run (step threads) started events) := by
  have sound := run_sound started_sound events
  refine ⟨known_told sound.known,fun ⟨parent,up,child⟩ => ?_,fun told luck choice => ?_⟩
  · cases mutual_exclusion sound.owned parent (fun _ => up) child (fun same => by cases same)
  · obtain ⟨still,away⟩ := unlocks_runs told luck
    exact sound_answers (run_sound sound _) still away choice

end TcpProxy.CommandLine.ServerThread
