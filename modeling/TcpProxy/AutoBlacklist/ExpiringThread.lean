import TcpProxy.Lib.Monitor

namespace TcpProxy.AutoBlacklist.ExpiringThread
open Monitor

-- The thread of expiring_main, and the main thread, which wakes it up from cron
-- and in the end terminates it.
inductive Thread where
  | expirer
  | main
deriving DecidableEq, Repr

inductive Label where
  -- expiring_main
  | testing
  | locking
  | waiting
  | sweeping
  | unlocking
  | ended
  -- wakeup
  | resting
  | calling
  | signalling
  | leaving
  -- terminate_thread
  | terminating
  | lastCalling
  | lastSignalling
  | lastLeaving
  | terminated
  -- interrupt, which calls terminate_thread and exits
  | interrupted
  | handlerLocking
  | handlerSignalling
  | handlerLeaving
  | exited
deriving DecidableEq, Repr

structure Shared where
  terminate : Bool
  sweeps : Nat
deriving DecidableEq, Repr

-- The choice is what the main thread calls next.
def code : Thread → Label → Instruction Label Shared Bool
  | .expirer,.testing => .act fun _ s => (s,if s.terminate then .ended else .locking)
  | .expirer,.locking => .lock .waiting
  | .expirer,.waiting => .wait .sweeping
  | .expirer,.sweeping => .act fun _ s => ({s with sweeps := s.sweeps+1},.unlocking)
  | .expirer,.unlocking => .unlock .testing
  | .main,.resting => .act fun last s => (s,if last then .terminating else .calling)
  | .main,.calling => .lock .signalling
  | .main,.signalling => .signal .leaving
  | .main,.leaving => .unlock .resting
  | .main,.terminating => .act fun _ s => ({s with terminate := true},.lastCalling)
  | .main,.lastCalling => .lock .lastSignalling
  | .main,.lastSignalling => .signal .lastLeaving
  | .main,.lastLeaving => .unlock .terminated
  | .main,.interrupted => .act fun _ s => ({s with terminate := true},.handlerLocking)
  | .main,.handlerLocking => .lock .handlerSignalling
  | .main,.handlerSignalling => .signal .handlerLeaving
  | .main,.handlerLeaving => .unlock .exited
  | _,_ => .stop

def threads : Program Thread Label Shared Bool where
  code := code
  waiter := .expirer
  alone := by
    intro t l next
    cases t <;> cases l <;> simp [code]

def started : State Thread Label Shared :=
  ⟨none,.up,fun t => match t with | .expirer => .testing | .main => .resting,⟨false,0⟩⟩

def inside : Thread → Label → Bool
  | .expirer,.waiting | .expirer,.sweeping | .expirer,.unlocking => true
  | .main,.signalling | .main,.leaving | .main,.lastSignalling | .main,.lastLeaving => true
  | .main,.handlerSignalling | .main,.handlerLeaving => true
  | _,_ => false

theorem threads_bracketed : Bracketed threads inside := by
  refine ⟨?_,?_,?_,?_,?_⟩
  case refine_5 =>
    intro t l effect code choice shared
    cases t <;> cases l <;> simp [threads,ExpiringThread.code] at code <;> subst code
    case expirer.testing => cases past : shared.terminate <;> simp [past,inside]
    all_goals cases choice <;> rfl
  all_goals
    intro t l
    cases t <;> cases l <;> simp [threads,code,inside]

theorem started_owned : Owned threads inside started := by
  refine ⟨fun t => ?_,fun sleeping => absurd rfl sleeping⟩
  cases t <;> simp [started,inside]

def pending (s : State Thread Label Shared) : Nat :=
  if s.sleep = .awake ∨ s.label .expirer = .sweeping then 1 else 0

def woken (s : State Thread Label Shared) (event : Event Thread Bool) : Option Unit :=
  if s.sleep = .asleep ∧ (step threads s event).sleep = .awake then some () else none

def wakes (s s' : State Thread Label Shared) : Nat := if s.sleep = .asleep ∧ s'.sleep = .awake then 1 else 0

variable {s s' : State Thread Label Shared}

theorem waits_only (owned : Owned threads inside s) (sleeping : s.sleep ≠ .up) : s.label .expirer = .waiting := by
  obtain ⟨next,code⟩ := owned.waiting sleeping
  cases place : s.label .expirer <;> simp [threads,ExpiringThread.code,place] at code ⊢

theorem moves_counted (sleep : s'.sleep = s.sleep) (sweeps : s'.shared.sweeps = s.shared.sweeps)
    (label : s'.label .expirer = .sweeping ↔ s.label .expirer = .sweeping) :
    s'.shared.sweeps+pending s' = s.shared.sweeps+pending s+wakes s s' := by
  have absent : wakes s s' = 0 := if_neg fun both => by
    rw [sleep,both.1] at both
    cases both.2
  have same : pending s' = pending s := by simp only [pending,sleep,label]
  rw [absent,same,sweeps,Nat.add_zero]

theorem stepped_counted (owned : Owned threads inside s) (stepped : Stepped threads s s') :
    s'.shared.sweeps+pending s' = s.shared.sweeps+pending s+wakes s s' := by
  cases stepped with
  | still => exact moves_counted rfl rfl Iff.rfl
  | woken asleep => simp [pending,wakes,asleep,waits_only owned (by simp [asleep])]
  | resumed next code awake free =>
      have place := waits_only owned (by simp [awake])
      obtain rfl : next = .sweeping := by simpa [threads,ExpiringThread.code,place] using code.symm
      simp [pending,wakes,awake,State.goTo,threads]
  | locked t next up code free =>
      refine moves_counted rfl rfl ?_
      cases t with
      | main => rw [goTo_other _ _ (by decide)]
      | expirer =>
          cases place : s.label .expirer <;> simp [threads,ExpiringThread.code,place] at code
          subst code
          simp [State.goTo]
  | unlocked t next up code =>
      refine moves_counted rfl rfl ?_
      cases t with
      | main => rw [goTo_other _ _ (by decide)]
      | expirer =>
          cases place : s.label .expirer <;> simp [threads,ExpiringThread.code,place] at code
          subst code
          simp [State.goTo]
  | waits next up code =>
      cases place : s.label .expirer <;> simp [threads,ExpiringThread.code,place] at code
      simp [pending,wakes,up,place]
  | signalled t next up code =>
      cases t with
      | expirer => cases place : s.label .expirer <;> simp [threads,ExpiringThread.code,place] at code
      | main =>
          have label : (s.wake.goTo .main next).label .expirer = s.label .expirer := by
            rw [goTo_other _ _ (by decide),wake_label]
          have sweeps : (s.wake.goTo .main next).shared.sweeps = s.shared.sweeps := congrArg Shared.sweeps wake_shared
          by_cases asleep : s.sleep = .asleep
          · have place := waits_only owned (by simp [asleep])
            have awake : (s.wake.goTo .main next).sleep = .awake := by simp [State.wake,State.goTo,asleep]
            simp [pending,wakes,label,sweeps,awake,asleep,place]
          · have still : (s.wake.goTo .main next).sleep = s.sleep := by simp [State.wake,State.goTo,asleep]
            exact moves_counted still sweeps (by rw [label])
  | acted t choice effect up code =>
      cases t with
      | expirer =>
          have awake := up rfl
          cases place : s.label .expirer <;> simp [threads,ExpiringThread.code,place] at code <;> subst code
          case testing =>
            refine moves_counted rfl rfl ?_
            rw [goTo_label,place]
            cases past : s.shared.terminate <;> simp [past]
          case sweeping => simp [pending,wakes,awake,place,State.goTo]
      | main =>
          cases place : s.label .main <;> simp [threads,ExpiringThread.code,place] at code <;> subst code
          all_goals
            refine moves_counted rfl rfl ?_
            rw [goTo_other _ _ (by decide)]

def expirerRuns (s : State Thread Label Shared) (choice : Bool) (n : Nat) : State Thread Label Shared :=
  Machine.run (step threads) s (List.replicate n (.runs .expirer choice))

-- It has seen terminate unset, and waits or is to wait for a signal.
def Missed (s : State Thread Label Shared) : Prop :=
  s.label .expirer = .locking ∨ s.label .expirer = .waiting ∧ s.sleep ≠ .awake

-- The expirer sweeps once each time it is woken up, and no wake-up is given
-- during a sweep. Once woken it gets to its sweep by itself as soon as the main
-- thread has left the mutex. When the main thread is done with terminating, the
-- expirer ends by itself, or it has missed that and never does.
structure Sweeps (events : List (Event Thread Bool)) (s : State Thread Label Shared) : Prop where
  counted : s.shared.sweeps+pending s = (Machine.trace (step threads) woken started events).length
  exclusive : s.label .expirer = .sweeping → inside .main (s.label .main) = false
  follows : pending s = 1 → inside .main (s.label .main) = false → ∀ choice,
    (expirerRuns s choice 2).shared.sweeps = s.shared.sweeps+1
  ends : s.label .main = .terminated → ∀ choice, (¬ Missed s → (expirerRuns s choice 4).label .expirer = .ended) ∧
    (Missed s → ∀ n, (expirerRuns s choice n).label .expirer ≠ .ended)

theorem expirerRuns_succ (s : State Thread Label Shared) (choice : Bool) (n : Nat) :
    expirerRuns s choice (n + 1) = expirerRuns (step threads s (.runs .expirer choice)) choice n := rfl

theorem missed_step (missed : Missed s) (awake : s.label .expirer ≠ .waiting → s.sleep = .up) (choice : Bool) :
    Missed (step threads s (.runs .expirer choice)) ∧ ((step threads s (.runs .expirer choice)).label .expirer ≠ .waiting →
      (step threads s (.runs .expirer choice)).sleep = .up) := by
  rcases missed with place | ⟨place,sleep⟩
  · have up : s.sleep = .up := awake (by simp [place])
    by_cases free : s.owner = none
    · have moved : step threads s (.runs .expirer choice) = {s with owner := some Thread.expirer}.goTo .expirer .waiting := by
        simp [step,threads,code,place,up,free]
      rw [moved]
      exact ⟨.inr ⟨goTo_label ..,by simp [State.goTo,up]⟩,fun other => absurd (goTo_label ..) other⟩
    · have still : step threads s (.runs .expirer choice) = s := by simp [step,threads,code,place,up,free]
      rw [still]
      exact ⟨.inl place,awake⟩
  · have waits : (step threads s (.runs .expirer choice)).label .expirer = .waiting ∧
        (step threads s (.runs .expirer choice)).sleep = .asleep := by
      cases sleeping : s.sleep with
      | up => simp [step,threads,code,place,sleeping]
      | asleep => simp [step,resume,threads,code,place,sleeping]
      | awake => exact absurd sleeping sleep
    exact ⟨.inr ⟨waits.1,by simp [waits.2]⟩,fun other => absurd waits.1 other⟩

theorem missed_runs (missed : Missed s) (awake : s.label .expirer ≠ .waiting → s.sleep = .up) (choice : Bool) (n : Nat) :
    (expirerRuns s choice n).label .expirer ≠ .ended := by
  induction n generalizing s with
  | zero =>
      intro past
      change s.label .expirer = .ended at past
      rcases missed with place | ⟨place,_⟩ <;> simp [past] at place
  | succ n ih =>
      rw [expirerRuns_succ]
      obtain ⟨still,awake'⟩ := missed_step missed awake choice
      exact ih still awake'

-- The ways to the end, from the last statement backwards.
theorem ended_runs (place : s.label .expirer = .ended) (up : s.sleep = .up) (choice : Bool) (n : Nat) :
    (expirerRuns s choice n).label .expirer = .ended := by
  induction n with
  | zero => exact place
  | succ n ih =>
      have still : step threads s (.runs .expirer choice) = s := by simp [step,threads,code,place,up]
      rw [expirerRuns_succ,still]
      exact ih

theorem testing_runs (place : s.label .expirer = .testing) (up : s.sleep = .up) (terminate : s.shared.terminate = true)
    (choice : Bool) (n : Nat) : (expirerRuns s choice (n + 1)).label .expirer = .ended := by
  rw [expirerRuns_succ]
  refine ended_runs ?_ ?_ choice n <;> simp [step,threads,code,place,up,State.goTo,terminate]

theorem unlocking_runs (place : s.label .expirer = .unlocking) (up : s.sleep = .up) (terminate : s.shared.terminate = true)
    (choice : Bool) (n : Nat) : (expirerRuns s choice (n + 2)).label .expirer = .ended := by
  rw [expirerRuns_succ]
  refine testing_runs ?_ ?_ ?_ choice n <;> simp [step,threads,code,place,up,State.goTo,terminate]

theorem sweeping_runs (place : s.label .expirer = .sweeping) (up : s.sleep = .up) (terminate : s.shared.terminate = true)
    (choice : Bool) (n : Nat) : (expirerRuns s choice (n + 3)).label .expirer = .ended := by
  rw [expirerRuns_succ]
  refine unlocking_runs ?_ ?_ ?_ choice n <;> simp [step,threads,code,place,up,State.goTo,terminate]

theorem awake_runs (place : s.label .expirer = .waiting) (awake : s.sleep = .awake) (free : s.owner = none)
    (terminate : s.shared.terminate = true) (choice : Bool) : (expirerRuns s choice 4).label .expirer = .ended := by
  rw [expirerRuns_succ]
  refine sweeping_runs ?_ ?_ ?_ choice 0 <;> simp [step,resume,threads,code,place,awake,free,State.goTo,terminate]

def terminating : Label → Bool
  | .lastCalling | .lastSignalling | .lastLeaving | .terminated => true
  | .handlerLocking | .handlerSignalling | .handlerLeaving | .exited => true
  | _ => false

-- Where each of the two threads may be. The main thread does not come back from
-- terminating, and has left the flag behind.
structure Placed (s : State Thread Label Shared) : Prop where
  expirer : s.label .expirer ∈ [.testing,.locking,.waiting,.sweeping,.unlocking,.ended]
  flagged : terminating (s.label .main) = true → s.shared.terminate = true

theorem placed_moves (placed : Placed s) (t : Thread) (next : Label) (label : s'.label = Function.update s.label t next)
    (expirer : t = .expirer → next ∈ [Label.testing,.locking,.waiting,.sweeping,.unlocking,.ended])
    (flagged : terminating (s'.label .main) = true → terminating (s.label .main) = true ∨ s'.shared.terminate = true)
    (kept : s.shared.terminate = true → s'.shared.terminate = true) : Placed s' := by
  refine ⟨?_,fun past => (flagged past).elim (fun before => kept (placed.flagged before)) id⟩
  cases t with
  | expirer =>
      rw [label,Function.update_self]
      exact expirer rfl
  | main =>
      rw [label,Function.update_of_ne (by decide)]
      exact placed.expirer

theorem onward_placed (placed : Placed s) (t : Thread) (next : Label) (label : s'.label = Function.update s.label t next)
    (shared : s'.shared = s.shared)
    (code : threads.code t (s.label t) = .lock next ∨ threads.code t (s.label t) = .unlock next ∨
      threads.code t (s.label t) = .signal next ∨ threads.code t (s.label t) = .wait next) : Placed s' := by
  refine placed_moves placed t next label ?_ (fun past => .inl ?_) (by rw [shared]; exact id)
  · rintro rfl
    cases place : s.label .expirer <;> simp [threads,ExpiringThread.code,place] at code <;> simp [← code]
  · rw [label] at past
    cases t with
    | expirer => rwa [Function.update_of_ne (by decide)] at past
    | main =>
        rw [Function.update_self] at past
        cases place : s.label .main <;> simp [threads,ExpiringThread.code,place] at code <;> simp [← code,terminating] at past ⊢

theorem stepped_placed (placed : Placed s) (stepped : Stepped threads s s') : Placed s' := by
  cases stepped with
  | still => exact placed
  | woken asleep => exact ⟨placed.expirer,placed.flagged⟩
  | waits next up code => exact ⟨placed.expirer,placed.flagged⟩
  | resumed next code awake free => exact onward_placed placed .expirer next rfl rfl (.inr (.inr (.inr code)))
  | locked t next up code free => exact onward_placed placed t next rfl rfl (.inl code)
  | unlocked t next up code => exact onward_placed placed t next rfl rfl (.inr (.inl code))
  | signalled t next up code =>
      exact onward_placed placed t next (by simp [State.goTo]) wake_shared (.inr (.inr (.inl code)))
  | acted t choice effect up code =>
      cases t with
      | expirer =>
          cases place : s.label .expirer <;> simp [threads,ExpiringThread.code,place] at code <;> subst code
          all_goals refine placed_moves placed .expirer _ rfl (fun _ => ?_) (fun past => .inl ?_) id
          case testing.refine_1 => cases past : s.shared.terminate <;> simp [past]
          case sweeping.refine_1 => simp
          all_goals rwa [goTo_other _ _ (by decide)] at past
      | main =>
          cases place : s.label .main <;> simp [threads,ExpiringThread.code,place] at code <;> subst code
          case resting =>
            refine placed_moves placed .main _ rfl (fun same => by cases same) (fun past => .inl ?_) id
            rw [goTo_label] at past
            cases choice <;> simp [terminating] at past
          all_goals exact placed_moves placed .main _ rfl (fun same => by cases same) (fun _ => .inr rfl) fun _ => rfl

theorem free_mutex (owned : Owned threads inside s) (away : inside .main (s.label .main) = false)
    (awake : s.sleep = .awake) : s.owner = none := by
  cases own : s.owner with
  | none => rfl
  | some t =>
      obtain ⟨holds,up⟩ := (owned.owner t).mp own
      cases t with
      | expirer =>
          have never := up rfl
          rw [awake] at never
          cases never
      | main =>
          rw [away] at holds
          cases holds

theorem pending_follows (owned : Owned threads inside s) (due : pending s = 1) (away : inside .main (s.label .main) = false)
    (choice : Bool) : (expirerRuns s choice 2).shared.sweeps = s.shared.sweeps+1 := by
  have either : s.sleep = .awake ∨ s.label .expirer = .sweeping := by_contra fun neither => by simp [pending,neither] at due
  rcases either with awake | place
  · have place := waits_only owned (by simp [awake])
    have free := free_mutex owned away awake
    simp [expirerRuns,Machine.run,step,resume,threads,code,place,awake,free,State.goTo]
  · have up : s.sleep = .up := by_contra fun sleeping => by simp [waits_only owned sleeping] at place
    simp [expirerRuns,Machine.run,step,threads,code,place,up,State.goTo]

theorem terminated_ends (owned : Owned threads inside s) (placed : Placed s) (past : s.label .main = .terminated) (choice : Bool)
    (heard : ¬ Missed s) : (expirerRuns s choice 4).label .expirer = .ended := by
  have terminate := placed.flagged (by rw [past]; rfl)
  have up : s.label .expirer ≠ .waiting → s.sleep = .up := fun elsewhere =>
    by_contra fun sleeping => elsewhere (waits_only owned sleeping)
  have places := placed.expirer
  simp only [List.mem_cons,List.not_mem_nil,or_false] at places
  rcases places with place | place | place | place | place | place
  · exact testing_runs place (up (by simp [place])) terminate choice 3
  · exact absurd (.inl place) heard
  · have awake : s.sleep = .awake := by_contra fun still => heard (.inr ⟨place,still⟩)
    exact awake_runs place awake (free_mutex owned (by rw [past]; rfl) awake) terminate choice
  · exact sweeping_runs place (up (by simp [place])) terminate choice 1
  · exact unlocking_runs place (up (by simp [place])) terminate choice 2
  · exact ended_runs place (up (by simp [place])) choice 4

theorem run_counted (events : List (Event Thread Bool)) :
    (Machine.run (step threads) started events).shared.sweeps+pending (Machine.run (step threads) started events) =
      (Machine.trace (step threads) woken started events).length := by
  induction events using List.reverseRecOn with
  | nil => rfl
  | append_singleton events event ih =>
      have owned := run_owned threads_bracketed started_owned events
      rw [Machine.run_concat,Machine.trace_concat,List.length_append,← ih,
        stepped_counted owned (step_stepped threads _ event)]
      unfold woken wakes
      split <;> rfl

theorem expiring_thread_sweeps (events : List (Event Thread Bool)) :
    Sweeps events (Machine.run (step threads) started events) := by
  have owned := run_owned threads_bracketed started_owned events
  have placed : Placed (Machine.run (step threads) started events) :=
    Machine.run_preserves Placed ⟨by simp [started],fun never => by cases never⟩
      (fun s event before => stepped_placed before (step_stepped threads s event)) events
  have up : ∀ {s : State Thread Label Shared}, Owned threads inside s → s.label .expirer ≠ .waiting → s.sleep = .up :=
    fun owned elsewhere => by_contra fun sleeping => elsewhere (waits_only owned sleeping)
  refine ⟨run_counted events,fun place => ?_,fun due away choice => pending_follows owned due away choice,
    fun past choice => ⟨terminated_ends owned placed past choice,fun missed => missed_runs missed (up owned) choice⟩⟩
  cases away : inside .main ((Machine.run (step threads) started events).label .main) with
  | false => rfl
  | true =>
      have awake := up owned (by simp [place])
      cases mutual_exclusion owned (by rw [place]; rfl) (fun _ => awake) away (fun same => by cases same)

end TcpProxy.AutoBlacklist.ExpiringThread
