import TcpProxy.AutoBlacklist.ExpiringThread

namespace TcpProxy.AutoBlacklist.ExpiringThread
open Monitor

def interrupt (s : State Thread Label Shared) : State Thread Label Shared :=
  {s with label := Function.update s.label .main .interrupted}

def handling : Label → Bool
  | .interrupted | .handlerLocking | .handlerSignalling | .handlerLeaving | .exited => true
  | _ => false

variable {s s' : State Thread Label Shared}

@[simp] theorem interrupt_main : (interrupt s).label .main = .interrupted := by simp [interrupt]

@[simp] theorem interrupt_expirer : (interrupt s).label .expirer = s.label .expirer := by simp [interrupt]

theorem stepped_handling (handles : handling (s.label .main) = true) (stepped : Stepped threads s s') :
    handling (s'.label .main) = true := by
  have onward : ∀ (t : Thread) (next : Label), s'.label = Function.update s.label t next →
      (threads.code t (s.label t) = .lock next ∨ threads.code t (s.label t) = .unlock next ∨
        threads.code t (s.label t) = .signal next) → handling (s'.label .main) = true := by
    intro t next label code
    rw [label]
    cases t with
    | expirer => rwa [Function.update_of_ne (by decide)]
    | main =>
        rw [Function.update_self]
        cases place : s.label .main <;> simp [place,handling] at handles <;>
          simp [threads,ExpiringThread.code,place] at code <;> simp [← code,handling]
  cases stepped with
  | still => exact handles
  | woken asleep => exact handles
  | waits next up code => exact handles
  | resumed next code awake free => rwa [goTo_other _ _ (by decide)]
  | locked t next up code free => exact onward t next rfl (.inl code)
  | unlocked t next up code => exact onward t next rfl (.inr (.inl code))
  | signalled t next up code => exact onward t next (by simp [State.goTo]) (.inr (.inr code))
  | acted t choice effect up code =>
      cases t with
      | expirer => rwa [goTo_other _ _ (by decide)]
      | main =>
          cases place : s.label .main <;> simp [place,handling] at handles <;>
            simp [threads,ExpiringThread.code,place] at code
          subst code
          rw [goTo_label]
          rfl

-- The handler waits for a mutex that its own thread has had since before.
structure Stuck (s : State Thread Label Shared) : Prop where
  owner : s.owner = some .main
  main : s.label .main = .interrupted ∨ s.label .main = .handlerLocking
  expirer : s.sleep = .up → inside .expirer (s.label .expirer) = false
  waiting : s.sleep ≠ .up → s.label .expirer = .waiting

theorem stuck_expirer (stuck : Stuck s) (up : s.sleep = .up) (code : threads.code .expirer (s.label .expirer) = instruction)
    (next : Label) (instructs : instruction = .unlock next ∨ instruction = .wait next ∨ instruction = .signal next) : False := by
  have away := stuck.expirer up
  cases place : s.label .expirer <;> simp [place,inside] at away <;> simp [threads,ExpiringThread.code,place] at code <;>
    simp [← code] at instructs

theorem stuck_main (stuck : Stuck s) (code : threads.code .main (s.label .main) = instruction) (next : Label)
    (instructs : instruction = .unlock next ∨ instruction = .signal next) : False := by
  rcases stuck.main with place | place <;> simp [threads,ExpiringThread.code,place] at code <;> simp [← code] at instructs

theorem stepped_stuck (stuck : Stuck s) (stepped : Stepped threads s s') : Stuck s' := by
  have taken : s.owner ≠ none := by simp [stuck.owner]
  cases stepped with
  | still => exact stuck
  | woken asleep =>
      exact ⟨stuck.owner,stuck.main,fun never => (by cases never),fun _ => stuck.waiting (by simp [asleep])⟩
  | resumed next code awake free => exact absurd free taken
  | locked t next up code free => exact absurd free taken
  | waits next up code => exact (stuck_expirer stuck up code next (.inr (.inl rfl))).elim
  | unlocked t next up code =>
      cases t with
      | expirer => exact (stuck_expirer stuck (up rfl) code next (.inl rfl)).elim
      | main => exact (stuck_main stuck code next (.inl rfl)).elim
  | signalled t next up code =>
      cases t with
      | expirer => exact (stuck_expirer stuck (up rfl) code next (.inr (.inr rfl))).elim
      | main => exact (stuck_main stuck code next (.inr rfl)).elim
  | acted t choice effect up code =>
      obtain ⟨owner,main,expirer,waiting⟩ := stuck
      cases t with
      | expirer =>
          have awake := up rfl
          have away := expirer awake
          refine ⟨owner,?_,fun _ => ?_,fun sleeping => absurd awake sleeping⟩
          · rw [goTo_other _ _ (by decide)]
            exact main
          · rw [goTo_label]
            cases place : s.label .expirer <;> simp [place,inside] at away <;>
              simp [threads,ExpiringThread.code,place] at code
            subst code
            cases past : s.shared.terminate <;> simp [past,inside]
      | main =>
          refine ⟨owner,?_,fun awake => ?_,fun sleeping => ?_⟩
          · rw [goTo_label]
            rcases main with place | place <;> simp [threads,ExpiringThread.code,place] at code
            subst code
            exact .inr rfl
          · rw [goTo_other _ _ (by decide)]
            exact expirer awake
          · rw [goTo_other _ _ (by decide)]
            exact waiting sleeping

theorem interrupt_stuck (owned : Owned threads inside s) (holds : inside .main (s.label .main) = true) :
    Stuck (interrupt s) := by
  have own : s.owner = some .main := (owned.owner .main).mpr ⟨holds,fun same => by cases same⟩
  refine ⟨own,.inl interrupt_main,fun up => ?_,fun sleeping => interrupt_expirer.trans (waits_only owned sleeping)⟩
  rw [interrupt_expirer]
  cases inner : inside .expirer (s.label .expirer) with
  | false => rfl
  | true => cases mutual_exclusion owned holds (fun same => by cases same) inner (fun _ => up)

theorem interrupt_owned (owned : Owned threads inside s) (away : inside .main (s.label .main) = false) :
    Owned threads inside (interrupt s) := by
  refine ⟨fun t => ?_,fun sleeping => ?_⟩
  · cases t with
    | expirer => exact owned.owner .expirer
    | main =>
        have before := owned.owner .main
        rw [away] at before
        rw [interrupt_main]
        exact before
  · exact owned.waiting sleeping

def Exits (s : State Thread Label Shared) : Prop :=
  ∃ further : List (Event Thread Bool), (Machine.run (step threads) s further).label .main = .exited

theorem exits_step (event : Event Thread Bool) (exits : Exits (step threads s event)) : Exits s := by
  obtain ⟨further,past⟩ := exits
  exact ⟨event :: further,past⟩

theorem leaving_exits (place : s.label .main = .handlerLeaving) : Exits s :=
  ⟨[.runs .main false],by simp [Machine.run,step,threads,code,place,State.goTo]⟩

theorem signalling_exits (place : s.label .main = .handlerSignalling) : Exits s := by
  refine exits_step (.runs .main false) (leaving_exits ?_)
  simp [step,threads,code,place,State.goTo]

theorem free_exits (place : s.label .main = .handlerLocking) (free : s.owner = none) : Exits s := by
  refine exits_step (.runs .main false) (signalling_exits ?_)
  simp [step,threads,code,place,free,State.goTo]

theorem expirer_exits (place : s.label .main = .handlerLocking) (holds : inside .expirer (s.label .expirer) = true)
    (up : s.sleep = .up) : Exits s := by
  have unlocking : ∀ s : State Thread Label Shared, s.label .main = .handlerLocking → s.label .expirer = .unlocking →
      s.sleep = .up → Exits s := fun s place own up => by
    refine exits_step (.runs .expirer false) (free_exits ?_ ?_) <;> simp [step,threads,code,own,up,place,State.goTo]
  cases own : s.label .expirer <;> simp [own,inside] at holds
  case waiting =>
    refine exits_step (.runs .expirer false) (free_exits ?_ ?_) <;> simp [step,threads,code,own,up,place]
  case sweeping =>
    refine exits_step (.runs .expirer false) (unlocking _ ?_ ?_ ?_) <;> simp [step,threads,code,own,up,place,State.goTo]
  case unlocking => exact unlocking s place own up

theorem locking_exits (owned : Owned threads inside s) (place : s.label .main = .handlerLocking) : Exits s := by
  cases own : s.owner with
  | none => exact free_exits place own
  | some t =>
      obtain ⟨holds,up⟩ := (owned.owner t).mp own
      cases t with
      | expirer => exact expirer_exits place holds (up rfl)
      | main =>
          rw [place] at holds
          cases holds

theorem handling_exits (owned : Owned threads inside s) (handles : handling (s.label .main) = true) : Exits s := by
  cases place : s.label .main <;> simp [place,handling] at handles
  case interrupted =>
    refine exits_step (.runs .main false) (locking_exits ?_ ?_)
    · exact stepped_owned threads_bracketed owned (step_stepped threads s _)
    · simp [step,threads,code,place,State.goTo]
  case handlerLocking => exact locking_exits owned place
  case handlerSignalling => exact signalling_exits place
  case handlerLeaving => exact leaving_exits place
  case exited => exact ⟨[],place⟩

-- A signal that comes while the main thread is within wakeup leaves the process
-- waiting for itself, with no way out whatever the threads do. At any other
-- moment they have, and keep, a way to the exit.
theorem interrupt_exits_iff (events more : List (Event Thread Bool)) :
    Exits (Machine.run (step threads) (interrupt (Machine.run (step threads) started events)) more) ↔
      inside .main ((Machine.run (step threads) started events).label .main) = false := by
  have owned := run_owned threads_bracketed started_owned events
  constructor
  · rintro ⟨further,past⟩
    by_contra holds
    have stuck : Stuck (Machine.run (step threads) (interrupt (Machine.run (step threads) started events)) (more ++ further)) :=
      Machine.run_preserves Stuck (interrupt_stuck owned (by simpa using holds))
        (fun s event before => stepped_stuck before (step_stepped threads s event)) (more ++ further)
    rw [Machine.run_append] at stuck
    rcases stuck.main with place | place <;> simp [past] at place
  · intro away
    have handles : handling ((Machine.run (step threads) (interrupt (Machine.run (step threads) started events)) more).label
        .main) = true :=
      Machine.run_preserves (fun s => handling (s.label .main) = true) (by simp [handling])
        (fun s event before => stepped_handling before (step_stepped threads s event)) more
    exact handling_exits (run_owned threads_bracketed (interrupt_owned owned away) more) handles

end TcpProxy.AutoBlacklist.ExpiringThread
