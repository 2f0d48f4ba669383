import Mathlib.Logic.Function.Basic
import TcpProxy.Lib.Run

namespace Monitor

-- What a thread does next. The threads share one mutex, one condition variable
-- and some variables, of which an act is one access. What an act finds outside
-- of the program is its choice.
inductive Instruction (Label Shared Choice : Type) where
  | lock (next : Label)
  | unlock (next : Label)
  | wait (next : Label)
  | signal (next : Label)
  | act (effect : Choice → Shared → Shared × Label)
  | stop

-- Only one of the threads ever waits, so that to wake one is to wake all.
structure Program (Thread Label Shared Choice : Type) where
  code : Thread → Label → Instruction Label Shared Choice
  waiter : Thread
  alone : ∀ t l next, code t l = .wait next → t = waiter

-- A thread that waits has given the mutex back. Once awake it takes it again.
inductive Sleep where
  | up
  | asleep
  | awake
deriving DecidableEq, Repr

structure State (Thread Label Shared : Type) where
  owner : Option Thread
  sleep : Sleep
  label : Thread → Label
  shared : Shared

inductive Event (Thread Choice : Type) where
  | runs (t : Thread) (choice : Choice)
  | spurious

variable {Thread Label Shared Choice : Type}

def State.wake (s : State Thread Label Shared) : State Thread Label Shared :=
  if s.sleep = .asleep then {s with sleep := .awake} else s

section

variable {s : State Thread Label Shared}

@[simp] theorem wake_label : s.wake.label = s.label := by unfold State.wake; split <;> rfl
@[simp] theorem wake_owner : s.wake.owner = s.owner := by unfold State.wake; split <;> rfl
@[simp] theorem wake_shared : s.wake.shared = s.shared := by unfold State.wake; split <;> rfl

@[simp] theorem wake_up : s.wake.sleep = .up ↔ s.sleep = .up := by
  unfold State.wake
  split
  · next asleep => simp [asleep]
  · exact Iff.rfl

theorem wake_not_asleep : s.wake.sleep ≠ .asleep := by
  unfold State.wake
  split
  · exact fun same => by cases same
  · next up => exact up

end

variable [DecidableEq Thread]

def State.goTo (s : State Thread Label Shared) (t : Thread) (next : Label) : State Thread Label Shared :=
  {s with label := Function.update s.label t next}

variable (p : Program Thread Label Shared Choice)

def resume (s : State Thread Label Shared) : State Thread Label Shared :=
  match p.code p.waiter (s.label p.waiter) with
  | .wait next =>
    if s.sleep = .awake ∧ s.owner = none then {s with owner := some p.waiter,sleep := .up}.goTo p.waiter next else s
  | _ => s

-- A thread that cannot go on stays where it is.
def step (s : State Thread Label Shared) : Event Thread Choice → State Thread Label Shared
  | .spurious => s.wake
  | .runs t choice =>
    if t = p.waiter ∧ s.sleep ≠ .up then resume p s
    else
      match p.code t (s.label t) with
      | .lock next => if s.owner = none then {s with owner := some t}.goTo t next else s
      | .unlock next => {s with owner := none}.goTo t next
      | .wait _ => {s with owner := none,sleep := .asleep}
      | .signal next => s.wake.goTo t next
      | .act effect => {s with shared := (effect choice s.shared).1}.goTo t (effect choice s.shared).2
      | .stop => s

inductive Stepped (s : State Thread Label Shared) : State Thread Label Shared → Prop where
  | still : Stepped s s
  | woken (asleep : s.sleep = .asleep) : Stepped s {s with sleep := .awake}
  | resumed (next : Label) (code : p.code p.waiter (s.label p.waiter) = .wait next) (awake : s.sleep = .awake)
      (free : s.owner = none) : Stepped s ({s with owner := some p.waiter,sleep := .up}.goTo p.waiter next)
  | locked (t : Thread) (next : Label) (up : t = p.waiter → s.sleep = .up) (code : p.code t (s.label t) = .lock next)
      (free : s.owner = none) : Stepped s ({s with owner := some t}.goTo t next)
  | unlocked (t : Thread) (next : Label) (up : t = p.waiter → s.sleep = .up) (code : p.code t (s.label t) = .unlock next) :
      Stepped s ({s with owner := none}.goTo t next)
  | waits (next : Label) (up : s.sleep = .up) (code : p.code p.waiter (s.label p.waiter) = .wait next) :
      Stepped s {s with owner := none,sleep := .asleep}
  | signalled (t : Thread) (next : Label) (up : t = p.waiter → s.sleep = .up) (code : p.code t (s.label t) = .signal next) :
      Stepped s (s.wake.goTo t next)
  | acted (t : Thread) (choice : Choice) (effect : Choice → Shared → Shared × Label) (up : t = p.waiter → s.sleep = .up)
      (code : p.code t (s.label t) = .act effect) :
      Stepped s ({s with shared := (effect choice s.shared).1}.goTo t (effect choice s.shared).2)

theorem step_stepped (s : State Thread Label Shared) (event : Event Thread Choice) : Stepped p s (step p s event) := by
  cases event with
  | spurious =>
      simp only [step,State.wake]
      split
      · next asleep => exact .woken asleep
      · exact .still
  | runs t choice =>
      simp only [step]
      split
      · next sleeping =>
          unfold resume
          split
          · next next code =>
              split
              · next free => exact .resumed next code free.1 free.2
              · exact .still
          · exact .still
      · next own =>
          have up : t = p.waiter → s.sleep = .up := fun same => by_contra fun sleeping => own ⟨same,sleeping⟩
          split
          · next next code =>
              split
              · next free => exact .locked t next up code free
              · exact .still
          · next next code => exact .unlocked t next up code
          · next next code =>
              obtain rfl := p.alone t _ next code
              exact .waits next (up rfl) code
          · next next code => exact .signalled t next up code
          · next effect code => exact .acted t choice effect up code
          · exact .still

-- Where a thread has the mutex, as its program says.
structure Bracketed (inside : Thread → Label → Bool) : Prop where
  lock : ∀ t l next, p.code t l = .lock next → inside t l = false ∧ inside t next = true
  unlock : ∀ t l next, p.code t l = .unlock next → inside t l = true ∧ inside t next = false
  wait : ∀ t l next, p.code t l = .wait next → inside t l = true ∧ inside t next = true
  signal : ∀ t l next, p.code t l = .signal next → inside t next = inside t l
  act : ∀ t l effect, p.code t l = .act effect → ∀ choice shared, inside t (effect choice shared).2 = inside t l

-- The mutex belongs to the thread that is inside, and only a wait is slept in.
structure Owned (inside : Thread → Label → Bool) (s : State Thread Label Shared) : Prop where
  owner : ∀ t, s.owner = some t ↔ inside t (s.label t) = true ∧ (t = p.waiter → s.sleep = .up)
  waiting : s.sleep ≠ .up → ∃ next, p.code p.waiter (s.label p.waiter) = .wait next

variable {p} {inside : Thread → Label → Bool} {s s' : State Thread Label Shared}

@[simp] theorem goTo_label (t : Thread) (next : Label) : (s.goTo t next).label t = next := by simp [State.goTo]

theorem goTo_other (s : State Thread Label Shared) (next : Label) (apart : u ≠ t) : (s.goTo t next).label u = s.label u := by
  simp [State.goTo,apart]

omit [DecidableEq Thread] in
theorem mutual_exclusion (owned : Owned p inside s) (one : inside t (s.label t) = true) (oneUp : t = p.waiter → s.sleep = .up)
    (other : inside u (s.label u) = true) (otherUp : u = p.waiter → s.sleep = .up) : t = u :=
  Option.some.inj (((owned.owner t).mpr ⟨one,oneUp⟩).symm.trans ((owned.owner u).mpr ⟨other,otherUp⟩))

theorem taken_owner (owned : Owned p inside s) (free : s.owner = none) (enters : inside t next = true)
    (sleep : Sleep) (up : t = p.waiter → sleep = .up) (same : t ≠ p.waiter → sleep = s.sleep) (u : Thread) :
    some t = some u ↔ inside u (Function.update s.label t next u) = true ∧ (u = p.waiter → sleep = .up) := by
  by_cases own : u = t
  · subst own
    rw [Function.update_self]
    exact ⟨fun _ => ⟨enters,up⟩,fun _ => rfl⟩
  · rw [Function.update_of_ne own]
    refine ⟨fun taken => absurd (Option.some.inj taken).symm own,fun ⟨holds,awake⟩ => ?_⟩
    by_cases waiter : t = p.waiter
    · have before := (owned.owner u).mpr ⟨holds,fun asks => absurd (asks.trans waiter.symm) own⟩
      cases free.symm.trans before
    · have before := (owned.owner u).mpr ⟨holds,fun asks => (same waiter) ▸ awake asks⟩
      cases free.symm.trans before

theorem stepped_owned (bracketed : Bracketed p inside) (owned : Owned p inside s) (stepped : Stepped p s s') :
    Owned p inside s' := by
  cases stepped with
  | still => exact owned
  | woken asleep =>
      refine ⟨fun t => (owned.owner t).trans ?_,fun _ => owned.waiting fun up => by cases asleep.symm.trans up⟩
      simp [asleep]
  | resumed next code awake free =>
      exact ⟨taken_owner owned free (bracketed.wait _ _ _ code).2 .up (fun _ => rfl) (fun apart => absurd rfl apart),
        fun sleeping => absurd rfl sleeping⟩
  | locked t next up code free =>
      refine ⟨taken_owner owned free (bracketed.lock _ _ _ code).2 s.sleep up (fun _ => rfl),fun sleeping => ?_⟩
      have apart : p.waiter ≠ t := fun same => sleeping (up same.symm)
      have waiting := owned.waiting sleeping
      rwa [← goTo_other s next apart] at waiting
  | unlocked t next up code =>
      obtain ⟨holds,leaves⟩ := bracketed.unlock _ _ _ code
      have own := (owned.owner t).mpr ⟨holds,up⟩
      refine ⟨fun u => ⟨fun taken => (by cases taken),fun ⟨inner,awake⟩ => ?_⟩,fun sleeping => ?_⟩
      · by_cases same : u = t
        · subst same
          rw [goTo_label,leaves] at inner
          cases inner
        · rw [goTo_other _ _ same] at inner
          have taken := (owned.owner u).mpr ⟨inner,awake⟩
          exact absurd (Option.some.inj (taken.symm.trans own)) same
      · have apart : p.waiter ≠ t := fun same => sleeping (up same.symm)
        have waiting := owned.waiting sleeping
        rwa [← goTo_other s next apart] at waiting
  | waits next up code =>
      have own := (owned.owner p.waiter).mpr ⟨(bracketed.wait _ _ _ code).1,fun _ => up⟩
      refine ⟨fun u => ⟨fun taken => (by cases taken),fun ⟨inner,awake⟩ => ?_⟩,fun _ => ⟨next,code⟩⟩
      by_cases same : u = p.waiter
      · cases awake same
      · have taken := (owned.owner u).mpr ⟨inner,fun asks => absurd asks same⟩
        exact absurd (Option.some.inj (taken.symm.trans own)) same
  | signalled t next up code =>
      refine ⟨fun u => ?_,fun sleeping => ?_⟩
      · have same : inside u ((s.wake.goTo t next).label u) = inside u (s.label u) := by
          by_cases own : u = t
          · subst own
            rw [goTo_label]
            exact bracketed.signal _ _ _ code
          · rw [goTo_other _ _ own,wake_label]
        have sleep : (s.wake.goTo t next).sleep = .up ↔ s.sleep = .up := wake_up
        have owner : (s.wake.goTo t next).owner = s.owner := wake_owner
        rw [same,sleep,owner]
        exact owned.owner u
      · have before : s.sleep ≠ .up := fun same => sleeping (wake_up.mpr same)
        have apart : p.waiter ≠ t := fun same => before (up same.symm)
        have waiting := owned.waiting before
        rwa [← wake_label,← goTo_other s.wake next apart] at waiting
  | acted t choice effect up code =>
      refine ⟨fun u => (owned.owner u).trans ?_,fun sleeping => ?_⟩
      · have same : inside u (({s with shared := (effect choice s.shared).1}.goTo t (effect choice s.shared).2).label u) =
            inside u (s.label u) := by
          by_cases own : u = t
          · subst own
            rw [goTo_label]
            exact bracketed.act _ _ _ code choice s.shared
          · rw [goTo_other _ _ own]
        rw [same]
        exact Iff.rfl
      · have apart : p.waiter ≠ t := fun same => sleeping (up same.symm)
        have waiting := owned.waiting sleeping
        rwa [← goTo_other {s with shared := (effect choice s.shared).1} (effect choice s.shared).2 apart] at waiting

theorem run_owned (bracketed : Bracketed p inside) (initial : Owned p inside s) (events : List (Event Thread Choice)) :
    Owned p inside (Machine.run (step p) s events) :=
  Machine.run_preserves (Owned p inside) initial (fun s event owned => stepped_owned bracketed owned (step_stepped p s event)) events

-- The waiter goes to sleep at the labels where a look at the variables has found
-- no need to go on. Who makes such a need is due to signal, in the mutex.
structure Alerts (p : Program Thread Label Shared Choice) (inside : Thread → Label → Bool) (need : Shared → Bool)
    (checked : Label → Bool) (due : Thread → Label → Bool) : Prop where
  looks : ∀ l effect, p.code p.waiter l = .act effect → ∀ choice shared, checked (effect choice shared).2 = true →
    need (effect choice shared).1 = false
  enters : ∀ l next, p.code p.waiter l = .lock next ∨ p.code p.waiter l = .unlock next ∨ p.code p.waiter l = .wait next ∨
    p.code p.waiter l = .signal next → checked next = false
  inner : ∀ l, checked l = true → inside p.waiter l = true
  raises : ∀ t l effect, t ≠ p.waiter → p.code t l = .act effect → ∀ choice shared, need (effect choice shared).1 = true →
    need shared = true ∨ due t (effect choice shared).2 = true
  lasts : ∀ t l next, due t l = true → p.code t l = .lock next ∨ p.code t l = .unlock next → due t next = true
  acts : ∀ t l effect, due t l = true → p.code t l = .act effect → ∀ choice shared, due t (effect choice shared).2 = true
  signals : ∀ t l next, p.code t l = .signal next → inside t l = true
  others : ∀ t l, due t l = true → t ≠ p.waiter

-- No wake-up is lost: while the waiter sleeps, or is about to, there is no need
-- to go on or a signal is to come.
def Alerted (p : Program Thread Label Shared Choice) (need : Shared → Bool) (checked : Label → Bool)
    (due : Thread → Label → Bool) (s : State Thread Label Shared) : Prop :=
  checked (s.label p.waiter) = true → s.sleep ≠ .awake → need s.shared = false ∨ ∃ t, due t (s.label t) = true

variable {need : Shared → Bool} {checked : Label → Bool} {due : Thread → Label → Bool}

theorem alerted_other (before : Alerted p need checked due s) (apart : t ≠ p.waiter)
    (label : s'.label = Function.update s.label t next) (sleep : s'.sleep ≠ .awake → s.sleep ≠ .awake)
    (raised : need s'.shared = true → need s.shared = true ∨ due t next = true)
    (lasts : due t (s.label t) = true → due t next = true) : Alerted p need checked due s' := by
  intro looked still
  rw [label,Function.update_of_ne (Ne.symm apart)] at looked
  have owes : due t next = true → ∃ u, due u (s'.label u) = true := fun own => ⟨t,by rw [label,Function.update_self]; exact own⟩
  cases after : need s'.shared with
  | false => exact .inl rfl
  | true =>
      right
      rcases raised after with old | new
      · rcases before looked (sleep still) with needless | ⟨u,owed⟩
        · rw [old] at needless
          cases needless
        · by_cases own : u = t
          · subst own
            exact owes (lasts owed)
          · exact ⟨u,by rw [label,Function.update_of_ne own]; exact owed⟩
      · exact owes new

theorem stepped_alerted (alerts : Alerts p inside need checked due) (owned : Owned p inside s)
    (before : Alerted p need checked due s) (stepped : Stepped p s s') : Alerted p need checked due s' := by
  have unchecked : ∀ next, checked next = false → s'.label = Function.update s.label p.waiter next →
      Alerted p need checked due s' := by
    intro next passes label looked
    rw [label,Function.update_self,passes] at looked
    cases looked
  cases stepped with
  | still => exact before
  | woken asleep => exact fun _ still => absurd rfl still
  | resumed next code awake free => exact unchecked next (alerts.enters _ next (.inr (.inr (.inl code)))) rfl
  | locked t next up code free =>
      by_cases own : t = p.waiter
      · subst own
        exact unchecked next (alerts.enters _ next (.inl code)) rfl
      · exact alerted_other before own rfl id .inl fun owed => alerts.lasts _ _ _ owed (.inl code)
  | unlocked t next up code =>
      by_cases own : t = p.waiter
      · subst own
        exact unchecked next (alerts.enters _ next (.inr (.inl code))) rfl
      · exact alerted_other before own rfl id .inl fun owed => alerts.lasts _ _ _ owed (.inr code)
  | waits next up code => exact fun looked _ => before looked (by rw [up]; exact fun same => by cases same)
  | signalled t next up code =>
      by_cases own : t = p.waiter
      · subst own
        exact unchecked next (alerts.enters _ next (.inr (.inr (.inr code)))) (by simp [State.goTo])
      · intro looked still
        rw [goTo_other _ _ (Ne.symm own),wake_label] at looked
        have awake : s.sleep = .up := by
          refine wake_up.mp ?_
          cases sleep : s.wake.sleep with
          | up => rfl
          | asleep => exact absurd sleep wake_not_asleep
          | awake => exact absurd sleep still
        exact absurd (mutual_exclusion owned (alerts.signals _ _ _ code) up (alerts.inner _ looked) (fun _ => awake)) own
  | acted t choice effect up code =>
      by_cases own : t = p.waiter
      · subst own
        intro looked still
        rw [goTo_label] at looked
        exact .inl (alerts.looks _ effect code choice s.shared looked)
      · exact alerted_other before own rfl id (alerts.raises _ _ effect own code choice s.shared)
          fun owed => alerts.acts _ _ effect owed code choice s.shared

end Monitor
