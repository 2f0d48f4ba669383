import Mathlib.Data.List.Induction

namespace Machine

-- A machine is a total step function; what a run may not do is said beside
-- it, as a condition on the state before a step and the event taken there.
variable {State Event : Type} (step : State → Event → State)

def run (s : State) (events : List Event) : State := events.foldl step s

def Along (allowed : State → Event → Prop) : State → List Event → Prop
  | _,[] => True
  | s,event :: rest => allowed s event ∧ Along allowed (step s event) rest

@[simp] theorem run_nil (s : State) : run step s [] = s := rfl

@[simp] theorem run_cons (s : State) (event : Event) (rest : List Event) :
    run step s (event :: rest) = run step (step s event) rest := rfl

theorem run_append (s : State) (earlier later : List Event) :
    run step s (earlier ++ later) = run step (run step s earlier) later := by
  simp only [run,List.foldl_append]

theorem run_concat (s : State) (events : List Event) (event : Event) :
    run step s (events ++ [event]) = step (run step s events) event := by
  rw [run_append]; rfl

instance decidableAlong (allowed : State → Event → Prop) [∀ s event, Decidable (allowed s event)] :
    (s : State) → (events : List Event) → Decidable (Along step allowed s events)
  | _,[] => isTrue trivial
  | s,event :: rest =>
    have := decidableAlong allowed (step s event) rest
    inferInstanceAs (Decidable (_ ∧ _))

-- What an observer of a run writes down, at most one line for each step.
def trace (observe : State → Event → Option Out) : State → List Event → List Out
  | _,[] => []
  | s,event :: rest => (observe s event).toList ++ trace observe (step s event) rest

variable {step} {allowed : State → Event → Prop}

theorem trace_append (observe : State → Event → Option Out) (earlier later : List Event) :
    trace step observe s (earlier ++ later) =
      trace step observe s earlier ++ trace step observe (run step s earlier) later := by
  induction earlier generalizing s with
  | nil => rfl
  | cons event rest ih => simp [trace,ih]

theorem trace_concat (observe : State → Event → Option Out) (events : List Event) (event : Event) :
    trace step observe s (events ++ [event]) =
      trace step observe s events ++ (observe (run step s events) event).toList := by
  simp [trace_append,trace]

theorem along_append (earlier later : List Event) :
    Along step allowed s (earlier ++ later) ↔
      Along step allowed s earlier ∧ Along step allowed (run step s earlier) later := by
  induction earlier generalizing s with
  | nil => simp [Along]
  | cons event rest ih => simp [Along,ih,and_assoc]

theorem along_concat (events : List Event) (event : Event) :
    Along step allowed s (events ++ [event]) ↔
      Along step allowed s events ∧ allowed (run step s events) event := by
  simp [along_append,Along]

theorem along_true (events : List Event) : Along step (fun _ _ => True) s events := by
  induction events generalizing s with
  | nil => trivial
  | cons event rest ih => exact ⟨trivial,ih⟩

theorem along_mono {other : State → Event → Prop} (weaker : ∀ s event, allowed s event → other s event)
    (along : Along step allowed s events) : Along step other s events := by
  induction events generalizing s with
  | nil => trivial
  | cons event rest ih => exact ⟨weaker s event along.1,ih along.2⟩

theorem along_and {other : State → Event → Prop} (one : Along step allowed s events)
    (two : Along step other s events) : Along step (fun s event => allowed s event ∧ other s event) s events := by
  induction events generalizing s with
  | nil => trivial
  | cons event rest ih => exact ⟨⟨one.1,two.1⟩,ih one.2 two.2⟩

theorem along_of_forall (all : ∀ event ∈ events, ∀ s, allowed s event) : Along step allowed s events := by
  induction events generalizing s with
  | nil => trivial
  | cons event rest ih => exact ⟨all event (by simp) s,ih fun other member => all other (List.mem_cons_of_mem _ member)⟩

-- The history of a run is part of what an invariant may speak about: `valid`
-- relates the events taken so far to the state they lead to.
theorem run_history (valid : List Event → State → Prop) (initial : valid [] s)
    (kept : ∀ earlier event, valid earlier (run step s earlier) → allowed (run step s earlier) event →
      valid (earlier ++ [event]) (step (run step s earlier) event))
    (events : List Event) (along : Along step allowed s events) : valid events (run step s events) := by
  induction events using List.reverseRecOn with
  | nil => exact initial
  | append_singleton earlier event ih =>
      obtain ⟨before,last⟩ := (along_concat earlier event).mp along
      rw [run_concat]
      exact kept earlier event (ih before) last

theorem run_invariant (valid : State → Prop) (initial : valid s)
    (kept : ∀ s event, valid s → allowed s event → valid (step s event))
    (events : List Event) (along : Along step allowed s events) : valid (run step s events) :=
  run_history (fun _ => valid) initial (fun _ _ before => kept _ _ before) events along

-- What is asked of every step of a run, of all that has come before it.
def Throughout (holds : List Event → Event → Prop) (events : List Event) : Prop :=
  ∀ earlier event later, events = earlier ++ event :: later → holds earlier event

theorem throughout_nil (holds : List Event → Event → Prop) : Throughout holds [] := by
  intro earlier event later split
  simp at split

theorem throughout_concat (holds : List Event → Event → Prop) (events : List Event) (event : Event) :
    Throughout holds (events ++ [event]) ↔ Throughout holds events ∧ holds events event := by
  constructor
  · intro all
    refine ⟨fun earlier other later split => all earlier other (later ++ [event]) (by simp [split]),?_⟩
    exact all events event [] (by simp)
  · rintro ⟨before,last⟩ earlier other later split
    rcases List.eq_nil_or_concat later with rfl | ⟨rest,final,rfl⟩
    · obtain ⟨rfl,same⟩ := List.append_inj' split rfl
      cases same
      exact last
    · have parts : events = earlier ++ other :: rest ∧ [event] = [final] :=
        List.append_inj' (by simpa using split) rfl
      exact before earlier other rest parts.1

-- A property that a step keeps exactly where a condition is met holds at the
-- end of a run if and only if the condition was met throughout.
theorem throughout_iff {alive : State → Prop} {holds : List Event → Event → Prop} (initial : alive s) (events : List Event)
    (kept : ∀ earlier event later, events = earlier ++ event :: later →
      (alive (step (run step s earlier) event) ↔ alive (run step s earlier) ∧ holds earlier event)) :
    alive (run step s events) ↔ Throughout holds events := by
  induction events using List.reverseRecOn with
  | nil => exact ⟨fun _ => throughout_nil holds,fun _ => initial⟩
  | append_singleton events event ih =>
      have before := ih fun earlier other later split => kept earlier other (later ++ [event]) (by simp [split])
      rw [run_concat,throughout_concat,kept events event [] rfl,before]

theorem run_preserves (valid : State → Prop) (initial : valid s)
    (kept : ∀ s event, valid s → valid (step s event)) (events : List Event) :
    valid (run step s events) :=
  List.foldlRecOn events step initial (fun s before event _ => kept s event before)

-- When the condition is exact: it keeps an invariant that gives the property,
-- and a step that has the property after it has met the condition. What the
-- callers promise is known of every step.
theorem exact_condition_promised {property : State → Prop} {promised : State → Event → Prop} (valid : State → Prop)
    (initial : valid s)
    (kept : ∀ s event, valid s → promised s event → allowed s event → valid (step s event))
    (sound : ∀ s, valid s → property s)
    (complete : ∀ s event, valid s → promised s event → property (step s event) → allowed s event)
    (events : List Event) (along : Along step promised s events) :
    (∀ earlier later, events = earlier ++ later → property (run step s earlier)) ↔ Along step allowed s events := by
  have reached : ∀ events, Along step promised s events → Along step allowed s events → valid (run step s events) :=
    fun events promise condition => run_invariant valid initial
      (fun s event before both => kept s event before both.1 both.2) events (along_and promise condition)
  constructor
  · intro holds
    induction events using List.reverseRecOn with
    | nil => trivial
    | append_singleton earlier event ih =>
        obtain ⟨promise,here⟩ := (along_concat earlier event).mp along
        have before := ih promise (fun one two split => holds one (two ++ [event]) (by simp [split]))
        have last := holds (earlier ++ [event]) [] (by simp)
        rw [run_concat] at last
        exact (along_concat earlier event).mpr
          ⟨before,complete _ _ (reached earlier promise before) here last⟩
  · rintro condition earlier later rfl
    exact sound _ (reached earlier ((along_append earlier later).mp along).1 ((along_append earlier later).mp condition).1)

theorem exact_condition {property : State → Prop} (valid : State → Prop) (initial : valid s)
    (kept : ∀ s event, valid s → allowed s event → valid (step s event))
    (sound : ∀ s, valid s → property s)
    (complete : ∀ s event, valid s → property (step s event) → allowed s event) (events : List Event) :
    (∀ earlier later, events = earlier ++ later → property (run step s earlier)) ↔ Along step allowed s events :=
  exact_condition_promised valid initial (fun s event before _ => kept s event before) sound
    (fun s event before _ => complete s event before) events (along_true events)

end Machine
