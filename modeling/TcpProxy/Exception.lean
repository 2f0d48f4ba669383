import Mathlib.Logic.Function.Basic
import TcpProxy.Lib.Run

namespace TcpProxy.Exception

-- The statements of try_catch. A longjmp leads to `testing`.
inductive Place where
  | clearing
  | arming
  | saving
  | testing
  | inside
  | disarming
  | reporting
deriving DecidableEq, Repr

-- A call of try_catch that has not returned. Calls are numbered as they are made.
structure Frame where
  number : Nat
  place : Place
deriving DecidableEq, Repr

-- SIGSEGV kills a process that does not handle it or has it blocked. What a
-- longjmp out of a function that is not being called by the thread does is not
-- defined.
inductive Fate where
  | runs
  | killed
  | undefined
deriving DecidableEq, Repr

-- `handler` is whether exception_handler is set for SIGSEGV, `jumpBufferEnv` the
-- call that has saved it last, and `blocked` the signal mask of a thread.
structure Process (Thread : Type) where
  caught : Bool
  handler : Bool
  jumpBufferEnv : Option Nat
  stack : Thread → List Frame
  blocked : Thread → Bool
  calls : Nat
  fate : Fate

-- What a thread does: its code, or the function that try_catch has called for
-- it, calls try_catch, try_catch goes on, the function returns, or the code of
-- the thread raises SIGSEGV.
inductive Event (Thread : Type) where
  | calls (t : Thread)
  | goes (t : Thread)
  | returns (t : Thread)
  | faults (t : Thread)
deriving DecidableEq, Repr

def Event.thread : Event Thread → Thread
  | .calls t | .goes t | .returns t | .faults t => t

def fresh : Process Thread := ⟨false,false,none,fun _ => [],fun _ => false,0,.runs⟩

def ownCode : List Frame → Bool
  | [] => true
  | frame :: _ => frame.place == .inside

def unwind (number : Nat) : List Frame → Option (List Frame)
  | [] => none
  | frame :: rest => if frame.number = number then some (⟨number,.testing⟩ :: rest) else unwind number rest

variable {Thread : Type} [DecidableEq Thread]

def Process.put (s : Process Thread) (t : Thread) (frames : List Frame) : Process Thread :=
  {s with stack := Function.update s.stack t frames}

-- exception_handler. A handler set by signal runs with its signal blocked, and
-- `restores` is whether longjmp gives the mask back that setjmp has found,
-- which the two are free to do or not.
def exceptionHandler (restores : Bool) (s : Process Thread) (t : Thread) : Process Thread :=
  match s.jumpBufferEnv.bind fun number => unwind number (s.stack t) with
  | some frames => {s.put t frames with caught := true,blocked := Function.update s.blocked t (!restores)}
  | none => {s with caught := true,fate := .undefined}

def raise (restores : Bool) (s : Process Thread) (t : Thread) : Process Thread :=
  if s.blocked t || !s.handler then {s with fate := .killed} else exceptionHandler restores s t

def tryCatch (s : Process Thread) (t : Thread) (number : Nat) (rest : List Frame) : Place → Process Thread
  | .clearing => {s.put t (⟨number,.arming⟩ :: rest) with caught := false}
  | .arming => {s.put t (⟨number,.saving⟩ :: rest) with handler := true}
  | .saving => {s.put t (⟨number,.testing⟩ :: rest) with jumpBufferEnv := some number}
  | .testing => s.put t (⟨number,if s.caught then .disarming else .inside⟩ :: rest)
  | .inside => s
  | .disarming => {s.put t (⟨number,.reporting⟩ :: rest) with handler := false}
  | .reporting => s.put t rest

def act (restores : Bool) (s : Process Thread) : Event Thread → Process Thread
  | .calls t => if ownCode (s.stack t) then {s.put t (⟨s.calls,.clearing⟩ :: s.stack t) with calls := s.calls+1} else s
  | .goes t =>
    match s.stack t with
    | [] => s
    | frame :: rest => tryCatch s t frame.number rest frame.place
  | .returns t =>
    match s.stack t with
    | ⟨number,.inside⟩ :: rest => s.put t (⟨number,.disarming⟩ :: rest)
    | _ => s
  | .faults t => if ownCode (s.stack t) then raise restores s t else s

def step (restores : Bool) (s : Process Thread) (event : Event Thread) : Process Thread :=
  if s.fate = .runs then act restores s event else s

-- What is seen from outside: a fault that has been caught, with the call it has
-- gone back to, and what a call returns.
inductive Mark where
  | caught (number : Nat)
  | reported (number : Nat) (answer : Bool)
deriving DecidableEq, Repr

def observe (restores : Bool) (s : Process Thread) : Event Thread → Option Mark
  | .goes t =>
    match s.stack t with
    | ⟨number,.reporting⟩ :: _ => if s.fate = .runs then some (.reported number s.caught) else none
    | _ => none
  | .faults t =>
    if s.fate = .runs ∧ ownCode (s.stack t) ∧ (raise restores s t).fate = .runs then s.jumpBufferEnv.map .caught else none
  | _ => none

-- What the handler and the jump buffer are, by where the innermost call stands.
-- A call that another one has been made inside of is not the last one any more.
def Stands (s : Process Thread) (frame : Frame) : Prop :=
  match frame.place with
  | .clearing | .arming => frame.number+1 = s.calls
  | .saving => frame.number+1 = s.calls ∧ s.handler = true
  | .testing => frame.number+1 = s.calls ∧ s.handler = true ∧ s.jumpBufferEnv = some frame.number
  | .inside => if frame.number+1 = s.calls then s.handler = true ∧ s.jumpBufferEnv = some frame.number else s.handler = false
  | .disarming => True
  | .reporting => s.handler = false

def Top (s : Process Thread) : List Frame → Prop
  | [] => s.handler = false
  | frame :: _ => Stands s frame

structure Nested (s : Process Thread) (t : Thread) : Prop where
  order : (s.stack t).Pairwise fun upper lower => lower.number < upper.number
  made : ∀ frame ∈ s.stack t, frame.number < s.calls
  lower : ∀ frame ∈ (s.stack t).tail, frame.place = .inside
  top : Top s (s.stack t)

structure Quiet (s : Process Thread) : Prop where
  stack : ∀ t, s.stack t = []
  handler : s.handler = false
  fate : s.fate = .runs

variable {restores : Bool} {s s' : Process Thread} {t : Thread} {number : Nat} {place : Place} {rest : List Frame}

omit [DecidableEq Thread] in
theorem quiet_nested (quiet : Quiet s) (t : Thread) : Nested s t := by
  refine ⟨?_,?_,?_,?_⟩ <;> rw [quiet.stack t]
  · exact .nil
  · intro frame member
    cases member
  · intro frame member
    cases member
  · exact quiet.handler

omit [DecidableEq Thread] in
theorem nested_top (nested : Nested s t) (top : s.stack t = ⟨number,place⟩ :: rest)
    (after : s'.stack t = ⟨number,next⟩ :: rest) (calls : s'.calls = s.calls) (stands : Stands s' ⟨number,next⟩) :
    Nested s' t := by
  obtain ⟨order,made,lower,_⟩ := nested
  rw [top] at order made lower
  refine ⟨?_,?_,?_,?_⟩ <;> rw [after]
  · exact List.pairwise_cons.mpr (List.pairwise_cons.mp order)
  · intro frame member
    rw [calls]
    rcases List.mem_cons.mp member with rfl | below
    · exact made ⟨number,place⟩ (List.mem_cons_self ..)
    · exact made frame (List.mem_cons_of_mem _ below)
  · exact lower
  · exact stands

theorem calls_nested (nested : Nested s t) (own : ownCode (s.stack t) = true) :
    Nested (act restores s (.calls t)) t := by
  obtain ⟨order,made,lower,_⟩ := nested
  simp only [act,own,if_true]
  refine ⟨?_,?_,?_,?_⟩ <;> simp only [Process.put,Function.update_self]
  · exact List.pairwise_cons.mpr ⟨fun frame member => made frame member,order⟩
  · intro frame member
    rcases List.mem_cons.mp member with rfl | below
    · exact Nat.lt_succ_self _
    · exact Nat.lt_succ_of_lt (made frame below)
  · intro frame member
    cases upper : s.stack t with
    | nil =>
        rw [upper] at member
        cases member
    | cons top rest =>
        rw [upper] at member own lower
        rcases List.mem_cons.mp member with rfl | below
        · simpa [ownCode] using own
        · exact lower frame below
  · rfl

theorem pops_nested (nested : Nested s t) (upper : s.stack t = ⟨number,.reporting⟩ :: rest) : Nested (s.put t rest) t := by
  obtain ⟨order,made,lower,top⟩ := nested
  rw [upper] at order made lower top
  have handler : s.handler = false := top
  refine ⟨?_,?_,?_,?_⟩ <;> simp only [Process.put,Function.update_self]
  · exact (List.pairwise_cons.mp order).2
  · exact fun frame member => made frame (List.mem_cons_of_mem _ member)
  · exact fun frame member => lower frame (List.mem_of_mem_tail member)
  · cases rest with
    | nil => exact handler
    | cons frame below =>
        have under := (List.pairwise_cons.mp order).1 frame (List.mem_cons_self ..)
        have last := made ⟨number,.reporting⟩ (List.mem_cons_self ..)
        obtain ⟨n,place⟩ := frame
        obtain rfl : place = .inside := lower ⟨n,place⟩ (List.mem_cons_self ..)
        have earlier : n+1 ≠ s.calls := by
          change n < number at under
          change number < s.calls at last
          omega
        change if n+1 = s.calls then _ else _
        rw [if_neg earlier]
        exact handler

theorem goes_nested (nested : Nested s t) (upper : s.stack t = ⟨number,place⟩ :: rest) :
    Nested (tryCatch s t number rest place) t := by
  have top := nested.top
  rw [upper] at top
  cases place with
  | clearing => exact nested_top nested upper (Function.update_self ..) rfl top
  | arming => exact nested_top nested upper (Function.update_self ..) rfl ⟨top,rfl⟩
  | saving => exact nested_top nested upper (Function.update_self ..) rfl ⟨top.1,top.2,rfl⟩
  | testing =>
      refine nested_top nested upper (Function.update_self ..) rfl ?_
      cases s.caught with
      | true => trivial
      | false =>
          change if number+1 = s.calls then _ else _
          rw [if_pos top.1]
          exact top.2
  | inside => exact nested
  | disarming => exact nested_top nested upper (Function.update_self ..) rfl rfl
  | reporting => exact pops_nested nested upper

theorem returns_nested (nested : Nested s t) : Nested (act restores s (.returns t)) t := by
  simp only [act]
  split
  · next top => exact nested_top nested top (Function.update_self ..) rfl trivial
  · exact nested

omit [DecidableEq Thread] in
theorem inside_guarded (nested : Nested s t) (upper : s.stack t = ⟨number,.inside⟩ :: rest) (last : number+1 = s.calls) :
    s.handler = true ∧ s.jumpBufferEnv = some number := by
  have top := nested.top
  rw [upper] at top
  change if number+1 = s.calls then _ else _ at top
  rwa [if_pos last] at top

-- The only fault that is caught is one in the last call made, and the only way
-- from there leads back into that call.
theorem raise_caught (nested : Nested s t) (top : s.stack t = ⟨number,.inside⟩ :: rest) (last : number+1 = s.calls)
    (unblocked : s.blocked t = false) :
    raise restores s t = {s.put t (⟨number,.testing⟩ :: rest) with
      caught := true,blocked := Function.update s.blocked t (!restores)} := by
  obtain ⟨handler,env⟩ := inside_guarded nested top last
  simp [raise,exceptionHandler,unblocked,handler,env,top,unwind]

theorem raise_killed (nested : Nested s t) (own : ownCode (s.stack t) = true)
    (uncaught : ¬ ∃ number rest, s.stack t = ⟨number,.inside⟩ :: rest ∧ number+1 = s.calls ∧ s.blocked t = false) :
    raise restores s t = {s with fate := .killed} := by
  have unguarded : (s.blocked t || !s.handler) = true := by
    cases blocked : s.blocked t with
    | true => rfl
    | false =>
        have top := nested.top
        cases upper : s.stack t with
        | nil =>
            rw [upper] at top
            change s.handler = false at top
            rw [top]
            rfl
        | cons frame rest =>
            obtain ⟨number,place⟩ := frame
            rw [upper] at own top
            obtain rfl : place = .inside := by simpa [ownCode] using own
            have earlier : number+1 ≠ s.calls := fun last => uncaught ⟨number,rest,upper,last,blocked⟩
            change if number+1 = s.calls then _ else _ at top
            rw [if_neg earlier] at top
            rw [top]
            rfl
  rw [raise,if_pos unguarded]

theorem raise_fate (nested : Nested s t) (own : ownCode (s.stack t) = true) (runs : s.fate = .runs) :
    (raise restores s t).fate = .runs ↔
      ∃ number rest, s.stack t = ⟨number,.inside⟩ :: rest ∧ number+1 = s.calls ∧ s.blocked t = false := by
  constructor
  · intro alive
    by_contra uncaught
    rw [raise_killed nested own uncaught] at alive
    cases alive
  · rintro ⟨number,rest,top,last,unblocked⟩
    rw [raise_caught nested top last unblocked]
    exact runs

def Clearing (frames : List Frame) : Prop := ∃ number rest, frames = ⟨number,.clearing⟩ :: rest

-- What the faults that have been caught since the start have left behind. The
-- variable caught speaks of the last call made, once that has cleared it.
structure Recorded (restores : Bool) (start : Process Thread) (t : Thread) (marks : List Mark) (s : Process Thread) : Prop where
  blocked : s.blocked t = true ↔ start.blocked t = true ∨ restores = false ∧ ∃ number, .caught number ∈ marks
  made : ∀ number, .caught number ∈ marks → number < s.calls
  since : start.calls ≤ s.calls
  begun : s.stack t = [] ∨ start.calls < s.calls
  clear : ∀ number rest, s.stack t = ⟨number,.clearing⟩ :: rest → .caught number ∉ marks
  last : start.calls < s.calls → ¬ Clearing (s.stack t) → (s.caught = true ↔ .caught (s.calls-1) ∈ marks)

variable {start : Process Thread} {marks marks' : List Mark}

omit [DecidableEq Thread] in
theorem recorded_moves (recorded : Recorded restores start t marks s) (calls : s'.calls = s.calls)
    (blocked : s'.blocked = s.blocked) (caught : s'.caught = s.caught) (begun : s'.stack t = [] ∨ start.calls < s'.calls)
    (before : ¬ Clearing (s.stack t)) (after : ¬ Clearing (s'.stack t))
    (same : ∀ number, .caught number ∈ marks' ↔ .caught number ∈ marks) : Recorded restores start t marks' s' := by
  refine ⟨?_,fun number member => ?_,?_,begun,fun number rest top => absurd ⟨number,rest,top⟩ after,fun present _ => ?_⟩
  · simp only [blocked,same]
    exact recorded.blocked
  · rw [calls]
    exact recorded.made number ((same number).mp member)
  · rw [calls]
    exact recorded.since
  · rw [calls] at present ⊢
    rw [caught,same]
    exact recorded.last present before

theorem calls_recorded (recorded : Recorded restores start t marks s) (own : ownCode (s.stack t) = true) :
    Recorded restores start t marks (act restores s (.calls t)) := by
  simp only [act,own,if_true]
  refine ⟨recorded.blocked,fun number member => Nat.lt_succ_of_lt (recorded.made number member),
    Nat.le_succ_of_le recorded.since,.inr (Nat.lt_succ_of_le recorded.since),?_,?_⟩ <;>
    simp only [Process.put,Function.update_self]
  · intro number rest top member
    obtain rfl : s.calls = number := by simpa using congrArg (fun frames => frames.head?.map Frame.number) top
    exact absurd (recorded.made s.calls member) (Nat.lt_irrefl _)
  · intro _ other
    exact absurd ⟨s.calls,s.stack t,rfl⟩ other

omit [DecidableEq Thread] in
theorem not_clearing (top : s.stack t = ⟨number,place⟩ :: rest) (past : place ≠ .clearing) : ¬ Clearing (s.stack t) := by
  rintro ⟨other,below,same⟩
  rw [top] at same
  cases same
  exact past rfl

omit [DecidableEq Thread] in
theorem put_recorded (recorded : Recorded restores start t marks s) (top : s.stack t = ⟨number,place⟩ :: rest)
    (past : place ≠ .clearing) (after : s'.stack t = ⟨number,next⟩ :: rest) (further : next ≠ .clearing)
    (calls : s'.calls = s.calls) (blocked : s'.blocked = s.blocked) (caught : s'.caught = s.caught) :
    Recorded restores start t marks s' := by
  have present : start.calls < s.calls := recorded.begun.resolve_left (by simp [top])
  exact recorded_moves recorded calls blocked caught (.inr (calls ▸ present)) (not_clearing top past)
    (not_clearing after further) fun _ => Iff.rfl

theorem goes_recorded (nested : Nested s t) (recorded : Recorded restores start t marks s)
    (upper : s.stack t = ⟨number,place⟩ :: rest)
    (same : ∀ number, .caught number ∈ marks' ↔ .caught number ∈ marks) (marked : place ≠ .reporting → marks' = marks) :
    Recorded restores start t marks' (tryCatch s t number rest place) := by
  have top := nested.top
  rw [upper] at top
  cases place with
  | clearing =>
      rw [marked (by decide)]
      have cleared := recorded.clear number rest upper
      change number+1 = s.calls at top
      obtain ⟨blocked,made,since,begun,_,_⟩ := recorded
      refine ⟨blocked,made,since,.inr (begun.resolve_left (by simp [upper])),?_,fun _ _ => ?_⟩
      · intro n below after
        simp [tryCatch,Process.put] at after
      · change (false = true) ↔ .caught (s.calls-1) ∈ marks
        obtain rfl : number = s.calls-1 := by omega
        exact ⟨fun never => (by cases never),fun member => absurd member cleared⟩
  | arming =>
      rw [marked (by decide)]
      exact put_recorded recorded upper (by decide) (Function.update_self ..) (by decide) rfl rfl rfl
  | saving =>
      rw [marked (by decide)]
      exact put_recorded recorded upper (by decide) (Function.update_self ..) (by decide) rfl rfl rfl
  | testing =>
      rw [marked (by decide)]
      refine put_recorded recorded upper (by decide) (Function.update_self ..) ?_ rfl rfl rfl
      cases s.caught <;> decide
  | inside =>
      rw [marked (by decide)]
      exact recorded
  | disarming =>
      rw [marked (by decide)]
      exact put_recorded recorded upper (by decide) (Function.update_self ..) (by decide) rfl rfl rfl
  | reporting =>
      have present : start.calls < s.calls := recorded.begun.resolve_left (by simp [upper])
      refine recorded_moves recorded rfl rfl rfl (.inr present) (not_clearing upper (by decide)) ?_ same
      rintro ⟨n,below,after⟩
      have under : rest = ⟨n,.clearing⟩ :: below := by simpa [tryCatch,Process.put] using after
      have lower := nested.lower ⟨n,.clearing⟩ (by simp [upper,under])
      cases lower

theorem returns_recorded (recorded : Recorded restores start t marks s) :
    Recorded restores start t marks (act restores s (.returns t)) := by
  simp only [act]
  split
  · next top => exact put_recorded recorded top (by decide) (Function.update_self ..) (by decide) rfl rfl rfl
  · exact recorded

theorem raise_recorded (recorded : Recorded restores start t marks s) (top : s.stack t = ⟨number,.inside⟩ :: rest)
    (last : number+1 = s.calls) (unblocked : s.blocked t = false) :
    Recorded restores start t (marks ++ [.caught number]) {s.put t (⟨number,.testing⟩ :: rest) with
      caught := true,blocked := Function.update s.blocked t (!restores)} := by
  have present : start.calls < s.calls := recorded.begun.resolve_left (by simp [top])
  have never : start.blocked t = false := by
    cases blocked : start.blocked t with
    | false => rfl
    | true =>
        have now := recorded.blocked.mpr (.inl blocked)
        rw [unblocked] at now
        cases now
  refine ⟨?_,fun n member => ?_,recorded.since,.inr present,fun n below after => ?_,fun _ _ => ?_⟩
  · cases restores <;> simp [never]
  · rcases List.mem_append.mp member with old | new
    · exact recorded.made n old
    · cases List.mem_singleton.mp new
      change number < s.calls
      omega
  · simp [Process.put] at after
  · change true = true ↔ .caught (s.calls-1) ∈ marks ++ [.caught number]
    have latest : s.calls-1 = number := by omega
    simp [latest]

-- The fault that comes next is one the last call made is waiting for, of a
-- thread that has none behind it or is given its signal mask back.
def Guarded (restores : Bool) (start : Process Thread) (t : Thread) (earlier : List (Event Thread)) : Prop :=
  ∃ number rest, (Machine.run (step restores) start earlier).stack t = ⟨number,.inside⟩ :: rest ∧
    number+1 = (Machine.run (step restores) start earlier).calls ∧ start.blocked t = false ∧
    (restores = true ∨ ∀ number, .caught number ∉ Machine.trace (step restores) (observe restores) start earlier)

structure Known (restores : Bool) (start : Process Thread) (t : Thread) (marks : List Mark) (s : Process Thread) : Prop where
  nested : Nested s t
  recorded : Recorded restores start t marks s

omit [DecidableEq Thread] in
theorem unblocked_iff (recorded : Recorded restores start t marks s) :
    s.blocked t = false ↔ start.blocked t = false ∧ (restores = true ∨ ∀ number, .caught number ∉ marks) := by
  rw [← Bool.not_eq_true,recorded.blocked,← Bool.not_eq_true (start.blocked t)]
  cases restores <;> simp

theorem step_known (known : Known restores start t marks s) (runs : s.fate = .runs) (event : Event Thread)
    (own : event.thread = t) (alive : (step restores s event).fate = .runs) :
    Known restores start t (marks ++ (observe restores s event).toList) (step restores s event) := by
  obtain ⟨nested,recorded⟩ := known
  simp only [step,runs,if_true] at alive ⊢
  cases event with
  | calls u =>
      obtain rfl : u = t := own
      simp only [observe,Option.toList_none,List.append_nil]
      by_cases code : ownCode (s.stack u) = true
      · exact ⟨calls_nested nested code,calls_recorded recorded code⟩
      · rw [act,if_neg code]
        exact ⟨nested,recorded⟩
  | goes u =>
      obtain rfl : u = t := own
      cases top : s.stack u with
      | nil =>
          simp only [act,observe,top,Option.toList_none,List.append_nil]
          exact ⟨nested,recorded⟩
      | cons frame rest =>
          obtain ⟨number,place⟩ := frame
          simp only [act,top]
          refine ⟨goes_nested nested top,goes_recorded nested recorded top (fun n => ?_) fun past => ?_⟩
          · cases place <;> simp [observe,top,runs]
          · cases place <;> simp [observe,top] at past ⊢
  | returns u =>
      obtain rfl : u = t := own
      simp only [observe,Option.toList_none,List.append_nil]
      exact ⟨returns_nested nested,returns_recorded recorded⟩
  | faults u =>
      obtain rfl : u = t := own
      by_cases code : ownCode (s.stack u) = true
      · rw [act,if_pos code] at alive ⊢
        obtain ⟨number,rest,top,last,unblocked⟩ := (raise_fate nested code runs).mp alive
        obtain ⟨handler,env⟩ := inside_guarded nested top last
        have marked : (observe restores s (.faults u)).toList = [.caught number] := by
          simp [observe,runs,code,alive,env]
        rw [marked,raise_caught nested top last unblocked]
        have caught := raise_recorded recorded top last unblocked
        exact ⟨nested_top nested top (Function.update_self ..) rfl ⟨last,handler,env⟩,caught⟩
      · have absent : (observe restores s (.faults u)).toList = [] := by simp [observe,code]
        rw [absent,List.append_nil,act,if_neg code]
        exact ⟨nested,recorded⟩

theorem run_known (quiet : Quiet start) (events : List (Event Thread)) (own : ∀ event ∈ events, event.thread = t)
    (alive : (Machine.run (step restores) start events).fate = .runs) :
    Known restores start t (Machine.trace (step restores) (observe restores) start events)
      (Machine.run (step restores) start events) := by
  induction events using List.reverseRecOn with
  | nil =>
      refine ⟨quiet_nested quiet t,⟨by simp [Machine.trace],fun number member => ?_,Nat.le_refl _,.inl (quiet.stack t),
        fun number rest top => ?_,fun present _ => absurd present (Nat.lt_irrefl _)⟩⟩
      · cases member
      · simp [quiet.stack t] at top
  | append_singleton events event ih =>
      rw [Machine.run_concat] at alive ⊢
      have runs : (Machine.run (step restores) start events).fate = .runs := by
        by_contra past
        rw [step,if_neg past] at alive
        exact past alive
      have known := ih (fun other member => own other (List.mem_append_left _ member)) runs
      rw [Machine.trace_concat]
      exact step_known known runs event (own event (by simp)) alive

-- A thread alone in try_catch, however its calls are nested: it survives its
-- faults exactly as long as each of them is guarded, and a call answers that it
-- has caught a fault exactly if the last call that was made has.
structure Protects (restores : Bool) (start : Process Thread) (t : Thread) (events : List (Event Thread)) : Prop where
  survives : (Machine.run (step restores) start events).fate = .runs ↔
    Machine.Throughout (fun earlier event => event = .faults t →
      ownCode ((Machine.run (step restores) start earlier).stack t) = true → Guarded restores start t earlier) events
  reports : Machine.Throughout (fun earlier event => ∀ number answer,
    observe restores (Machine.run (step restores) start earlier) event = some (.reported number answer) →
      (answer = true ↔ .caught ((Machine.run (step restores) start earlier).calls-1) ∈
        Machine.trace (step restores) (observe restores) start earlier)) events

theorem step_fate (known : Known restores start t (Machine.trace (step restores) (observe restores) start earlier)
    (Machine.run (step restores) start earlier)) (runs : (Machine.run (step restores) start earlier).fate = .runs)
    (event : Event Thread) (own : event.thread = t) :
    (step restores (Machine.run (step restores) start earlier) event).fate = .runs ↔
      (event = .faults t → ownCode ((Machine.run (step restores) start earlier).stack t) = true →
        Guarded restores start t earlier) := by
  rw [step,if_pos runs]
  cases event with
  | calls u =>
      simp only [act]
      split <;> simp [Process.put,runs]
  | goes u =>
      simp only [act]
      split
      · simp [runs]
      · next frame rest top => cases frame.place <;> simp [tryCatch,Process.put,runs]
  | returns u =>
      simp only [act]
      split <;> simp [Process.put,runs]
  | faults u =>
      obtain rfl : u = t := own
      by_cases code : ownCode ((Machine.run (step restores) start earlier).stack u) = true
      · rw [act,if_pos code,raise_fate known.nested code runs]
        simp only [code,Guarded,unblocked_iff known.recorded,true_implies]
      · rw [act,if_neg code]
        simp [runs,code]

omit [DecidableEq Thread] in
theorem recorded_answer (recorded : Recorded restores start t marks s) (top : s.stack t = ⟨number,.reporting⟩ :: rest) :
    s.caught = true ↔ .caught (s.calls-1) ∈ marks :=
  recorded.last (recorded.begun.resolve_left (by simp [top])) (not_clearing top (by decide))

theorem try_catch_protects (restores : Bool) (start : Process Thread) (quiet : Quiet start) (t : Thread)
    (events : List (Event Thread)) (own : ∀ event ∈ events, event.thread = t) : Protects restores start t events := by
  have known : ∀ earlier event later, events = earlier ++ event :: later →
      (Machine.run (step restores) start earlier).fate = .runs →
      Known restores start t (Machine.trace (step restores) (observe restores) start earlier)
        (Machine.run (step restores) start earlier) :=
    fun earlier event later split runs => run_known quiet earlier (fun other member => own other (by simp [split,member])) runs
  refine ⟨?_,?_⟩
  · refine @Machine.throughout_iff _ _ _ _ (fun s : Process Thread => s.fate = .runs) _ quiet.fate events fun earlier event later split => ?_
    by_cases runs : (Machine.run (step restores) start earlier).fate = .runs
    · rw [step_fate (known earlier event later split runs) runs event (own event (by simp [split]))]
      exact (and_iff_right runs).symm
    · rw [step,if_neg runs]
      exact ⟨fun alive => absurd alive runs,fun both => absurd both.1 runs⟩
  · intro earlier event later split number answer seen
    have same := own event (by simp [split])
    cases event with
    | calls u => cases seen
    | returns u => cases seen
    | faults u =>
        simp only [observe] at seen
        split at seen
        · cases env : (Machine.run (step restores) start earlier).jumpBufferEnv <;> simp [env] at seen
        · cases seen
    | goes u =>
        obtain rfl : u = t := same
        simp only [observe] at seen
        split at seen
        · next n rest top =>
            split at seen
            · next runs =>
                obtain ⟨_,rfl⟩ := Mark.reported.inj (Option.some.inj seen)
                exact recorded_answer (known earlier (.goes u) later split runs).recorded top
            · cases seen
        · cases seen

def oneFault : List (Event Unit) :=
  [.calls (),.goes (),.goes (),.goes (),.goes (),.faults (),.goes (),.goes (),.goes ()]

theorem try_catch_protects_one_fault : Protects false fresh () oneFault :=
  try_catch_protects false fresh ⟨fun _ => rfl,rfl,rfl⟩ () oneFault fun _ _ => rfl

end TcpProxy.Exception
