import Mathlib.Data.List.Destutter
import TcpProxy.Lib.Run
import TcpProxy.Utils

namespace TcpProxy.MinuteTimer

structure Tm where
  tmMin : Int
  tmYday : Int
deriving DecidableEq, Repr

def timeUnit : Int := 5

-- last_unit, and the variables that get_day_of_year and its sibling read.
structure Variables where
  lastUnit : Int
  dayOfYear : Int
  prevDayOfYear : Int
deriving DecidableEq, Repr

def unitOf (tv : Timeval) : Int := tv.sec.tdiv timeUnit

-- start_minute_timer up to its loop, with the clock as init_minute_timer and as
-- the function itself read it.
def startMinuteTimer (localtime : Int → Tm) (first tv : Timeval) : Variables :=
  ⟨unitOf tv,(localtime first.sec).tmYday,(localtime first.sec).tmYday⟩

def sleepTime (tv : Timeval) : Int := (timeUnit-tv.sec.tmod timeUnit-1)*1000000+1000000-tv.usec

inductive Outcome where
  | usleep (microseconds : Int)
  | func (tv : Timeval) (tm : Tm)
deriving DecidableEq, Repr

-- One round of the loop. What it ends with is what takes its time.
def round (localtime : Int → Tm) (m : Variables) (tv : Timeval) : Variables × Outcome :=
  if unitOf tv = m.lastUnit then
    (⟨m.lastUnit,(localtime tv.sec).tmYday,m.dayOfYear⟩,.usleep (sleepTime tv))
  else (⟨unitOf tv,(localtime tv.sec).tmYday,m.dayOfYear⟩,.func tv (localtime tv.sec))

-- The thread that runs the timer, with last_min of main.c.
structure Thread where
  timer : Variables
  lastMin : Int
deriving DecidableEq, Repr

def runTimer (localtime : Int → Tm) (first tv : Timeval) : Thread := ⟨startMinuteTimer localtime first tv,-1⟩

def cron (lastMin : Int) (tm : Tm) : Bool := tm.tmMin != lastMin

def Thread.reads (localtime : Int → Tm) (thread : Thread) (tv : Timeval) : Thread :=
  match round localtime thread.timer tv with
  | (timer,.usleep _) => {thread with timer := timer}
  | (timer,.func _ tm) => ⟨timer,if cron thread.lastMin tm then tm.tmMin else thread.lastMin⟩

def called (localtime : Int → Tm) (thread : Thread) (tv : Timeval) : Option Timeval :=
  match (round localtime thread.timer tv).2 with
  | .usleep _ => none
  | .func tv _ => some tv

def swept (localtime : Int → Tm) (thread : Thread) (tv : Timeval) : Option Int :=
  match (round localtime thread.timer tv).2 with
  | .usleep _ => none
  | .func _ tm => if cron thread.lastMin tm then some tm.tmMin else none

def Normal (tv : Timeval) : Prop := 0 ≤ tv.sec ∧ 0 ≤ tv.usec ∧ tv.usec < 1000000

def micros (tv : Timeval) : Int := 1000000*tv.sec+tv.usec

-- func is called once for each run of readings in one unit that is not the one
-- before, cron works once for each run of its calls in one minute, and a round
-- that sleeps does so for just as long as the next round would find nothing to do.
structure Ticks (localtime : Int → Tm) (first start : Timeval) (readings : List Timeval) : Prop where
  called : (Machine.trace (Thread.reads localtime) (called localtime) (runTimer localtime first start) readings).map unitOf =
    ((unitOf start :: readings.map unitOf).destutter (· ≠ ·)).tail
  once : (start :: readings).Pairwise (fun one two => one.sec ≤ two.sec) → 0 ≤ start.sec →
    ((Machine.trace (Thread.reads localtime) (MinuteTimer.called localtime) (runTimer localtime first start) readings).map
      unitOf).Pairwise (· < ·)
  swept : Machine.trace (Thread.reads localtime) (swept localtime) (runTimer localtime first start) readings =
    ((-1 :: (Machine.trace (Thread.reads localtime) (MinuteTimer.called localtime) (runTimer localtime first start)
      readings).map fun tv => (localtime tv.sec).tmMin).destutter (· ≠ ·)).tail
  sleeps : Machine.Throughout (fun earlier tv => ∀ time,
    (round localtime (Machine.run (Thread.reads localtime) (runTimer localtime first start) earlier).timer tv).2 = .usleep time →
    Normal tv → 0 < time ∧ time ≤ 5000000 ∧ ∀ later, Normal later → micros tv ≤ micros later →
      (micros tv+time ≤ micros later ↔ MinuteTimer.called localtime
        (Machine.run (Thread.reads localtime) (runTimer localtime first start) (earlier ++ [tv])) later = some later)) readings

theorem destutter_past (apart : a ≠ b) (rest : List Int) :
    ((a :: b :: rest).destutter (· ≠ ·)).tail = b :: ((b :: rest).destutter (· ≠ ·)).tail := by
  rw [List.destutter_cons',List.destutter'_cons_pos rest apart,List.tail_cons,List.destutter_cons']
  obtain ⟨kept,same⟩ : ∃ kept, rest.destutter' (· ≠ ·) b = b :: kept := by
    induction rest with
    | nil => exact ⟨[],rfl⟩
    | cons c rest ih =>
        by_cases other : b ≠ c
        · exact ⟨_,List.destutter'_cons_pos rest other⟩
        · rw [List.destutter'_cons_neg rest other]
          exact ih
  rw [same,List.tail_cons]

theorem destutter_again (rest : List Int) : ((a :: a :: rest).destutter (· ≠ ·)).tail = ((a :: rest).destutter (· ≠ ·)).tail := by
  rw [List.destutter_cons',List.destutter'_cons_neg rest (fun apart => apart rfl),List.destutter_cons']

variable {localtime : Int → Tm}

theorem round_same (same : unitOf tv = m.lastUnit) :
    round localtime m tv = (⟨m.lastUnit,(localtime tv.sec).tmYday,m.dayOfYear⟩,.usleep (sleepTime tv)) := if_pos same

theorem round_other (other : unitOf tv ≠ m.lastUnit) :
    round localtime m tv = (⟨unitOf tv,(localtime tv.sec).tmYday,m.dayOfYear⟩,.func tv (localtime tv.sec)) := if_neg other

theorem called_units (thread : Thread) (readings : List Timeval) :
    (Machine.trace (Thread.reads localtime) (called localtime) thread readings).map unitOf =
      ((thread.timer.lastUnit :: readings.map unitOf).destutter (· ≠ ·)).tail := by
  induction readings generalizing thread with
  | nil => rfl
  | cons tv readings ih =>
      rw [Machine.trace,List.map_append,List.map_cons,ih]
      by_cases same : unitOf tv = thread.timer.lastUnit
      · simp only [called,Thread.reads,round_same same,Option.toList_none,List.map_nil,List.nil_append]
        rw [same,destutter_again]
      · simp only [called,Thread.reads,round_other same,Option.toList_some,List.map_cons,List.map_nil,List.singleton_append]
        rw [destutter_past (Ne.symm same)]

theorem swept_minutes (thread : Thread) (readings : List Timeval) :
    Machine.trace (Thread.reads localtime) (swept localtime) thread readings =
      ((thread.lastMin :: (Machine.trace (Thread.reads localtime) (called localtime) thread readings).map fun tv =>
        (localtime tv.sec).tmMin).destutter (· ≠ ·)).tail := by
  induction readings generalizing thread with
  | nil => rfl
  | cons tv readings ih =>
      simp only [Machine.trace,List.map_append]
      rw [ih]
      by_cases same : unitOf tv = thread.timer.lastUnit
      · simp [called,swept,Thread.reads,round_same same]
      · simp only [called,swept,Thread.reads,round_other same,Option.toList_some,List.map_cons,List.map_nil,
          List.singleton_append]
        by_cases old : (localtime tv.sec).tmMin = thread.lastMin
        · have idle : cron thread.lastMin (localtime tv.sec) = false := by simp [cron,old]
          simp only [idle,Bool.false_eq_true,if_false,Option.toList_none,List.nil_append]
          rw [old,destutter_again]
        · have works : cron thread.lastMin (localtime tv.sec) = true := by simp [cron,old]
          simp only [works,if_true,Option.toList_some,List.singleton_append]
          rw [destutter_past (Ne.symm old)]

theorem unitOf_eq (positive : 0 ≤ tv.sec) : unitOf tv = tv.sec/5 := Int.tdiv_eq_ediv_of_nonneg positive

theorem unitOf_mono (positive : 0 ≤ one.sec) (later : one.sec ≤ two.sec) : unitOf one ≤ unitOf two := by
  rw [unitOf_eq positive,unitOf_eq (positive.trans later)]
  omega

theorem units_once (start : Timeval) (readings : List Timeval)
    (ordered : (start :: readings).Pairwise fun one two => one.sec ≤ two.sec) (positive : 0 ≤ start.sec) :
    ((unitOf start :: readings.map unitOf).destutter (· ≠ ·)).tail.Pairwise (· < ·) := by
  have all : ∀ tv ∈ start :: readings, 0 ≤ tv.sec := fun tv member => by
    rcases List.mem_cons.mp member with rfl | later
    · exact positive
    · exact positive.trans ((List.pairwise_cons.mp ordered).1 tv later)
  have rising : ((start :: readings).map unitOf).Pairwise (· ≤ ·) :=
    List.pairwise_map.mpr (ordered.imp_of_mem fun one _ after => unitOf_mono (all _ one) after)
  have kept := rising.sublist (List.destutter_sublist (· ≠ ·) _)
  have apart : ((((start :: readings).map unitOf).destutter (· ≠ ·))).Nodup := by
    rw [rising.destutter_eq_dedup]
    exact List.nodup_dedup _
  exact ((kept.and apart).imp fun both => lt_of_le_of_ne both.1 both.2).tail

theorem sleepTime_spec (normal : Normal tv) : 0 < sleepTime tv ∧ sleepTime tv ≤ 5000000 ∧
    ∀ later, Normal later → (micros tv+sleepTime tv ≤ micros later ↔ unitOf tv < unitOf later) := by
  obtain ⟨sec,usec,bound⟩ := normal
  have time : sleepTime tv = 5000000-1000000*(tv.sec % 5)-tv.usec := by
    rw [sleepTime,timeUnit,Int.tmod_eq_emod_of_nonneg sec]
    omega
  rw [time]
  refine ⟨by omega,by omega,fun later ⟨sec',usec',bound'⟩ => ?_⟩
  rw [unitOf_eq sec,unitOf_eq sec',micros,micros]
  omega

theorem sleeps_until (thread : Thread) (tv : Timeval) (time : Int)
    (sleeps : (round localtime thread.timer tv).2 = .usleep time) (normal : Normal tv) : 0 < time ∧ time ≤ 5000000 ∧
      ∀ later, Normal later → micros tv ≤ micros later →
        (micros tv+time ≤ micros later ↔ called localtime (thread.reads localtime tv) later = some later) := by
  by_cases same : unitOf tv = thread.timer.lastUnit
  · rw [round_same same] at sleeps
    obtain rfl := Outcome.usleep.inj sleeps
    obtain ⟨present,short,ends⟩ := sleepTime_spec normal
    refine ⟨present,short,fun later normal' after => (ends later normal').trans ?_⟩
    have lastUnit : (thread.reads localtime tv).timer.lastUnit = unitOf tv := by simp [Thread.reads,round_same same,same]
    have ordered : unitOf tv ≤ unitOf later := by
      refine unitOf_mono normal.1 ?_
      obtain ⟨_,usec,_⟩ := normal
      obtain ⟨_,_,bound'⟩ := normal'
      unfold micros at after
      omega
    by_cases within : unitOf later = unitOf tv
    · simp [called,round_same (within.trans lastUnit.symm),within]
    · have other : unitOf later ≠ (thread.reads localtime tv).timer.lastUnit := fun equal => within (equal.trans lastUnit)
      simp only [called,round_other other,iff_true]
      omega
  · rw [round_other same] at sleeps
    cases sleeps

theorem minute_timer_ticks (localtime : Int → Tm) (first start : Timeval) (readings : List Timeval) :
    Ticks localtime first start readings := by
  refine ⟨called_units _ _,fun ordered positive => ?_,swept_minutes _ _,fun earlier tv _ _ => ?_⟩
  · rw [called_units]
    exact units_once start readings ordered positive
  · simp only [Machine.run_concat]
    exact sleeps_until _ tv

end TcpProxy.MinuteTimer
