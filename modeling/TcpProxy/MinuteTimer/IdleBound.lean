import TcpProxy.MinuteTimer.Rounds
import TcpProxy.Proxying.IdleSweep
import TcpProxy.Proxying.TimerThread

namespace TcpProxy.MinuteTimer
open Proxying LinkedChain

variable {σ α : Type}

-- What cron still has to call. How far clean_idle_connections is once it has been
-- called is in Threads.
inductive Cron where
  | done
  | closeIdle (tv : Timeval)
  | cleanIdle (tv : Timeval)

-- The thread of the timer beside that of the event loop. `read` is the clock as
-- the timer read it last, `clock` as anybody did.
structure Daemon (σ α : Type) where
  thread : Thread
  cron : Cron
  threads : Threads σ α
  read : Timeval
  clock : Timeval

inductive Event where
  | reads (tv : Timeval)
  | closesIdle
  | snapshots
  | tests
  | closes
  | serves (event : Proxying.Event)

def timeOf : Proxying.Event → Option Timeval
  | .accept input => some input.now
  | .relay _ _ input => some input.now
  | _ => none

def serve (ctx : Context σ α) (t : Threads σ α) : Proxying.Event → Threads σ α
  | .cleanIdle _ _ => t
  | event => {t with proxy := Proxying.step ctx t.proxy event}

-- The timer's thread reads the clock where it is in its loop. cron wakes the
-- expiring thread up behind the rest, which does its work by itself.
def step (ctx : Context σ α) (localtime : Int → Tm) (timeout : ℚ) (d : Daemon σ α) : Event → Daemon σ α
  | .reads tv =>
    match d.cron,d.threads.timer with
    | .done,.resting =>
      {d with
        thread := d.thread.reads localtime tv,
        cron := if (swept localtime d.thread tv).isSome then .closeIdle tv else .done,read := tv,clock := tv}
    | _,_ => d
  | .closesIdle =>
    match d.cron with
    | .closeIdle tv => {d with cron := .cleanIdle tv,threads := serve ctx d.threads (.closeIdle tv)}
    | _ => d
  | .snapshots =>
    match d.cron with
    | .cleanIdle tv => {d with cron := .done,threads := act ctx d.threads (.snapshot tv timeout)}
    | _ => d
  | .tests => {d with threads := act ctx d.threads .idleTest}
  | .closes => {d with threads := act ctx d.threads .close}
  | .serves event => {d with threads := serve ctx d.threads event,clock := (timeOf event).getD d.clock}

def booted (localtime : Int → Tm) (proxy : Proxy σ α) (first start : Timeval) : Daemon σ α :=
  ⟨runTimer localtime first start,.done,⟨proxy,.resting⟩,start,start⟩

-- The clock does not go back, and the timer reads it at the latest that much
-- after the longest sleep, the round before included.
def Timely (late : ℚ) (d : Daemon σ α) : Event → Prop
  | .reads tv => Normal tv ∧ seconds d.clock ≤ seconds tv ∧ seconds tv ≤ seconds d.read+5+late
  | .serves event => ∀ now, timeOf event = some now → seconds d.clock ≤ seconds now ∧ seconds now ≤ seconds d.read+5+late
  | _ => True

-- The two threads keep out of each other's way.
def Quiet (ctx : Context σ α) (d : Daemon σ α) : Event → Prop
  | .tests => Undisturbed ctx d.threads .idleTest
  | .serves (.relay e fromClient input) => Undisturbed ctx d.threads (.relay e fromClient input)
  | _ => True

instance (late : ℚ) (d : Daemon σ α) (event : Event) : Decidable (Timely late d event) :=
  match event with
  | .reads tv => inferInstanceAs (Decidable ((0 ≤ tv.sec ∧ 0 ≤ tv.usec ∧ tv.usec < 1000000) ∧ _ ∧ _))
  | .serves event =>
    match time : timeOf event with
    | some now => decidable_of_iff (seconds d.clock ≤ seconds now ∧ seconds now ≤ seconds d.read+5+late)
        (by simp [Timely,time])
    | none => isTrue (by simp [Timely,time])
  | .closesIdle | .snapshots | .tests | .closes => isTrue trivial

instance (ctx : Context σ α) (t : Threads σ α) (action : Action) : Decidable (Undisturbed ctx t action) := by
  unfold Undisturbed
  repeat' split
  all_goals infer_instance

instance (ctx : Context σ α) (d : Daemon σ α) (event : Event) : Decidable (Quiet ctx d event) := by
  unfold Quiet
  split
  · infer_instance
  · infer_instance
  · exact isTrue trivial

def WholeMinutes (localtime : Int → Tm) : Prop := ∃ offset : Int, ∀ sec, (localtime sec).tmMin = (sec/60+offset) % 60

def Active (bound : Nat → ℚ) (s : Proxy σ α) (chain pool : List Nat) : Prop :=
  ConnShape s.conns chain [] pool ∧ ∀ e ∈ chain, bound e ≤ seconds (s.conns.memory e).recent

variable {ctx : Context σ α} {bound : Nat → ℚ} {s : Proxy σ α} {c c' : Connections} {chain pool : List Nat}

theorem recent_data (same : (c.memory e).data = (c'.memory e).data) : (c.memory e).recent = (c'.memory e).recent := by
  rw [eq_of_data same]

theorem establish_recent (shape : ConnShape s.conns chain [] pool) :
    ((establish ctx s fdc proxyFd connectionId admission remoteIp input).conns.memory
      (allocateConnectionInfo s.conns).1).recent = input.now := by
  obtain ⟨rest,taken,memory⟩ := allocate_shape shape
  have written := fun info => attach_shape (taken.set_held (List.mem_singleton.mpr rfl) info)
  have data : ∀ info : ConnectionInfo, (((attachConnectionInfoEntry
      ((allocateConnectionInfo s.conns).2.set (allocateConnectionInfo s.conns).1 info)
      (allocateConnectionInfo s.conns).1).memory (allocateConnectionInfo s.conns).1).recent) = info.recent := fun info => by
    rw [recent_data ((written info).2 _),set_self]
  cases request : admission.requestInDb with
  | none => simp only [establish,request,data]
  | some row => simp only [establish,request,data]

theorem relayChunk_recent (ctx : Context σ α) (s : Proxy σ α) (source destination : Int) (e : Nat) (input : RelayInput) :
    ((relayChunk ctx s source destination e input).2.conns.memory e).recent = input.now := by
  unfold relayChunk passOn
  dsimp only
  split
  · simp
  · split
    · simp
    · split <;> simp

theorem active_drop (ctx : Context σ α) (idle : Bool) (valid : Active bound s (before ++ e :: after) pool) :
    Active bound (dropConnection ctx s e idle) (before ++ after) (e :: pool) := by
  obtain ⟨shape,active⟩ := valid
  obtain ⟨left,memory,_⟩ := drop_spec ctx s idle shape
  refine ⟨left,fun a member => ?_⟩
  rw [recent_data (memory a (shape.middle_apart member))]
  refine active a ?_
  rcases List.mem_append.mp member with front | back
  · exact List.mem_append_left _ front
  · exact List.mem_append_right _ (List.mem_cons_of_mem _ back)

theorem active_relayChunk (ctx : Context σ α) (valid : Active bound s chain pool) (source destination : Int) (e : Nat)
    (later : bound e ≤ seconds input.now) : Active bound (relayChunk ctx s source destination e input).2 chain pool := by
  obtain ⟨shape,active⟩ := valid
  have recent := relayChunk_recent ctx s source destination e input
  obtain ⟨info,_,_,_,_,outcome,fields,_⟩ := relayChunk_frame ctx s source destination e input
  rw [outcome] at recent ⊢
  refine ⟨shape.set_data e info (by rw [fields]) (by rw [fields]) (by rw [fields]),fun a member => ?_⟩
  by_cases own : a = e
  · subst own
    rw [recent]
    exact later
  · change bound a ≤ seconds ((s.conns.set e info).memory a).recent
    rw [set_other _ _ own]
    exact active a member

theorem active_accept (ctx : Context σ α) (valid : Active bound s chain pool) (later : ∀ e, bound e ≤ seconds input.now) :
    ∃ chain' pool', Active bound (mainListener ctx s input) chain' pool' := by
  obtain ⟨shape,active⟩ := valid
  rcases accept_cases ctx s input with ⟨_,_,_,_,_,same,_⟩ | ⟨sockets,db,blacklist,fdc,proxyFd,admission,remoteIp,same,_⟩
  · rw [same]
    exact ⟨chain,pool,shape,active⟩
  · rw [same]
    obtain ⟨⟨rest,attached⟩,_,memory,_⟩ := establish_spec ctx {s with
      sockets := sockets,db := db,blacklist := blacklist,connectionCounter := s.connectionCounter+1} fdc proxyFd
      (s.connectionCounter+1) admission remoteIp input shape
    refine ⟨(allocateConnectionInfo s.conns).1 :: chain,rest,attached,fun a member => ?_⟩
    by_cases own : a = (allocateConnectionInfo s.conns).1
    · subst own
      refine le_of_le_of_eq (later _) (congrArg seconds ?_)
      exact (@establish_recent _ _ ctx {s with
        sockets := sockets,db := db,blacklist := blacklist,connectionCounter := s.connectionCounter+1} chain pool fdc proxyFd
        (s.connectionCounter+1) admission remoteIp input shape).symm
    · rw [recent_data (memory a own)]
      exact active a ((List.mem_cons.mp member).resolve_left own)

theorem active_invariant (ctx : Context σ α) (bound : Nat → ℚ) :
    Invariant ctx (fun _ event => ∀ now, timeOf event = some now → ∀ e, bound e ≤ seconds now) (Active bound) where
  shape valid := valid.1
  accept valid later := active_accept ctx valid (later _ rfl)
  relay valid later inside := relay_keeps _ _ valid.1 inside
    (fun source destination => active_relayChunk ctx valid source destination _ (later _ rfl _)) (active_drop ctx false)
  drop valid := active_drop ctx true valid
  other valid _ _ _ _ _ _ _ := ⟨valid.1.keep rfl rfl rfl rfl (fun _ _ => ⟨rfl,rfl,rfl⟩),valid.2⟩

theorem serve_active (ctx : Context σ α) {t : Threads σ α} (valid : Active bound t.proxy chain pool) (event : Proxying.Event)
    (later : ∀ now, timeOf event = some now → ∀ e, bound e ≤ seconds now) :
    ∃ chain' pool', Active bound (serve ctx t event).proxy chain' pool' := by
  cases event with
  | cleanIdle now timeout => exact ⟨chain,pool,valid⟩
  | _ => exact (active_invariant ctx bound).step valid later

theorem serve_guarded (ctx : Context σ α) {listener : Nat} {t : Threads σ α} (valid : Guarded listener t chain pool)
    (event : Proxying.Event)
    (quiet : ∀ e fromClient input, event = .relay e fromClient input → Undisturbed ctx t (.relay e fromClient input)) :
    ∃ chain' pool', Guarded listener (serve ctx t event) chain' pool' := by
  obtain ⟨owned,listed,waiting⟩ := valid
  have other := (accounted_invariant False ctx listener).other ⟨owned,False.elim⟩
  cases event with
  | accept input => 
      have free : Undisturbed ctx t (.accept input) := trivial
      exact act_guarded ctx ⟨owned,listed,waiting⟩ free
  | relay e fromClient input => exact relay_guarded ctx ⟨owned,listed,waiting⟩ (quiet e fromClient input rfl)
  | cleanIdle now timeout => exact ⟨chain,pool,owned,listed,waiting⟩
  | expiring now => exact ⟨chain,pool,(other _ _ _ _ _ _ (.inl rfl)).1,listed,waiting⟩
  | closeIdle now => exact ⟨chain,pool,(other _ _ _ _ _ _ (.inr ⟨now,rfl⟩)).1,listed,waiting⟩
  | setDefaultChannel channel =>
      obtain ⟨defaultServer,same⟩ := setDefaultChannel_frame ctx t.proxy channel
      simp only [serve,Proxying.step,same]
      exact ⟨chain,pool,(other _ _ _ _ _ _ (.inl rfl)).1,listed,waiting⟩
  | setFallbackChannel channel =>
      obtain ⟨onFailedChannel,same⟩ := setFallbackChannel_frame ctx t.proxy channel
      simp only [serve,Proxying.step,same]
      exact ⟨chain,pool,(other _ _ _ _ _ _ (.inl rfl)).1,listed,waiting⟩

-- The entries that clean_idle_connections has come past.
def visited : Timer → Nat → Bool
  | .resting,_ => false
  | .scanning _ _ left,e => decide (e ∉ left)
  | .closing _ _ waiting _ left,e => decide (e ∉ waiting :: left)

def Sweeps (now : Timeval) (timeout : ℚ) : Timer → Prop
  | .resting => False
  | .scanning tv limit _ => now = tv ∧ timeout = limit
  | .closing tv limit _ _ _ => now = tv ∧ timeout = limit

-- Since when a connection has not been silent for the timeout: the reading that
-- belongs to the sweep, behind it, and the one of the sweep before, in front of it.
def oldest (timeout : ℚ) (timer : Timer) (read last : Timeval) (e : Nat) : ℚ :=
  seconds (if visited timer e then read else last)-max timeout 0

-- `last` is the reading of the last sweep that has come to its end, or the
-- start. The timer has not left that minute until the next round begins.
inductive Phase (localtime : Int → Tm) (timeout late : ℚ) (last : Timeval) (d : Daemon σ α) : Prop where
  | waiting (cron : d.cron = .done) (timer : d.threads.timer = .resting) (minute : d.read.sec/60 = last.sec/60)
      (lastMin : d.thread.lastMin = -1 ∨ d.thread.lastMin = (localtime last.sec).tmMin)
  | calling (cron : d.cron = .closeIdle d.read ∨ d.cron = .cleanIdle d.read) (timer : d.threads.timer = .resting)
      (lastMin : d.thread.lastMin = (localtime d.read.sec).tmMin) (soon : seconds d.read < seconds last+65+late)
  | sweeping (cron : d.cron = .done) (timer : Sweeps d.read timeout d.threads.timer)
      (lastMin : d.thread.lastMin = (localtime d.read.sec).tmMin) (soon : seconds d.read < seconds last+65+late)

structure Since (localtime : Int → Tm) (listener : Nat) (timeout late : ℚ) (last : Timeval) (d : Daemon σ α) : Prop where
  normal : Normal d.read
  lastNormal : Normal last
  unit : d.thread.timer.lastUnit = unitOf d.read
  before : seconds last ≤ seconds d.read
  clock : seconds d.read ≤ seconds d.clock
  punctual : seconds d.clock ≤ seconds d.read+5+late
  phase : Phase localtime timeout late last d
  kept : ∃ chain pool, Guarded listener d.threads chain pool ∧
    Active (oldest timeout d.threads.timer d.read last) d.threads.proxy chain pool

variable {localtime : Int → Tm} {timeout late : ℚ} {last : Timeval} {d : Daemon σ α} {listener : Nat} {t : Threads σ α}

theorem guarded_active (guarded : Guarded listener t chain pool) (active : Active bound t.proxy chain' pool') :
    Active bound t.proxy chain pool := by
  obtain rfl := links_unique active.1.linked guarded.owned.shape.linked
  exact ⟨guarded.owned.shape,active.2⟩

theorem Active.mono (active : Active bound s chain pool) (weaker : ∀ e ∈ chain, bound' e ≤ bound e) :
    Active bound' s chain pool := ⟨active.1,fun e member => (weaker e member).trans (active.2 e member)⟩

theorem oldest_le (timeout : ℚ) (timer : Timer) (ordered : seconds last ≤ seconds tv) (e : Nat) :
    oldest timeout timer tv last e ≤ seconds tv := by
  have floor := le_max_right timeout 0
  unfold oldest
  split
  · linarith
  · linarith

theorem seconds_sec (normal : Normal tv) : (tv.sec : ℚ) ≤ seconds tv ∧ seconds tv < tv.sec+1 := by
  obtain ⟨_,low,high⟩ := normal
  have low' : (0 : ℚ) ≤ tv.usec := by exact_mod_cast low
  have high' : (tv.usec : ℚ) < 1000000 := by exact_mod_cast high
  unfold seconds
  constructor
  · linarith [div_nonneg low' (by norm_num : (0 : ℚ) ≤ 1000000)]
  · have small : (tv.usec : ℚ)/1000000 < 1 := by
      rw [div_lt_one (by norm_num)]
      exact high'
    linarith

-- A reading of the clock is not before the one that the timer had last, and
-- less than an hour behind it.
theorem reading_bounds (since : Since localtime listener timeout late last d) (punctual : late ≤ 3500) (normal : Normal tv)
    (after : seconds d.clock ≤ seconds tv) (soon : seconds tv ≤ seconds d.read+5+late) :
    d.read.sec ≤ tv.sec ∧ tv.sec ≤ d.read.sec+3506 := by
  obtain ⟨low,high⟩ := seconds_sec normal
  obtain ⟨low',high'⟩ := seconds_sec since.normal
  have clock := since.clock
  constructor
  · have early : (d.read.sec : ℚ) < tv.sec+1 := by linarith
    have early' : d.read.sec < tv.sec+1 := by exact_mod_cast early
    omega
  · have late' : (tv.sec : ℚ) < d.read.sec+3506 := by linarith
    have late'' : tv.sec < d.read.sec+3506 := by exact_mod_cast late'
    omega

theorem same_minute (normal : Normal tv) (normal' : Normal last) (minute : tv.sec/60 = last.sec/60) :
    seconds tv-seconds last < 60 := by
  obtain ⟨_,high⟩ := seconds_sec normal
  obtain ⟨low,_⟩ := seconds_sec normal'
  have apart : tv.sec ≤ last.sec+59 := by omega
  have apart' : (tv.sec : ℚ) ≤ last.sec+59 := by exact_mod_cast apart
  linarith

theorem serve_kept (ctx : Context σ α) (since : Since localtime listener timeout late last d) (event : Proxying.Event)
    (quiet : ∀ e fromClient input, event = .relay e fromClient input → Undisturbed ctx d.threads (.relay e fromClient input))
    (later : ∀ now, timeOf event = some now → seconds d.clock ≤ seconds now) :
    (serve ctx d.threads event).timer = d.threads.timer ∧ ∃ chain pool, Guarded listener (serve ctx d.threads event) chain pool ∧
      Active (oldest timeout d.threads.timer d.read last) (serve ctx d.threads event).proxy chain pool := by
  obtain ⟨chain,pool,guarded,active⟩ := since.kept
  obtain ⟨chain',pool',guarded'⟩ := serve_guarded ctx guarded event quiet
  obtain ⟨_,_,active'⟩ := serve_active ctx active event fun now time e =>
    (oldest_le timeout d.threads.timer since.before e).trans (since.clock.trans (later now time))
  exact ⟨by cases event <;> rfl,chain',pool',guarded',guarded_active guarded' active'⟩

theorem serves_since (since : Since localtime listener timeout late last d) (event : Proxying.Event)
    (timely : Timely late d (.serves event)) (quiet : Quiet ctx d (.serves event)) :
    Since localtime listener timeout late last (step ctx localtime timeout d (.serves event)) := by
  obtain ⟨still,kept⟩ := serve_kept ctx since event (fun e fromClient input same => by subst same; exact quiet)
    (fun now time => (timely now time).1)
  have phase : Phase localtime timeout late last (step ctx localtime timeout d (.serves event)) := by
    cases since.phase with
    | waiting cron timer minute lastMin => exact .waiting cron (still.trans timer) minute lastMin
    | calling cron timer lastMin soon => exact .calling cron (still.trans timer) lastMin soon
    | sweeping cron timer lastMin soon => exact .sweeping cron (still.symm ▸ timer) lastMin soon
  have young : ∃ chain pool, Guarded listener (serve ctx d.threads event) chain pool ∧
      Active (oldest timeout (serve ctx d.threads event).timer d.read last) (serve ctx d.threads event).proxy chain pool := by
    rw [still]
    exact kept
  cases time : timeOf event with
  | none =>
      have same : (step ctx localtime timeout d (.serves event)).clock = d.clock := by simp [step,time]
      exact ⟨since.normal,since.lastNormal,since.unit,since.before,same ▸ since.clock,same ▸ since.punctual,phase,young⟩
  | some now =>
      have moved : (step ctx localtime timeout d (.serves event)).clock = now := by simp [step,time]
      obtain ⟨after,soon⟩ := timely now time
      refine ⟨since.normal,since.lastNormal,since.unit,since.before,?_,?_,phase,young⟩ <;> rw [moved]
      · exact since.clock.trans after
      · exact soon

theorem reads_minute (zone : WholeMinutes localtime) (since : Since localtime listener timeout late last d)
    (minute : d.read.sec/60 = last.sec/60)
    (lastMin : d.thread.lastMin = -1 ∨ d.thread.lastMin = (localtime last.sec).tmMin)
    (later : d.read.sec ≤ tv.sec) (within : tv.sec ≤ d.read.sec+3506) (idle : swept localtime d.thread tv = none) :
    tv.sec/60 = last.sec/60 ∧ (d.thread.reads localtime tv).lastMin = d.thread.lastMin := by
  obtain ⟨offset,minutes⟩ := zone
  have positive := since.normal.1
  by_cases same : unitOf tv = d.thread.timer.lastUnit
  · refine ⟨?_,by simp [Thread.reads,round_same same]⟩
    rw [since.unit,unitOf_eq positive,unitOf_eq (positive.trans later)] at same
    omega
  · have known : (localtime tv.sec).tmMin = d.thread.lastMin := by
      by_contra other
      simp [swept,round_other same,cron,other] at idle
    refine ⟨?_,by simp [Thread.reads,round_other same,cron,known]⟩
    have own : d.thread.lastMin = (localtime last.sec).tmMin := by
      refine lastMin.resolve_left fun never => ?_
      rw [never,minutes] at known
      omega
    rw [own,minutes,minutes] at known
    omega

theorem reads_unit (localtime : Int → Tm) (thread : Thread) (tv : Timeval) :
    (thread.reads localtime tv).timer.lastUnit = unitOf tv := by
  by_cases same : unitOf tv = thread.timer.lastUnit
  · simp [Thread.reads,round_same same,same]
  · simp [Thread.reads,round_other same]

theorem reads_swept (works : swept localtime thread tv = some minute) :
    (thread.reads localtime tv).lastMin = (localtime tv.sec).tmMin := by
  by_cases same : unitOf tv = thread.timer.lastUnit
  · simp [swept,round_same same] at works
  · by_cases old : cron thread.lastMin (localtime tv.sec) = true
    · simp [Thread.reads,round_other same,old]
    · simp [swept,round_other same,old] at works

theorem reads_since (zone : WholeMinutes localtime) (punctual : late ≤ 3500)
    (since : Since localtime listener timeout late last d) (tv : Timeval) (timely : Timely late d (.reads tv)) :
    Since localtime listener timeout late last (step ctx localtime timeout d (.reads tv)) := by
  obtain ⟨normal,after,soon⟩ := timely
  obtain ⟨later,within⟩ := reading_bounds since punctual normal after soon
  have never : seconds tv ≤ seconds tv+5+late := by linarith [since.clock,since.punctual]
  have before : seconds last ≤ seconds tv := since.before.trans (since.clock.trans after)
  have unit := reads_unit localtime d.thread tv
  cases since.phase with
  | waiting cron timer minute lastMin =>
      have kept : ∃ chain pool, Guarded listener d.threads chain pool ∧
          Active (oldest timeout d.threads.timer tv last) d.threads.proxy chain pool := by
        have young := since.kept
        rw [timer] at young ⊢
        exact young
      simp only [step,cron,timer]
      refine ⟨normal,since.lastNormal,unit,before,le_refl _,never,?_,kept⟩
      cases works : swept localtime d.thread tv with
      | none =>
          obtain ⟨still,same⟩ := reads_minute zone since minute lastMin later within works
          refine .waiting (by simp) timer still ?_
          rw [same]
          exact lastMin
      | some minute' =>
          have close := same_minute since.normal since.lastNormal minute
          exact .calling (.inl (by simp)) timer (reads_swept works) (by dsimp only; linarith)
  | calling cron timer lastMin soon =>
      have same : step ctx localtime timeout d (.reads tv) = d := by
        rcases cron with cron | cron <;> simp only [step,cron]
      rw [same]
      exact since
  | sweeping cron timer lastMin soon =>
      have same : step ctx localtime timeout d (.reads tv) = d := by
        cases place : d.threads.timer with
        | resting =>
            rw [place] at timer
            exact timer.elim
        | _ => simp only [step,cron,place]
      rw [same]
      exact since

theorem closesIdle_since (since : Since localtime listener timeout late last d) :
    Since localtime listener timeout late last (step ctx localtime timeout d .closesIdle) := by
  cases due : d.cron with
  | closeIdle tv =>
      obtain ⟨still,kept⟩ := serve_kept ctx since (.closeIdle tv) (fun _ _ _ same => by cases same) (fun _ time => by cases time)
      simp only [step,due]
      refine ⟨since.normal,since.lastNormal,since.unit,since.before,since.clock,since.punctual,?_,?_⟩
      · cases since.phase with
        | waiting cron => cases cron.symm.trans due
        | sweeping cron => cases cron.symm.trans due
        | calling cron timer lastMin soon =>
            have own : tv = d.read := by
              rcases cron with cron | cron
              · exact Cron.closeIdle.inj (due.symm.trans cron)
              · cases cron.symm.trans due
            exact .calling (.inr (by rw [own])) (still.trans timer) lastMin soon
      · dsimp only
        rw [still]
        exact kept
  | _ =>
      simp only [step,due]
      exact since

theorem snapshots_since (since : Since localtime listener timeout late last d) :
    Since localtime listener timeout late last (step ctx localtime timeout d .snapshots) := by
  cases due : d.cron with
  | cleanIdle tv =>
      cases since.phase with
      | waiting cron => cases cron.symm.trans due
      | sweeping cron => cases cron.symm.trans due
      | calling cron timer lastMin soon =>
          have own : tv = d.read := by
            rcases cron with cron | cron
            · cases cron.symm.trans due
            · exact Cron.cleanIdle.inj (due.symm.trans cron)
          obtain ⟨chain,pool,guarded,active⟩ := since.kept
          obtain ⟨entries,shape,memory,_⟩ := snapshot_spec active.1
          have free : Undisturbed ctx d.threads (.snapshot tv timeout) := trivial
          obtain ⟨chain',pool',guarded'⟩ := act_guarded ctx guarded free
          have begun : act ctx d.threads (.snapshot tv timeout) =
              ⟨{d.threads.proxy with conns := (snapshot d.threads.proxy.conns).2},.scanning tv timeout chain⟩ := by
            simp only [act,timer,entries]
          simp only [step,due]
          rw [begun] at guarded' ⊢
          refine ⟨since.normal,since.lastNormal,since.unit,since.before,since.clock,since.punctual,
            .sweeping rfl ⟨own.symm,rfl⟩ lastMin soon,chain',pool',guarded',guarded_active guarded' (And.intro shape ?_)⟩
          intro e member
          have young := active.2 e member
          rw [timer] at young
          simpa [oldest,visited,member,memory] using young
  | _ =>
      simp only [step,due]
      exact since

theorem sweeps_since (since : Since localtime listener timeout late last d) (sweeps : Sweeps d.read timeout d.threads.timer)
    (still : Sweeps d.read timeout t.timer) (guarded : Guarded listener t chain pool)
    (active : Active (oldest timeout t.timer d.read last) t.proxy chain' pool') :
    Since localtime listener timeout late last {d with threads := t} := by
  refine ⟨since.normal,since.lastNormal,since.unit,since.before,since.clock,since.punctual,?_,
    chain,pool,guarded,guarded_active guarded active⟩
  cases since.phase with
  | waiting _ timer =>
      rw [timer] at sweeps
      exact sweeps.elim
  | calling _ timer =>
      rw [timer] at sweeps
      exact sweeps.elim
  | sweeping cron _ lastMin soon => exact .sweeping cron still lastMin soon

theorem ends_since (since : Since localtime listener timeout late last d)
    (scanning : d.threads.timer = .scanning d.read timeout []) :
    Since localtime listener timeout late d.read {d with threads := {d.threads with timer := .resting}} := by
  obtain ⟨chain,pool,guarded,active⟩ := since.kept
  have resting : Guarded listener {d.threads with timer := .resting} chain pool :=
    ⟨guarded.owned,(fun e member => by cases member),(fun _ _ _ _ _ closing => by cases closing)⟩
  rw [scanning] at active
  have young : Active (oldest timeout .resting d.read d.read) d.threads.proxy chain pool :=
    active.mono fun e _ => by simp [oldest,visited]
  have phase : Phase localtime timeout late d.read {d with threads := {d.threads with timer := .resting}} := by
    cases since.phase with
    | waiting _ timer => cases timer.symm.trans scanning
    | calling _ timer => cases timer.symm.trans scanning
    | sweeping cron _ lastMin _ => exact .waiting cron rfl rfl (.inr lastMin)
  exact ⟨since.normal,since.normal,since.unit,le_refl _,since.clock,since.punctual,phase,chain,pool,resting,young⟩

theorem passes_since (since : Since localtime listener timeout late last d)
    (scanning : d.threads.timer = .scanning d.read timeout (e :: left)) (young : isIdle d.threads.proxy.conns d.read timeout e = false) :
    Since localtime listener timeout late last {d with threads := {d.threads with timer := .scanning d.read timeout left}} := by
  obtain ⟨chain,pool,guarded,active⟩ := since.kept
  have listed : Guarded listener {d.threads with timer := .scanning d.read timeout left} chain pool := by
    refine ⟨guarded.owned,fun a member => guarded.listed a ?_,(fun _ _ _ _ _ closing => by cases closing)⟩
    rw [scanning]
    exact List.mem_cons_of_mem _ member
  have recent : ¬ timeout < seconds d.read-seconds (d.threads.proxy.conns.memory e).recent := by
    rw [← elapsedTime_eq]
    simpa [isIdle] using young
  refine sweeps_since since (by rw [scanning]; exact ⟨rfl,rfl⟩) ⟨rfl,rfl⟩ listed ⟨active.1,fun a member => ?_⟩
  by_cases own : a = e
  · subst own
    have floor := le_max_left timeout 0
    have before := since.before
    unfold oldest
    split <;> linarith
  · refine le_of_eq_of_le ?_ (active.2 a member)
    simp [oldest,visited,scanning,own]

theorem tests_since (since : Since localtime listener timeout late last d) (quiet : Quiet ctx d .tests) :
    ∃ last', Since localtime listener timeout late last' (step ctx localtime timeout d .tests) := by
  have ignored : act ctx d.threads .idleTest = d.threads →
      ∃ last', Since localtime listener timeout late last' (step ctx localtime timeout d .tests) := by
    intro same
    simp only [step,same]
    exact ⟨last,since⟩
  cases since.phase with
  | waiting _ timer => exact ignored (by simp only [act,timer])
  | calling _ timer => exact ignored (by simp only [act,timer])
  | sweeping cron timer lastMin soon =>
      cases place : d.threads.timer with
      | resting => exact ignored (by simp only [act,place])
      | closing now limit e id left => exact ignored (by simp only [act,place])
      | scanning now limit todo =>
          have sweeps := timer
          rw [place] at timer
          obtain ⟨rfl,rfl⟩ := timer
          cases todo with
          | nil =>
              have ended : act ctx d.threads .idleTest = {d.threads with timer := .resting} := by simp only [act,place]
              simp only [step,ended]
              exact ⟨d.read,ends_since since place⟩
          | cons e left =>
              cases idle : isIdle d.threads.proxy.conns d.read timeout e with
              | false =>
                  have passed : act ctx d.threads .idleTest = {d.threads with timer := .scanning d.read timeout left} := by
                    simp only [act,place,idle,Bool.false_eq_true,if_false]
                  simp only [step,passed]
                  exact ⟨last,passes_since since place idle⟩
              | true =>
                  have found : act ctx d.threads .idleTest =
                      {d.threads with timer := .closing d.read timeout e (d.threads.proxy.conns.memory e).connectionId left} := by
                    simp only [act,place,idle,if_true]
                  obtain ⟨chain,pool,guarded,active⟩ := since.kept
                  have apart : Undisturbed ctx d.threads .idleTest := quiet
                  obtain ⟨chain',pool',guarded'⟩ := act_guarded ctx guarded apart
                  rw [found] at guarded'
                  rw [place] at active
                  simp only [step,found]
                  exact ⟨last,sweeps_since since sweeps ⟨rfl,rfl⟩ guarded' active⟩

theorem closes_since (since : Since localtime listener timeout late last d) :
    Since localtime listener timeout late last (step ctx localtime timeout d .closes) := by
  cases place : d.threads.timer with
  | closing now limit e id left =>
      have sweeps : Sweeps d.read timeout d.threads.timer := by
        cases since.phase with
        | waiting _ timer => cases timer.symm.trans place
        | calling _ timer => cases timer.symm.trans place
        | sweeping _ timer => exact timer
      obtain ⟨chain,pool,guarded,active⟩ := since.kept
      have free : Undisturbed ctx d.threads .close := trivial
      obtain ⟨chain',pool',guarded'⟩ := act_guarded ctx guarded free
      obtain ⟨inside,_⟩ := guarded.waiting now limit e id left place
      obtain ⟨before,after,rfl⟩ := List.append_of_mem inside
      have dropped := active_drop ctx true active
      have closed : act ctx d.threads .close = ⟨dropConnection ctx d.threads.proxy e true,.scanning now limit left⟩ := by
        simp only [act,place]
      rw [closed] at guarded'
      rw [place] at dropped
      simp only [step,closed]
      refine sweeps_since since sweeps (by rw [place] at sweeps; exact sweeps) guarded' (dropped.mono ?_)
      intro a member
      have other : a ≠ e := active.1.middle_apart member
      simp [oldest,visited,other]
  | _ =>
      have same : act ctx d.threads .close = d.threads := by simp only [act,place]
      simp only [step,same]
      exact since

theorem step_since (zone : WholeMinutes localtime) (punctual : late ≤ 3500)
    (since : Since localtime listener timeout late last d) (event : Event) (timely : Timely late d event) (quiet : Quiet ctx d event) :
    ∃ last', Since localtime listener timeout late last' (step ctx localtime timeout d event) := by
  cases event with
  | reads tv => exact ⟨last,reads_since zone punctual since tv timely⟩
  | closesIdle => exact ⟨last,closesIdle_since since⟩
  | snapshots => exact ⟨last,snapshots_since since⟩
  | tests => exact tests_since since quiet
  | closes => exact ⟨last,closes_since since⟩
  | serves event => exact ⟨last,serves_since since event timely quiet⟩

def Daemon.Waits (d : Daemon σ α) : Prop := d.cron = .done ∧ d.threads.timer = .resting

-- How long anybody in the chain has been silent, as the timer sees it and as
-- anybody does: at any time; where no round is going on; and, with the reading of
-- the sweep that is going on, if that has come past the connection.
structure Silence (timeout late : ℚ) (d : Daemon σ α) (e : Nat) : Prop where
  read : seconds d.read-seconds (d.threads.proxy.conns.memory e).recent < max timeout 0+65+late
  clock : seconds d.clock-seconds (d.threads.proxy.conns.memory e).recent < max timeout 0+70+2*late
  waits : d.Waits → seconds d.read-seconds (d.threads.proxy.conns.memory e).recent < max timeout 0+60 ∧
    seconds d.clock-seconds (d.threads.proxy.conns.memory e).recent < max timeout 0+65+late
  visited : visited d.threads.timer e = true →
    seconds d.read-seconds (d.threads.proxy.conns.memory e).recent ≤ max timeout 0 ∧
      seconds d.clock-seconds (d.threads.proxy.conns.memory e).recent ≤ max timeout 0+5+late

def IdleBound (timeout late : ℚ) (d : Daemon σ α) : Prop :=
  ∃ chain pool, Represented d.threads.proxy.conns chain pool ∧ ∀ e ∈ chain, Silence timeout late d e

theorem since_bound (positive : 0 ≤ late) (since : Since localtime listener timeout late last d) : IdleBound timeout late d := by
  obtain ⟨chain,pool,_,shape,young⟩ := since.kept
  refine ⟨chain,pool,shape.represented,fun e member => ?_⟩
  have own := young e member
  have before := since.before
  have punctual := since.punctual
  have floor : seconds last-max timeout 0 ≤ seconds (d.threads.proxy.conns.memory e).recent := by
    unfold oldest at own
    split at own <;> linarith
  have apart : seconds d.read < seconds last+65+late := by
    cases since.phase with
    | waiting _ _ minute => linarith [same_minute since.normal since.lastNormal minute]
    | calling _ _ _ soon => exact soon
    | sweeping _ _ _ soon => exact soon
  refine ⟨by linarith,by linarith,fun waits => ?_,fun visited => ?_⟩
  · have minute : d.read.sec/60 = last.sec/60 := by
      cases since.phase with
      | waiting _ _ minute => exact minute
      | calling cron => rcases cron with cron | cron <;> cases waits.1.symm.trans cron
      | sweeping _ timer =>
          rw [waits.2] at timer
          exact timer.elim
    have close := same_minute since.normal since.lastNormal minute
    constructor <;> linarith
  · rw [oldest,if_pos visited] at own
    constructor <;> linarith

theorem idle_bound (ctx : Context σ α) (localtime : Int → Tm) (zone : WholeMinutes localtime) (timeout late : ℚ)
    (punctual : 0 ≤ late ∧ late ≤ 3500) (listener : Nat) (memory : Nat → ConnectionInfo) (blacklist : AutoBlacklist.Table)
    (db : σ) (analyzer : α) (defaultServer onFailedChannel : Int) (first start : Timeval) (normal : Normal start)
    (events : List Event) :
    let initial := booted localtime (proxyMain listener memory blacklist db analyzer defaultServer onFailedChannel) first start
    Machine.Along (step ctx localtime timeout) (Timely late) initial events →
    Machine.Along (step ctx localtime timeout) (Quiet ctx) initial events →
      IdleBound timeout late (Machine.run (step ctx localtime timeout) initial events) := by
  intro initial timely quiet
  have owned := (initial_accounted False listener memory blacklist db analyzer defaultServer onFailedChannel).1
  have guarded : Guarded listener initial.threads [] [] :=
    ⟨owned,(fun e member => by cases member),(fun _ _ _ _ _ closing => by cases closing)⟩
  have begun : Since localtime listener timeout late start initial := by
    refine ⟨normal,normal,rfl,le_refl _,le_refl _,?_,.waiting rfl rfl rfl (.inl rfl),
      [],[],guarded,new_connShape memory,fun e member => by cases member⟩
    change seconds start ≤ seconds start+5+late
    linarith
  obtain ⟨last,since⟩ := Machine.run_invariant (fun d => ∃ last, Since localtime listener timeout late last d) ⟨start,begun⟩
    (fun d event ⟨last,since⟩ both => step_since zone punctual.2 since event both.1 both.2) events
    (Machine.along_and timely quiet)
  exact since_bound punctual.1 since

def utc (sec : Int) : Tm := ⟨sec/60 % 60,sec/86400⟩

-- One visitor at the start, and a timer that is up to a minute behind; a byte
-- comes while its sweep is going on.
def visit : List Event := [.serves (.accept (visitor 4 5)),.reads ⟨5,0⟩,.reads ⟨65,0⟩,.closesIdle,.snapshots,
  .serves (.relay 0 true ⟨⟨66,0⟩,[7],[1]⟩),.tests,.tests]

theorem idle_bound_visit : IdleBound 180 60 (Machine.run (step (oneServer "h") utc 180)
    (booted utc freshProxy ⟨0,0⟩ ⟨0,0⟩) visit) := by
  refine idle_bound (oneServer "h") utc ⟨0,fun sec => ?_⟩ 180 60 ⟨by norm_num,by norm_num⟩ 3 _ _ () () 0 0 ⟨0,0⟩ ⟨0,0⟩
    ⟨le_refl _,le_refl _,by decide⟩ visit (by decide +kernel) (by decide +kernel)
  simp [utc]

end TcpProxy.MinuteTimer
