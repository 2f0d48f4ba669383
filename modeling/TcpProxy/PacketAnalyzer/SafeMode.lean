import TcpProxy.Exception
import TcpProxy.PacketAnalyzer.Plugin

namespace TcpProxy.PacketAnalyzer
open Exception (Process Frame Place fresh ownCode)

-- What the thread of the event loop comes to: an operation on the analyzer, or a
-- packet, for which the plugin's analyze makes the database service reconnect
-- some times and in the end may raise SIGSEGV.
inductive Occasion where
  | operation (event : Event)
  | packet (data : Option Block) (value : UInt64) (reconnects : Nat) (faults : Bool)
deriving DecidableEq, Repr

structure Host where
  world : World
  process : Process Unit

def enters : List (Exception.Event Unit) := [.calls (),.goes (),.goes (),.goes (),.goes ()]

def leaves : List (Exception.Event Unit) := [.returns (),.goes (),.goes ()]

-- try_reconnect. To connect raises nothing.
def tryReconnect : List (Exception.Event Unit) := enters ++ leaves

def analyzes (reconnects : Nat) (faults : Bool) : List (Exception.Event Unit) :=
  (List.replicate reconnects tryReconnect).flatten ++ if faults then [.faults ()] else []

-- analyze_packet, where it calls the plugin. After a fault try_catch goes on
-- behind its setjmp.
def calling (safeMode : Bool) (reconnects : Nat) (faults : Bool) : List (Exception.Event Unit) :=
  if safeMode then enters ++ analyzes reconnects faults ++ if faults then [.goes (),.goes (),.goes ()] else leaves
  else analyzes reconnects faults

def callsPlugin (a : Analyzer) (data : Option Block) : Bool :=
  a.pluginEnable && data.isSome && a.pluggableAnalyzer.isSome

def runPacket (restores : Bool) (h : Host) (data : Option Block) (reconnects : Nat) (faults : Bool) : Process Unit :=
  if callsPlugin h.world.analyzer data then
    Machine.run (Exception.step restores) h.process (calling h.world.analyzer.safeMode reconnects faults)
  else h.process

-- Packets are not analyzed but by the thread itself.
def Host.step (restores : Bool) (h : Host) (occasion : Occasion) : Host :=
  if h.process.fate = .runs then
    match occasion with
    | .operation (.analyze _ _ _) => h
    | .operation event => {h with world := PacketAnalyzer.step h.world event}
    | .packet data value reconnects faults =>
      if (runPacket restores h data reconnects faults).fate = .runs then
        ⟨PacketAnalyzer.step h.world (.analyze data (runPacket restores h data reconnects faults).caught value),
          runPacket restores h data reconnects faults⟩
      else {h with process := runPacket restores h data reconnects faults}
  else h

def Host.new : Host := ⟨World.new,fresh⟩

def Host.fault (h : Host) : Occasion → Option Unit
  | .packet data _ _ true => if callsPlugin h.world.analyzer data then some () else none
  | _ => none

-- Between two occasions nothing of try_catch is left but the signal mask.
structure Settled (restores : Bool) (faults : List Unit) (s : Process Unit) : Prop where
  stack : s.stack () = []
  handler : s.handler = false
  fate : s.fate = .runs
  blocked : s.blocked () = true ↔ restores = false ∧ faults ≠ []

variable {restores : Bool} {s : Process Unit} {frames : List Frame}

theorem update_unit (f : Unit → α) (x : α) : Function.update f () x = fun _ => x := by
  funext u
  cases u
  exact Function.update_self ..

def entered (s : Process Unit) : Process Unit :=
  {s with caught := false,handler := true,jumpBufferEnv := some s.calls,calls := s.calls+1,
          stack := fun _ => ⟨s.calls,.inside⟩ :: s.stack ()}

theorem enters_run (runs : s.fate = .runs) (own : ownCode (s.stack ()) = true) :
    Machine.run (Exception.step restores) s enters = entered s := by
  simp [enters,entered,Machine.run,Exception.step,Exception.act,Exception.tryCatch,Process.put,runs,own,update_unit]

theorem leaves_run (runs : s.fate = .runs) (top : s.stack () = ⟨number,.inside⟩ :: frames) :
    Machine.run (Exception.step restores) s leaves = {s with handler := false,stack := fun _ => frames} := by
  simp [leaves,Machine.run,Exception.step,Exception.act,Exception.tryCatch,Process.put,runs,top,update_unit]

-- The state after some reconnects in code of the thread's own: the first one
-- takes the handler away.
structure Reconnected (s s' : Process Unit) (reconnects : Nat) : Prop where
  stack : s'.stack = s.stack
  blocked : s'.blocked = s.blocked
  fate : s'.fate = .runs
  unused : reconnects = 0 → s' = s
  disarms : 0 < reconnects → s'.handler = false ∧ s'.caught = false

theorem tryReconnect_reconnected (runs : s.fate = .runs) (own : ownCode (s.stack ()) = true) :
    Reconnected s (Machine.run (Exception.step restores) s tryReconnect) 1 := by
  have inside : (entered s).stack () = ⟨s.calls,.inside⟩ :: s.stack () := rfl
  have alive : (entered s).fate = .runs := runs
  rw [tryReconnect,Machine.run_append,enters_run runs own,leaves_run alive inside]
  exact ⟨rfl,rfl,runs,fun never => (by cases never),fun _ => ⟨rfl,rfl⟩⟩

theorem reconnects_reconnected (reconnects : Nat) (runs : s.fate = .runs) (own : ownCode (s.stack ()) = true) :
    Reconnected s (Machine.run (Exception.step restores) s (List.replicate reconnects tryReconnect).flatten) reconnects := by
  induction reconnects generalizing s with
  | zero => exact ⟨rfl,rfl,runs,fun _ => rfl,fun never => absurd never (Nat.lt_irrefl _)⟩
  | succ n ih =>
      rw [List.replicate_succ,List.flatten_cons,Machine.run_append]
      have first := @tryReconnect_reconnected restores s runs own
      have later := ih first.fate (by rw [first.stack]; exact own)
      refine ⟨later.stack.trans first.stack,later.blocked.trans first.blocked,later.fate,fun never => (by cases never),
        fun _ => ?_⟩
      cases n with
      | zero =>
          rw [later.unused rfl]
          exact first.disarms Nat.one_pos
      | succ n => exact later.disarms (Nat.succ_pos n)

theorem fault_killed (runs : s.fate = .runs) (own : ownCode (s.stack ()) = true)
    (unguarded : (s.blocked () || !s.handler) = true) : (Exception.step restores s (.faults ())).fate = .killed := by
  simp [Exception.step,Exception.act,Exception.raise,runs,own,unguarded]

theorem killed_run (past : s.fate = .killed) (events : List (Exception.Event Unit)) :
    (Machine.run (Exception.step restores) s events).fate = .killed := by
  induction events with
  | nil => exact past
  | cons event rest ih =>
      rw [Machine.run_cons]
      have still : Exception.step restores s event = s := by simp [Exception.step,past]
      rw [still]
      exact ih

variable {faults : List Unit} {reconnects : Nat}

theorem fast_fault (settled : Settled restores faults s) :
    (Machine.run (Exception.step restores) s (calling false reconnects true)).fate = .killed := by
  have own : ownCode (s.stack ()) = true := by rw [settled.stack]; rfl
  have before := @reconnects_reconnected restores s reconnects settled.fate own
  have handler : (Machine.run (Exception.step restores) s (List.replicate reconnects tryReconnect).flatten).handler = false := by
    cases reconnects with
    | zero =>
        rw [before.unused rfl]
        exact settled.handler
    | succ n => exact (before.disarms (Nat.succ_pos n)).1
  simp only [calling,analyzes,Bool.false_eq_true,if_false,if_true,Machine.run_append]
  exact fault_killed before.fate (by rw [before.stack]; exact own) (by simp [handler])

theorem fast_settled (settled : Settled restores faults s) :
    Settled restores faults (Machine.run (Exception.step restores) s (calling false reconnects false)) := by
  have own : ownCode (s.stack ()) = true := by rw [settled.stack]; rfl
  have after := @reconnects_reconnected restores s reconnects settled.fate own
  simp only [calling,analyzes,Bool.false_eq_true,if_false,List.append_nil]
  refine ⟨by rw [after.stack]; exact settled.stack,?_,after.fate,by rw [after.blocked]; exact settled.blocked⟩
  cases reconnects with
  | zero =>
      rw [after.unused rfl]
      exact settled.handler
  | succ n => exact (after.disarms (Nat.succ_pos n)).1

theorem safe_inside (settled : Settled restores faults s) :
    ∃ inner, Machine.run (Exception.step restores) s (enters ++ (List.replicate reconnects tryReconnect).flatten) = inner ∧
      inner.stack () = [⟨s.calls,.inside⟩] ∧ inner.fate = .runs ∧ inner.blocked = s.blocked ∧ inner.caught = false ∧
      (reconnects = 0 → inner.handler = true ∧ inner.jumpBufferEnv = some s.calls) ∧ (0 < reconnects → inner.handler = false) := by
  have own : ownCode (s.stack ()) = true := by rw [settled.stack]; rfl
  rw [Machine.run_append,enters_run settled.fate own]
  refine ⟨_,rfl,?_⟩
  have inner := @reconnects_reconnected restores (entered s) reconnects settled.fate rfl
  refine ⟨by rw [inner.stack,entered,settled.stack],inner.fate,inner.blocked,?_,fun zero => ?_,fun more => (inner.disarms more).1⟩
  · cases reconnects with
    | zero =>
        rw [inner.unused rfl]
        rfl
    | succ n => exact (inner.disarms (Nat.succ_pos n)).2
  · rw [inner.unused zero]
    exact ⟨rfl,rfl⟩

theorem safe_settled (settled : Settled restores faults s) :
    Settled restores faults (Machine.run (Exception.step restores) s (calling true reconnects false)) ∧
      (Machine.run (Exception.step restores) s (calling true reconnects false)).caught = false := by
  obtain ⟨inner,same,stack,fate,blocked,caught,_,_⟩ := @safe_inside restores s faults reconnects settled
  simp only [calling,analyzes,if_true,Bool.false_eq_true,if_false,List.append_nil]
  rw [Machine.run_append,same,leaves_run fate stack]
  exact ⟨⟨rfl,rfl,fate,by rw [← settled.blocked]; exact iff_of_eq (congrArg (fun mask => mask () = true) blocked)⟩,caught⟩

theorem caught_run (runs : s.fate = .runs) (top : s.stack () = [⟨number,.inside⟩]) (handler : s.handler = true)
    (env : s.jumpBufferEnv = some number) (unblocked : s.blocked () = false) :
    Machine.run (Exception.step restores) s [.faults (),.goes (),.goes (),.goes ()] =
      {s with caught := true,handler := false,blocked := fun _ => !restores,stack := fun _ => []} := by
  simp [Machine.run,Exception.step,Exception.act,Exception.raise,Exception.exceptionHandler,Exception.unwind,
    Exception.tryCatch,Process.put,ownCode,runs,top,handler,env,unblocked,update_unit]

theorem safe_caught (settled : Settled restores faults s) (first : restores = true ∨ faults = []) :
    Settled restores (faults ++ [()]) (Machine.run (Exception.step restores) s (calling true 0 true)) ∧
      (Machine.run (Exception.step restores) s (calling true 0 true)).caught = true := by
  obtain ⟨inner,same,stack,fate,blocked,_,guarded,_⟩ := @safe_inside restores s faults 0 settled
  obtain ⟨handler,env⟩ := guarded rfl
  have unblocked : inner.blocked () = false := by
    rw [blocked,← Bool.not_eq_true,settled.blocked]
    rcases first with gives | absent
    · simp [gives]
    · simp [absent]
  have parts : calling true 0 true = (enters ++ (List.replicate 0 tryReconnect).flatten) ++
      [.faults (),.goes (),.goes (),.goes ()] := by simp [calling,analyzes]
  rw [parts,Machine.run_append,same,caught_run fate stack handler env unblocked]
  exact ⟨⟨rfl,rfl,fate,by simp⟩,rfl⟩

theorem safe_killed (settled : Settled restores faults s) (late : 0 < reconnects ∨ restores = false ∧ faults ≠ []) :
    (Machine.run (Exception.step restores) s (calling true reconnects true)).fate = .killed := by
  obtain ⟨inner,same,stack,fate,blocked,_,_,unguarded⟩ :=
    @safe_inside restores s faults reconnects settled
  have parts : calling true reconnects true = (enters ++ (List.replicate reconnects tryReconnect).flatten) ++
      [.faults ()] ++ [.goes (),.goes (),.goes ()] := by simp [calling,analyzes]
  have lost : (inner.blocked () || !inner.handler) = true := by
    rcases late with more | before
    · simp [unguarded more]
    · rw [blocked,settled.blocked.mpr before]
      rfl
  rw [parts,Machine.run_append,Machine.run_append,same]
  exact killed_run (fault_killed fate (by rw [stack]; rfl) lost) _

-- What a fault of the plugin has to meet to be outlived.
def Outlived (restores : Bool) (faults : List Unit) (h : Host) (occasion : Occasion) : Prop :=
  ∀ data value reconnects, occasion = .packet data value reconnects true → callsPlugin h.world.analyzer data = true →
    h.world.analyzer.safeMode = true ∧ reconnects = 0 ∧ (restores = true ∨ faults = [])

theorem packet_settled (settled : Settled restores faults h.process) (data : Option Block) (value : UInt64)
    (reconnects : Nat) (raises : Bool) :
    ((runPacket restores h data reconnects raises).fate = .runs ↔
        Outlived restores faults h (.packet data value reconnects raises)) ∧
      ((runPacket restores h data reconnects raises).fate = .runs →
        Settled restores (faults ++ (h.fault (.packet data value reconnects raises)).toList)
          (runPacket restores h data reconnects raises)) ∧
      (callsPlugin h.world.analyzer data = true → h.world.analyzer.safeMode = true →
        (runPacket restores h data reconnects raises).fate = .runs →
          (runPacket restores h data reconnects raises).caught = raises) := by
  unfold runPacket
  cases called : callsPlugin h.world.analyzer data with
  | false =>
      have unseen : (h.fault (.packet data value reconnects raises)).toList = [] := by cases raises <;> simp [Host.fault,called]
      rw [unseen,List.append_nil]
      refine ⟨⟨fun _ other _ _ same calls => ?_,fun _ => settled.fate⟩,fun _ => settled,fun never => (by cases never)⟩
      cases same
      rw [called] at calls
      cases calls
  | true =>
      simp only [if_true]
      cases raises with
      | false =>
          have outlived : Outlived restores faults h (.packet data value reconnects false) :=
            fun _ _ _ same => by cases same
          simp only [Host.fault,Option.toList_none,List.append_nil]
          cases mode : h.world.analyzer.safeMode with
          | false =>
              have after := @fast_settled restores _ faults reconnects settled
              exact ⟨⟨fun _ => outlived,fun _ => after.fate⟩,fun _ => after,fun _ never => (by cases never)⟩
          | true =>
              obtain ⟨after,caught⟩ := @safe_settled restores _ faults reconnects settled
              exact ⟨⟨fun _ => outlived,fun _ => after.fate⟩,fun _ => after,fun _ _ _ => caught⟩
      | true =>
          simp only [Host.fault,called,if_true,Option.toList_some]
          cases mode : h.world.analyzer.safeMode with
          | false =>
              have killed := @fast_fault restores _ faults reconnects settled
              refine ⟨⟨fun alive => ?_,fun outlived => ?_⟩,fun alive => ?_,fun _ never => (by cases never)⟩
              · cases killed.symm.trans alive
              · cases mode.symm.trans (outlived data value reconnects rfl called).1
              · cases killed.symm.trans alive
          | true =>
              by_cases guarded : reconnects = 0 ∧ (restores = true ∨ faults = [])
              · obtain ⟨rfl,first⟩ := guarded
                obtain ⟨after,caught⟩ := safe_caught settled first
                refine ⟨⟨fun _ => ?_,fun _ => after.fate⟩,fun _ => after,fun _ _ _ => caught⟩
                rintro _ _ _ ⟨⟩ _
                exact ⟨mode,rfl,first⟩
              · have late : 0 < reconnects ∨ restores = false ∧ faults ≠ [] := by
                  rcases Nat.eq_zero_or_pos reconnects with zero | more
                  · cases restores with
                    | false => exact .inr ⟨rfl,fun absent => guarded ⟨zero,.inr absent⟩⟩
                    | true => exact absurd ⟨zero,.inl rfl⟩ guarded
                  · exact .inl more
                have killed := safe_killed settled late
                refine ⟨⟨fun alive => ?_,fun outlived => ?_⟩,fun alive => ?_,fun _ _ alive => ?_⟩
                · cases killed.symm.trans alive
                · exact absurd (outlived data value reconnects rfl called).2 guarded
                · cases killed.symm.trans alive
                · cases killed.symm.trans alive

theorem step_past (past : h.process.fate ≠ .runs) (occasion : Occasion) : Host.step restores h occasion = h := by
  simp [Host.step,past]

theorem step_fate (settled : Settled restores faults h.process) (occasion : Occasion) :
    (Host.step restores h occasion).process.fate = .runs ↔ Outlived restores faults h occasion := by
  have runs := settled.fate
  cases occasion with
  | operation event =>
      have nothing : Outlived restores faults h (.operation event) := fun _ _ _ same => by cases same
      refine ⟨fun _ => nothing,fun _ => ?_⟩
      cases event <;> simp [Host.step,runs]
  | packet data value reconnects raises =>
      refine Iff.trans ?_ (packet_settled settled data value reconnects raises).1
      simp only [Host.step,runs,if_true]
      split <;> rfl

theorem step_settled (settled : Settled restores faults h.process) (occasion : Occasion)
    (alive : (Host.step restores h occasion).process.fate = .runs) :
    Settled restores (faults ++ (h.fault occasion).toList) (Host.step restores h occasion).process := by
  have runs := settled.fate
  cases occasion with
  | operation event =>
      simp only [Host.fault,Option.toList_none,List.append_nil]
      cases event <;> simpa [Host.step,runs] using settled
  | packet data value reconnects raises =>
      have goes := (packet_settled settled data value reconnects raises).2.1
      simp only [Host.step,runs,if_true] at alive ⊢
      split at alive
      · next lives =>
          rw [if_pos lives]
          exact goes lives
      · next past => exact absurd alive past

theorem run_settled (occasions : List Occasion)
    (alive : (Machine.run (Host.step restores) .new occasions).process.fate = .runs) :
    Settled restores (Machine.trace (Host.step restores) Host.fault .new occasions)
      (Machine.run (Host.step restores) .new occasions).process := by
  induction occasions using List.reverseRecOn with
  | nil => exact ⟨rfl,rfl,rfl,by simp [Machine.trace,Host.new,fresh]⟩
  | append_singleton earlier occasion ih =>
      rw [Machine.run_concat] at alive ⊢
      have runs : (Machine.run (Host.step restores) .new earlier).process.fate = .runs := by
        by_contra past
        rw [step_past past] at alive
        exact past alive
      rw [Machine.trace_concat]
      exact step_settled (ih runs) occasion alive

-- What safe mode is worth: the proxy outlives a fault of the plugin in safe mode
-- that comes before any reconnect within the same call, and where longjmp does
-- not give the signal mask back only the first one. What is outlived takes the
-- plugin out of use.
structure Contains (restores : Bool) (occasions : List Occasion) : Prop where
  survives : (Machine.run (Host.step restores) .new occasions).process.fate = .runs ↔
    Machine.Throughout (fun earlier occasion =>
      Outlived restores (Machine.trace (Host.step restores) Host.fault .new earlier)
        (Machine.run (Host.step restores) .new earlier) occasion) occasions
  disables : Machine.Throughout (fun earlier occasion => ∀ data value reconnects,
    occasion = .packet data value reconnects true →
    callsPlugin (Machine.run (Host.step restores) .new earlier).world.analyzer data = true →
    (Machine.run (Host.step restores) .new (earlier ++ [occasion])).process.fate = .runs →
      (Machine.run (Host.step restores) .new (earlier ++ [occasion])).world.analyzer.pluginEnable = false) occasions

theorem analyzed_disabled (w : World) (called : callsPlugin w.analyzer data = true) (safe : w.analyzer.safeMode = true)
    (value : UInt64) : (PacketAnalyzer.step w (.analyze data true value)).analyzer.pluginEnable = false := by
  simp only [callsPlugin,Bool.and_eq_true,Option.isSome_iff_exists] at called
  obtain ⟨⟨enabled,block,rfl⟩,load,plugin⟩ := called
  simp [PacketAnalyzer.step,effect,analyzePacket,enabled,plugin,safe]

theorem safe_mode_contains (restores : Bool) (occasions : List Occasion) : Contains restores occasions := by
  refine ⟨?_,?_⟩
  · refine @Machine.throughout_iff _ _ _ _ (fun h : Host => h.process.fate = .runs) _ rfl occasions
      fun earlier occasion later split => ?_
    by_cases runs : (Machine.run (Host.step restores) .new earlier).process.fate = .runs
    · rw [step_fate (run_settled earlier runs) occasion]
      exact (and_iff_right runs).symm
    · rw [step_past runs]
      exact ⟨fun alive => absurd alive runs,fun both => absurd both.1 runs⟩
  · rintro earlier _ later split data value reconnects rfl called alive
    rw [Machine.run_concat] at alive ⊢
    have runs : (Machine.run (Host.step restores) .new earlier).process.fate = .runs := by
      by_contra past
      rw [step_past past] at alive
      exact past alive
    have settled := run_settled earlier runs
    have safe := ((step_fate settled _).mp alive data value reconnects rfl called).1
    obtain ⟨_,_,caught⟩ := packet_settled settled data value reconnects true
    simp only [Host.step,runs,if_true] at alive ⊢
    split at alive
    · next lives =>
        rw [if_pos lives,caught called safe lives]
        exact analyzed_disabled _ called safe value
    · next past => exact absurd alive past

end TcpProxy.PacketAnalyzer
