import TcpProxy.CommandLine.Remote

namespace TcpProxy.CommandLine
open Logger Proxying

variable {σ α : Type}

def functionChanges (moment : Moment) (args : Option Text) : CommandFunction → List Change
  | .cmdLoggingTrace => [.logLevel .trace]
  | .cmdLoggingDebug => [.logLevel .debug]
  | .cmdLoggingInfo => [.logLevel .info]
  | .cmdLoggingNotice => [.logLevel .notice]
  | .cmdLoggingWarning => [.logLevel .notice]
  | .cmdLoggingError => [.logLevel .error]
  | .cmdFallBackChannel => (args.map fun text => Change.proxying (.setFallbackChannel (atoi text))).toList
  | .cmdDefaultChannel => (args.map fun text => Change.proxying (.setDefaultChannel (atoi text))).toList
  | .cmdLoadModule => [.analyzing (loadEvent moment)]
  | .cmdUnloadModule => [.analyzing (.unload moment.closed)]
  | .cmdEnablePacketAnalyzer => [.analyzing (.setEnable true)]
  | .cmdDisablePacketAnalyzer => [.analyzing (.setEnable false)]
  | .cmdPacketAnalyzerModeSafe => [.analyzing (.setSafeMode true)]
  | .cmdPacketAnalyzerModeFast => [.analyzing (.setSafeMode false)]
  | _ => []

def called (line : Text) : Option (CommandFunction × Option Text) :=
  match executeLine commands (-1) line with
  | .calls func args => some (func,args)
  | _ => none

def changes : Input Moment Change → List Change
  | .other change => [change]
  | .greeting => []
  | .command moment line => (called line).elim [] fun call => functionChanges moment call.2 call.1

def Input.shutsDown : Input Moment Change → Bool
  | .other _ | .greeting => false
  | .command _ line => (called line).any fun call => call.1 == .cmdShutdown

def Change.proxyEvent : Change → Option Proxying.Event
  | .proxying event => some event
  | _ => none

def Change.analyzerEvent : Change → Option PacketAnalyzer.Event
  | .analyzing event => some event
  | _ => none

def Change.level : Change → Option LogPriority
  | .logLevel priority => some priority
  | _ => none

-- The parts of the daemon see nothing of the commands but steps of their own.
structure Operates (ctx : Context σ α) (d : Daemon σ α) (inputs : List (Input Moment Change)) : Prop where
  proxy : (Machine.run (act (tcpProxy ctx)) d inputs).proxy =
    Machine.run (Proxying.step ctx) d.proxy ((inputs.flatMap changes).filterMap Change.proxyEvent)
  analyzer : (Machine.run (act (tcpProxy ctx)) d inputs).analyzer =
    Machine.run PacketAnalyzer.step d.analyzer ((inputs.flatMap changes).filterMap Change.analyzerEvent)
  priority : (Machine.run (act (tcpProxy ctx)) d inputs).priority =
    ((inputs.flatMap changes).filterMap Change.level).getLast?.getD d.priority
  terminate : (Machine.run (act (tcpProxy ctx)) d inputs).terminate = (d.terminate || inputs.any Input.shutsDown)

def applyAll (ctx : Context σ α) (d : Daemon σ α) (steps : List Change) : Daemon σ α :=
  Machine.run (fun d change => change.apply ctx d) d steps

theorem callFunction_changes (ctx : Context σ α) (moment : Moment) (d : Daemon σ α) (args : Option Text)
    (func : CommandFunction) :
    (callFunction ctx moment d args func).1 =
      {applyAll ctx d (functionChanges moment args func) with
        terminate := d.terminate || func == .cmdShutdown} := by
  have terminate := callFunction_terminate ctx moment d args func
  have ends : (callFunction ctx moment d args func).1.terminate = (d.terminate || func == .cmdShutdown) := by
    rw [terminate]
    by_cases shutdown : func = .cmdShutdown
    · simp [shutdown]
    · simp [shutdown]
  rw [← ends]
  cases func <;> cases args <;> rfl

theorem act_changes (ctx : Context σ α) (d : Daemon σ α) (input : Input Moment Change) :
    act (tcpProxy ctx) d input = {applyAll ctx d (changes input) with terminate := d.terminate || input.shutsDown} := by
  have same : ∀ d' : Daemon σ α, d'.terminate = d.terminate → d' = {d' with terminate := d.terminate || false} := by
    intro d' own
    rw [Bool.or_false,← own]
  cases input with
  | other change => exact same _ (by cases change <;> rfl)
  | greeting => exact same d rfl
  | command moment line =>
      change (executed ctx moment d line).1 = _
      cases outcome : executeLine commands (-1) line with
      | calls func args =>
          simp only [executed,changes,Input.shutsDown,called,outcome]
          exact callFunction_changes ctx moment d args func
      | prints format argument => simp only [executed,changes,Input.shutsDown,called,outcome,Option.elim_none,Option.any_none,Bool.or_false]; rfl
      | sends line => simp only [executed,changes,Input.shutsDown,called,outcome,Option.elim_none,Option.any_none,Bool.or_false]; rfl
      | nothing => simp only [executed,changes,Input.shutsDown,called,outcome,Option.elim_none,Option.any_none,Bool.or_false]; rfl

theorem applyAll_proxy (ctx : Context σ α) (d : Daemon σ α) (steps : List Change) :
    (applyAll ctx d steps).proxy = Machine.run (Proxying.step ctx) d.proxy (steps.filterMap Change.proxyEvent) := by
  induction steps generalizing d with
  | nil => rfl
  | cons change rest ih => cases change <;> exact ih _

theorem applyAll_analyzer (ctx : Context σ α) (d : Daemon σ α) (steps : List Change) :
    (applyAll ctx d steps).analyzer = Machine.run PacketAnalyzer.step d.analyzer (steps.filterMap Change.analyzerEvent) := by
  induction steps generalizing d with
  | nil => rfl
  | cons change rest ih => cases change <;> exact ih _

theorem applyAll_priority (ctx : Context σ α) (d : Daemon σ α) (steps : List Change) :
    (applyAll ctx d steps).priority = (steps.filterMap Change.level).getLast?.getD d.priority := by
  induction steps generalizing d with
  | nil => rfl
  | cons change rest ih =>
      cases change with
      | logLevel priority =>
          refine (ih _).trans ?_
          rw [List.filterMap_cons,Change.level,List.getLast?_cons]
          rfl
      | proxying event => exact ih _
      | analyzing event => exact ih _

theorem operates (ctx : Context σ α) (d : Daemon σ α) (inputs : List (Input Moment Change)) : Operates ctx d inputs := by
  induction inputs generalizing d with
  | nil => exact ⟨rfl,rfl,rfl,(Bool.or_false _).symm⟩
  | cons input rest ih =>
      have further := ih (act (tcpProxy ctx) d input)
      have first := act_changes ctx d input
      refine ⟨further.proxy.trans ?_,further.analyzer.trans ?_,further.priority.trans ?_,further.terminate.trans ?_⟩
      · rw [List.flatMap_cons,List.filterMap_append,Machine.run_append,first]
        exact congrArg (Machine.run _ · _) (applyAll_proxy ctx d (changes input))
      · rw [List.flatMap_cons,List.filterMap_append,Machine.run_append,first]
        exact congrArg (Machine.run _ · _) (applyAll_analyzer ctx d (changes input))
      · rw [List.flatMap_cons,List.filterMap_append,List.getLast?_append,first]
        have own := applyAll_priority ctx d (changes input)
        cases (List.filterMap Change.level (rest.flatMap changes)).getLast? with
        | none => exact own
        | some last => rfl
      · rw [List.any_cons,first,Bool.or_assoc]

end TcpProxy.CommandLine
