import TcpProxy.CommandLine.Agreement
import TcpProxy.CommandLine.Handlers

namespace TcpProxy.CommandLine
open Logger Proxying
open Sysconf (literal number isDigit)

variable {σ α : Type}

def showLogin : List Text := [literal "tcp-proxy version 1.1.0\n\n"]

def returned (args : Option Text) : CommandFunction → Int
  | .cmdHistory | .cmdClearHistory => if args.isSome then 1 else 2
  | .cmdLogout | .cmdShutdown => 0
  | _ => 1

-- The line is one that history_expand has left as it was.
def cmdlineInterface (line : Text) : Entered :=
  if line.head? = some 59 then .stays
  else
    match executeLine commands 0 line with
    | .sends line => .sends line
    | .calls func args => if returned args func = 0 then .leaves else .stays
    | .prints _ _ | .nothing => .stays

inductive Change where
  | logLevel (priority : LogPriority)
  | proxying (event : Proxying.Event)
  | analyzing (event : PacketAnalyzer.Event)

def Change.apply (ctx : Context σ α) (d : Daemon σ α) : Change → Daemon σ α
  | .logLevel priority => {d with priority := priority}
  | .proxying event => {d with proxy := Proxying.step ctx d.proxy event}
  | .analyzing event => {d with analyzer := PacketAnalyzer.step d.analyzer event}

def tcpProxy (ctx : Context σ α) : Program (Daemon σ α) Moment Change where
  enter := cmdlineInterface
  greet := showLogin
  execute := fun moment d line => executed ctx moment d line
  other := fun change d => change.apply ctx d
  terminate := Daemon.terminate

-- init_cmdline_interface (65536)
def bpSize : Nat := 65536

theorem digits_length (small : n < 10^10) : (digits n).length ≤ 10 := by
  rw [digits,List.length_map]
  exact (Nat.length_toDigits_le_iff (by decide) (by decide)).mpr small

theorem decimal_length (n : Int) : (decimal n).length ≤ 11 := by
  have high := toInt32_lt n
  have low := le_toInt32 n
  have small : (toInt32 n).natAbs < 10^10 := by omega
  have short := digits_length small
  rw [decimal]
  split
  · rw [List.length_cons]
    omega
  · omega

theorem twoDigits_length (n : Int) : (twoDigits n).length ≤ 12 := by
  have short := decimal_length n
  rw [twoDigits]
  split
  · rw [List.length_cons]
    omega
  · omega

theorem printf_unknown (argument : Option Text) : printf "%% %s: no such command\n" argument =
    literal "% " ++ argument.getD (literal "(null)") ++ literal ": no such command\n" := by
  rw [List.append_assoc]
  rfl

theorem printf_incomplete (argument : Option Text) : printf "%% %s: Incomplete command.\n" argument =
    literal "% " ++ argument.getD (literal "(null)") ++ literal ": Incomplete command.\n" := by
  rw [List.append_assoc]
  rfl

-- What a function prints is one text, or none, hardly longer than what it was given.
def Brief (room : Nat) (effect : Effect σ α) : Prop := effect.2.1 = [] ∨ ∃ text, effect.2.1 = [text] ∧ text.length ≤ room+100

theorem clock_length (a b c : Int) : (twoDigits a ++ 58 :: twoDigits b ++ 58 :: twoDigits c).length ≤ 38 := by
  have one := twoDigits_length a
  have two := twoDigits_length b
  have three := twoDigits_length c
  simp only [List.length_append,List.length_cons]
  omega

theorem brief_one {d : Daemon σ α} (short : text.length ≤ room+100) : Brief room (d,[text],retval) := .inr ⟨text,rfl,short⟩

theorem brief_fixed {d : Daemon σ α} (room : Nat) (short : text.length ≤ 100) : Brief room (d,[text],retval) :=
  brief_one (Nat.le_trans short (Nat.le_add_left 100 room))

theorem channelMessage_length (channel current : Int) : (channelMessage channel current).length ≤ 100 := by
  have short := decimal_length channel
  have width : (literal "default channel set to ").length = 23 := rfl
  have failed : (literal "failed to set default channel to ").length = 33 := rfl
  rw [channelMessage]
  split <;> simp only [List.length_append,List.length_singleton] <;> omega

theorem priorityName_length : ∀ p : LogPriority, (literal "Logging level: " ++ literal (loggerGetPriorityName p) ++ [10]).length ≤ 100 := by
  intro p
  cases p <;> decide

theorem cmdHistory_brief (d : Daemon σ α) (args : Option Text) (given : ∀ text, args = some text → text.length ≤ room) :
    Brief room (cmdHistory d args) := by
  cases args with
  | none => exact .inl rfl
  | some text =>
      have bound := given text rfl
      have before : (literal "% Invalid input detected: \"").length = 27 := rfl
      have behind : (literal "\"\n").length = 2 := rfl
      refine brief_one ?_
      simp only [List.length_append]
      omega

theorem cmdUptime_brief (moment : Moment) (d : Daemon σ α) (room : Nat) : Brief room (cmdUptime moment d) := by
  have days := decimal_length (toInt32 (moment.duration.tdiv 86400))
  have clock := clock_length ((moment.duration.tmod 86400).tdiv 3600) (((moment.duration.tmod 86400).tmod 3600).tdiv 60)
    ((moment.duration.tmod 86400).tmod 60)
  have long : (literal "Uptime: ").length = 8 := rfl
  have short : (literal "Uptime:  ").length = 9 := rfl
  have unit : (literal " day(s), ").length = 9 := rfl
  refine brief_one ?_
  split <;> simp only [List.length_append,List.length_singleton] at clock ⊢ <;> omega

theorem cmdFallBackChannel_brief (ctx : Context σ α) (d : Daemon σ α) (args : Option Text) (room : Nat) :
    Brief room (cmdFallBackChannel ctx d args) := by
  cases args with
  | none =>
      have current := decimal_length d.proxy.onFailedChannel
      have usage : (literal "usage: set fall back channel <channel> (current = ").length = 50 := rfl
      have ends : (literal ")\n").length = 2 := rfl
      refine brief_one ?_
      simp only [List.length_append]
      omega
  | some text => exact brief_fixed room (channelMessage_length _ _)

theorem cmdDefaultChannel_brief (ctx : Context σ α) (d : Daemon σ α) (args : Option Text) (room : Nat) :
    Brief room (cmdDefaultChannel ctx d args) := by
  cases args with
  | none =>
      have current := decimal_length d.proxy.defaultServer
      have usage : (literal "usage: set default channel <channel> (current = ").length = 48 := rfl
      have ends : (literal ")\n").length = 2 := rfl
      refine brief_one ?_
      simp only [List.length_append]
      omega
  | some text => exact brief_fixed room (channelMessage_length _ _)

theorem callFunction_brief (ctx : Context σ α) (moment : Moment) (d : Daemon σ α) (args : Option Text)
    (given : ∀ text, args = some text → text.length ≤ room) (func : CommandFunction) :
    Brief room (callFunction ctx moment d args func) := by
  cases func with
  | cmdHistory => exact cmdHistory_brief d args given
  | cmdClearHistory => exact cmdHistory_brief d args given
  | cmdLogout => exact brief_fixed room (by decide)
  | cmdShutdown => exact brief_fixed room (by decide)
  | cmdDate => exact brief_one (by have bound := moment.dateLength; omega)
  | cmdEcho =>
      refine brief_one ?_
      cases args with
      | none => simp
      | some text =>
          have bound := given text rfl
          simp only [Option.getD_some,List.length_append,List.length_singleton]
          omega
  | cmdUptime => exact cmdUptime_brief moment d room
  | cmdLoggingTrace => exact brief_fixed room (priorityName_length _)
  | cmdLoggingDebug => exact brief_fixed room (priorityName_length _)
  | cmdLoggingInfo => exact brief_fixed room (priorityName_length _)
  | cmdLoggingNotice => exact brief_fixed room (priorityName_length _)
  | cmdLoggingWarning => exact brief_fixed room (priorityName_length _)
  | cmdLoggingError => exact brief_fixed room (priorityName_length _)
  | cmdFallBackChannel => exact cmdFallBackChannel_brief ctx d args room
  | cmdDefaultChannel => exact cmdDefaultChannel_brief ctx d args room
  | cmdLoadModule => refine brief_fixed room ?_; split <;> decide
  | cmdUnloadModule => refine brief_fixed room ?_; split <;> decide
  | cmdEnablePacketAnalyzer => refine brief_fixed room ?_; split <;> decide
  | cmdDisablePacketAnalyzer => refine brief_fixed room ?_; split <;> decide
  | cmdPacketAnalyzerModeSafe => exact brief_fixed room (by decide)
  | cmdPacketAnalyzerModeFast => exact brief_fixed room (by decide)
  | cmdPacketAnalyzerMode => refine brief_fixed room ?_; cases d.analyzer.analyzer.safeMode <;> decide

theorem restOf_length (line : Text) (n : Nat) (rest : Text) (parts : restOf line n = some rest) : rest.length ≤ line.length := by
  obtain ⟨i,_,rfl⟩ := Option.map_eq_some_iff.mp parts
  rw [List.length_drop]
  omega

theorem nthword_length (line : Text) : ((nthword line 1).getD (literal "(null)")).length ≤ 63 := by
  rw [nthword_spec line (Nat.le_refl 1),scannedWords,List.getElem?_map]
  cases (words (covered line))[1-1]? with
  | none => decide
  | some word => exact List.length_take_le 63 word

theorem executed_brief (ctx : Context σ α) (moment : Moment) (d : Daemon σ α) (line : Text) :
    Brief line.length (executed ctx moment d line) := by
  unfold executed executeLine
  cases found : findMatchAsPossible line commands with
  | none =>
      have word := nthword_length line
      have before : (literal "% ").length = 2 := rfl
      have behind : (literal ": no such command\n").length = 18 := rfl
      refine brief_one ?_
      rw [printf_unknown,List.length_append,List.length_append]
      omega
  | some pair =>
      obtain ⟨command,length⟩ := pair
      cases has : funcOf command with
      | none =>
          have before : (literal "% ").length = 2 := rfl
          have behind : (literal ": Incomplete command.\n").length = 22 := rfl
          simp only [has]
          refine brief_one ?_
          rw [printf_incomplete,List.length_append,List.length_append,Option.getD_some]
          omega
      | some func =>
          have call := callFunction_brief ctx moment d (restOf line (length+1)) (restOf_length line (length+1)) func
          have alone : ¬ (0 : Int) ≤ -1 := by decide
          by_cases own : isRmtOf command = false
          · simp only [has,if_pos own]
            exact call
          · simp only [has,if_neg own,if_neg alone]
            exact call

theorem brief_index (brief : Brief room (effect : Effect σ α)) : (printAll ⟨bpSize,[]⟩ effect.2.1).bpIndex ≤ room+100 := by
  rcases brief with absent | ⟨text,one,short⟩
  · rw [absent]
    exact Nat.zero_le _
  · have printed : printAll ⟨bpSize,[]⟩ [text] = ⟨bpSize,text⟩ := rfl
    rw [one,printed]
    exact short

theorem callFunction_returned (ctx : Context σ α) (moment : Moment) (d : Daemon σ α) (args : Option Text)
    (func : CommandFunction) : (callFunction ctx moment d args func).2.2 = returned args func := by
  cases func <;> cases args <;> rfl

theorem callFunction_terminate (ctx : Context σ α) (moment : Moment) (d : Daemon σ α) (args : Option Text)
    (func : CommandFunction) :
    (callFunction ctx moment d args func).1.terminate = if func = .cmdShutdown then true else d.terminate := by
  cases func <;> cases args <;> rfl

theorem executed_cases (ctx : Context σ α) (moment : Moment) (d : Daemon σ α) (line : Text) :
    (∃ func args, executed ctx moment d line = callFunction ctx moment d args func) ∨
      ((executed ctx moment d line).1 = d ∧ (executed ctx moment d line).2.2 = 1) := by
  unfold executed
  split
  · exact .inr ⟨rfl,rfl⟩
  · next func argument _ => exact .inl ⟨func,argument,rfl⟩
  · exact .inr ⟨rfl,rfl⟩
  · exact .inr ⟨rfl,rfl⟩

theorem returned_range (args : Option Text) (func : CommandFunction) : 0 ≤ returned args func ∧ returned args func ≤ 2 := by
  cases func <;> cases args <;> simp [returned]

theorem executeLine_sends {Func : Type} {root : CommandTree Func} (outcome : executeLine root svcFd typed = .sends line) :
    line = typed ∧ line ≠ [] := by
  unfold executeLine at outcome
  cases found : findMatchAsPossible typed root with
  | none =>
      rw [found] at outcome
      cases outcome
  | some pair =>
      have word : typed ≠ [] := by
        rintro rfl
        cases found
      rw [found] at outcome
      dsimp only at outcome
      split at outcome
      · cases outcome
      · split at outcome
        · cases outcome
        · split at outcome
          · cases outcome
            exact ⟨rfl,word⟩
          · cases outcome

theorem cmdlineInterface_sends (sends : cmdlineInterface typed = .sends line) : line = typed ∧ line ≠ [] := by
  unfold cmdlineInterface at sends
  split at sends
  · cases sends
  · split at sends
    · next outcome =>
        cases sends
        exact executeLine_sends outcome
    · split at sends <;> cases sends
    · cases sends
    · cases sends

theorem tcpProxy_sound (ctx : Context σ α) : Sound (tcpProxy ctx) bpSize := by
  have banner : (printAll ⟨bpSize,[]⟩ showLogin).bpIndex < 2^31 := by decide
  refine ⟨fun typed line sends => (cmdlineInterface_sends sends).2,banner,?_,?_,?_,?_⟩
  · intro moment d line short
    have index := brief_index (executed_brief ctx moment d line)
    change (printAll ⟨bpSize,[]⟩ (executed ctx moment d line).2.1).bpIndex < 2^31
    omega
  · intro moment d line
    change -2^31 ≤ (executed ctx moment d line).2.2 ∧ (executed ctx moment d line).2.2 < 2^31
    rcases executed_cases ctx moment d line with ⟨func,args,call⟩ | ⟨_,one⟩
    · have range := returned_range args func
      rw [call,callFunction_returned]
      omega
    · rw [one]
      decide
  · intro moment d line lives ends
    change (executed ctx moment d line).2.2 = 0
    change (executed ctx moment d line).1.terminate = true at ends
    change d.terminate = false at lives
    rcases executed_cases ctx moment d line with ⟨func,args,call⟩ | ⟨same,_⟩
    · rw [call,callFunction_terminate,lives] at ends
      by_cases shutdown : func = .cmdShutdown
      · rw [call,callFunction_returned,shutdown]
        rfl
      · rw [if_neg shutdown] at ends
        cases ends
    · rw [same,lives] at ends
      cases ends
  · intro change d
    cases change <;> rfl

theorem typed_short (ctx : Context σ α) (events : List (Event Moment Change))
    (short : ∀ typed, .enters typed ∈ events → typed.length ≤ 4095) : ∀ event ∈ events, Short (tcpProxy ctx) event := by
  intro event member
  cases event with
  | enters typed =>
      intro line sends
      rw [(cmdlineInterface_sends sends).1]
      exact short typed member
  | _ => trivial

def freshDaemon : Daemon Unit Unit := ⟨false,.notice,freshProxy,.new⟩

def someMoment : Moment := ⟨literal "now",by decide,0,true,false,true,true⟩

def askDate : List (Event Moment Change) :=
  [.connects 7,.serverReads someMoment,.serverWrites 0,.clientReads,.serverWrites 30,.clientReads,.enters (literal "date"),
    .serverReads someMoment,.serverReads someMoment,.serverWrites 0,.serverWrites 0,.serverWrites 9,.clientReads,.clientReads,
    .clientReads,.enters (literal "exit")]

-- Whatever bytes a client writes: what is printed about them stays inside the
-- buffer, and all of it is sent.
structure RepliesFit (ctx : Context σ α) (moment : Moment) (d : Daemon σ α) (received : Text) : Prop where
  fit : AllFit ⟨bpSize,[]⟩ (executed ctx moment d (received.take 4095)).2.1
  all : (printAll ⟨bpSize,[]⟩ (executed ctx moment d (received.take 4095)).2.1).bpBuffer =
    (executed ctx moment d (received.take 4095)).2.1.flatten

theorem replies_fit (ctx : Context σ α) (moment : Moment) (d : Daemon σ α) (received : Text) :
    RepliesFit ctx moment d received := by
  have brief := executed_brief ctx moment d (received.take 4095)
  have short : (received.take 4095).length ≤ 4095 := List.length_take_le 4095 received
  have index := brief_index brief
  refine ⟨(allFit_iff _ (by decide)).mpr ?_,?_⟩
  · change _ < 65536
    omega
  · rcases brief with absent | ⟨text,one,_⟩
    · rw [absent]
      rfl
    · rw [one,List.flatten_singleton]
      rfl

end TcpProxy.CommandLine
