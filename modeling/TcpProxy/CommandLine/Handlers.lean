import TcpProxy.CommandLine.Registration
import TcpProxy.CommandLine.Output
import TcpProxy.Logger
import TcpProxy.PacketAnalyzer.Plugin
import TcpProxy.Proxying.Relaying
import TcpProxy.Sysconf.Entries

namespace TcpProxy.CommandLine
open Logger Proxying
open Sysconf (literal number isDigit)

inductive CommandFunction where
  | cmdHistory
  | cmdClearHistory
  | cmdLogout
  | cmdShutdown
  | cmdDate
  | cmdEcho
  | cmdUptime
  | cmdLoggingTrace
  | cmdLoggingDebug
  | cmdLoggingInfo
  | cmdLoggingNotice
  | cmdLoggingWarning
  | cmdLoggingError
  | cmdFallBackChannel
  | cmdDefaultChannel
  | cmdLoadModule
  | cmdUnloadModule
  | cmdEnablePacketAnalyzer
  | cmdDisablePacketAnalyzer
  | cmdPacketAnalyzerModeSafe
  | cmdPacketAnalyzerModeFast
  | cmdPacketAnalyzerMode
deriving DecidableEq, Repr

-- What a function learns from outside: ctime, the seconds since the start, and
-- how dlopen, dlerror, dlsym and dlclose end.
structure Moment where
  date : Text
  dateLength : date.length < 80
  duration : Int
  opened : Bool
  stale : Bool
  found : Bool
  closed : Bool

-- What the functions change in the process that they are called in.
structure Daemon (σ α : Type) where
  terminate : Bool
  priority : LogPriority
  proxy : Proxy σ α
  analyzer : PacketAnalyzer.World

def digits (n : Nat) : Text := (Nat.toDigits 10 n).map fun c => UInt8.ofNat c.toNat

def decimal (n : Int) : Text :=
  if toInt32 n < 0 then 45 :: digits (toInt32 n).natAbs else digits (toInt32 n).natAbs

def twoDigits (n : Int) : Text := if 0 ≤ n ∧ n < 10 then 48 :: decimal n else decimal n

def isSpace (c : UInt8) : Bool := c == 32 || (9 ≤ c && c ≤ 13)

-- (int) strtol: too large or too small a number is LONG_MAX or LONG_MIN.
def atoi (text : Text) : Int :=
  match text.dropWhile isSpace with
  | 45 :: rest => toInt32 (max (-(number (rest.takeWhile isDigit) : Int)) (-2^63))
  | 43 :: rest => toInt32 (min (number (rest.takeWhile isDigit)) (2^63-1))
  | text => toInt32 (min (number (text.takeWhile isDigit)) (2^63-1))

-- A format with at most one argument, a string. glibc prints NULL like this.
def printfLoop (argument : Text) : List Char → Text
  | '%' :: '%' :: rest => 37 :: printfLoop argument rest
  | '%' :: 's' :: rest => argument ++ printfLoop argument rest
  | c :: rest => UInt8.ofNat c.toNat :: printfLoop argument rest
  | [] => []

def printf (format : String) (argument : Option Text) : Text := printfLoop (argument.getD (literal "(null)")) format.toList

variable {σ α : Type}

abbrev Effect (σ α : Type) := Daemon σ α × List Text × Int

def cmdSetLogLevel (d : Daemon σ α) (priority : LogPriority) : Effect σ α :=
  ({d with priority := priority},[literal "Logging level: " ++ literal (loggerGetPriorityName priority) ++ [10]],1)

-- Nothing is ever added to the history of a process that reads no lines.
def cmdHistory (d : Daemon σ α) (cmd : Option Text) : Effect σ α :=
  match cmd with
  | some text => (d,[literal "% Invalid input detected: \"" ++ text ++ literal "\"\n"],1)
  | none => (d,[],2)

def cmdClearHistory (d : Daemon σ α) (cmd : Option Text) : Effect σ α := cmdHistory d cmd

def cmdUptime (moment : Moment) (d : Daemon σ α) : Effect σ α :=
  -- whole seconds, fewer than 2^52: the quotient of the doubles truncates alike
  let day := toInt32 (moment.duration.tdiv 86400)
  let seconds := moment.duration.tmod 86400
  let clock := twoDigits (seconds.tdiv 3600) ++ 58 :: twoDigits ((seconds.tmod 3600).tdiv 60) ++ 58 :: twoDigits (seconds.tmod 60)
  (d,[if 0 < day then literal "Uptime: " ++ decimal day ++ literal " day(s), " ++ clock ++ [10]
    else literal "Uptime:  " ++ clock ++ [10]],1)

-- Both commands of a channel speak of the default channel when one is given.
def channelMessage (channel current : Int) : Text :=
  if current = channel then literal "default channel set to " ++ decimal channel ++ [10]
  else literal "failed to set default channel to " ++ decimal channel ++ [10]

def cmdFallBackChannel (ctx : Context σ α) (d : Daemon σ α) (args : Option Text) : Effect σ α :=
  match args with
  | none => (d,[literal "usage: set fall back channel <channel> (current = " ++ decimal d.proxy.onFailedChannel ++
      literal ")\n"],1)
  | some text =>
    let proxy := setFallbackChannel ctx d.proxy (atoi text)
    ({d with proxy := proxy},[channelMessage (atoi text) proxy.onFailedChannel],1)

def cmdDefaultChannel (ctx : Context σ α) (d : Daemon σ α) (args : Option Text) : Effect σ α :=
  match args with
  | none => (d,[literal "usage: set default channel <channel> (current = " ++ decimal d.proxy.defaultServer ++
      literal ")\n"],1)
  | some text =>
    let proxy := setDefaultChannel ctx d.proxy (atoi text)
    ({d with proxy := proxy},[channelMessage (atoi text) proxy.defaultServer],1)

-- Without a name the configured one is taken, which has a default.
def loadEvent (moment : Moment) : PacketAnalyzer.Event :=
  .loadPacketAnalyzer false true 0 0 moment.opened moment.stale moment.found

def cmdLoadModule (moment : Moment) (d : Daemon σ α) : Effect σ α :=
  let answer := (PacketAnalyzer.loadPacketAnalyzer d.analyzer.analyzer false true 0 0 d.analyzer.loads
    moment.opened moment.stale moment.found).1
  ({d with analyzer := PacketAnalyzer.step d.analyzer (loadEvent moment)},
    [match answer with
      | 0 => literal "module loaded successfully\n"
      | 1 => literal "module not load-on-boot\n"
      | 2 => literal "failed to loading module\n"
      | 3 => literal "module file name required\n"
      | _ => literal "unknow error\n"],1)

def cmdUnloadModule (moment : Moment) (d : Daemon σ α) : Effect σ α :=
  let answer := (PacketAnalyzer.moduleUnload d.analyzer.analyzer moment.closed).1
  ({d with analyzer := PacketAnalyzer.step d.analyzer (.unload moment.closed)},
    [if answer then literal "module unload successfully\n" else literal "failed to unload module unload module\n"],1)

def cmdPacketAnalyzerSetMode (d : Daemon σ α) (safe : Bool) : Effect σ α :=
  ({d with analyzer := PacketAnalyzer.step d.analyzer (.setSafeMode safe)},
    [if safe then literal "packet analyzer mode: safe\n" else literal "packet analyzer mode: fast\n"],1)

def cmdPacketAnalyzerMode (d : Daemon σ α) : Effect σ α :=
  (d,[literal "packet analyzer mode: " ++ literal (if d.analyzer.analyzer.safeMode then "safe" else "fast") ++ [10]],1)

def cmdEnablePacketAnalyzer (d : Daemon σ α) : Effect σ α :=
  ({d with analyzer := PacketAnalyzer.step d.analyzer (.setEnable true)},
    [if (PacketAnalyzer.setEnable d.analyzer.analyzer true).1 then literal "packet analyzer: enabled\n"
      else literal "packet analyzer: NOT enabled\n"],1)

-- set_enable answers whether the plugin is enabled now.
def cmdDisablePacketAnalyzer (d : Daemon σ α) : Effect σ α :=
  ({d with analyzer := PacketAnalyzer.step d.analyzer (.setEnable false)},
    [if (PacketAnalyzer.setEnable d.analyzer.analyzer false).1 then literal "packet analyzer: disable\n"
      else literal "packet analyzer: NOT disable\n"],1)

def callFunction (ctx : Context σ α) (moment : Moment) (d : Daemon σ α) (args : Option Text) :
    CommandFunction → Effect σ α
  | .cmdHistory => cmdHistory d args
  | .cmdClearHistory => cmdClearHistory d args
  | .cmdLogout => (d,[literal "**** Exit ****\n"],0)
  | .cmdShutdown => ({d with terminate := true},[literal "**** Shutdown ****\n"],0)
  | .cmdDate => (d,[moment.date],1)
  | .cmdEcho => (d,[args.getD [] ++ [10]],1)
  | .cmdUptime => cmdUptime moment d
  | .cmdLoggingTrace => cmdSetLogLevel d .trace
  | .cmdLoggingDebug => cmdSetLogLevel d .debug
  | .cmdLoggingInfo => cmdSetLogLevel d .info
  | .cmdLoggingNotice => cmdSetLogLevel d .notice
  -- log_notice, as the source has it
  | .cmdLoggingWarning => cmdSetLogLevel d .notice
  | .cmdLoggingError => cmdSetLogLevel d .error
  | .cmdFallBackChannel => cmdFallBackChannel ctx d args
  | .cmdDefaultChannel => cmdDefaultChannel ctx d args
  | .cmdLoadModule => cmdLoadModule moment d
  | .cmdUnloadModule => cmdUnloadModule moment d
  | .cmdEnablePacketAnalyzer => cmdEnablePacketAnalyzer d
  | .cmdDisablePacketAnalyzer => cmdDisablePacketAnalyzer d
  | .cmdPacketAnalyzerModeSafe => cmdPacketAnalyzerSetMode d true
  | .cmdPacketAnalyzerModeFast => cmdPacketAnalyzerSetMode d false
  | .cmdPacketAnalyzerMode => cmdPacketAnalyzerMode d

def registDefaultCommand : List (Registration CommandFunction) :=
  [⟨literal "history",false,some .cmdHistory,none,0,0⟩,⟨literal "clear history",false,some .cmdClearHistory,none,0,0⟩]

def registerCommands : List (Registration CommandFunction) := registDefaultCommand ++
  [⟨literal "exit",false,some .cmdLogout,some (literal "Exit"),0,1⟩,
    ⟨literal "shutdown",true,some .cmdShutdown,some (literal "Shutdown"),0,1⟩,
    ⟨literal "date",true,some .cmdDate,some (literal "Date"),0,1⟩,
    ⟨literal "echo",false,some .cmdEcho,some (literal "Echo"),0,1⟩,
    ⟨literal "uptime",true,some .cmdUptime,some (literal "Uptime"),0,1⟩,
    ⟨literal "set logging level trace",true,some .cmdLoggingTrace,some (literal "Log level = trace"),0,1⟩,
    ⟨literal "set logging level debug",true,some .cmdLoggingDebug,some (literal "Log level = debug"),0,1⟩,
    ⟨literal "set logging level info",true,some .cmdLoggingInfo,some (literal "Log level = info"),0,1⟩,
    ⟨literal "set logging level notice",true,some .cmdLoggingNotice,some (literal "Log level = notice"),0,1⟩,
    ⟨literal "set logging level warning",true,some .cmdLoggingWarning,some (literal "Log level = warning"),0,1⟩,
    ⟨literal "set logging level error",true,some .cmdLoggingError,some (literal "Log level = error"),0,1⟩,
    ⟨literal "set fall back channel",true,some .cmdFallBackChannel,some (literal "setting fall back channel"),1,1⟩,
    ⟨literal "set default channel",true,some .cmdDefaultChannel,some (literal "setting default channel"),1,1⟩,
    ⟨literal "load module",true,some .cmdLoadModule,some (literal "load module"),1,1⟩,
    ⟨literal "unload module",true,some .cmdUnloadModule,some (literal "unload module"),0,1⟩,
    ⟨literal "analyzer enable",true,some .cmdEnablePacketAnalyzer,some (literal "enable packet analyzer"),0,1⟩,
    ⟨literal "analyzer disable",true,some .cmdDisablePacketAnalyzer,some (literal "enable packet analyzer"),0,1⟩,
    ⟨literal "analyzer mode safe",true,some .cmdPacketAnalyzerModeSafe,some (literal "enable packet analyzer safe mode"),0,1⟩,
    ⟨literal "analyzer mode fast",true,some .cmdPacketAnalyzerModeFast,some (literal "enable packet analyzer fast mode"),0,1⟩,
    ⟨literal "show analyzer mode",true,some .cmdPacketAnalyzerMode,some (literal "packet analyzer mode"),0,1⟩]

def commands : CommandTree CommandFunction := registered registerCommands

def executed (ctx : Context σ α) (moment : Moment) (d : Daemon σ α) (line : Text) : Effect σ α :=
  match executeLine commands (-1) line with
  | .prints format argument => (d,[printf format argument],1)
  | .calls func argument => callFunction ctx moment d argument func
  | .sends _ | .nothing => (d,[],1)

end TcpProxy.CommandLine
