namespace TcpProxy.Logger

inductive LogPriority where
  | fatal
  | error
  | warning
  | notice
  | info
  | debug
  | trace
deriving DecidableEq, Repr

def logLevels : List (LogPriority × String) :=
  [(.fatal,"fatal"),(.error,"error"),(.warning,"warning"),(.notice,"notice"),(.info,"info"),(.debug,"debug"),(.trace,"trace")]

def loggerGetPriorityName (p : LogPriority) : String := ((logLevels.find? fun level => level.1 == p).map Prod.snd).getD ""

end TcpProxy.Logger
