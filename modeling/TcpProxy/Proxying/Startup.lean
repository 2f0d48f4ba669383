import TcpProxy.Sysconf.Accepted
import TcpProxy.Proxying.Steps

namespace TcpProxy.Proxying
open Sysconf AutoBlacklist

variable {σ α : Type}

def isSpace (c : UInt8) : Bool := c == 32 || (9 ≤ c && c ≤ 13)

-- The groups of ^\s*(.*):(\d+)\s*$, read from the end: what is in front of the
-- last colon is the host, and it may not contain a newline.
def matchServer (subject : Text) : Option (Text × Text) :=
  let back := (subject.dropWhile isSpace).reverse.dropWhile isSpace
  match back.takeWhile isDigit,back.dropWhile isDigit with
  | digit :: digits,58 :: host => if host.all isDot then some (host.reverse,(digit :: digits).reverse) else none
  | _,_ => none

def textOf (bytes : Text) : String := String.ofList ((strdup bytes).map fun c => Char.ofNat c.toNat)

-- strlen ends the subject at the first NUL.
def serverOf (text : Text) : Option RemoteServer :=
  (matchServer (strdup text)).map fun (host,port) => ⟨textOf host,atoi port⟩

-- What proxy_main makes of the configuration, unless a server does not match:
-- the settings, default_server and on_failed_channel. `heap` is what malloc has
-- handed out for the servers.
def configured (c : Config) (heap : Nat → RemoteServer) : Option (Settings × Int × Int) := do
  let (texts,numberOfRemoteServers) := (stringList c (literal "servers")).getD ([],0)
  let servers ← if 0 < numberOfRemoteServers then (texts.take numberOfRemoteServers.toNat).mapM serverOf else some []
  some (
    { remoteServers := fun i => servers.getD i (heap i)
      numberOfRemoteServers := numberOfRemoteServers
      connectionThreshold := sysconfIntOrDefault c (literal "threshold") 5
      persistThreshold := sysconfIntOrDefault c (literal "persist-threshold") 5
      maxAllowedRequests := sysconfIntOrDefault c (literal "max-allowed-requests") 6
      maxPersistentTime := sysconfIntOrDefault c (literal "max-persistent-day") 5 * 86400
      whiteList := ((stringList c (literal "white-list-ip-prefix")).getD ([],0)).1.map textOf },
    sysconfIntOrDefault c (literal "default-server") 0,
    sysconfIntOrDefault c (literal "on-failed-channel") 0)

def indexRead (ctx : Context σ α) (s : Proxy σ α) (input : AcceptInput) : Option Int :=
  match input.peer with
  | none => none
  | some peer =>
    let channel := (admitPeer ctx s input.now peer).1.channel
    if 0 ≤ channel then some (if channel < ctx.settings.numberOfRemoteServers then channel else 0) else none

theorem acceptingRequest_reads (ctx : Context σ α) (s : Proxy σ α) (fdc connectionId : Int) (input : AcceptInput)
    (other : Nat → RemoteServer)
    (same : ∀ i, indexRead ctx s input = some i → other i.toNat = ctx.settings.remoteServers i.toNat) :
    acceptingRequest {ctx with settings := {ctx.settings with remoteServers := other}} s fdc connectionId input =
      acceptingRequest ctx s fdc connectionId input := by
  cases peerAt : input.peer with
  | none => simp only [acceptingRequest,peerAt]
  | some peer =>
      have admitted : admitPeer {ctx with settings := {ctx.settings with remoteServers := other}} s input.now peer =
        admitPeer ctx s input.now peer := rfl
      simp only [acceptingRequest,peerAt,admitted]
      split
      · rename_i opened
        have read := same _ (by simp only [indexRead,peerAt]; rw [if_pos opened])
        unfold forward
        dsimp only
        rw [read]
        rfl
      · rfl

def Filled (c : Config) (settings : Settings) (i : Int) : Prop :=
  ∃ texts number text, stringList c (literal "servers") = some (texts,number) ∧ texts[i.toNat]? = some text ∧
    serverOf text = some (settings.remoteServers i.toNat)

-- Whatever the services answer and the operator does, in every state of every
-- run: what is read from remote_servers is an element that is there.
def UpstreamValid (c : Config) : Prop :=
  ∀ heap settings defaultServer onFailedChannel, configured c heap = some (settings,defaultServer,onFailedChannel) →
  ∀ (σ α : Type) (service : DatabaseService σ) (packetAnalyzer : PacketAnalyzer α σ) (listener : Nat)
    (memory : Nat → ConnectionInfo) (blacklist : Table) (db : σ) (analyzer : α) (events : List Event)
    (input : AcceptInput) (i : Int),
    let ctx : Context σ α := ⟨settings,service,packetAnalyzer⟩
    let s := Machine.run (step ctx) (proxyMain listener memory blacklist db analyzer defaultServer onFailedChannel)
      events
    indexRead ctx (arrived s input) input = some i →
    0 ≤ i ∧ i < settings.numberOfRemoteServers ∧ Filled c settings i

theorem indexRead_range (ctx : Context σ α) (s : Proxy σ α) (input : AcceptInput)
    (present : 0 < ctx.settings.numberOfRemoteServers) (read : indexRead ctx s input = some i) :
    0 ≤ i ∧ i < ctx.settings.numberOfRemoteServers := by
  unfold indexRead at read
  split at read
  · cases read
  · dsimp only at read
    split at read
    · split at read
      · cases read
        omega
      · cases read
        omega
    · cases read

theorem configured_filled (listed : stringList c (literal "servers") = some (texts,(texts.length : Int)))
    (several : texts ≠ []) (started : configured c heap = some (settings,rest)) :
    settings.numberOfRemoteServers = texts.length ∧
      ∀ i : Int, 0 ≤ i → i < texts.length → Filled c settings i := by
  have positive : (0 : Int) < texts.length := by
    have := List.length_pos_iff.mpr several
    omega
  simp only [configured,listed,Option.getD_some,if_pos positive,Int.toNat_natCast,List.take_length] at started
  obtain ⟨servers,matched,same⟩ := Option.bind_eq_some_iff.mp started
  obtain ⟨rfl,rfl⟩ := Prod.mk.inj (Option.some.inj same)
  refine ⟨rfl,fun i low high => ?_⟩
  have inside : i.toNat < texts.length := by omega
  have element := congrArg (fun list => list[i.toNat]?) ((mapM_eq_some_iff serverOf texts servers).mp matched)
  simp only [List.getElem?_map,List.getElem?_eq_getElem inside,Option.map_some] at element
  obtain ⟨server,place,found⟩ := Option.map_eq_some_iff.mp element.symm
  refine ⟨texts,texts.length,texts[i.toNat],listed,List.getElem?_eq_getElem inside,?_⟩
  simp only [List.getD_eq_getElem?_getD,place,Option.getD_some]
  exact found.symm

theorem configured_empty (unlisted : stringList c (literal "servers") = none) (heap : Nat → RemoteServer) :
    ∃ settings defaultServer onFailedChannel,
      configured c heap = some (settings,defaultServer,onFailedChannel) ∧ settings.numberOfRemoteServers = 0 :=
  ⟨_,_,_,by simp only [configured,unlisted]; rfl,rfl⟩

-- An attempt that the database authorises for channel 0 goes to the first
-- server, whether there is one or not.
theorem unlisted_invalid (unlisted : stringList c (literal "servers") = none) : ¬ UpstreamValid c := by
  intro valid
  obtain ⟨settings,defaultServer,onFailedChannel,started,empty⟩ := configured_empty unlisted fun _ => ⟨"",0⟩
  obtain ⟨low,high,_⟩ := valid _ settings defaultServer onFailedChannel started Unit Unit authorising
    (oneServer "").packetAnalyzer 3 (fun _ => default) (newAutoBlacklistService 7 120 fun _ => default) () () []
    (visitor 5 6) 0 (by simp [indexRead,visitor,admitPeer,authorising,empty])
  omega

-- The table has an element to read exactly if servers is, at its last
-- definition, a list of strings. One that does not match keeps proxy_main from
-- listening; without a list it listens and there is nothing to read.
theorem upstream_valid_iff (accepted : yyparse input = some c) (reads : Reads input ds) :
    UpstreamValid c ↔ ∃ d, lastDefinition ds (literal "servers") = some d ∧ d.value.isStrings = true := by
  constructor
  · intro valid
    by_contra missing
    have unlisted := stringList_other accepted reads (fun d last =>
      Bool.eq_false_iff.mpr fun strings => missing ⟨d,last,strings⟩)
    exact unlisted_invalid unlisted valid
  · rintro ⟨d,last,strings⟩
    obtain ⟨texts,several,listed⟩ := stringList_strings accepted reads last strings
    intro heap settings defaultServer onFailedChannel started σ α service packetAnalyzer listener memory blacklist db
      analyzer events input i ctx s read
    obtain ⟨number,filled⟩ := configured_filled listed several started
    have positive : 0 < settings.numberOfRemoteServers := by
      have := List.length_pos_iff.mpr several
      omega
    obtain ⟨low,high⟩ := indexRead_range ctx _ input positive read
    exact ⟨low,high,filled i low (number ▸ high)⟩

-- servers=["10.0.0.2:1688"];default-server=7;
theorem upstream_valid_iff_one_server : ∃ c,
    yyparse (literal "servers=[\"10.0.0.2:1688\"];default-server=7;") = some c ∧ UpstreamValid c := by
  have parsed : (yyparse (literal "servers=[\"10.0.0.2:1688\"];default-server=7;")).isSome := by decide +kernel
  obtain ⟨c,accepted⟩ := Option.isSome_iff_exists.mp parsed
  obtain ⟨ds,reads⟩ := accepted_reads accepted
  have same : ds = [⟨literal "servers",.strings (literal "\"10.0.0.2:1688\"") []⟩,
      ⟨literal "default-server",.number [55]⟩] := by
    refine reads_unique reads ?_
    show visible (tokens _) = _
    decide +kernel
  refine ⟨c,accepted,(upstream_valid_iff accepted reads).mpr ?_⟩
  rw [same]
  exact ⟨⟨literal "servers",.strings (literal "\"10.0.0.2:1688\"") []⟩,by decide +kernel,rfl⟩

-- port=80; is accepted, and remote_servers is never allocated.
theorem missing_servers_are_read : ∃ c, yyparse (literal "port=80;") = some c ∧ ¬ UpstreamValid c := by
  have parsed : (yyparse (literal "port=80;")).map (fun c => stringList c (literal "servers")) = some none := by
    decide +kernel
  obtain ⟨c,accepted,unlisted⟩ := Option.map_eq_some_iff.mp parsed
  exact ⟨c,accepted,unlisted_invalid unlisted⟩

end TcpProxy.Proxying
