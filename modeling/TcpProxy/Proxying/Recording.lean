import TcpProxy.Proxying.Steps

namespace TcpProxy.Proxying
open AutoBlacklist

variable {σ α : Type}

inductive Call where
  | checkAvailable (remoteIp : String) (answer : Option DbProxyRequest)
  | connectionClose (sn bytes count : Int) (idle : Bool)
  | connectionEstablished (sn : Int) (account : Option String) (remoteIp : String) (answer : Int)
  | connectionNotAllowed (remoteIp : String)
  | connectionBlacklisted (remoteIp : String) (answer : Int)
  | checkVip (remoteIp : String) (answer : Int)
  | addIpToAutoBlacklist (remoteIp : String) (answer : Int)
  | failGuessing (remoteIp : String) (answer : Bool)
  | closeIdle (now : Timeval)
  | done
deriving DecidableEq, Repr

def noted (answer : β × σ) (calls : List Call) (call : β → Call) : β × σ × List Call :=
  (answer.1,answer.2,calls ++ [call answer.1])

-- The same service, which writes every call down.
def recording (db : DatabaseService σ) : DatabaseService (σ × List Call) where
  checkAvailable s remoteIp := noted (db.checkAvailable s.1 remoteIp) s.2 (.checkAvailable remoteIp)
  connectionClose s sn bytes count idle :=
    (db.connectionClose s.1 sn bytes count idle,s.2 ++ [.connectionClose sn bytes count idle])
  connectionEstablished s sn account remoteIp :=
    noted (db.connectionEstablished s.1 sn account remoteIp) s.2 (.connectionEstablished sn account remoteIp)
  connectionNotAllowed s remoteIp := (db.connectionNotAllowed s.1 remoteIp,s.2 ++ [.connectionNotAllowed remoteIp])
  connectionBlacklisted s remoteIp := noted (db.connectionBlacklisted s.1 remoteIp) s.2 (.connectionBlacklisted remoteIp)
  checkVip s remoteIp := noted (db.checkVip s.1 remoteIp) s.2 (.checkVip remoteIp)
  addIpToAutoBlacklist s remoteIp := noted (db.addIpToAutoBlacklist s.1 remoteIp) s.2 (.addIpToAutoBlacklist remoteIp)
  failGuessing s remoteIp := noted (db.failGuessing s.1 remoteIp) s.2 (.failGuessing remoteIp)
  closeIdle s now := (db.closeIdle s.1 now,s.2 ++ [.closeIdle now])
  done s := (db.done s.1,s.2 ++ [.done])

-- The analyzer's own use of the database is not written down.
def watched (ctx : Context σ α) : Context (σ × List Call) α where
  settings := ctx.settings
  db := recording ctx.db
  packetAnalyzer :=
    { allocate := ctx.packetAnalyzer.allocate
      release := ctx.packetAnalyzer.release
      analyzePacket := fun a s info fromClient chunk =>
        let (a,db) := ctx.packetAnalyzer.analyzePacket a s.1 info fromClient chunk
        (a,db,s.2) }

@[simp] theorem watched_settings (ctx : Context σ α) : (watched ctx).settings = ctx.settings := rfl

@[simp] theorem watched_db (ctx : Context σ α) : (watched ctx).db = recording ctx.db := rfl

@[simp] theorem watched_allocate (ctx : Context σ α) :
    (watched ctx).packetAnalyzer.allocate = ctx.packetAnalyzer.allocate := rfl

section Recorded
variable (db : DatabaseService σ) (s : σ) (calls : List Call) (remoteIp : String)

@[simp] theorem recording_checkAvailable : (recording db).checkAvailable (s,calls) remoteIp =
    noted (db.checkAvailable s remoteIp) calls (.checkAvailable remoteIp) := rfl

@[simp] theorem recording_connectionEstablished (sn : Int) (account : Option String) :
    (recording db).connectionEstablished (s,calls) sn account remoteIp =
    noted (db.connectionEstablished s sn account remoteIp) calls (.connectionEstablished sn account remoteIp) := rfl

@[simp] theorem recording_connectionNotAllowed : (recording db).connectionNotAllowed (s,calls) remoteIp =
    (db.connectionNotAllowed s remoteIp,calls ++ [.connectionNotAllowed remoteIp]) := rfl

@[simp] theorem recording_connectionBlacklisted : (recording db).connectionBlacklisted (s,calls) remoteIp =
    noted (db.connectionBlacklisted s remoteIp) calls (.connectionBlacklisted remoteIp) := rfl

@[simp] theorem recording_checkVip : (recording db).checkVip (s,calls) remoteIp =
    noted (db.checkVip s remoteIp) calls (.checkVip remoteIp) := rfl

@[simp] theorem recording_addIpToAutoBlacklist : (recording db).addIpToAutoBlacklist (s,calls) remoteIp =
    noted (db.addIpToAutoBlacklist s remoteIp) calls (.addIpToAutoBlacklist remoteIp) := rfl

@[simp] theorem recording_failGuessing : (recording db).failGuessing (s,calls) remoteIp =
    noted (db.failGuessing s remoteIp) calls (.failGuessing remoteIp) := rfl

end Recorded

def Proxy.watch (s : Proxy σ α) (calls : List Call) : Proxy (σ × List Call) α := {s with db := (s.db,calls)}

section Watch
variable (s : Proxy σ α) (calls : List Call)

@[simp] theorem watch_db : (s.watch calls).db = (s.db,calls) := rfl
@[simp] theorem watch_sockets : (s.watch calls).sockets = s.sockets := rfl
@[simp] theorem watch_conns : (s.watch calls).conns = s.conns := rfl
@[simp] theorem watch_blacklist : (s.watch calls).blacklist = s.blacklist := rfl
@[simp] theorem watch_defaultServer : (s.watch calls).defaultServer = s.defaultServer := rfl
@[simp] theorem watch_onFailedChannel : (s.watch calls).onFailedChannel = s.onFailedChannel := rfl

end Watch

def callsOf (ctx : Context σ α) (s : Proxy σ α) (fdc connectionId : Int) (input : AcceptInput) : List Call :=
  (acceptingRequest (watched ctx) (s.watch []) fdc connectionId input).db.2

-- An address is put on the blacklist right after check_vip has answered zero
-- for it.
def Vetted (calls : List Call) : Prop :=
  ∀ before remoteIp answer after, calls = before ++ .addIpToAutoBlacklist remoteIp answer :: after →
    ∃ earlier, before = earlier ++ [.checkVip remoteIp 0]

structure Deciding (calls : List Call) : Prop where
  guarded : Vetted calls
  silent : ∀ remoteIp, .connectionNotAllowed remoteIp ∉ calls

theorem Vetted.append (one : Vetted calls) (two : Vetted more) : Vetted (calls ++ more) := by
  intro before remoteIp answer after split
  rcases List.append_eq_append_iff.mp split with ⟨middle,rfl,rest⟩ | ⟨middle,rfl,rest⟩
  · obtain ⟨earlier,rfl⟩ := two _ _ _ _ rest
    exact ⟨calls ++ earlier,by simp⟩
  · cases middle with
    | nil =>
        obtain ⟨earlier,empty⟩ := two [] _ _ _ (by simpa using rest.symm)
        simp at empty
    | cons call middle =>
        obtain ⟨rfl,_⟩ := List.cons.inj rest
        exact one _ _ _ _ rfl

theorem Deciding.nil : Deciding [] := ⟨fun _ _ _ _ split => by simp at split,by simp⟩

theorem Deciding.append (one : Deciding calls) (two : Deciding more) : Deciding (calls ++ more) :=
  ⟨one.guarded.append two.guarded,fun remoteIp member =>
    (List.mem_append.mp member).elim (one.silent remoteIp) (two.silent remoteIp)⟩

def Call.asks : Call → Bool
  | .connectionNotAllowed _ | .addIpToAutoBlacklist _ _ => false
  | _ => true

theorem Vetted.one {call : Call} (asks : ∀ remoteIp answer, call ≠ .addIpToAutoBlacklist remoteIp answer) :
    Vetted [call] := by
  intro before remoteIp answer after split
  cases before with
  | nil => exact absurd (List.cons.inj split).1 (asks remoteIp answer)
  | cons first rest => simp at split

theorem Deciding.one {call : Call} (asks : call.asks = true) : Deciding [call] := by
  refine ⟨Vetted.one ?_,?_⟩
  · rintro remoteIp answer rfl
    cases asks
  · intro remoteIp member
    obtain rfl := List.mem_singleton.mp member
    cases asks

theorem Deciding.insert (remoteIp : String) (answer : Int) :
    Deciding [.checkVip remoteIp 0,.addIpToAutoBlacklist remoteIp answer] := by
  refine ⟨?_,by simp⟩
  intro before remoteIp' answer' after split
  cases before with
  | nil => simp at split
  | cons first rest =>
      obtain ⟨rfl,tail⟩ := List.cons.inj split
      cases rest with
      | nil =>
          obtain ⟨rfl,_⟩ := Call.addIpToAutoBlacklist.inj (List.cons.inj tail).1
          exact ⟨[],rfl⟩
      | cons second rest => simp at tail

section Watched
variable (ctx : Context σ α) (s : Proxy σ α) (calls : List Call)

theorem guessChannel_watched (before : List Call) (db : σ) (remoteIp : String) (accessCounter channel : Int) :
    let guessed := guessChannel ctx s db remoteIp accessCounter channel
    ∃ more, Deciding more ∧ guessChannel (watched ctx) (s.watch before) (db,calls) remoteIp accessCounter channel =
      (guessed.1,guessed.2,calls ++ more) := by
  by_cases guesses : s.onFailedChannel ≠ s.defaultServer ∧ ctx.settings.connectionThreshold-7 < accessCounter ∧
      accessCounter ≤ ctx.settings.connectionThreshold ∧ accessCounter % 2 = 0
  · refine ⟨[.failGuessing remoteIp (ctx.db.failGuessing db remoteIp).1],Deciding.one rfl,?_⟩
    have guessed : guessChannel ctx s db remoteIp accessCounter channel =
        (if (ctx.db.failGuessing db remoteIp).1 then s.onFailedChannel else channel,
          (ctx.db.failGuessing db remoteIp).2) := if_pos guesses
    rw [guessed]
    exact if_pos guesses
  · refine ⟨[],Deciding.nil,?_⟩
    have kept : guessChannel ctx s db remoteIp accessCounter channel = (channel,db) := if_neg guesses
    rw [kept,List.append_nil]
    exact if_neg guesses

theorem checkThreshold_watched (db : σ) (remoteIp : String) (accessCounter : Int) :
    let checked := checkThreshold ctx db remoteIp accessCounter
    ∃ more, Deciding more ∧ checkThreshold (watched ctx) (db,calls) remoteIp accessCounter =
      (checked.1,checked.2,calls ++ more) := by
  by_cases above : ctx.settings.connectionThreshold < accessCounter
  · by_cases zero : (ctx.db.checkVip db remoteIp).1 = 0
    · by_cases often : ctx.settings.persistThreshold < accessCounter
      · exact ⟨_,Deciding.insert remoteIp _,by simp [checkThreshold,noted,above,zero,often]; rfl⟩
      · exact ⟨[.checkVip remoteIp 0],Deciding.one rfl,by simp [checkThreshold,noted,above,zero,often]⟩
    · exact ⟨[.checkVip remoteIp _],Deciding.one rfl,by simp [checkThreshold,noted,above,zero]; rfl⟩
  · exact ⟨[],Deciding.nil,by simp [checkThreshold,above]⟩

theorem checkPersistence_watched (db : σ) (remoteIp : String) (now logTime : Timeval) :
    ∃ more, Deciding more ∧ checkPersistence (watched ctx) (db,calls) remoteIp now logTime =
      (checkPersistence ctx db remoteIp now logTime,calls ++ more) := by
  by_cases old : ctx.settings.maxPersistentTime < truncate (elapsedTime now logTime)
  · by_cases zero : (ctx.db.checkVip db remoteIp).1 = 0
    · exact ⟨_,Deciding.insert remoteIp _,by simp [checkPersistence,noted,old,zero]; rfl⟩
    · exact ⟨[.checkVip remoteIp _],Deciding.one rfl,by simp [checkPersistence,noted,old,zero]; rfl⟩
  · exact ⟨[],Deciding.nil,by simp [checkPersistence,old]⟩

theorem limitAccess_watched (remoteIp : String) (now : Timeval) (address : UInt32) (blacklisted : Bool) (channel : Int) :
    let limited := limitAccess ctx s remoteIp now address blacklisted channel
    ∃ more, Deciding more ∧ limitAccess (watched ctx) (s.watch calls) remoteIp now address blacklisted channel =
      (limited.1,limited.2.watch (calls ++ more)) := by
  cases blacklisted with
  | true => exact ⟨[],Deciding.nil,by simp [limitAccess,Proxy.watch]⟩
  | false =>
      obtain ⟨found,table⟩ : ∃ found, findAndIncrease s.blacklist now address = found := ⟨_,rfl⟩
      obtain ⟨counter,count⟩ : ∃ counter, (found.2.memory found.1).counter = counter := ⟨_,rfl⟩
      obtain ⟨guess,channelAt⟩ : ∃ guess, guessChannel ctx s s.db remoteIp counter channel = guess := ⟨_,rfl⟩
      obtain ⟨check,limit⟩ : ∃ check, checkThreshold ctx guess.2 remoteIp counter = check := ⟨_,rfl⟩
      obtain ⟨first,decides,guessed⟩ := guessChannel_watched ctx s calls calls s.db remoteIp counter channel
      obtain ⟨second,decides',checked⟩ := checkThreshold_watched ctx (calls ++ first) guess.2 remoteIp counter
      obtain ⟨third,decides'',persistent⟩ := checkPersistence_watched ctx (calls ++ first ++ second) check.2 remoteIp now
        (found.2.memory found.1).logTime
      simp only [limitAccess,Bool.false_eq_true,if_false,watch_db,watch_blacklist,table,count,guessed,channelAt,
        checked,limit,persistent]
      by_cases proceeds : ¬ check.1.2 = true ∧ 0 ≤ if check.1.2 = true then -1 else guess.1
      · simp only [if_pos proceeds]
        exact ⟨first ++ (second ++ third),decides.append (decides'.append decides''),by simp [Proxy.watch]⟩
      · simp only [if_neg proceeds]
        exact ⟨first ++ second,decides.append decides',by simp [Proxy.watch]⟩

theorem admitPeer_watched (now : Timeval) (peer : Peer) :
    let admitted := admitPeer ctx s now peer
    ∃ more, Deciding more ∧ admitPeer (watched ctx) (s.watch calls) now peer =
      (admitted.1,admitted.2.watch (calls ++ more)) := by
  obtain ⟨remoteIp,address⟩ : ∃ remoteIp, inetNtop peer.address = remoteIp := ⟨_,rfl⟩
  obtain ⟨⟨request,db⟩,available⟩ : ∃ answer, ctx.db.checkAvailable s.db remoteIp = answer := ⟨_,rfl⟩
  obtain ⟨⟨count,db'⟩,black⟩ : ∃ answer, ctx.db.connectionBlacklisted db remoteIp = answer := ⟨_,rfl⟩
  simp only [admitPeer,watched_db,watched_settings,watch_db,watch_defaultServer,recording_checkAvailable,
    recording_connectionBlacklisted,noted,address,available,black]
  cases request with
  | some request => exact ⟨_,Deciding.one rfl,rfl⟩
  | none =>
      have asked : Deciding [.checkAvailable remoteIp none,.connectionBlacklisted remoteIp count] :=
        (Deciding.one rfl).append (Deciding.one rfl)
      by_cases listed : checkRemoteIpInWhitelist ctx.settings remoteIp = true
      · simp only [listed,if_true]
        cases peer.isV4 with
        | true =>
            obtain ⟨more,decides,limited⟩ := limitAccess_watched ctx {s with db := db'}
              (calls ++ [.checkAvailable remoteIp none] ++ [.connectionBlacklisted remoteIp count]) remoteIp now
              peer.address.w3 (0 < count) (if decide (0 < count) = true then -1 else s.defaultServer)
            exact ⟨_,asked.append decides,by simpa [Proxy.watch] using limited⟩
        | false => exact ⟨_,asked,by simp [Proxy.watch]⟩
      · simp only [listed]
        exact ⟨_,Deciding.one rfl,rfl⟩

variable (fdc connectionId : Int) (admission : Admission) (remoteIp : String) (input : AcceptInput)

theorem establish_watched (proxyFd : Int) :
    ∃ more, Deciding more ∧ establish (watched ctx) (s.watch calls) fdc proxyFd connectionId admission remoteIp input =
      (establish ctx s fdc proxyFd connectionId admission remoteIp input).watch (calls ++ more) := by
  cases request : admission.requestInDb with
  | none => exact ⟨[],Deciding.nil,by simp [establish,Proxy.watch,request]⟩
  | some row =>
      exact ⟨[.connectionEstablished row.sn row.account remoteIp
          (ctx.db.connectionEstablished s.db row.sn row.account remoteIp).1],Deciding.one rfl,
        by simp [establish,Proxy.watch,noted,request]⟩

-- The state in which the server is dialled: a success was counted.
theorem forward_eq : ∃ blacklist : Table,
    (forward ctx s fdc connectionId admission remoteIp input =
      let dial := connectHost s.sockets (serverFor ctx admission) input
      if 0 ≤ dial.1 then
        establish ctx {s with blacklist := blacklist,sockets := dial.2} fdc dial.1 connectionId admission remoteIp input
      else {s with blacklist := blacklist,sockets := dial.2.close fdc}) ∧
    (forward (watched ctx) (s.watch calls) fdc connectionId admission remoteIp input =
      let dial := connectHost s.sockets (serverFor ctx admission) input
      let counted := Proxy.watch {s with blacklist := blacklist} calls
      if 0 ≤ dial.1 then
        establish (watched ctx) {counted with sockets := dial.2} fdc dial.1 connectionId admission remoteIp input
      else {counted with sockets := dial.2.close fdc}) := by
  unfold forward
  cases admission.requestInDb with
  | some row => exact ⟨s.blacklist,rfl,rfl⟩
  | none =>
      cases admission.entry with
      | none => exact ⟨s.blacklist,rfl,rfl⟩
      | some e => exact ⟨countSuccess s.blacklist e,rfl,rfl⟩

theorem forward_watched :
    ∃ more, Deciding more ∧ forward (watched ctx) (s.watch calls) fdc connectionId admission remoteIp input =
      (forward ctx s fdc connectionId admission remoteIp input).watch (calls ++ more) := by
  obtain ⟨blacklist,plain,recorded⟩ := forward_eq ctx s calls fdc connectionId admission remoteIp input
  rw [plain,recorded]
  dsimp only
  split
  · exact establish_watched ctx {s with blacklist := blacklist,sockets := _} calls fdc connectionId admission remoteIp
      input _
  · exact ⟨[],Deciding.nil,by simp [Proxy.watch]⟩

theorem refuse_watched (now : Timeval) :
    refuse (watched ctx) (s.watch calls) fdc admission remoteIp now =
      (refuse ctx s fdc admission remoteIp now).watch (calls ++ [.connectionNotAllowed remoteIp]) := by
  cases entry : admission.entry with
  | none =>
      simp only [refuse,entry]
      rfl
  | some e =>
      by_cases noticed : ¬ admission.autoBlacklisted = true ∧ admission.blacklisted = true
      · simp only [refuse,entry,if_pos noticed]
        rfl
      · simp only [refuse,entry,if_neg noticed]
        rfl

-- Writing the calls down changes nothing of an attempt, and it is refused
-- with the one call that says so.
theorem acceptingRequest_watched (peerAt : input.peer = some peer) :
    ∃ more, Deciding more ∧ acceptingRequest (watched ctx) (s.watch calls) fdc connectionId input =
      (acceptingRequest ctx s fdc connectionId input).watch (calls ++ more ++
        if 0 ≤ (admitPeer ctx s input.now peer).1.channel then [] else [.connectionNotAllowed (inetNtop peer.address)]) := by
  obtain ⟨first,decides,admitted⟩ := admitPeer_watched ctx s calls input.now peer
  simp only [acceptingRequest,peerAt,admitted]
  split
  · obtain ⟨second,decides',outcome⟩ := forward_watched ctx (admitPeer ctx s input.now peer).2 (calls ++ first) fdc
      connectionId (admitPeer ctx s input.now peer).1 (inetNtop peer.address) input
    exact ⟨first ++ second,decides.append decides',by simp [outcome]⟩
  · exact ⟨first,decides,refuse_watched ctx _ (calls ++ first) fdc _ _ _⟩

theorem callsOf_known (peerAt : input.peer = some peer) :
    ∃ more, Deciding more ∧ callsOf ctx s fdc connectionId input = more ++
      if 0 ≤ (admitPeer ctx s input.now peer).1.channel then [] else [.connectionNotAllowed (inetNtop peer.address)] := by
  obtain ⟨more,decides,outcome⟩ := acceptingRequest_watched ctx s [] fdc connectionId input peerAt
  exact ⟨more,decides,by rw [callsOf,outcome]; rfl⟩

end Watched

end TcpProxy.Proxying
