import TcpProxy.Proxying.ConnectionLists
import TcpProxy.Proxying.Relaying
import TcpProxy.Proxying.SocketTable

namespace TcpProxy.Proxying
open Events AutoBlacklist LinkedChain

variable {σ α : Type} {ctx : Context σ α} {s : Proxy σ α} {input : AcceptInput}

def arrived (s : Proxy σ α) (input : AcceptInput) : Proxy σ α :=
  {s with sockets := (s.sockets.create input.accept).2,connectionCounter := s.connectionCounter+1}

@[simp] theorem arrived_sockets (s : Proxy σ α) (input : AcceptInput) :
    (arrived s input).sockets = (s.sockets.create input.accept).2 := rfl

@[simp] theorem arrived_blacklist (s : Proxy σ α) (input : AcceptInput) :
    (arrived s input).blacklist = s.blacklist := rfl

def serverFor (ctx : Context σ α) (admission : Admission) : RemoteServer :=
  ctx.settings.remoteServers
    (if admission.channel < ctx.settings.numberOfRemoteServers then admission.channel else 0).toNat

def dialled (ctx : Context σ α) (s : Proxy σ α) (input : AcceptInput) : Option RemoteServer :=
  if (s.sockets.create input.accept).1 = -1 then none
  else match input.peer with
    | none => none
    | some peer =>
      let admission := (admitPeer ctx (arrived s input) input.now peer).1
      if 0 ≤ admission.channel then some (serverFor ctx admission) else none

def Unresolved (ctx : Context σ α) (s : Proxy σ α) (input : AcceptInput) : Prop :=
  match dialled ctx s input with
  | none => False
  | some server => Stranded (s.sockets.create input.accept).2 server input

instance (ctx : Context σ α) (s : Proxy σ α) (input : AcceptInput) : Decidable (Unresolved ctx s input) :=
  match dial : dialled ctx s input with
  | none => isFalse (by simp [Unresolved,dial])
  | some server => decidable_of_iff (Stranded (s.sockets.create input.accept).2 server input)
      (by simp [Unresolved,dial])

def Connects (ctx : Context σ α) (s : Proxy σ α) (input : AcceptInput) : Prop :=
  match dialled ctx s input with
  | none => False
  | some server => 0 ≤ (connectHost (s.sockets.create input.accept).2 server input).1

theorem limitAccess_frame (ctx : Context σ α) (s : Proxy σ α) (remoteIp : String) (now : Timeval)
    (address : UInt32) (blacklisted : Bool) (channel : Int) :
    ∃ db, (limitAccess ctx s remoteIp now address blacklisted channel).2 =
      {s with blacklist := (findAndIncrease s.blacklist now address).2,db := db} := by
  unfold limitAccess
  dsimp only
  split
  · exact ⟨_,rfl⟩
  · exact ⟨_,rfl⟩

theorem admitPeer_frame (ctx : Context σ α) (s : Proxy σ α) (now : Timeval) (peer : Peer) :
    ∃ db blacklist, (admitPeer ctx s now peer).2 = {s with db := db,blacklist := blacklist} := by
  unfold admitPeer
  dsimp only
  split
  · exact ⟨_,_,rfl⟩
  · split
    · split
      · obtain ⟨db,same⟩ := limitAccess_frame ctx
          {s with db := (ctx.db.connectionBlacklisted (ctx.db.checkAvailable s.db (inetNtop peer.address)).2
            (inetNtop peer.address)).2} (inetNtop peer.address) now peer.address.w3 _ _
        exact ⟨_,_,same⟩
      · exact ⟨_,_,rfl⟩
    · exact ⟨_,_,rfl⟩

theorem refuse_frame (ctx : Context σ α) (s : Proxy σ α) (fdc : Int) (admission : Admission) (remoteIp : String)
    (now : Timeval) : ∃ db blacklist, refuse ctx s fdc admission remoteIp now =
      {s with sockets := s.sockets.close fdc,db := db,blacklist := blacklist} := by
  unfold refuse
  dsimp only
  split
  · split
    · exact ⟨_,_,rfl⟩
    · exact ⟨_,_,rfl⟩
  · exact ⟨_,_,rfl⟩

theorem forward_cases (ctx : Context σ α) (s : Proxy σ α) (fdc connectionId : Int) (admission : Admission)
    (remoteIp : String) (input : AcceptInput) :
    ∃ blacklist, (blacklist = s.blacklist ∨ ∃ e, blacklist = countSuccess s.blacklist e) ∧
      forward ctx s fdc connectionId admission remoteIp input =
      let dial := connectHost s.sockets (serverFor ctx admission) input
      if 0 ≤ dial.1 then
        establish ctx {s with blacklist := blacklist,sockets := dial.2} fdc dial.1 connectionId admission remoteIp input
      else {s with blacklist := blacklist,sockets := dial.2.close fdc} := by
  unfold forward
  dsimp only
  split
  · exact ⟨_,.inr ⟨_,rfl⟩,rfl⟩
  · exact ⟨s.blacklist,.inl rfl,rfl⟩

theorem acceptingRequest_cases (ctx : Context σ α) (s : Proxy σ α) (fdc connectionId : Int) (input : AcceptInput)
    (peerAt : input.peer = some peer) :
    let admission := (admitPeer ctx s input.now peer).1
    let dial := connectHost s.sockets (serverFor ctx admission) input
    ∃ db blacklist, (0 ≤ admission.channel → db = (admitPeer ctx s input.now peer).2.db) ∧
      acceptingRequest ctx s fdc connectionId input =
      if 0 ≤ admission.channel then
        if 0 ≤ dial.1 then
          establish ctx {s with db := db,blacklist := blacklist,sockets := dial.2} fdc dial.1 connectionId
            admission (inetNtop peer.address) input
        else {s with db := db,blacklist := blacklist,sockets := dial.2.close fdc}
      else {s with db := db,blacklist := blacklist,sockets := s.sockets.close fdc} := by
  obtain ⟨db,blacklist,frame⟩ := admitPeer_frame ctx s input.now peer
  dsimp only
  simp only [acceptingRequest,peerAt,frame]
  split
  · obtain ⟨counted,_,outcome⟩ := forward_cases ctx {s with db := db,blacklist := blacklist} fdc connectionId
      (admitPeer ctx s input.now peer).1 (inetNtop peer.address) input
    exact ⟨db,counted,fun _ => rfl,outcome⟩
  · rename_i denied
    obtain ⟨after,noticed,outcome⟩ := refuse_frame ctx {s with db := db,blacklist := blacklist} fdc
      (admitPeer ctx s input.now peer).1 (inetNtop peer.address) input.now
    exact ⟨after,noticed,fun admitted => absurd admitted denied,outcome⟩

-- The two ways of accepting_request: connect_host with what follows it, or the
-- refusal.
def TakesBranch (ctx : Context σ α) (s : Proxy σ α) (fdc connectionId : Int) (input : AcceptInput) (peer : Peer)
    (forwarded : Prop) (next : Proxy σ α) : Prop :=
  let (admission,t) := admitPeer ctx s input.now peer
  (forwarded → next = forward ctx t fdc connectionId admission (inetNtop peer.address) input) ∧
  (¬ forwarded → next = refuse ctx t fdc admission (inetNtop peer.address) input.now)

theorem acceptingRequest_branch (ctx : Context σ α) (s : Proxy σ α) (fdc connectionId : Int) (input : AcceptInput)
    (peerAt : input.peer = some peer) :
    TakesBranch ctx s fdc connectionId input peer (0 ≤ (admitPeer ctx s input.now peer).1.channel)
      (acceptingRequest ctx s fdc connectionId input) := by
  simp only [TakesBranch,acceptingRequest,peerAt]
  exact ⟨fun passes => if_pos passes,fun refused => if_neg refused⟩

theorem mainListener_accepted (ctx : Context σ α) (answer : (s.sockets.create input.accept).1 = (n : Nat)) :
    mainListener ctx s input = acceptingRequest ctx (arrived s input) n (s.connectionCounter+1) input := by
  have accepted : ¬ (n : Int) = -1 := by omega
  simp only [mainListener,answer,accepted,if_false,arrived]

-- What an accept can do: it leaves the connections as they are, with every
-- descriptor it opened closed again unless a name did not resolve, or it
-- attaches one connection with two new descriptors.
theorem accept_cases (ctx : Context σ α) (s : Proxy σ α) (input : AcceptInput) :
    (∃ sockets db blacklist counter fds,
      mainListener ctx s input =
        {s with sockets := sockets,db := db,blacklist := blacklist,connectionCounter := counter} ∧
      s.connectionCounter ≤ counter ∧ Opened s.sockets sockets fds ∧ (fds = [] ↔ ¬ Unresolved ctx s input) ∧
      ¬ Connects ctx s input) ∨
    (∃ sockets db blacklist fdc proxyFd admission remoteIp,
      mainListener ctx s input =
        establish ctx {s with sockets := sockets,db := db,blacklist := blacklist,
                              connectionCounter := s.connectionCounter+1}
          fdc proxyFd (s.connectionCounter+1) admission remoteIp input ∧
      Opened s.sockets sockets [fdc,proxyFd] ∧ Connects ctx s input ∧ ¬ Unresolved ctx s input ∧
      ∃ peer, input.peer = some peer ∧ remoteIp = inetNtop peer.address ∧
        admission = (admitPeer ctx (arrived s input) input.now peer).1 ∧
        db = (admitPeer ctx (arrived s input) input.now peer).2.db) := by
  rcases create_cases s.sockets input.accept with ⟨n,_,answer,path⟩ | refused
  · have accepted : ¬ (s.sockets.create input.accept).1 = -1 := by omega
    have closed : Opened s.sockets ((s.sockets.create input.accept).2.close n) [] := by
      simpa using path.close (List.mem_singleton.mpr rfl)
    rw [mainListener_accepted ctx answer]
    cases peerAt : input.peer with
    | none =>
        have nobody : dialled ctx s input = none := by simp only [dialled,accepted,if_false,peerAt]
        simp only [acceptingRequest,peerAt]
        exact .inl ⟨_,_,_,_,[],rfl,by simp [arrived],closed,by simp [Unresolved,nobody],by simp [Connects,nobody]⟩
    | some peer =>
        obtain ⟨db,blacklist,used,outcome⟩ := acceptingRequest_cases ctx (arrived s input) n (s.connectionCounter+1)
          input peerAt
        rw [outcome,arrived_sockets]
        have dial : dialled ctx s input = if 0 ≤ (admitPeer ctx (arrived s input) input.now peer).1.channel then
            some (serverFor ctx (admitPeer ctx (arrived s input) input.now peer).1) else none := by
          simp only [dialled,accepted,if_false,peerAt]
        generalize decided : (admitPeer ctx (arrived s input) input.now peer).1 = admission at dial used ⊢
        split
        · rename_i admitted
          rw [if_pos admitted] at dial
          have unresolved : Unresolved ctx s input ↔
              Stranded (s.sockets.create input.accept).2 (serverFor ctx admission) input := by
            simp only [Unresolved,dial]
          have connects : Connects ctx s input ↔
              0 ≤ (connectHost (s.sockets.create input.accept).2 (serverFor ctx admission) input).1 := by
            simp only [Connects,dial]
          rw [unresolved,connects]
          rcases connectHost_cases (s.sockets.create input.accept).2 (serverFor ctx admission) input with
            ⟨found,nonneg,more⟩ | ⟨found,failed,more⟩ | ⟨stranded,failed,more⟩
          · rw [if_pos nonneg]
            exact .inr ⟨_,db,blacklist,n,_,admission,_,rfl,path.trans more,nonneg,found,peer,rfl,rfl,decided.symm,
              used admitted⟩
          · rw [if_neg (by omega)]
            refine .inl ⟨_,db,blacklist,_,[],rfl,by simp [arrived],?_,by simpa using found,by omega⟩
            simpa using (path.trans more).close (List.mem_singleton.mpr rfl)
          · rw [if_neg (by omega)]
            refine .inl ⟨_,db,blacklist,_,[(initSocketV4 (s.sockets.create input.accept).2 input).1],rfl,
              by simp [arrived],?_,by simpa using stranded,by omega⟩
            simpa using (path.trans more).close (List.mem_cons_self)
        · rename_i denied
          rw [if_neg denied] at dial
          exact .inl ⟨_,db,blacklist,_,[],rfl,by simp [arrived],closed,by simp [Unresolved,dial],
            by simp [Connects,dial]⟩
  · have nobody : dialled ctx s input = none := by simp [dialled,refused]
    refine .inl ⟨s.sockets,s.db,s.blacklist,s.connectionCounter,[],?_,Int.le_refl _,Opened.refl _,
      by simp [Unresolved,nobody],by simp [Connects,nobody]⟩
    simp only [mainListener,refused,if_true]

section Establish
variable (ctx : Context σ α) (s : Proxy σ α) (fdc proxyFd connectionId : Int) (admission : Admission)
  (remoteIp : String) (input : AcceptInput)

theorem establish_frame :
    (establish ctx s fdc proxyFd connectionId admission remoteIp input).sockets = s.sockets ∧
    (establish ctx s fdc proxyFd connectionId admission remoteIp input).blacklist = s.blacklist ∧
    (establish ctx s fdc proxyFd connectionId admission remoteIp input).connectionCounter = s.connectionCounter ∧
    (establish ctx s fdc proxyFd connectionId admission remoteIp input).closings = s.closings ∧
    (establish ctx s fdc proxyFd connectionId admission remoteIp input).chunks = s.chunks ∧
    (establish ctx s fdc proxyFd connectionId admission remoteIp input).openings =
      s.openings ++ [⟨connectionId,s.sockets.table fdc,s.sockets.table proxyFd⟩] :=
  ⟨rfl,rfl,rfl,rfl,rfl,rfl⟩

def recorded : Nat × σ :=
  match admission.requestInDb with
  | some request =>
    let record := ctx.db.connectionEstablished s.db request.sn request.account remoteIp
    ((record.1 % 2^32).toNat,record.2)
  | none => (0,s.db)

-- The handles are what the two registrations answered, whatever that was.
theorem establish_spec (shape : ConnShape s.conns chain [] pool) :
    let after := establish ctx s fdc proxyFd connectionId admission remoteIp input
    let e := (allocateConnectionInfo s.conns).1
    let client := evAddEvent s.ev fdc .proxyFromClientToServer (some e) input.epollClient
    let server := evAddEvent client.2 proxyFd .proxyFromServerToClient (some e) input.epollServer
    (∃ rest, ConnShape after.conns (e :: chain) [] rest) ∧ e ∉ chain ∧
    (∀ a, a ≠ e → (after.conns.memory a).data = (s.conns.memory a).data) ∧
    after.conns.memory e = {after.conns.memory e with
      connectionId := connectionId, clientFd := fdc, serverFd := proxyFd,
      clientHandle := client.1, serverHandle := server.1,
      requestCount := 0, responseCount := 0, bytesSent := 0, bytesReceived := 0,
      requestInDb := admission.requestInDb, insertId := (recorded ctx s admission remoteIp).1} ∧
    after.ev = server.2 ∧ after.db = (recorded ctx s admission remoteIp).2 := by
  intro after e client server
  obtain ⟨rest,taken,memory⟩ := allocate_shape shape
  have written := fun info => attach_shape (taken.set_held (List.mem_singleton.mpr rfl) info)
  have conns : ∃ info : ConnectionInfo,
      after.conns = attachConnectionInfoEntry ((allocateConnectionInfo s.conns).2.set e info) e ∧
      info = {info with
        connectionId := connectionId, clientFd := fdc, serverFd := proxyFd,
        clientHandle := client.1, serverHandle := server.1,
        requestCount := 0, responseCount := 0, bytesSent := 0, bytesReceived := 0,
        requestInDb := admission.requestInDb, insertId := (recorded ctx s admission remoteIp).1} := by
    cases request : admission.requestInDb with
    | none => exact ⟨_,by simp only [after,establish,request]; rfl,by simp only [recorded,request]; rfl⟩
    | some row => exact ⟨_,by simp only [after,establish,request]; rfl,by simp only [recorded,request]; rfl⟩
  have db : after.db = (recorded ctx s admission remoteIp).2 := by
    cases request : admission.requestInDb with
    | none => simp only [after,establish,recorded,request]
    | some row => simp only [after,establish,recorded,request]
  obtain ⟨info,conns,fields⟩ := conns
  obtain ⟨attached,data⟩ := written info
  refine ⟨⟨rest,conns ▸ attached⟩,(taken.held_apart (List.mem_singleton.mpr rfl)).1,?_,?_,rfl,db⟩
  · intro a different
    rw [conns,data,set_other _ _ different,memory]
  · have own := eq_of_data (data e)
    rw [set_self] at own
    rw [conns,own,fields]

end Establish

theorem closingOf_data (same : ConnectionInfo.data one = ConnectionInfo.data two) (idle : Bool) :
    closingOf one idle = closingOf two idle := by
  change closingOf one.data idle = closingOf two.data idle
  rw [same]

theorem closeEvent_detached (ctx : Context σ α) (s : Proxy σ α) (idle : Bool)
    (flag : (s.conns.memory e).inChain = false) :
    let info := s.conns.memory e
    ∃ db analyzer, closeEvent ctx s e idle = {s with
      ev := (evRemoveEvent (evRemoveEvent s.ev info.serverHandle).2 info.clientHandle).2,
      sockets := (s.sockets.close info.clientFd).close info.serverFd,
      analyzer := analyzer, db := db,
      conns := s.conns.set e {info with requestInDb := none},
      closings := s.closings ++ [closingOf info idle]} := by
  unfold closeEvent
  rw [if_pos (by simp [flag])]
  exact ⟨_,_,rfl⟩

theorem drop_spec (ctx : Context σ α) (s : Proxy σ α) (idle : Bool)
    (shape : ConnShape s.conns (before ++ e :: after) [] pool) :
    let next := dropConnection ctx s e idle
    let info := s.conns.memory e
    ConnShape next.conns (before ++ after) [] (e :: pool) ∧
    (∀ a, a ≠ e → (next.conns.memory a).data = (s.conns.memory a).data) ∧
    next.sockets = (s.sockets.close info.clientFd).close info.serverFd ∧
    next.ev = (evRemoveEvent (evRemoveEvent s.ev info.serverHandle).2 info.clientHandle).2 ∧
    next.closings = s.closings ++ [closingOf info idle] ∧
    next.openings = s.openings ∧ next.chunks = s.chunks ∧ next.connectionCounter = s.connectionCounter ∧
    next.blacklist = s.blacklist := by
  intro next info
  obtain ⟨detached,flag,data⟩ := detach_shape shape
  have same : ((detachConnectionInfoEntry s.conns e).memory e).data = info.data := data e
  have own := eq_of_data same
  have clientFd : ((detachConnectionInfoEntry s.conns e).memory e).clientFd = info.clientFd := by rw [own]
  have serverFd : ((detachConnectionInfoEntry s.conns e).memory e).serverFd = info.serverFd := by rw [own]
  have clientHandle : ((detachConnectionInfoEntry s.conns e).memory e).clientHandle = info.clientHandle := by rw [own]
  have serverHandle : ((detachConnectionInfoEntry s.conns e).memory e).serverHandle = info.serverHandle := by rw [own]
  have closing := closingOf_data same idle
  have held := detached.set_held (List.mem_singleton.mpr rfl)
    {(detachConnectionInfoEntry s.conns e).memory e with requestInDb := none}
  obtain ⟨freed,kept⟩ := free_shape held (by simpa using flag)
  obtain ⟨db,analyzer,closed⟩ := closeEvent_detached ctx {s with conns := detachConnectionInfoEntry s.conns e} idle flag
  simp only [next,dropConnection,closed]
  refine ⟨freed,?_,by rw [clientFd,serverFd],by rw [clientHandle,serverHandle],by rw [closing],trivial,trivial,trivial,
    trivial⟩
  intro a different
  rw [kept,set_other _ _ different]
  exact data a

structure SameTable (old new : Sockets) : Prop where
  table : new.table = old.table
  created : new.created = old.created
  closes : new.badCloses = old.badCloses

theorem SameTable.refl (s : Sockets) : SameTable s s := ⟨rfl,rfl,rfl⟩

theorem SameTable.trans (one : SameTable old middle) (two : SameTable middle new) : SameTable old new :=
  ⟨two.table.trans one.table,two.created.trans one.created,two.closes.trans one.closes⟩

theorem SameTable.sound (same : SameTable old new) (sound : old.Sound) : new.Sound := by
  refine ⟨fun fd k => ?_,fun fd other k => ?_⟩
  · rw [same.table,same.created]; exact sound.known fd k
  · rw [same.table]; exact sound.single fd other k

theorem read_same (s : Sockets) (fd : Int) (chunk : List UInt8) : SameTable s (s.read fd chunk).2 := by
  cases present : s.table fd with
  | none => simpa [Sockets.read,present] using SameTable.refl s
  | some k => simpa [Sockets.read,present] using ⟨rfl,rfl,rfl⟩

theorem write_same (s : Sockets) (fd : Int) (offered : List UInt8) (answer : Int) :
    SameTable s (s.write fd offered answer).2 := by
  unfold Sockets.write
  split
  · split
    · exact ⟨rfl,rfl,rfl⟩
    · exact SameTable.refl s
  · exact SameTable.refl s

theorem writeLoop_same (destination : Int) (answers : List Int) (s : Sockets) (left : List UInt8) :
    SameTable s (writeLoop destination answers s left).2 := by
  induction answers generalizing s left with
  | nil =>
      cases left with
      | nil => exact SameTable.refl s
      | cons byte left => exact SameTable.refl s
  | cons answer answers ih =>
      cases left with
      | nil => exact SameTable.refl s
      | cons byte left =>
          have first := write_same s destination (byte :: left) answer
          simp only [writeLoop]
          split
          · exact first.trans (ih _ _)
          · exact first

theorem set_set (c : Connections) (e : Nat) (one two : ConnectionInfo) : (c.set e one).set e two = c.set e two := by
  simp [Connections.set,Function.update_idem]

theorem relayChunk_frame (ctx : Context σ α) (s : Proxy σ α) (source destination : Int) (e : Nat) (input : RelayInput) :
    ∃ info sockets db analyzer chunks,
      (relayChunk ctx s source destination e input).2 =
        {s with conns := s.conns.set e info,sockets := sockets,db := db,analyzer := analyzer,chunks := chunks} ∧
      info = {s.conns.memory e with
        recent := info.recent, bytesSent := info.bytesSent, requestCount := info.requestCount,
        bytesReceived := info.bytesReceived, responseCount := info.responseCount} ∧
      SameTable s.sockets sockets := by
  unfold relayChunk passOn
  dsimp only
  have read := read_same s.sockets source input.chunk
  split
  · exact ⟨_,_,_,_,_,rfl,rfl,read⟩
  · split
    · exact ⟨_,_,_,_,_,rfl,rfl,read⟩
    · rw [set_set,set_self]
      refine ⟨_,_,_,_,_,rfl,?_,read.trans (writeLoop_same _ _ _ _)⟩
      split
      · rfl
      · rfl

-- What relaying and ending connections leave alone, and what they add to the
-- record.
structure Finishing (idle : Bool) (s next : Proxy σ α) : Prop where
  blacklist : next.blacklist = s.blacklist
  openings : next.openings = s.openings
  closings : ∃ ended, next.closings = s.closings ++ ended ∧ ∀ c ∈ ended, c.idle = idle

theorem Finishing.refl (idle : Bool) (s : Proxy σ α) : Finishing idle s s := ⟨rfl,rfl,[],by simp,by simp⟩

theorem Finishing.trans {middle next : Proxy σ α} (one : Finishing idle s middle) (two : Finishing idle middle next) :
    Finishing idle s next := by
  obtain ⟨first,closed,left⟩ := one.closings
  obtain ⟨second,closed',right⟩ := two.closings
  refine ⟨two.blacklist.trans one.blacklist,two.openings.trans one.openings,first ++ second,?_,?_⟩
  · rw [closed',closed,List.append_assoc]
  · exact fun c member => (List.mem_append.mp member).elim (left c) (right c)

theorem dropConnection_finishing (ctx : Context σ α) (s : Proxy σ α) (e : Nat) (idle : Bool) :
    Finishing idle s (dropConnection ctx s e idle) := by
  unfold dropConnection closeEvent
  dsimp only
  split
  · exact ⟨rfl,rfl,_,rfl,by simp [closingOf]⟩
  · exact ⟨rfl,rfl,[],by simp,by simp⟩

theorem doProxying_finishing (ctx : Context σ α) (s : Proxy σ α) (source destination : Int) (e : Nat) (input : RelayInput) :
    Finishing false s (doProxying ctx s source destination e input) := by
  obtain ⟨info,sockets,db,analyzer,chunks,outcome,_⟩ := relayChunk_frame ctx s source destination e input
  have relayed : Finishing false s (relayChunk ctx s source destination e input).2 := by
    rw [outcome]
    exact ⟨rfl,rfl,[],by simp,by simp⟩
  unfold doProxying
  split
  · dsimp only
    split
    · exact relayed.trans (dropConnection_finishing ctx _ e false)
    · exact relayed
  · exact Finishing.refl false s

theorem relay_finishing (ctx : Context σ α) (s : Proxy σ α) (e : Nat) (fromClient : Bool) (input : RelayInput) :
    Finishing false s (relay ctx s e fromClient input) := by
  unfold relay proxyFromClientToServer proxyFromServerToClient
  split
  · split
    · exact doProxying_finishing ctx s _ _ e input
    · exact doProxying_finishing ctx s _ _ e input
  · exact Finishing.refl false s

theorem sweep_finishing (ctx : Context σ α) (now : Timeval) (timeout : ℚ) (todo : List Nat) (s : Proxy σ α) :
    Finishing true s (todo.foldl (sweepIdle ctx now timeout) s) := by
  refine List.foldlRecOn todo _ (Finishing.refl true s) fun next before e _ => ?_
  unfold sweepIdle
  split
  · exact before.trans (dropConnection_finishing ctx next e true)
  · exact before

theorem cleanIdle_finishing (ctx : Context σ α) (s : Proxy σ α) (now : Timeval) (timeout : ℚ) :
    Finishing true s (cleanIdleConnections ctx s now timeout) := by
  have swept := sweep_finishing ctx now timeout (snapshot s.conns).1 {s with conns := (snapshot s.conns).2}
  exact ⟨swept.blacklist,swept.openings,swept.closings⟩

theorem setDefaultChannel_frame (ctx : Context σ α) (s : Proxy σ α) (channel : Int) :
    ∃ defaultServer, setDefaultChannel ctx s channel = {s with defaultServer := defaultServer} := by
  unfold setDefaultChannel
  split
  · exact ⟨channel,rfl⟩
  · exact ⟨s.defaultServer,rfl⟩

theorem setFallbackChannel_frame (ctx : Context σ α) (s : Proxy σ α) (channel : Int) :
    ∃ onFailedChannel, setFallbackChannel ctx s channel = {s with onFailedChannel := onFailedChannel} := by
  unfold setFallbackChannel
  split
  · exact ⟨channel,rfl⟩
  · exact ⟨s.onFailedChannel,rfl⟩

-- The invariant rule of the proxy: `valid` speaks about a state together with
-- its chain and pool. The idle sweep asks for the drop of one entry only.
structure Invariant (ctx : Context σ α) (allowed : Proxy σ α → Event → Prop)
    (valid : Proxy σ α → List Nat → List Nat → Prop) : Prop where
  shape : ∀ {s chain pool}, valid s chain pool → ConnShape s.conns chain [] pool
  accept : ∀ {s chain pool input}, valid s chain pool → allowed s (.accept input) →
    ∃ chain' pool', valid (mainListener ctx s input) chain' pool'
  relay : ∀ {s chain pool e fromClient input}, valid s chain pool → allowed s (.relay e fromClient input) →
    e ∈ chain → ∃ chain' pool', valid (relay ctx s e fromClient input) chain' pool'
  drop : ∀ {s before e after pool}, valid s (before ++ e :: after) pool →
    valid (dropConnection ctx s e true) (before ++ after) (e :: pool)
  other : ∀ {s chain pool}, valid s chain pool → ∀ holder size db blacklist defaultServer onFailedChannel,
    (db = s.db ∨ ∃ now, db = ctx.db.closeIdle s.db now) →
    valid {s with conns := {s.conns with expiringHolder := holder,sizeOfExpiringHolder := size},
                  db := db, blacklist := blacklist,
                  defaultServer := defaultServer, onFailedChannel := onFailedChannel} chain pool

theorem snapshot_frame (c : Connections) :
    ∃ holder size, (snapshot c).2 = {c with expiringHolder := holder,sizeOfExpiringHolder := size} := by
  unfold snapshot
  split
  · dsimp only
    split
    · exact ⟨_,_,rfl⟩
    · exact ⟨_,_,rfl⟩
  · exact ⟨_,_,rfl⟩

variable {allowed : Proxy σ α → Event → Prop} {valid : Proxy σ α → List Nat → List Nat → Prop}

theorem Invariant.sweep (rule : Invariant ctx allowed valid) (now : Timeval) (timeout : ℚ) (todo : List Nat)
    (once : todo.Nodup) (inside : ∀ e ∈ todo, e ∈ chain) (before : valid s chain pool) :
    ∃ chain' pool', valid (todo.foldl (sweepIdle ctx now timeout) s) chain' pool' := by
  induction todo generalizing s chain pool with
  | nil => exact ⟨chain,pool,before⟩
  | cons e rest ih =>
      obtain ⟨outside,rest_once⟩ := List.nodup_cons.mp once
      simp only [List.foldl_cons,sweepIdle]
      split
      · obtain ⟨left,right,rfl⟩ := List.append_of_mem (inside e (by simp))
        refine ih rest_once (fun a member => ?_) (rule.drop before)
        have different : a ≠ e := fun equal => outside (equal ▸ member)
        have old := inside a (List.mem_cons_of_mem _ member)
        simpa [different] using old
      · exact ih rest_once (fun a member => inside a (List.mem_cons_of_mem _ member)) before

theorem relay_ignored (shape : ConnShape s.conns chain [] pool) (outside : e ∉ chain) (fromClient : Bool)
    (input : RelayInput) : Proxying.relay ctx s e fromClient input = s := by
  by_cases below : e < s.conns.numberOfAllocation
  · have flag : ¬ (s.conns.memory e).inChain = true := fun flag => outside ((shape.inChain_iff below).mp flag)
    cases fromClient <;>
      simp [Proxying.relay,below,proxyFromClientToServer,proxyFromServerToClient,doProxying,flag]
  · simp [Proxying.relay,below]

theorem relay_keeps (fromClient : Bool) (input : RelayInput) (shape : ConnShape s.conns chain [] pool)
    (inside : e ∈ chain)
    (relayed : ∀ source destination, valid (relayChunk ctx s source destination e input).2 chain pool)
    (dropped : ∀ {s before after pool}, valid s (before ++ e :: after) pool →
      valid (dropConnection ctx s e false) (before ++ after) (e :: pool)) :
    ∃ chain' pool', valid (relay ctx s e fromClient input) chain' pool' := by
  have kept : ∀ source destination, ∃ chain' pool', valid (doProxying ctx s source destination e input) chain' pool' := by
    intro source destination
    simp only [doProxying,shape.attached e inside,if_true]
    split
    · obtain ⟨before,after,rfl⟩ := List.append_of_mem inside
      exact ⟨_,_,dropped (relayed source destination)⟩
    · exact ⟨chain,pool,relayed source destination⟩
  simp only [relay,shape.below (List.mem_append_left _ inside),if_true]
  cases fromClient with
  | true => exact kept _ _
  | false => exact kept _ _

theorem Invariant.step (rule : Invariant ctx allowed valid) (before : valid s chain pool)
    (may : allowed s event) : ∃ chain' pool', valid (step ctx s event) chain' pool' := by
  have other := rule.other before
  cases event with
  | accept input => exact rule.accept before may
  | relay e fromClient input =>
      by_cases inside : e ∈ chain
      · exact rule.relay before may inside
      · exact ⟨chain,pool,by simpa only [Proxying.step,relay_ignored (rule.shape before) inside] using before⟩
  | cleanIdle now timeout =>
      obtain ⟨entries,shape,_⟩ := snapshot_spec (rule.shape before)
      obtain ⟨holder,size,conns⟩ := snapshot_frame s.conns
      simp only [Proxying.step,cleanIdleConnections]
      rw [entries,conns]
      exact rule.sweep now timeout chain (links_nodup shape.linked) (fun e member => member)
        (other holder size s.db s.blacklist s.defaultServer s.onFailedChannel (.inl rfl))
  | expiring now => exact ⟨chain,pool,other _ _ _ _ _ _ (.inl rfl)⟩
  | closeIdle now => exact ⟨chain,pool,other _ _ _ _ _ _ (.inr ⟨now,rfl⟩)⟩
  | setDefaultChannel channel =>
      obtain ⟨defaultServer,same⟩ := setDefaultChannel_frame ctx s channel
      rw [Proxying.step,same]
      exact ⟨chain,pool,other _ _ _ _ _ _ (.inl rfl)⟩
  | setFallbackChannel channel =>
      obtain ⟨onFailedChannel,same⟩ := setFallbackChannel_frame ctx s channel
      rw [Proxying.step,same]
      exact ⟨chain,pool,other _ _ _ _ _ _ (.inl rfl)⟩

theorem Invariant.run (rule : Invariant ctx allowed valid) (initial : valid s [] []) (events : List Event)
    (along : Machine.Along (Proxying.step ctx) allowed s events) :
    ∃ chain pool, valid (Machine.run (Proxying.step ctx) s events) chain pool :=
  Machine.run_invariant (fun s => ∃ chain pool, valid s chain pool) ⟨[],[],initial⟩
    (fun _ _ ⟨_,_,before⟩ may => rule.step before may) events along

end TcpProxy.Proxying
