import TcpProxy.Events.Registry
import TcpProxy.Proxying.Steps

namespace TcpProxy.Proxying
open Events AutoBlacklist LinkedChain

variable {σ α : Type} {ctx : Context σ α} {s : Proxy σ α} {listener : Nat} {chain pool : List Nat}

-- The two registrations a connection should have, under its stored handles.
def clientRow (c : Connections) (e : Nat) : Nat × Registration Handler (Option Nat) :=
  ((c.memory e).clientHandle.toNat,⟨(c.memory e).clientFd,.proxyFromClientToServer,some e⟩)
def serverRow (c : Connections) (e : Nat) : Nat × Registration Handler (Option Nat) :=
  ((c.memory e).serverHandle.toNat,⟨(c.memory e).serverFd,.proxyFromServerToClient,some e⟩)

def rowsOf (c : Connections) (chain : List Nat) : Live Handler (Option Nat) :=
  chain.flatMap fun e => [clientRow c e,serverRow c e]

def listenerRow (listener : Nat) : Nat × Registration Handler (Option Nat) := (0,⟨listener,.mainListener,none⟩)

structure Mapped (listener : Nat) (s : Proxy σ α) (chain pool : List Nat) : Prop where
  shape : ConnShape s.conns chain [] pool
  handles : ∀ e ∈ chain, 0 ≤ (s.conns.memory e).clientHandle ∧ 0 ≤ (s.conns.memory e).serverHandle
  rows : Represents s.ev (listenerRow listener :: rowsOf s.conns chain)

theorem rows_congr (same : (ConnectionInfo.data (next.memory e)) = (c.memory e).data) :
    clientRow next e = clientRow c e ∧ serverRow next e = serverRow c e ∧
      (next.memory e).clientHandle = (c.memory e).clientHandle ∧
      (next.memory e).serverHandle = (c.memory e).serverHandle := by
  have clientFd : (next.memory e).clientFd = (c.memory e).clientFd := by rw [eq_of_data same]
  have serverFd : (next.memory e).serverFd = (c.memory e).serverFd := by rw [eq_of_data same]
  have clientHandle : (next.memory e).clientHandle = (c.memory e).clientHandle := by rw [eq_of_data same]
  have serverHandle : (next.memory e).serverHandle = (c.memory e).serverHandle := by rw [eq_of_data same]
  refine ⟨?_,?_,clientHandle,serverHandle⟩
  · rw [clientRow,clientRow,clientFd,clientHandle]
  · rw [serverRow,serverRow,serverFd,serverHandle]

theorem rowsOf_congr (same : ∀ e ∈ chain, (ConnectionInfo.data (next.memory e)) = (c.memory e).data) :
    rowsOf next chain = rowsOf c chain := by
  induction chain with
  | nil => rfl
  | cons e rest ih =>
      obtain ⟨client,server,_⟩ := rows_congr (same e (by simp))
      have others := ih (fun a member => same a (List.mem_cons_of_mem _ member))
      simp only [rowsOf,List.flatMap_cons] at others ⊢
      rw [client,server,others]

theorem drop_mapped (ctx : Context σ α) (idle : Bool) (valid : Mapped listener s (before ++ e :: after) pool) :
    Mapped listener (dropConnection ctx s e idle) (before ++ after) (e :: pool) := by
  obtain ⟨shape,data,_,ev,_⟩ := drop_spec ctx s idle valid.shape
  have apart : ∀ a ∈ before ++ after, a ≠ e := fun a member => valid.shape.middle_apart member
  obtain ⟨clientHandle,serverHandle⟩ := valid.handles e (by simp)
  have moved : (listenerRow listener :: rowsOf s.conns (before ++ e :: after)).Perm
      (serverRow s.conns e :: clientRow s.conns e :: listenerRow listener :: rowsOf s.conns (before ++ after)) := by
    have middle : (rowsOf s.conns (before ++ e :: after)).Perm
        (clientRow s.conns e :: serverRow s.conns e :: rowsOf s.conns (before ++ after)) :=
      List.Perm.flatMap_right _ List.perm_middle
    exact ((middle.trans (List.Perm.swap _ _ _)).cons _).trans
      ((List.Perm.swap _ _ _).trans ((List.Perm.swap _ _ _).cons _))
  have rows := valid.rows.perm moved
  have unshared := rows.unshared
  rw [List.map_cons,List.nodup_cons,List.map_cons,List.nodup_cons] at unshared
  obtain ⟨serverFresh,clientFresh,_⟩ := unshared
  have one := remove_represents rows (show (serverRow s.conns e).1 ∈ _ by simp)
  rw [withoutIndex_cons _ serverFresh] at one
  have two := remove_represents one (show (clientRow s.conns e).1 ∈ _ by simp)
  rw [withoutIndex_cons _ clientFresh] at two
  have serverIndex : ((serverRow s.conns e).1 : Int) = (s.conns.memory e).serverHandle :=
    Int.toNat_of_nonneg serverHandle
  have clientIndex : ((clientRow s.conns e).1 : Int) = (s.conns.memory e).clientHandle :=
    Int.toNat_of_nonneg clientHandle
  rw [serverIndex,clientIndex] at two
  refine ⟨shape,?_,?_⟩
  · intro a member
    obtain ⟨_,_,client,server⟩ := rows_congr (data a (apart a member))
    rw [client,server]
    exact valid.handles a (by
      rcases List.mem_append.mp member with left | right
      · exact List.mem_append_left _ left
      · exact List.mem_append_right _ (List.mem_cons_of_mem _ right))
  · rw [ev,rowsOf_congr (fun a member => data a (apart a member))]
    exact two

theorem relayChunk_mapped (ctx : Context σ α) (source destination : Int) (e : Nat) (input : RelayInput)
    (valid : Mapped listener s chain pool) :
    Mapped listener (relayChunk ctx s source destination e input).2 chain pool := by
  obtain ⟨info,sockets,db,analyzer,chunks,outcome,fields,_⟩ := relayChunk_frame ctx s source destination e input
  rw [outcome]
  have same : ∀ a, clientRow (s.conns.set e info) a = clientRow s.conns a ∧
      serverRow (s.conns.set e info) a = serverRow s.conns a ∧
      ((s.conns.set e info).memory a).clientHandle = (s.conns.memory a).clientHandle ∧
      ((s.conns.set e info).memory a).serverHandle = (s.conns.memory a).serverHandle := by
    intro a
    by_cases equal : a = e
    · subst a
      simp only [clientRow,serverRow,set_self]
      rw [fields]
      exact ⟨rfl,rfl,rfl,rfl⟩
    · simp only [clientRow,serverRow,set_other _ _ equal,and_self]
  refine ⟨valid.shape.set_data e info (by rw [fields]) (by rw [fields]) (by rw [fields]),?_,?_⟩
  · intro a member
    rw [(same a).2.2.1,(same a).2.2.2]
    exact valid.handles a member
  · have rows : rowsOf (s.conns.set e info) chain = rowsOf s.conns chain := by simp only [rowsOf,same]
    rw [rows]
    exact valid.rows

-- There is room for both registrations of a connection that will be attached,
-- and the kernel takes them.
def Registrable (ctx : Context σ α) (s : Proxy σ α) : Event → Prop
  | .accept input => Connects ctx s input →
      evCount s.ev ≤ 1022 ∧ input.epollClient = true ∧ input.epollServer = true
  | _ => True

theorem two_registrations {data : EventLoopData Handler (Option Nat)} (rows : Represents data live)
    (fdc proxyFd : Int) (e : Nat) (one : 0 ≤ fdc) (two : 0 ≤ proxyFd) :
    let client := evAddEvent data fdc .proxyFromClientToServer (some e) true
    let server := evAddEvent client.2 proxyFd .proxyFromServerToClient (some e) true
    if evCount data ≤ 1022 then
      0 ≤ client.1 ∧ 0 ≤ server.1 ∧
      Represents server.2 ((server.1.toNat,⟨proxyFd,.proxyFromServerToClient,some e⟩) ::
        (client.1.toNat,⟨fdc,.proxyFromClientToServer,some e⟩) :: live)
    else client.1 < 0 ∨ server.1 < 0 := by
  intro client server
  have counted : evCount data = live.length := rows.counted
  rcases add_represents rows one Handler.proxyFromClientToServer (some e) with
    ⟨i,clientAt,_,middle⟩ | ⟨clientAt,full⟩
  · have clientAt : client.1 = i := clientAt
    rcases add_represents middle two Handler.proxyFromServerToClient (some e) with
      ⟨j,serverAt,_,last⟩ | ⟨serverAt,full⟩
    · have serverAt : server.1 = j := serverAt
      have length := last.length_le
      simp only [List.length_cons] at length
      rw [if_pos (by omega),clientAt,serverAt,Int.toNat_natCast,Int.toNat_natCast]
      exact ⟨Int.natCast_nonneg i,Int.natCast_nonneg j,last⟩
    · have serverAt : server.1 = -2 := congrArg Prod.fst serverAt
      simp only [List.length_cons,maxEventsLimit] at full
      rw [if_neg (by omega)]
      exact .inr (by omega)
  · have clientAt : client.1 = -2 := congrArg Prod.fst clientAt
    simp only [maxEventsLimit] at full
    rw [if_neg (by omega)]
    exact .inl (by omega)

theorem accept_mapped (input : AcceptInput) (valid : Mapped listener s chain pool)
    (room : Registrable ctx s (.accept input)) :
    ∃ chain' pool', Mapped listener (mainListener ctx s input) chain' pool' := by
  rcases accept_cases ctx s input with
    ⟨sockets,db,blacklist,counter,fds,outcome,_⟩ |
    ⟨sockets,db,blacklist,fdc,proxyFd,admission,remoteIp,outcome,path,connects,_⟩
  · rw [outcome]
    exact ⟨chain,pool,valid.shape,valid.handles,valid.rows⟩
  · obtain ⟨space,client,server⟩ := room connects
    obtain ⟨⟨rest,shape⟩,outside,data,fields,ev,_⟩ := establish_spec ctx
      {s with sockets := sockets,db := db,blacklist := blacklist,connectionCounter := s.connectionCounter+1}
      fdc proxyFd (s.connectionCounter+1) admission remoteIp input valid.shape
    rw [← outcome] at shape data fields ev
    have registered := two_registrations valid.rows fdc proxyFd (allocateConnectionInfo s.conns).1
      (path.fresh fdc (by simp)).2 (path.fresh proxyFd (by simp)).2
    rw [if_pos space] at registered
    rw [client,server] at fields ev
    generalize (allocateConnectionInfo s.conns).1 = e at shape outside data fields ev registered
    generalize mainListener ctx s input = next at *
    obtain ⟨clientNonneg,serverNonneg,rows⟩ := registered
    have apart : ∀ a ∈ chain, a ≠ e := fun a member equal => outside (equal ▸ member)
    refine ⟨e :: chain,rest,shape,?_,?_⟩
    · intro a member
      rcases List.mem_cons.mp member with rfl | old
      · rw [fields]
        exact ⟨clientNonneg,serverNonneg⟩
      · obtain ⟨_,_,clientSame,serverSame⟩ := rows_congr (data a (apart a old))
        rw [clientSame,serverSame]
        exact valid.handles a old
    · have own : rowsOf next.conns (e :: chain) =
          clientRow next.conns e :: serverRow next.conns e :: rowsOf s.conns chain := by
        rw [← rowsOf_congr (fun a member => data a (apart a member))]
        rfl
      rw [own,ev,clientRow,serverRow,fields]
      refine rows.perm ?_
      exact ((List.Perm.swap _ _ _).trans ((List.Perm.swap _ _ _).cons _ |>.trans (List.Perm.swap _ _ _)))

theorem mapped_invariant (ctx : Context σ α) (listener : Nat) :
    Invariant ctx (Registrable ctx) (Mapped listener) where
  shape valid := valid.shape
  accept valid room := accept_mapped _ valid room
  relay valid _ inside := relay_keeps _ _ valid.shape inside
    (fun _ _ => relayChunk_mapped ctx _ _ _ _ valid) (drop_mapped ctx false)
  drop valid := drop_mapped ctx true valid
  other valid _ _ _ _ _ _ _ :=
    ⟨valid.shape.keep rfl rfl rfl rfl (fun _ _ => ⟨rfl,rfl,rfl⟩),valid.handles,valid.rows⟩

theorem initial_mapped (listener : Nat) (memory : Nat → ConnectionInfo) (blacklist : Table) (db : σ)
    (analyzer : α) (defaultServer onFailedChannel : Int) :
    Mapped listener (proxyMain listener memory blacklist db analyzer defaultServer onFailedChannel) [] [] := by
  refine ⟨new_connShape memory,by simp,?_⟩
  rcases add_represents (new_represents Handler.mainListener (none : Option Nat)) (Int.natCast_nonneg listener)
      Handler.mainListener none with ⟨index,answer,_,rows⟩ | ⟨answer,_⟩
  · have first : (index : Int) = 0 := answer.symm.trans rfl
    obtain rfl : index = 0 := by omega
    exact rows
  · cases congrArg Prod.fst answer

def LiveSlot (s : Proxy σ α) (i : Nat) : Prop := i < s.ev.maxEvents ∧ 0 ≤ s.ev.fds i

def RegisteredAt (s : Proxy σ α) (handle fd : Int) (handler : Handler) (e : Nat) : Prop :=
  ∃ i : Nat, handle = i ∧ LiveSlot s i ∧ s.ev.slot i = ⟨fd,handler,some e⟩

def Agrees (listener : Nat) (s : Proxy σ α) : Prop :=
  ∃ chain, Links s.conns.nextOf s.conns.infos chain ∧
    (∀ e ∈ chain,
      let info := s.conns.memory e
      RegisteredAt s info.clientHandle info.clientFd .proxyFromClientToServer e ∧
      RegisteredAt s info.serverHandle info.serverFd .proxyFromServerToClient e) ∧
    ∀ i, LiveSlot s i → s.ev.slot i = ⟨listener,.mainListener,none⟩ ∨
      ∃! e, e ∈ chain ∧ ((i : Int) = (s.conns.memory e).clientHandle ∨ (i : Int) = (s.conns.memory e).serverHandle)

theorem mapped_agrees (valid : Mapped listener s chain pool) : Agrees listener s := by
  have registered : ∀ e ∈ chain,
      (clientRow s.conns e ∈ rowsOf s.conns chain) ∧ (serverRow s.conns e ∈ rowsOf s.conns chain) := by
    intro e member
    exact ⟨List.mem_flatMap.mpr ⟨e,member,by simp⟩,List.mem_flatMap.mpr ⟨e,member,by simp⟩⟩
  have live : ∀ row ∈ listenerRow listener :: rowsOf s.conns chain, LiveSlot s row.1 ∧ s.ev.slot row.1 = row.2 :=
    fun row member => ⟨valid.rows.live_fd (List.mem_map_of_mem member),(valid.rows.designated row member).2.1⟩
  have once := List.inj_on_of_nodup_map valid.rows.unshared
  refine ⟨chain,valid.shape.linked,?_,?_⟩
  · intro e member
    obtain ⟨client,server⟩ := registered e member
    obtain ⟨clientNonneg,serverNonneg⟩ := valid.handles e member
    exact ⟨⟨_,(Int.toNat_of_nonneg clientNonneg).symm,live _ (List.mem_cons_of_mem _ client)⟩,
      ⟨_,(Int.toNat_of_nonneg serverNonneg).symm,live _ (List.mem_cons_of_mem _ server)⟩⟩
  · intro i slot
    have present := (valid.rows.covered i slot.1).resolve_left (by have := slot.2; omega)
    obtain ⟨row,member,rfl⟩ := List.mem_map.mp present
    rcases List.mem_cons.mp member with rfl | inside
    · exact .inl (live _ member).2
    · right
      obtain ⟨e,chained,own⟩ := List.mem_flatMap.mp inside
      obtain ⟨clientNonneg,serverNonneg⟩ := valid.handles e chained
      refine ⟨e,⟨chained,?_⟩,?_⟩
      · rcases List.mem_cons.mp own with rfl | last
        · exact .inl (Int.toNat_of_nonneg clientNonneg)
        · obtain rfl : row = serverRow s.conns e := by simpa using last
          exact .inr (Int.toNat_of_nonneg serverNonneg)
      · -- Another connection with this handle would have a row under the same key.
        rintro a ⟨other,handle⟩
        obtain ⟨client,server⟩ := registered a other
        have arg : row.2.args = some e := by
          rcases List.mem_cons.mp own with rfl | last
          · rfl
          · obtain rfl : row = serverRow s.conns e := by simpa using last
            rfl
        have same : row.2.args = some a := by
          rcases handle with isClient | isServer
          · have key : (clientRow s.conns a).1 = row.1 := by simp only [clientRow]; omega
            rw [← once (List.mem_cons_of_mem _ client) member key]
            rfl
          · have key : (serverRow s.conns a).1 = row.1 := by simp only [serverRow]; omega
            rw [← once (List.mem_cons_of_mem _ server) member key]
            rfl
        exact Option.some.inj (same.symm.trans arg)

-- A registration that failed leaves a negative handle in the chain.
theorem unregistered_disagrees (valid : Mapped listener s chain pool)
    (crowded : ¬ Registrable ctx s (.accept input)) : ¬ Agrees listener (mainListener ctx s input) := by
  obtain ⟨connects,short⟩ := Classical.not_imp.mp crowded
  rintro ⟨chain',linked,registered,_⟩
  rcases accept_cases ctx s input with
    ⟨_,_,_,_,_,_,_,_,_,alone⟩ | ⟨sockets,db,blacklist,fdc,proxyFd,admission,remoteIp,outcome,path,_,_⟩
  · exact alone connects
  · obtain ⟨⟨rest,shape⟩,_,_,fields,_⟩ := establish_spec ctx
      {s with sockets := sockets,db := db,blacklist := blacklist,connectionCounter := s.connectionCounter+1}
      fdc proxyFd (s.connectionCounter+1) admission remoteIp input valid.shape
    rw [← outcome] at shape fields
    have limits := two_registrations valid.rows fdc proxyFd (allocateConnectionInfo s.conns).1
      (path.fresh fdc (by simp)).2 (path.fresh proxyFd (by simp)).2
    dsimp only at shape fields limits
    generalize (allocateConnectionInfo s.conns).1 = e at shape fields limits
    obtain rfl := links_unique linked shape.linked
    obtain ⟨⟨i,clientAt,_⟩,⟨j,serverAt,_⟩⟩ := registered e (by simp)
    rw [fields] at clientAt serverAt
    dsimp only at clientAt serverAt
    cases client : input.epollClient with
    | false =>
        have refused := add_refused s.ev fdc Handler.proxyFromClientToServer (some e)
        rw [client] at clientAt
        omega
    | true =>
        cases server : input.epollServer with
        | false =>
            have refused := add_refused (evAddEvent s.ev fdc .proxyFromClientToServer (some e) input.epollClient).2
              proxyFd Handler.proxyFromServerToClient (some e)
            rw [server] at serverAt
            omega
        | true =>
            rw [if_neg (fun space => short ⟨space,client,server⟩)] at limits
            rw [client] at clientAt serverAt
            rw [server] at serverAt
            omega

theorem agreement_iff_registrable (ctx : Context σ α) (listener : Nat) (memory : Nat → ConnectionInfo)
    (blacklist : Table) (db : σ) (analyzer : α) (defaultServer onFailedChannel : Int) (events : List Event) :
    let start := proxyMain listener memory blacklist db analyzer defaultServer onFailedChannel
    (∀ earlier later, events = earlier ++ later → Agrees listener (Machine.run (step ctx) start earlier)) ↔
    Machine.Along (step ctx) (Registrable ctx) start events := by
  intro start
  refine Machine.exact_condition (fun s => ∃ chain pool, Mapped listener s chain pool)
    ⟨[],[],initial_mapped listener memory blacklist db analyzer defaultServer onFailedChannel⟩
    (fun _ _ ⟨_,_,valid⟩ room => (mapped_invariant ctx listener).step valid room)
    (fun _ ⟨_,_,valid⟩ => mapped_agrees valid) ?_ events
  rintro s event ⟨chain,pool,valid⟩ agrees
  cases event with
  | accept input => exact Classical.not_not.mp fun crowded => unregistered_disagrees valid crowded agrees
  | relay _ _ _ => trivial
  | cleanIdle _ _ => trivial
  | expiring _ => trivial
  | closeIdle _ => trivial
  | setDefaultChannel _ => trivial
  | setFallbackChannel _ => trivial

-- The kernel refuses the second registration: the connection is attached all
-- the same, and nothing will ever be read from its server.
theorem refused_registration_disagrees :
    ¬ Agrees 3 (Machine.run (step (oneServer "10.0.0.2")) freshProxy
      [.accept {visitor 5 6 with epollServer := false}]) := by
  rintro ⟨chain,linked,registered,_⟩
  obtain ⟨rest,rfl,_⟩ := links_some (show Links _ (some 0) chain from linked)
  obtain ⟨_,⟨i,handle,_⟩⟩ := registered 0 (by simp)
  have refused : ((Machine.run (step (oneServer "10.0.0.2")) freshProxy
      [.accept {visitor 5 6 with epollServer := false}]).conns.memory 0).serverHandle = -1 := by decide
  omega

end TcpProxy.Proxying
