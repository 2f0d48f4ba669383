import TcpProxy.Database.Records
import TcpProxy.Proxying.Descriptors

namespace TcpProxy.Proxying
open LinkedChain Database

variable {α : Type}

-- A plugin that uses the database as its service allows: what it makes of a
-- chunk is a list of calls.
structure Plugin (α : Type) where
  allocate : α → Option Nat × α
  release : α → Option Nat → α
  analyze : α → DbService → ConnectionInfo → Bool → List UInt8 → α × List Operation

def Plugin.packetAnalyzer (plugin : Plugin α) : PacketAnalyzer α DbService where
  allocate := plugin.allocate
  release := plugin.release
  analyzePacket a db info fromClient data :=
    let (a,calls) := plugin.analyze a db info fromClient data
    (a,Machine.run operate db calls)

def installation (settings : Settings) (plugin : Plugin α) : Context DbService α :=
  ⟨settings,service,plugin.packetAnalyzer⟩

-- The call of connection_established that an attempt is about to make: the
-- database as it is then, the request and the address.
def registering (ctx : Context DbService α) (s : Proxy DbService α) (input : AcceptInput) :
    Option (DbService × DbProxyRequest × String) :=
  match dialled ctx s input,input.peer with
  | some server,some peer =>
    if 0 ≤ (connectHost (s.sockets.create input.accept).2 server input).1 then
      let admitted := admitPeer ctx (arrived s input) input.now peer
      admitted.1.requestInDb.map fun request => (admitted.2.db,request,inetNtop peer.address)
    else none
  | _,_ => none

def recordOf (ctx : Context DbService α) (s : Proxy DbService α) : Event → Option (Int × Option Nat)
  | .accept input => (registering ctx s input).map fun (db,request,remoteIp) =>
      (s.connectionCounter+1,insertedBy db request.sn request.account remoteIp)
  | _ => none

structure Audited (α : Type) where
  proxy : Proxy DbService α
  book : List (Int × Option Nat)

def audit (ctx : Context DbService α) (a : Audited α) (event : Event) : Audited α :=
  ⟨step ctx a.proxy event,a.book ++ (recordOf ctx a.proxy event).toList⟩

def OwnRow (book : List (Int × Option Nat)) (connectionId : Int) (sn : Option Int) : Prop :=
  ∀ v, sn = some v → v = 0 ∨ ∃ n : Nat, (connectionId,some n) ∈ book ∧ v = n

-- Connections that were closed passed zero or the number of their own row to
-- connection_close, those in the chain hold it, and no two connections have
-- passed the same row.
structure Unmixed (a : Audited α) : Prop where
  closed : ∀ c ∈ a.proxy.closings, OwnRow a.book c.connectionId c.sn
  apart : ∀ c ∈ a.proxy.closings, ∀ d ∈ a.proxy.closings, ∀ v, c.sn = some v → d.sn = some v → v ≠ 0 →
    c.connectionId = d.connectionId
  attached : ∃ chain, Links a.proxy.conns.nextOf a.proxy.conns.infos chain ∧ ∀ e ∈ chain,
    OwnRow a.book (a.proxy.conns.memory e).connectionId (closingOf (a.proxy.conns.memory e) false).sn

def Recordable (ctx : Context DbService α) (a : Audited α) : Event → Prop
  | .accept input => ∀ db request remoteIp, registering ctx a.proxy input = some (db,request,remoteIp) →
      Traceable db request.sn request.account remoteIp
  | _ => True

-- One state of the database can be reached from another by calls of the service.
def Uses (before after : DbService) : Prop := ∃ calls, after = Machine.run operate before calls

theorem Uses.refl (db : DbService) : Uses db db := ⟨[],rfl⟩

theorem Uses.call (db : DbService) (op : Operation) : Uses db (operate db op) := ⟨[op],rfl⟩

theorem Uses.trans (one : Uses before middle) (two : Uses middle after) : Uses before after := by
  obtain ⟨calls,rfl⟩ := one
  obtain ⟨more,rfl⟩ := two
  exact ⟨calls ++ more,(Machine.run_append operate before calls more).symm⟩

theorem Uses.perhaps (uses : Uses before after) (p : Prop) [Decidable p] :
    Uses before (if p then after else before) := by
  split
  · exact uses
  · exact Uses.refl before

theorem Uses.rows (uses : Uses before after) : before.lastRow ≤ after.lastRow := by
  obtain ⟨calls,rfl⟩ := uses
  exact Machine.run_preserves (fun db => before.lastRow ≤ db.lastRow) (Nat.le_refl _)
    (fun db op grown => grown.trans (operate_rows db op)) calls

section Calls
variable (settings : Settings) (plugin : Plugin α) (s : Proxy DbService α)

theorem guessChannel_uses (db : DbService) (remoteIp : String) (accessCounter channel : Int) :
    Uses db (guessChannel (installation settings plugin) s db remoteIp accessCounter channel).2 := by
  unfold guessChannel
  split
  · exact Uses.call db (.failGuessing remoteIp)
  · exact Uses.refl db

theorem checkThreshold_uses (db : DbService) (remoteIp : String) (accessCounter : Int) :
    Uses db (checkThreshold (installation settings plugin) db remoteIp accessCounter).2 := by
  have asked := Uses.call db (.checkVip remoteIp)
  unfold checkThreshold
  split
  · dsimp only
    split
    · split
      · exact asked.trans (Uses.call _ (.addIpToAutoBlacklist remoteIp))
      · exact asked
    · exact asked
  · exact Uses.refl db

theorem checkPersistence_uses (db : DbService) (remoteIp : String) (now logTime : Timeval) :
    Uses db (checkPersistence (installation settings plugin) db remoteIp now logTime) := by
  have asked := Uses.call db (.checkVip remoteIp)
  unfold checkPersistence
  split
  · dsimp only
    split
    · exact asked.trans (Uses.call _ (.addIpToAutoBlacklist remoteIp))
    · exact asked
  · exact Uses.refl db

theorem limitAccess_uses (remoteIp : String) (now : Timeval) (address : UInt32) (blacklisted : Bool)
    (channel : Int) :
    Uses s.db (limitAccess (installation settings plugin) s remoteIp now address blacklisted channel).2.db := by
  unfold limitAccess
  dsimp only
  split
  · exact Uses.refl s.db
  · dsimp only
    generalize ((AutoBlacklist.findAndIncrease s.blacklist now address).2.memory
      (AutoBlacklist.findAndIncrease s.blacklist now address).1).counter = counter
    refine ((guessChannel_uses settings plugin s s.db remoteIp counter channel).trans
      (checkThreshold_uses settings plugin _ remoteIp counter)).trans ?_
    exact (checkPersistence_uses settings plugin _ remoteIp now _).perhaps _

theorem admitPeer_uses (now : Timeval) (peer : Peer) :
    Uses s.db (admitPeer (installation settings plugin) s now peer).2.db := by
  have checked := Uses.call s.db (.checkAvailable (inetNtop peer.address))
  unfold admitPeer
  dsimp only
  split
  · exact checked
  · split
    · have counted := checked.trans (Uses.call _ (.connectionBlacklisted (inetNtop peer.address)))
      split
      · exact counted.trans (limitAccess_uses settings plugin _ _ _ _ _ _)
      · exact counted
    · exact checked

theorem dropConnection_uses (e : Nat) (idle : Bool) :
    Uses s.db (dropConnection (installation settings plugin) s e idle).db := by
  unfold dropConnection closeEvent
  dsimp only
  split
  · dsimp only
    split
    · exact (Uses.call s.db (.connectionClose _ _ _ idle)).trans (Uses.call _ .done)
    · exact Uses.call s.db .done
  · exact Uses.refl _

theorem relayChunk_uses (source destination : Int) (e : Nat) (input : RelayInput) :
    Uses s.db (relayChunk (installation settings plugin) s source destination e input).2.db := by
  unfold relayChunk
  dsimp only
  split
  · exact Uses.refl _
  · split
    · exact ⟨_,rfl⟩
    · exact ⟨_,rfl⟩

theorem establish_uses (fdc proxyFd connectionId : Int) (admission : Admission) (remoteIp : String)
    (input : AcceptInput) :
    Uses s.db (establish (installation settings plugin) s fdc proxyFd connectionId admission remoteIp input).db := by
  cases request : admission.requestInDb with
  | none =>
      simp only [establish,request]
      exact Uses.refl s.db
  | some row =>
      simp only [establish,request]
      exact Uses.call s.db (.connectionEstablished row.sn row.account remoteIp)

theorem forward_uses (fdc connectionId : Int) (admission : Admission) (remoteIp : String) (input : AcceptInput) :
    Uses s.db (forward (installation settings plugin) s fdc connectionId admission remoteIp input).db := by
  obtain ⟨blacklist,_,outcome⟩ :=
    forward_cases (installation settings plugin) s fdc connectionId admission remoteIp input
  rw [outcome]
  dsimp only
  split
  · exact establish_uses settings plugin _ _ _ _ _ _ _
  · exact Uses.refl s.db

theorem refuse_uses (fdc : Int) (admission : Admission) (remoteIp : String) (now : Timeval) :
    Uses s.db (refuse (installation settings plugin) s fdc admission remoteIp now).db := by
  have told := Uses.call s.db (.connectionNotAllowed remoteIp)
  unfold refuse
  dsimp only
  split
  · split
    · exact told
    · exact told
  · exact told

theorem accept_uses (input : AcceptInput) :
    Uses s.db (mainListener (installation settings plugin) s input).db := by
  unfold mainListener acceptingRequest
  dsimp only
  split
  · exact Uses.refl _
  · split
    · exact Uses.refl _
    · have admitted := admitPeer_uses settings plugin (arrived s input) input.now
      split
      · exact (admitted _).trans (forward_uses settings plugin _ _ _ _ _ _)
      · exact (admitted _).trans (refuse_uses settings plugin _ _ _ _ _)

end Calls

-- What is true of the book and the proxy together.
structure Filed (book : List (Int × Option Nat)) (listener : Nat) (s : Proxy DbService α) (chain pool : List Nat) :
    Prop where
  owned : Owned listener s chain pool
  attached : ∀ e ∈ chain, OwnRow book (s.conns.memory e).connectionId (closingOf (s.conns.memory e) false).sn
  closed : ∀ c ∈ s.closings, OwnRow book c.connectionId c.sn
  listed : ∀ entry ∈ book, entry.1 ∈ idsOf s.conns chain ++ s.closings.map Closing.connectionId
  rows : ∀ n, some n ∈ book.map Prod.snd → n ≤ s.db.lastRow
  distinct : ∀ i j n, (i,some n) ∈ book → (j,some n) ∈ book → i = j

variable {settings : Settings} {plugin : Plugin α} {s : Proxy DbService α} {book : List (Int × Option Nat)}
  {listener : Nat} {chain pool : List Nat}

theorem drop_filed (idle : Bool) (valid : Filed book listener s (before ++ e :: after) pool) :
    Filed book listener (dropConnection (installation settings plugin) s e idle) (before ++ after) (e :: pool) := by
  obtain ⟨_,data,_,_,closings,_⟩ := drop_spec (installation settings plugin) s idle valid.owned.shape
  have owned := (drop_accounted False (installation settings plugin) idle ⟨valid.owned,False.elim⟩).1
  have uses := dropConnection_uses settings plugin s e idle
  have ids := idsOf_congr (fun a member => data a (valid.owned.shape.middle_apart member))
  generalize dropConnection (installation settings plugin) s e idle = next at *
  refine ⟨owned,?_,?_,?_,fun n member => (valid.rows n member).trans uses.rows,valid.distinct⟩
  · intro a member
    have same := data a (valid.owned.shape.middle_apart member)
    have old : a ∈ before ++ e :: after := by
      rcases List.mem_append.mp member with left | right
      · exact List.mem_append_left _ left
      · exact List.mem_append_right _ (List.mem_cons_of_mem _ right)
    rw [closingOf_data same,eq_of_data same]
    exact valid.attached a old
  · intro c member
    rw [closings,List.mem_append] at member
    rcases member with old | new
    · exact valid.closed c old
    · obtain rfl := List.mem_singleton.mp new
      exact valid.attached e (by simp)
  · intro entry member
    rw [closings,ids]
    exact (renumbered s.conns before after e s.closings idle).mem_iff.mp (valid.listed entry member)

theorem relayChunk_filed (source destination : Int) (e : Nat) (input : RelayInput)
    (valid : Filed book listener s chain pool) :
    Filed book listener (relayChunk (installation settings plugin) s source destination e input).2 chain pool := by
  have owned := (relayChunk_accounted False (installation settings plugin) source destination e input
    ⟨valid.owned,False.elim⟩).1
  have uses := relayChunk_uses settings plugin s source destination e input
  obtain ⟨info,sockets,db,analyzer,chunks,outcome,fields,_⟩ :=
    relayChunk_frame (installation settings plugin) s source destination e input
  rw [outcome] at owned uses ⊢
  obtain ⟨_,ids⟩ := touch_data chain fields
  refine ⟨owned,?_,valid.closed,fun entry member => ids.symm ▸ valid.listed entry member,
    fun n member => (valid.rows n member).trans uses.rows,valid.distinct⟩
  intro a member
  by_cases equal : a = e
  · subst a
    rw [set_self,fields]
    exact valid.attached e member
  · rw [set_other _ _ equal]
    exact valid.attached a member

theorem filed_invariant (settings : Settings) (plugin : Plugin α) (book : List (Int × Option Nat)) (listener : Nat) :
    Invariant (installation settings plugin) (fun _ event => ∀ input, event ≠ .accept input)
      (Filed book listener) where
  shape valid := valid.owned.shape
  accept _ busy := absurd rfl (busy _)
  relay valid _ inside := relay_keeps _ _ valid.owned.shape inside
    (fun _ _ => relayChunk_filed _ _ _ _ valid) (drop_filed false)
  drop valid := drop_filed true valid
  other {_ _ _} valid holder size db blacklist defaultServer onFailedChannel used :=
    ⟨((accounted_invariant False (installation settings plugin) listener).other ⟨valid.owned,False.elim⟩ holder size db
        blacklist defaultServer onFailedChannel used).1,
      valid.attached,valid.closed,valid.listed,
      fun n member => by
        have before := valid.rows n member
        rcases used with rfl | ⟨now,rfl⟩
        · exact before
        · exact before.trans (operate_rows _ (.closeIdle now)),
      valid.distinct⟩

theorem OwnRow.grow (own : OwnRow book connectionId sn) (more : List (Int × Option Nat)) :
    OwnRow (book ++ more) connectionId sn := by
  intro v value
  rcases own v value with zero | ⟨n,entry,same⟩
  · exact .inl zero
  · exact .inr ⟨n,List.mem_append_left _ entry,same⟩

section Registering
variable {ctx : Context DbService α} {input : AcceptInput}

theorem registering_none (apart : ¬ Connects ctx s input) : registering ctx s input = none := by
  unfold Connects at apart
  unfold registering
  cases dial : dialled ctx s input with
  | none => rfl
  | some server =>
      rw [dial] at apart
      cases input.peer with
      | none => rfl
      | some peer => exact if_neg apart

theorem registering_admitted (connects : Connects ctx s input) (peerAt : input.peer = some peer) :
    registering ctx s input = (admitPeer ctx (arrived s input) input.now peer).1.requestInDb.map fun request =>
      ((admitPeer ctx (arrived s input) input.now peer).2.db,request,inetNtop peer.address) := by
  unfold Connects at connects
  unfold registering
  cases dial : dialled ctx s input with
  | none =>
      rw [dial] at connects
      exact connects.elim
  | some server =>
      rw [dial] at connects
      rw [peerAt]
      exact if_pos connects

def answered (call : DbService × DbProxyRequest × String) : Int :=
  (connectionEstablished call.1 call.2.1.sn call.2.1.account call.2.2).1

end Registering

-- A connection enters the chain under the next number, with what its own call
-- of connection_established has answered.
theorem accept_attaches (settings : Settings) (plugin : Plugin α) (input : AcceptInput)
    (owned : Owned listener s chain pool) :
    let next := mainListener (installation settings plugin) s input
    let call := registering (installation settings plugin) s input
    ∃ chain' pool', Owned listener next chain' pool' ∧ next.closings = s.closings ∧
      (∀ a ∈ chain, (next.conns.memory a).data = (s.conns.memory a).data) ∧
      ((chain' = chain ∧ call = none) ∨
       (∃ e, chain' = e :: chain ∧ (next.conns.memory e).connectionId = s.connectionCounter+1 ∧
        (closingOf (next.conns.memory e) false).sn = call.map answered ∧
        ∀ db request remoteIp, call = some (db,request,remoteIp) → Uses s.db db ∧
          next.db = (connectionEstablished db request.sn request.account remoteIp).2)) := by
  intro next call
  obtain ⟨chain',pool',⟨after,_⟩,kept⟩ :=
    accept_accounted False (installation settings plugin) input ⟨owned,False.elim⟩ False.elim
  rcases accept_cases (installation settings plugin) s input with
    ⟨sockets,db,blacklist,counter,fds,outcome,later,path,_,apart⟩ |
    ⟨sockets,db,blacklist,fdc,proxyFd,admission,remoteIp,outcome,path,connects,_,peer,peerAt,address,decided,used⟩
  · refine ⟨chain,pool,?_,?_,fun a member => (kept a member).2,.inl ⟨rfl,registering_none apart⟩⟩
    · simp only [next,outcome]
      exact owned.opening path later db blacklist
    · simp only [next,outcome]
  · obtain ⟨⟨rest,shape⟩,_,_,fields,_,recordedDb⟩ := establish_spec (installation settings plugin)
      {s with sockets := sockets,db := db,blacklist := blacklist,connectionCounter := s.connectionCounter+1}
      fdc proxyFd (s.connectionCounter+1) admission remoteIp input owned.shape
    rw [← outcome] at shape fields recordedDb
    generalize (allocateConnectionInfo s.conns).1 = e at shape fields
    obtain rfl := links_unique after.shape.linked shape.linked
    have calling : call = admission.requestInDb.map fun request => (db,request,remoteIp) := by
      rw [decided,used,address]
      exact registering_admitted connects peerAt
    refine ⟨e :: chain,pool',after,by simp only [next,outcome]; rfl,fun a member => (kept a member).2,
      .inr ⟨e,rfl,by rw [fields],?_,?_⟩⟩
    · rw [fields,calling]
      cases request : admission.requestInDb with
      | none => rfl
      | some row =>
          obtain ⟨low,high⟩ := connectionEstablished_int db row.sn row.account remoteIp
          simp only [closingOf,recorded,request,Option.map_some]
          exact congrArg some (toInt32_emod low high)
    · intro db' request remoteIp' called
      rw [calling] at called
      cases row : admission.requestInDb with
      | none => rw [row] at called; cases called
      | some row' =>
          rw [row] at called
          obtain ⟨rfl,rfl,rfl⟩ : db = db' ∧ row' = request ∧ remoteIp = remoteIp' := by simpa using called
          refine ⟨used ▸ admitPeer_uses settings plugin (arrived s input) input.now peer,?_⟩
          simp only [next,recordedDb,recorded,row]
          rfl

theorem Filed.grow {next : Proxy DbService α} (valid : Filed book listener s chain pool)
    (owned : Owned listener next chain' pool')
    (data : ∀ a ∈ chain, a ∈ chain' ∧ (next.conns.memory a).data = (s.conns.memory a).data)
    (closings : next.closings = s.closings) (rows : s.db.lastRow ≤ next.db.lastRow)
    (entry : Option (Int × Option Nat))
    (attached : ∀ a ∈ chain', a ∈ chain ∨
      OwnRow (book ++ entry.toList) (next.conns.memory a).connectionId (closingOf (next.conns.memory a) false).sn)
    (number : ∀ i row, entry = some (i,row) → i ∈ idsOf next.conns chain')
    (fresh : ∀ i n, entry = some (i,some n) → s.db.lastRow < n ∧ n ≤ next.db.lastRow) :
    Filed (book ++ entry.toList) listener next chain' pool' := by
  refine ⟨owned,?_,?_,?_,?_,?_⟩
  · intro a member
    rcases attached a member with old | new
    · have same := (data a old).2
      rw [closingOf_data same,eq_of_data same]
      exact (valid.attached a old).grow _
    · exact new
  · intro c member
    rw [closings] at member
    exact (valid.closed c member).grow _
  · intro known member
    rw [closings]
    rcases List.mem_append.mp member with old | new
    · rcases List.mem_append.mp (valid.listed known old) with inside | ended
      · obtain ⟨a,place,same⟩ := List.mem_map.mp inside
        refine List.mem_append_left _ (List.mem_map.mpr ⟨a,(data a place).1,?_⟩)
        rw [eq_of_data (data a place).2]
        exact same
      · exact List.mem_append_right _ ended
    · exact List.mem_append_left _ (number _ _ (Option.mem_toList.mp new))
  · intro n member
    obtain ⟨⟨i,row⟩,place,rfl⟩ := List.mem_map.mp member
    rcases List.mem_append.mp place with old | new
    · exact (valid.rows n (List.mem_map_of_mem old)).trans rows
    · exact (fresh i n (Option.mem_toList.mp new)).2
  · intro i j n one two
    have old : ∀ i, (i,some n) ∈ book → n ≤ s.db.lastRow := fun i place => valid.rows n (List.mem_map_of_mem place)
    have new : ∀ i, (i,some n) ∈ entry.toList → s.db.lastRow < n :=
      fun i place => (fresh i n (Option.mem_toList.mp place)).1
    rcases List.mem_append.mp one with one | one
    · rcases List.mem_append.mp two with two | two
      · exact valid.distinct i j n one two
      · exact absurd (old i one) (Nat.not_le.mpr (new j two))
    · rcases List.mem_append.mp two with two | two
      · exact absurd (old j two) (Nat.not_le.mpr (new i one))
      · have same := (Option.mem_toList.mp one).symm.trans (Option.mem_toList.mp two)
        exact congrArg Prod.fst (Option.some.inj same)

theorem accept_filed (settings : Settings) (plugin : Plugin α) (input : AcceptInput)
    (valid : Filed book listener s chain pool)
    (recordable : Recordable (installation settings plugin) ⟨s,book⟩ (.accept input)) :
    ∃ chain' pool', Filed (book ++ (recordOf (installation settings plugin) s (.accept input)).toList) listener
      (mainListener (installation settings plugin) s input) chain' pool' := by
  obtain ⟨chain',pool',owned,closings,data,outcome⟩ := accept_attaches settings plugin input valid.owned
  have rows := (accept_uses settings plugin s input).rows
  refine ⟨chain',pool',valid.grow owned ?_ closings rows _ ?_ ?_ ?_⟩
  · intro a member
    refine ⟨?_,data a member⟩
    rcases outcome with ⟨rfl,_⟩ | ⟨e,rfl,_⟩
    · exact member
    · exact List.mem_cons_of_mem _ member
  · intro a member
    rcases outcome with ⟨rfl,_⟩ | ⟨e,rfl,number,sn,_⟩
    · exact .inl member
    · rcases List.mem_cons.mp member with rfl | old
      · right
        intro v value
        rw [sn] at value
        obtain ⟨⟨db,request,remoteIp⟩,called,rfl⟩ := Option.map_eq_some_iff.mp value
        rcases (traceable_iff db request.sn request.account remoteIp).mp (recordable db request remoteIp called) with
          zero | ⟨n,inserted,same⟩
        · exact .inl zero
        · refine .inr ⟨n,List.mem_append_right _ (Option.mem_toList.mpr ?_),same⟩
          rw [number,recordOf,called,← inserted]
          rfl
      · exact .inl old
  · intro i row entry
    obtain ⟨⟨db,request,remoteIp⟩,called,same⟩ := Option.map_eq_some_iff.mp entry
    rcases outcome with ⟨_,absent⟩ | ⟨e,rfl,number,_⟩
    · rw [absent] at called; cases called
    · obtain ⟨rfl,_⟩ := Prod.mk.inj same
      exact List.mem_map.mpr ⟨e,List.mem_cons_self,number⟩
  · intro i n entry
    obtain ⟨⟨db,request,remoteIp⟩,called,same⟩ := Option.map_eq_some_iff.mp entry
    rcases outcome with ⟨_,absent⟩ | ⟨e,rfl,_,_,state⟩
    · rw [absent] at called; cases called
    · obtain ⟨uses,after⟩ := state db request remoteIp called
      obtain ⟨above,below⟩ := insertedBy_bounds (Prod.mk.inj same).2
      exact ⟨Nat.lt_of_le_of_lt uses.rows above,after ▸ below⟩

theorem audit_filed (settings : Settings) (plugin : Plugin α) (a : Audited α) (event : Event)
    (valid : Filed a.book listener a.proxy chain pool) (recordable : Recordable (installation settings plugin) a event) :
    ∃ chain' pool', Filed (audit (installation settings plugin) a event).book listener
      (audit (installation settings plugin) a event).proxy chain' pool' := by
  have quiet : (∀ input, event ≠ .accept input) → (recordOf (installation settings plugin) a.proxy event) = none →
      ∃ chain' pool', Filed (audit (installation settings plugin) a event).book listener
        (audit (installation settings plugin) a event).proxy chain' pool' := by
    intro other nothing
    simp only [audit,nothing,Option.toList_none,List.append_nil]
    exact (filed_invariant settings plugin a.book listener).step valid other
  cases event with
  | accept input => exact accept_filed settings plugin input valid recordable
  | relay e fromClient input => exact quiet (by simp) rfl
  | cleanIdle now timeout => exact quiet (by simp) rfl
  | expiring now => exact quiet (by simp) rfl
  | closeIdle now => exact quiet (by simp) rfl
  | setDefaultChannel channel => exact quiet (by simp) rfl
  | setFallbackChannel channel => exact quiet (by simp) rfl

theorem Filed.unmixed {a : Audited α} (valid : Filed a.book listener a.proxy chain pool) : Unmixed a := by
  refine ⟨valid.closed,?_,chain,valid.owned.shape.linked,valid.attached⟩
  intro c one d two v first second nonzero
  rcases valid.closed c one v first with zero | ⟨n,here,row⟩
  · exact absurd zero nonzero
  · rcases valid.closed d two v second with zero | ⟨m,there,same⟩
    · exact absurd zero nonzero
    · obtain rfl : n = m := by omega
      exact valid.distinct _ _ _ here there

-- The number of the new connection is not in the book yet, so that its id can
-- only be its own row.
theorem recordable_of_unmixed (settings : Settings) (plugin : Plugin α) (a : Audited α) (event : Event)
    (valid : Filed a.book listener a.proxy chain pool)
    (unmixed : Unmixed (audit (installation settings plugin) a event)) :
    Recordable (installation settings plugin) a event := by
  cases event with
  | accept input =>
      intro db request remoteIp called
      obtain ⟨links,linked,own⟩ := unmixed.attached
      obtain ⟨chain',pool',owned,_,_,outcome⟩ := accept_attaches settings plugin input valid.owned
      obtain rfl := links_unique linked owned.shape.linked
      rcases outcome with ⟨_,absent⟩ | ⟨e,rfl,number,sn,_⟩
      · rw [absent] at called; cases called
      · refine (traceable_iff db request.sn request.account remoteIp).mpr ?_
        rw [called] at sn
        have mine := own e List.mem_cons_self _ sn
        change _ = 0 ∨ ∃ n : Nat, ((Proxy.conns (mainListener _ _ _)).memory e |>.connectionId,some n) ∈ _ ∧ _ at mine
        rw [number] at mine
        rcases mine with zero | ⟨n,entry,same⟩
        · exact .inl zero
        · refine .inr ⟨n,?_,same⟩
          rcases List.mem_append.mp entry with old | new
          · have known := valid.owned.known _ (valid.listed _ old)
            exact absurd known (by simp)
          · rw [recordOf,called] at new
            exact (Prod.mk.inj (Option.some.inj (Option.mem_toList.mp new))).2
  | _ => trivial

theorem initial_filed (listener : Nat) (memory : Nat → ConnectionInfo) (blacklist : AutoBlacklist.Table) (db : DbService)
    (analyzer : α) (defaultServer onFailedChannel : Int) :
    Filed [] listener (proxyMain listener memory blacklist db analyzer defaultServer onFailedChannel) [] [] :=
  ⟨(initial_accounted False listener memory blacklist db analyzer defaultServer onFailedChannel).1,
    by simp,by simp [proxyMain],by simp,by simp,by simp⟩

-- In every state of a run the records are kept apart exactly if every answer
-- to the question for the last id was about the insert of the same call.
theorem records_unmixed_iff_recordable (settings : Settings) (plugin : Plugin α) (listener : Nat)
    (memory : Nat → ConnectionInfo) (blacklist : AutoBlacklist.Table) (enabled : Bool)
    (queries : QueryName → Option String) (maxConnectionTime : Int) (lastRow : Nat) (replies : Nat → Reply)
    (analyzer : α) (defaultServer onFailedChannel : Int) (events : List Event) :
    let initial : Audited α := ⟨proxyMain listener memory blacklist
      (newDatabaseService enabled queries maxConnectionTime lastRow replies) analyzer defaultServer onFailedChannel,[]⟩
    (∀ earlier later, events = earlier ++ later →
      Unmixed (Machine.run (audit (installation settings plugin)) initial earlier)) ↔
    Machine.Along (audit (installation settings plugin)) (Recordable (installation settings plugin)) initial events := by
  intro initial
  refine Machine.exact_condition (fun a => ∃ chain pool, Filed a.book listener a.proxy chain pool)
    ⟨[],[],initial_filed listener memory blacklist _ analyzer defaultServer onFailedChannel⟩ ?_ ?_ ?_ events
  · intro a event ⟨chain,pool,valid⟩ recordable
    exact audit_filed settings plugin a event valid recordable
  · intro a ⟨chain,pool,valid⟩
    exact valid.unmixed
  · intro a event ⟨chain,pool,valid⟩ unmixed
    exact recordable_of_unmixed settings plugin a event valid unmixed

-- One user, connected twice. MySQL answers every request but the insert of the
-- second connection, and the id it knows then is that of the first one's row.
def twoVisits : Audited Unit :=
  let user : ResultSet := ⟨[⟨fun column => if column = 1 then 1 else 0,fun _ => some "user"⟩],0⟩
  let replies (n : Nat) : Reply := ⟨⟨0,0⟩,true,true,n ≠ 16,1,none,0,[some user]⟩
  let plugin : Plugin Unit := ⟨fun a => (none,a),fun a _ => a,fun a _ _ _ _ => (a,[])⟩
  Machine.run (audit (installation (oneServer "10.0.0.2").settings plugin))
    ⟨proxyMain 3 (fun _ => default) (AutoBlacklist.newAutoBlacklistService 7 120 fun _ => default)
      (newDatabaseService true (fun _ => some "") 3600 0 replies) () 0 0,[]⟩
    [.accept (visitor 5 6),.accept (visitor 7 8),.relay 1 true ⟨⟨0,0⟩,[],[]⟩,.relay 0 true ⟨⟨0,0⟩,[],[]⟩]

theorem failed_insert_mixes_records : ¬ Unmixed twoVisits := by
  intro unmixed
  have same := unmixed.apart ⟨1,0,0,0,0,some 1,false⟩ (by decide +kernel) ⟨2,0,0,0,0,some 1,false⟩
    (by decide +kernel) 1 rfl rfl (by decide)
  exact absurd same (by decide)

end TcpProxy.Proxying
