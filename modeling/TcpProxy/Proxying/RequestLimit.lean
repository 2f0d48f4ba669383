import TcpProxy.Proxying.RelayIntegrity

namespace TcpProxy.Proxying
open AutoBlacklist

variable {σ α : Type} {ctx : Context σ α} {s : Proxy σ α} {listener : Nat} {chain pool : List Nat}

def clientChunks (s : Proxy σ α) (connectionId : Int) : Int := s.chunks.count (connectionId,true)

def Beyond (m : Int) (s : Proxy σ α) : Event → Prop
  | .relay e fromClient input => fromClient = true ∧ e < s.conns.numberOfAllocation ∧
      (s.conns.memory e).inChain = true ∧ input.chunk ≠ [] ∧ clientChunks s (s.conns.memory e).connectionId = m
  | _ => False

instance (m : Int) (s : Proxy σ α) : (event : Event) → Decidable (Beyond m s event)
  | .relay _ _ _ => inferInstanceAs (Decidable (_ ∧ _ ∧ _ ∧ _ ∧ _))
  | .accept _ => isFalse id
  | .cleanIdle _ _ => isFalse id
  | .expiring _ => isFalse id
  | .closeIdle _ => isFalse id
  | .setDefaultChannel _ => isFalse id
  | .setFallbackChannel _ => isFalse id

-- A chunk is passed on unless it is empty or the client's count is above the
-- limit; the count is then still that of the chunks before it.
theorem relayChunk_chunks (ctx : Context σ α) (s : Proxy σ α) (source destination : Int) (e : Nat) (input : RelayInput) :
    let info := s.conns.memory e
    let fromClient : Bool := info.clientFd = source
    (relayChunk ctx s source destination e input).2.chunks =
      if (s.sockets.read source input.chunk).1 = [] ∨
          (fromClient = true ∧ ctx.settings.maxAllowedRequests < info.requestCount) then s.chunks
      else s.chunks ++ [(info.connectionId,fromClient)] := by
  intro info fromClient
  unfold relayChunk
  simp only [set_self]
  by_cases empty : (s.sockets.read source input.chunk).1 = []
  · simp [empty]
  · simp only [empty,if_false,false_or]
    by_cases above : fromClient = true ∧ ctx.settings.maxAllowedRequests < info.requestCount
    · rw [if_pos above,if_pos above]
    · rw [if_neg above,if_neg above]
      by_cases client : info.clientFd = source
      · simp [passOn,fromClient,info,client]
      · simp [passOn,fromClient,info,client]

theorem dropConnection_chunks (ctx : Context σ α) (s : Proxy σ α) (e : Nat) (idle : Bool) :
    (dropConnection ctx s e idle).chunks = s.chunks := by
  unfold dropConnection closeEvent
  dsimp only
  split
  · rfl
  · rfl

theorem doProxying_chunks (ctx : Context σ α) (source destination : Int) (input : RelayInput)
    (flag : (s.conns.memory e).inChain = true) :
    (doProxying ctx s source destination e input).chunks = (relayChunk ctx s source destination e input).2.chunks := by
  simp only [doProxying,flag,if_true]
  split
  · exact dropConnection_chunks _ _ _ _
  · rfl

theorem accept_chunks (ctx : Context σ α) (s : Proxy σ α) (input : AcceptInput) :
    (mainListener ctx s input).chunks = s.chunks := by
  rcases accept_cases ctx s input with
    ⟨sockets,db,blacklist,counter,fds,outcome,_⟩ | ⟨sockets,db,blacklist,fdc,proxyFd,admission,remoteIp,outcome,_⟩
  · rw [outcome]
  · rw [outcome]
    exact (establish_frame _ _ _ _ _ _ _ _).2.2.2.2.1

-- What a relay event passes on, seen from the connection: its two sockets are
-- open and apart, so that something is read whenever something has arrived.
theorem relay_chunks (ctx : Context σ α) (fromClient : Bool) (input : RelayInput) (inside : e ∈ chain)
    (valid : Faithful listener none s chain pool) :
    (relay ctx s e fromClient input).chunks =
      if input.chunk = [] ∨ (fromClient = true ∧ ctx.settings.maxAllowedRequests < (s.conns.memory e).requestCount) then
        s.chunks
      else s.chunks ++ [((s.conns.memory e).connectionId,fromClient)] := by
  have below := valid.owned.shape.below (List.mem_append_left _ inside)
  have flag := valid.owned.shape.attached e inside
  obtain ⟨a,b,opening,client,server,_⟩ := valid.attached e inside
  have arrives : ∀ fd k, s.sockets.table fd = some k → ((s.sockets.read fd input.chunk).1 = [] ↔ input.chunk = []) := by
    intro fd k present
    simp [Sockets.read,present,List.take_eq_nil_iff,bufferSize]
  have apart : (s.conns.memory e).clientFd ≠ (s.conns.memory e).serverFd := by
    intro same
    rw [same,server] at client
    exact openings_ends valid.apart opening (Option.some.inj client.symm)
  simp only [relay,below,if_true]
  cases fromClient with
  | true =>
      simp only [if_true,proxyFromClientToServer]
      rw [doProxying_chunks ctx _ _ input flag,relayChunk_chunks]
      simp [arrives _ _ client]
  | false =>
      simp only [Bool.false_eq_true,if_false,proxyFromServerToClient]
      rw [doProxying_chunks ctx _ _ input flag,relayChunk_chunks]
      simp [arrives _ _ server,apart]

def AtMost (m : Int) (s : Proxy σ α) : Prop := ∀ connectionId, clientChunks s connectionId ≤ m

structure Within (m : Int) (listener : Nat) (s : Proxy σ α) (chain pool : List Nat) : Prop where
  faithful : Faithful listener none s chain pool
  atMost : AtMost m s

theorem clientChunks_same {next : Proxy σ α} (chunks : next.chunks = s.chunks) (connectionId : Int) :
    clientChunks next connectionId = clientChunks s connectionId := by
  rw [clientChunks,chunks,clientChunks]

theorem clientChunks_append {next : Proxy σ α} (chunks : next.chunks = s.chunks ++ [(number,fromClient)])
    (connectionId : Int) : clientChunks next connectionId =
      clientChunks s connectionId + if connectionId = number ∧ fromClient = true then 1 else 0 := by
  rw [clientChunks,chunks,clientChunks,List.count_append]
  by_cases own : connectionId = number ∧ fromClient = true
  · obtain ⟨rfl,rfl⟩ := own
    simp
  · have foreign : List.count (connectionId,true) [(number,fromClient)] = 0 := by
      refine List.count_eq_zero.mpr fun member => ?_
      obtain ⟨rfl,rfl⟩ := Prod.mk.inj (List.mem_singleton.mp member)
      exact own ⟨rfl,rfl⟩
    rw [if_neg own,foreign]
    simp

theorem within_invariant (ctx : Context σ α) (m : Int) (listener : Nat) :
    Invariant ctx (fun s event => ¬ Beyond m s event) (Within m listener) where
  shape valid := valid.faithful.owned.shape
  accept {s _ _ input} valid _ := by
    obtain ⟨chain,pool,after⟩ := accept_faithful ctx input valid.faithful
    exact ⟨chain,pool,after,fun id => (clientChunks_same (accept_chunks ctx s input) id).le.trans (valid.atMost id)⟩
  relay {s chain _ e fromClient input} valid within inside := by
    obtain ⟨chain',pool',after⟩ : ∃ chain' pool', Faithful listener none (relay ctx s e fromClient input) chain' pool' :=
      (faithful_invariant ctx listener).relay valid.faithful trivial inside
    have chunks := relay_chunks ctx fromClient input inside valid.faithful
    refine ⟨chain',pool',after,fun id => ?_⟩
    have before := valid.atMost id
    split at chunks
    · rw [clientChunks_same chunks]
      exact before
    · rename_i passed
      rw [clientChunks_append chunks]
      split
      · rename_i own
        obtain ⟨rfl,rfl⟩ := own
        have below := valid.faithful.owned.shape.below (List.mem_append_left _ inside)
        have flag := valid.faithful.owned.shape.attached e inside
        have different : clientChunks s (s.conns.memory e).connectionId ≠ m := fun full =>
          within ⟨rfl,below,flag,fun empty => passed (.inl empty),full⟩
        omega
      · omega
  drop {s before e after _} valid :=
    ⟨drop_faithful ctx true valid.faithful (.inl rfl),fun id =>
      (clientChunks_same (dropConnection_chunks ctx s e true) id).le.trans (valid.atMost id)⟩
  other valid holder size db blacklist defaultServer onFailedChannel used :=
    ⟨(faithful_invariant ctx listener).other valid.faithful holder size db blacklist defaultServer onFailedChannel used,
      valid.atMost⟩

-- What the limit promises of a run: no connection ever passes on more than m
-- chunks of its client, and one that arrives beyond them ends the connection.
structure RequestLimit (ctx : Context σ α) (start : Proxy σ α) (events : List Event) : Prop where
  atMost : ∀ earlier later, events = earlier ++ later →
    AtMost ctx.settings.maxAllowedRequests (Machine.run (step ctx) start earlier)
  cutOff : ∀ earlier e input later, events = earlier ++ .relay e true input :: later →
    let s := Machine.run (step ctx) start earlier
    Beyond ctx.settings.maxAllowedRequests s (.relay e true input) →
    (relay ctx s e true input).chunks = s.chunks ∧
    (s.conns.memory e).connectionId ∈ (relay ctx s e true input).closings.map Closing.connectionId

theorem beyond_forwarded (valid : Within ctx.settings.maxAllowedRequests listener s chain pool)
    (bounded : ctx.settings.maxAllowedRequests < 2^31) (beyond : Beyond ctx.settings.maxAllowedRequests s event) :
    ∃ connectionId, clientChunks (step ctx s event) connectionId = ctx.settings.maxAllowedRequests + 1 := by
  cases event with
  | relay e fromClient input =>
      obtain ⟨rfl,below,flag,arrives,full⟩ := beyond
      have inside := (valid.faithful.owned.shape.inChain_iff below).mp flag
      obtain ⟨_,_,_,_,_,tally,_⟩ := valid.faithful.attached e inside
      have count : (s.conns.memory e).requestCount = ctx.settings.maxAllowedRequests := by
        have counted := tally.requestCount
        simp only [closingOf] at counted
        rw [clientChunks] at full
        rw [counted,full]
        exact toInt32_eq (by omega) bounded
      have chunks := relay_chunks ctx true input inside valid.faithful
      rw [if_neg (by simp [arrives,count])] at chunks
      refine ⟨(s.conns.memory e).connectionId,?_⟩
      rw [show step ctx s (.relay e true input) = relay ctx s e true input from rfl,clientChunks_append chunks,full]
      simp
  | _ => exact beyond.elim

theorem request_limit_iff (ctx : Context σ α) (listener : Nat) (memory : Nat → ConnectionInfo) (blacklist : Table)
    (db : σ) (analyzer : α) (defaultServer onFailedChannel : Int) (nonneg : 0 ≤ ctx.settings.maxAllowedRequests)
    (bounded : ctx.settings.maxAllowedRequests < 2^31) (events : List Event) :
    let start := proxyMain listener memory blacklist db analyzer defaultServer onFailedChannel
    RequestLimit ctx start events ↔
      Machine.Along (step ctx) (fun s event => ¬ Beyond ctx.settings.maxAllowedRequests s event) start events := by
  intro start
  have initial : Within ctx.settings.maxAllowedRequests listener start [] [] :=
    ⟨initial_faithful listener memory blacklist db analyzer defaultServer onFailedChannel,fun _ => nonneg⟩
  have precise : (∀ earlier later, events = earlier ++ later →
      AtMost ctx.settings.maxAllowedRequests (Machine.run (step ctx) start earlier)) ↔
      Machine.Along (step ctx) (fun s event => ¬ Beyond ctx.settings.maxAllowedRequests s event) start events := by
    refine Machine.exact_condition
      (fun s => ∃ chain pool, Within ctx.settings.maxAllowedRequests listener s chain pool) ⟨[],[],initial⟩ ?_ ?_ ?_ events
    · rintro s event ⟨_,_,valid⟩ may
      exact (within_invariant ctx _ listener).step valid may
    · rintro s ⟨_,_,valid⟩
      exact valid.atMost
    · rintro s event ⟨_,_,valid⟩ holds beyond
      obtain ⟨connectionId,more⟩ := beyond_forwarded valid bounded beyond
      have limit := holds connectionId
      omega
  constructor
  · intro limit
    exact precise.mp limit.atMost
  · intro along
    refine ⟨precise.mpr along,?_⟩
    rintro earlier e input later rfl s beyond
    exact absurd beyond ((Machine.along_append earlier _).mp along).2.1

def oneByte : RelayInput := ⟨⟨0,0⟩,[1],[1]⟩

theorem request_limit_iff_two_requests : RequestLimit (oneServer "10.0.0.2") freshProxy
    [.accept (visitor 5 6),.relay 0 true oneByte,.relay 0 false oneByte,.relay 0 true oneByte] :=
  (request_limit_iff (oneServer "10.0.0.2") 3 (fun _ => default) (newAutoBlacklistService 7 120 fun _ => default) () ()
    0 0 (by decide) (by decide) _).mpr (by decide +kernel)

def noRequests : Context Unit Unit :=
  {oneServer "10.0.0.2" with settings := {(oneServer "10.0.0.2").settings with maxAllowedRequests := 0}}

theorem one_request_too_many :
    ¬ RequestLimit noRequests freshProxy [.accept (visitor 5 6),.relay 0 true oneByte] := by
  intro limit
  have passed : clientChunks (Machine.run (step noRequests) freshProxy
      [.accept (visitor 5 6),.relay 0 true oneByte]) 1 = 1 := by decide +kernel
  have most := limit.atMost _ [] (List.append_nil _).symm 1
  rw [passed] at most
  exact absurd most (by decide)

end TcpProxy.Proxying
