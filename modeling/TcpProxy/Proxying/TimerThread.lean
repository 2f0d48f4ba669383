import TcpProxy.Proxying.Descriptors

namespace TcpProxy.Proxying
open LinkedChain

variable {σ α : Type} {ctx : Context σ α} {listener : Nat}

-- Where the timer thread stands in clean_idle_connections. In `closing` it has
-- found the entry idle and waits for worker_mutex; `id` is the number of the
-- connection that was in the entry when it was tested.
inductive Timer where
  | resting
  | scanning (now : Timeval) (timeout : ℚ) (left : List Nat)
  | closing (now : Timeval) (timeout : ℚ) (e : Nat) (id : Int) (left : List Nat)

structure Threads (σ α : Type) where
  proxy : Proxy σ α
  timer : Timer

inductive Action where
  | accept (input : AcceptInput)
  | relay (e : Nat) (fromClient : Bool) (input : RelayInput)
  | snapshot (now : Timeval) (timeout : ℚ)
  | idleTest
  | close

def act (ctx : Context σ α) (t : Threads σ α) : Action → Threads σ α
  | .accept input => {t with proxy := mainListener ctx t.proxy input}
  | .relay e fromClient input => {t with proxy := relay ctx t.proxy e fromClient input}
  | .snapshot now timeout =>
    match t.timer with
    | .resting =>
      let (entries,conns) := snapshot t.proxy.conns
      ⟨{t.proxy with conns := conns},.scanning now timeout entries⟩
    | _ => t
  | .idleTest =>
    match t.timer with
    | .scanning now timeout (e :: left) =>
      if isIdle t.proxy.conns now timeout e then
        {t with timer := .closing now timeout e (t.proxy.conns.memory e).connectionId left}
      else {t with timer := .scanning now timeout left}
    | .scanning _ _ [] => {t with timer := .resting}
    | _ => t
  | .close =>
    match t.timer with
    | .closing now timeout e _ left => ⟨dropConnection ctx t.proxy e true,.scanning now timeout left⟩
    | _ => t

theorem scan_uninterrupted (ctx : Context σ α) (now : Timeval) (timeout : ℚ) (left : List Nat) (s : Proxy σ α) :
    ∃ actions, (∀ action ∈ actions, action = .idleTest ∨ action = .close) ∧
      Machine.run (act ctx) ⟨s,.scanning now timeout left⟩ actions =
        ⟨left.foldl (sweepIdle ctx now timeout) s,.resting⟩ := by
  induction left generalizing s with
  | nil => exact ⟨[.idleTest],by simp,rfl⟩
  | cons e left ih =>
      obtain ⟨actions,own,done⟩ := ih (sweepIdle ctx now timeout s e)
      cases idle : isIdle s.conns now timeout e with
      | true =>
          refine ⟨.idleTest :: .close :: actions,?_,?_⟩
          · intro action member
            rcases List.mem_cons.mp member with rfl | rest
            · exact .inl rfl
            · rcases List.mem_cons.mp rest with rfl | rest
              · exact .inr rfl
              · exact own action rest
          · simpa [act,idle,sweepIdle] using done
      | false =>
          refine ⟨.idleTest :: actions,?_,?_⟩
          · intro action member
            rcases List.mem_cons.mp member with rfl | rest
            · exact .inl rfl
            · exact own action rest
          · simpa [act,idle,sweepIdle] using done

theorem pass_uninterrupted (ctx : Context σ α) (s : Proxy σ α) (now : Timeval) (timeout : ℚ) :
    ∃ actions, (∀ action ∈ actions, action = .idleTest ∨ action = .close) ∧
      Machine.run (act ctx) ⟨s,.resting⟩ (.snapshot now timeout :: actions) =
        ⟨cleanIdleConnections ctx s now timeout,.resting⟩ := by
  obtain ⟨actions,own,done⟩ := scan_uninterrupted ctx now timeout (snapshot s.conns).1
    {s with conns := (snapshot s.conns).2}
  exact ⟨actions,own,done⟩

def absorbs : List Int → Nat → Bool
  | _,0 => true
  | [],_+1 => false
  | answer :: answers,left+1 => 0 < answer && absorbs answers (left+1-answer.toNat)

def ends (ctx : Context σ α) (s : Proxy σ α) (e : Nat) (fromClient : Bool) (input : RelayInput) : Bool :=
  input.chunk.isEmpty || (fromClient && ctx.settings.maxAllowedRequests < (s.conns.memory e).requestCount) ||
    !absorbs input.writes (input.chunk.take bufferSize).length

-- What keeps the threads out of each other's way: no test finds an entry idle
-- that has left the chain, and no event ends the connection the timer thread is
-- about to close.
def Undisturbed (ctx : Context σ α) (t : Threads σ α) : Action → Prop
  | .relay e fromClient input =>
    match t.timer with
    | .closing _ _ waiting _ _ => e = waiting → ends ctx t.proxy e fromClient input = false
    | _ => True
  | .idleTest =>
    match t.timer with
    | .scanning now timeout (e :: _) =>
      isIdle t.proxy.conns now timeout e → (t.proxy.conns.memory e).inChain = true
    | _ => True
  | _ => True

-- Every connection number is in the chain once or has been closed once, chain
-- and pool are proper lists without a common entry, and an entry that waits to
-- be closed is in the chain with the connection that was found idle.
def ClosedOnce (t : Threads σ α) : Prop :=
  ∃ chain free, Links t.proxy.conns.nextOf t.proxy.conns.infos chain ∧
    Links t.proxy.conns.nextOf t.proxy.conns.pool free ∧ (chain ++ free).Nodup ∧
    (idsOf t.proxy.conns chain ++ t.proxy.closings.map Closing.connectionId).Nodup ∧
    ∀ now timeout e id left, t.timer = .closing now timeout e id left →
      e ∈ chain ∧ (t.proxy.conns.memory e).connectionId = id

theorem writeLoop_absorbs (destination : Int) (answers : List Int) (s : Sockets) (left : List UInt8)
    (present : s.table destination ≠ none) :
    (writeLoop destination answers s left).1.2 = !absorbs answers left.length := by
  induction answers generalizing s left with
  | nil =>
      cases left with
      | nil => rfl
      | cons byte left => rfl
  | cons answer answers ih =>
      cases left with
      | nil => rfl
      | cons byte left =>
          obtain ⟨k,place⟩ := Option.ne_none_iff_exists'.mp present
          have table : (s.write destination (byte :: left) answer).2.table destination ≠ none := by
            rw [(write_same s destination (byte :: left) answer).table]
            exact present
          have rest := ih (s.write destination (byte :: left) answer).2
            ((byte :: left).drop (s.write destination (byte :: left) answer).1.toNat) table
          by_cases positive : 0 < answer
          · have length : (s.write destination (byte :: left) answer).1 =
                (((byte :: left).take answer.toNat).length : Nat) := by
              simp [Sockets.write,place,positive]
            have more : 0 < (s.write destination (byte :: left) answer).1 := by
              rw [length]
              simp only [List.length_take,List.length_cons]
              omega
            have size : ((byte :: left).drop (s.write destination (byte :: left) answer).1.toNat).length =
                left.length+1-answer.toNat := by
              rw [length]
              simp only [List.length_drop,List.length_take,List.length_cons,Int.toNat_natCast]
              omega
            rw [size] at rest
            simp only [writeLoop,more,if_true,List.length_cons,absorbs,positive,decide_true,Bool.true_and]
            exact rest
          · have refused : ¬ 0 < (s.write destination (byte :: left) answer).1 := by
              simp [Sockets.write,place,positive]
            simp [writeLoop,refused,absorbs,positive]

variable {s : Proxy σ α} {t : Threads σ α} {chain pool : List Nat}

theorem relayChunk_ends (ctx : Context σ α) (e : Nat) (input : RelayInput) (source destination : Int)
    (origin : s.sockets.table source ≠ none) (target : s.sockets.table destination ≠ none) (fromClient : Bool)
    (direction : fromClient = decide ((s.conns.memory e).clientFd = source)) :
    (relayChunk ctx s source destination e input).1 = ends ctx s e fromClient input := by
  obtain ⟨j,place⟩ := Option.ne_none_iff_exists'.mp origin
  have data : (s.sockets.read source input.chunk).1 = input.chunk.take bufferSize := by simp [Sockets.read,place]
  have table : (s.sockets.read source input.chunk).2.table destination ≠ none := by
    rw [(read_same s.sockets source input.chunk).table]
    exact target
  have written := writeLoop_absorbs destination input.writes (s.sockets.read source input.chunk).2
    (input.chunk.take bufferSize) table
  cases empty : input.chunk with
  | nil =>
      rw [empty] at data
      simp [relayChunk,ends,data,empty]
  | cons byte rest =>
      rw [empty] at data written
      have present : (s.sockets.read source (byte :: rest)).1 ≠ [] := by
        rw [data]
        simp [bufferSize]
      by_cases passed : fromClient = true ∧ ctx.settings.maxAllowedRequests < (s.conns.memory e).requestCount
      · obtain ⟨client,limit⟩ := passed
        rw [client] at direction
        simp [relayChunk,ends,empty,present,← direction,client,limit]
      · have passes : ¬ (decide ((s.conns.memory e).clientFd = source) = true ∧
            ctx.settings.maxAllowedRequests < (s.conns.memory e).requestCount) := by rwa [← direction]
        have below : (fromClient && decide (ctx.settings.maxAllowedRequests < (s.conns.memory e).requestCount)) =
            false := by simpa using passed
        simp only [relayChunk,ends,empty,present,if_false,set_self,below,List.isEmpty_cons,Bool.false_or]
        rw [if_neg passes,← written,← data]
        rfl

theorem ConnShape.size (shape : ConnShape c chain held pool) :
    c.numberOfAllocation = chain.length+(held.length+pool.length) := by
  have length := shape.partition.length_eq
  rw [List.length_range,List.length_append,List.length_append] at length
  exact length.symm

theorem relayChunk_number (ctx : Context σ α) (s : Proxy σ α) (source destination : Int) (e a : Nat)
    (input : RelayInput) :
    ((relayChunk ctx s source destination e input).2.conns.memory a).connectionId =
      (s.conns.memory a).connectionId := by
  obtain ⟨info,sockets,db,analyzer,chunks,frame,fields,_⟩ := relayChunk_frame ctx s source destination e input
  rw [frame]
  by_cases equal : a = e
  · subst a
    rw [set_self,fields]
  · rw [set_other _ _ equal]

theorem relay_cases (ctx : Context σ α) (owned : Owned listener s chain pool) (inside : e ∈ chain)
    (fromClient : Bool) (input : RelayInput) :
    let next := relay ctx s e fromClient input
    (ends ctx s e fromClient input = false ∧ Owned listener next chain pool ∧
      ∀ a, (next.conns.memory a).connectionId = (s.conns.memory a).connectionId) ∨
    (ends ctx s e fromClient input = true ∧ ∃ before after, chain = before ++ e :: after ∧
      Owned listener next (before ++ after) (e :: pool) ∧
      ∀ a, a ≠ e → (next.conns.memory a).connectionId = (s.conns.memory a).connectionId) := by
  have descriptors : (s.conns.memory e).clientFd ∈ descriptorsOf s.conns chain ∧
      (s.conns.memory e).serverFd ∈ descriptorsOf s.conns chain := by
    constructor
    · exact List.mem_flatMap.mpr ⟨e,inside,by simp⟩
    · exact List.mem_flatMap.mpr ⟨e,inside,by simp⟩
  have client := owned.opened _ (List.mem_cons_of_mem _ descriptors.1)
  have server := owned.opened _ (List.mem_cons_of_mem _ descriptors.2)
  have different : (s.conns.memory e).clientFd ≠ (s.conns.memory e).serverFd := by
    obtain ⟨before,after,rfl⟩ := List.append_of_mem inside
    exact owned.descriptors_apart.1
  have path : ∃ source destination, relay ctx s e fromClient input = doProxying ctx s source destination e input ∧
      s.sockets.table source ≠ none ∧ s.sockets.table destination ≠ none ∧
      fromClient = decide ((s.conns.memory e).clientFd = source) := by
    have below := owned.shape.below (List.mem_append_left _ inside)
    cases fromClient with
    | true => exact ⟨_,_,by simp [relay,below,proxyFromClientToServer],client,server,by simp⟩
    | false => exact ⟨_,_,by simp [relay,below,proxyFromServerToClient],server,client,by simp [different]⟩
  obtain ⟨source,destination,outcome,origin,target,direction⟩ := path
  have relayed := (relayChunk_accounted False ctx source destination e input ⟨owned,False.elim⟩).1
  have numbers := fun a => relayChunk_number ctx s source destination e a input
  have verdict := relayChunk_ends ctx e input source destination origin target fromClient direction
  dsimp only
  rw [outcome]
  simp only [doProxying,owned.shape.attached e inside,if_true,verdict]
  cases ended : ends ctx s e fromClient input with
  | false => exact .inl ⟨rfl,relayed,numbers⟩
  | true =>
      obtain ⟨before,after,rfl⟩ := List.append_of_mem inside
      obtain ⟨_,data,_⟩ := drop_spec ctx (relayChunk ctx s source destination e input).2 false relayed.shape
      refine .inr ⟨rfl,before,after,rfl,(drop_accounted False ctx false ⟨relayed,False.elim⟩).1,?_⟩
      intro a other
      rw [← numbers a]
      rw [if_pos rfl,eq_of_data (data a other)]

theorem accept_allocation (ctx : Context σ α) (s : Proxy σ α) (input : AcceptInput) :
    s.conns.numberOfAllocation ≤ (mainListener ctx s input).conns.numberOfAllocation := by
  rcases accept_cases ctx s input with ⟨_,_,_,_,_,outcome,_⟩ | ⟨_,_,_,_,_,_,_,outcome,_⟩
  · rw [outcome]
  · have attached : ∀ (c : Connections) (e : Nat),
        (attachConnectionInfoEntry c e).numberOfAllocation = c.numberOfAllocation := by
      intro c e
      cases head : c.infos <;> simp [attachConnectionInfoEntry,Connections.set,head]
    have allocated : s.conns.numberOfAllocation ≤ (allocateConnectionInfo s.conns).2.numberOfAllocation := by
      unfold allocateConnectionInfo
      split
      · exact Nat.le_refl _
      · exact Nat.le_succ _
    rw [outcome]
    simp only [establish,attached]
    exact allocated

def Timer.left : Timer → List Nat
  | .resting => []
  | .scanning _ _ left => left
  | .closing _ _ _ _ left => left

structure Guarded (listener : Nat) (t : Threads σ α) (chain pool : List Nat) : Prop where
  owned : Owned listener t.proxy chain pool
  listed : ∀ e ∈ t.timer.left, e < t.proxy.conns.numberOfAllocation
  waiting : ∀ now timeout e id left, t.timer = .closing now timeout e id left →
    e ∈ chain ∧ (t.proxy.conns.memory e).connectionId = id

theorem guarded_closedOnce (valid : Guarded listener t chain pool) : ClosedOnce t := by
  have once := valid.owned.shape.nodup
  exact ⟨chain,pool,valid.owned.shape.linked,valid.owned.shape.pooled,by simpa using once,valid.owned.numbered,
    valid.waiting⟩

theorem relay_guarded (ctx : Context σ α) (valid : Guarded listener t chain pool)
    (quiet : Undisturbed ctx t (.relay e fromClient input)) :
    ∃ chain' pool', Guarded listener (act ctx t (.relay e fromClient input)) chain' pool' := by
  by_cases inside : e ∈ chain
  · rcases relay_cases ctx valid.owned inside fromClient input with
      ⟨_,owned,numbers⟩ | ⟨ended,before,after,rfl,owned,numbers⟩
    · have size := owned.shape.size.trans valid.owned.shape.size.symm
      refine ⟨chain,pool,owned,?_,?_⟩
      · intro a member
        exact (valid.listed a member).trans_eq size.symm
      · intro now timeout a id left place
        obtain ⟨member,number⟩ := valid.waiting now timeout a id left place
        exact ⟨member,(numbers a).trans number⟩
    · have size : (relay ctx t.proxy e fromClient input).conns.numberOfAllocation =
          t.proxy.conns.numberOfAllocation := by
        rw [owned.shape.size,valid.owned.shape.size]
        simp only [List.length_append,List.length_cons]
        omega
      refine ⟨before ++ after,e :: pool,owned,?_,?_⟩
      · intro a member
        exact (valid.listed a member).trans_eq size.symm
      · intro now timeout a id left place
        obtain ⟨member,number⟩ := valid.waiting now timeout a id left place
        have other : a ≠ e := by
          intro equal
          obtain ⟨s,timer⟩ := t
          cases place
          exact absurd (ended.symm.trans (quiet equal.symm)) (by simp)
        exact ⟨by simpa [other] using member,(numbers a other).trans number⟩
  · have same : act ctx t (.relay e fromClient input) = t := by
      simp only [act,relay_ignored valid.owned.shape inside]
    rw [same]
    exact ⟨chain,pool,valid⟩

theorem act_guarded (ctx : Context σ α) (valid : Guarded listener t chain pool) (quiet : Undisturbed ctx t action) :
    ∃ chain' pool', Guarded listener (act ctx t action) chain' pool' := by
  obtain ⟨s,timer⟩ := t
  obtain ⟨owned,listed,waiting⟩ := valid
  cases action with
  | accept input =>
      obtain ⟨chain',pool',⟨after,_⟩,kept⟩ := accept_accounted False ctx input ⟨owned,False.elim⟩ False.elim
      refine ⟨chain',pool',after,fun e member => (listed e member).trans_le (accept_allocation ctx s input),?_⟩
      intro now timeout e id left place
      obtain ⟨member,number⟩ := waiting now timeout e id left place
      obtain ⟨still,data⟩ := kept e member
      refine ⟨still,Eq.trans ?_ number⟩
      change ((mainListener ctx s input).conns.memory e).connectionId = _
      rw [eq_of_data data]
  | relay e fromClient input => exact relay_guarded ctx ⟨owned,listed,waiting⟩ quiet
  | snapshot now timeout =>
      cases timer with
      | scanning _ _ _ => exact ⟨chain,pool,owned,listed,waiting⟩
      | closing _ _ _ _ _ => exact ⟨chain,pool,owned,listed,waiting⟩
      | resting =>
          obtain ⟨entries,shape,memory,allocation⟩ := snapshot_spec owned.shape
          have descriptors : descriptorsOf (snapshot s.conns).2 chain = descriptorsOf s.conns chain := by
            simp only [descriptorsOf,memory]
          have ids : idsOf (snapshot s.conns).2 chain = idsOf s.conns chain := by simp only [idsOf,memory]
          refine ⟨chain,pool,⟨shape,owned.sockets,?_,?_,owned.closes,?_,?_⟩,?_,by simp [act]⟩
          · exact descriptors.symm ▸ owned.distinct
          · exact descriptors.symm ▸ owned.opened
          · exact ids.symm ▸ owned.numbered
          · exact ids.symm ▸ owned.known
          · intro e member
            have inside : e ∈ chain := entries ▸ member
            exact (owned.shape.below (List.mem_append_left _ inside)).trans_eq allocation.symm
  | idleTest =>
      cases timer with
      | resting => exact ⟨chain,pool,owned,listed,waiting⟩
      | closing _ _ _ _ _ => exact ⟨chain,pool,owned,listed,waiting⟩
      | scanning now timeout left =>
          cases left with
          | nil => exact ⟨chain,pool,owned,by simp [act,Timer.left],by simp [act]⟩
          | cons e left =>
              have rest : ∀ a ∈ left, a < s.conns.numberOfAllocation :=
                fun a member => listed a (List.mem_cons_of_mem _ member)
              simp only [act]
              split
              · rename_i idle
                have inside := (owned.shape.inChain_iff (listed e List.mem_cons_self)).mp (quiet idle)
                refine ⟨chain,pool,owned,rest,?_⟩
                intro _ _ a id _ place
                cases place
                exact ⟨inside,rfl⟩
              · exact ⟨chain,pool,owned,rest,by simp⟩
  | close =>
      cases timer with
      | resting => exact ⟨chain,pool,owned,listed,waiting⟩
      | scanning _ _ _ => exact ⟨chain,pool,owned,listed,waiting⟩
      | closing now timeout e id left =>
          obtain ⟨inside,_⟩ := waiting now timeout e id left rfl
          obtain ⟨before,after,rfl⟩ := List.append_of_mem inside
          have dropped := (drop_accounted False ctx true ⟨owned,False.elim⟩).1
          have size : (dropConnection ctx s e true).conns.numberOfAllocation = s.conns.numberOfAllocation := by
            rw [dropped.shape.size,owned.shape.size]
            simp only [List.length_append,List.length_cons]
            omega
          exact ⟨before ++ after,e :: pool,dropped,fun a member => (listed a member).trans_eq size.symm,
            by simp [act]⟩

-- An interference shows at once: the timer thread is left with an entry that
-- is not the connection it has found idle.
theorem disturbed_not_once (ctx : Context σ α) (valid : Guarded listener t chain pool)
    (once : ClosedOnce (act ctx t action)) : Undisturbed ctx t action := by
  obtain ⟨s,timer⟩ := t
  obtain ⟨owned,listed,waiting⟩ := valid
  obtain ⟨chain',_,linked,_,_,_,still⟩ := once
  cases action with
  | relay e fromClient input =>
      cases timer with
      | resting => trivial
      | scanning _ _ _ => trivial
      | closing now timeout wanted id left =>
          rintro rfl
          obtain ⟨inside,_⟩ := waiting now timeout e id left rfl
          obtain ⟨present,_⟩ := still now timeout e id left rfl
          rcases relay_cases ctx owned inside fromClient input with ⟨ended,_⟩ | ⟨_,before,after,rfl,dropped,_⟩
          · exact ended
          · rw [links_unique linked dropped.shape.linked] at present
            exact absurd rfl (owned.shape.middle_apart present)
  | idleTest =>
      cases timer with
      | resting => trivial
      | closing _ _ _ _ _ => trivial
      | scanning now timeout left =>
          cases left with
          | nil => trivial
          | cons e left =>
              intro idle
              simp only [act,idle,if_true] at linked still
              obtain ⟨present,_⟩ := still now timeout e _ left rfl
              rw [links_unique linked owned.shape.linked] at present
              exact owned.shape.attached e present
  | accept _ => trivial
  | snapshot _ _ => trivial
  | close => trivial

theorem closed_once_iff_undisturbed (ctx : Context σ α) (listener : Nat) (memory : Nat → ConnectionInfo)
    (blacklist : AutoBlacklist.Table) (db : σ) (analyzer : α) (defaultServer onFailedChannel : Int)
    (actions : List Action) :
    let start := ⟨proxyMain listener memory blacklist db analyzer defaultServer onFailedChannel,.resting⟩
    (∀ earlier later, actions = earlier ++ later → ClosedOnce (Machine.run (act ctx) start earlier)) ↔
    Machine.Along (act ctx) (Undisturbed ctx) start actions := by
  intro start
  have initial : Guarded listener start [] [] :=
    ⟨(initial_accounted False listener memory blacklist db analyzer defaultServer onFailedChannel).1,
      by simp [start,Timer.left],by simp [start]⟩
  exact Machine.exact_condition (fun t => ∃ chain pool, Guarded listener t chain pool) ⟨[],[],initial⟩
    (fun _ _ ⟨_,_,valid⟩ quiet => act_guarded ctx valid quiet)
    (fun _ ⟨_,_,valid⟩ => guarded_closedOnce valid)
    (fun _ _ ⟨_,_,valid⟩ once => disturbed_not_once ctx valid once) actions

-- The client leaves while the timer thread waits for worker_mutex: connection 1
-- is closed a second time.
theorem waiting_entry_closed_twice :
    ¬ ClosedOnce (Machine.run (act (oneServer "10.0.0.2")) ⟨freshProxy,.resting⟩
      [.accept (visitor 5 6),.snapshot ⟨1000,0⟩ 600,.idleTest,.relay 0 true ⟨⟨1000,0⟩,[],[]⟩,.close]) := by
  rintro ⟨_,_,_,_,_,numbered,_⟩
  have twice : (Machine.run (act (oneServer "10.0.0.2")) ⟨freshProxy,.resting⟩
      [.accept (visitor 5 6),.snapshot ⟨1000,0⟩ 600,.idleTest,.relay 0 true ⟨⟨1000,0⟩,[],[]⟩,
        .close]).proxy.closings.map Closing.connectionId = [1,1] := by decide +kernel
  rw [twice] at numbered
  exact absurd (List.nodup_append.mp numbered).2.1 (by decide)

end TcpProxy.Proxying
