import TcpProxy.Proxying.Representation

namespace TcpProxy.Proxying
open AutoBlacklist LinkedChain Events

variable {σ α : Type} {ctx : Context σ α} {s : Proxy σ α} {c : Connections} {chain pool : List Nat}

def seconds (t : Timeval) : ℚ := t.sec + t.usec/1000000

-- The difference of two times, whatever carry tvsub makes.
theorem elapsedTime_eq (t1 t0 : Timeval) : elapsedTime t1 t0 = seconds t1 - seconds t0 := by
  unfold elapsedTime tvsub seconds
  dsimp only
  split
  · push_cast
    ring
  · push_cast
    ring

def Connections.holder (c : Connections) : Option Int × Int := (c.expiringHolder,c.sizeOfExpiringHolder)

def Fitting (c : Connections) : Prop := ∀ capacity, c.expiringHolder = some capacity → capacity = c.sizeOfExpiringHolder

theorem Fitting.congr (fitting : Fitting c) (same : c'.holder = c.holder) : Fitting c' := by
  obtain ⟨array,size⟩ := Prod.mk.inj same
  intro capacity held
  rw [size]
  exact fitting capacity (array.symm.trans held)

@[simp] theorem set_holder (c : Connections) (e : Nat) (info : ConnectionInfo) : (c.set e info).holder = c.holder := rfl

@[simp] theorem free_holder (c : Connections) (e : Nat) : (freeConnectionInfo c e).holder = c.holder := rfl

@[simp] theorem allocate_holder (c : Connections) : (allocateConnectionInfo c).2.holder = c.holder := by
  unfold allocateConnectionInfo
  split
  · rfl
  · rfl

@[simp] theorem attach_holder (c : Connections) (e : Nat) : (attachConnectionInfoEntry c e).holder = c.holder := by
  unfold attachConnectionInfoEntry
  dsimp only
  split
  · rfl
  · rfl

@[simp] theorem detach_holder (c : Connections) (e : Nat) : (detachConnectionInfoEntry c e).holder = c.holder := by
  unfold detachConnectionInfoEntry
  split
  · dsimp only
    split
    · split
      · rfl
      · rfl
    · split
      · split
        · rfl
        · rfl
      · split
        · rfl
        · rfl
  · rfl

@[simp] theorem drop_holder (ctx : Context σ α) (s : Proxy σ α) (e : Nat) (idle : Bool) :
    (dropConnection ctx s e idle).conns.holder = s.conns.holder := by
  unfold dropConnection closeEvent
  dsimp only
  split
  · simp
  · simp

theorem sweep_holder (ctx : Context σ α) (now : Timeval) (timeout : ℚ) (todo : List Nat) (s : Proxy σ α) :
    (todo.foldl (sweepIdle ctx now timeout) s).conns.holder = s.conns.holder := by
  refine List.foldlRecOn (motive := fun next : Proxy σ α => next.conns.holder = s.conns.holder) todo _ rfl ?_
  intro next before e _
  unfold sweepIdle
  split
  · rw [drop_holder,before]
  · exact before

theorem accept_holder (ctx : Context σ α) (s : Proxy σ α) (input : AcceptInput) :
    (mainListener ctx s input).conns.holder = s.conns.holder := by
  rcases accept_cases ctx s input with ⟨_,_,_,_,_,same,_⟩ | ⟨_,_,_,_,_,admission,_,same,_⟩
  · rw [same]
  · rw [same]
    unfold establish
    dsimp only
    split
    · simp
    · simp

theorem relay_holder (ctx : Context σ α) (s : Proxy σ α) (e : Nat) (fromClient : Bool) (input : RelayInput) :
    (relay ctx s e fromClient input).conns.holder = s.conns.holder := by
  have proxied : ∀ source destination, (doProxying ctx s source destination e input).conns.holder = s.conns.holder := by
    intro source destination
    obtain ⟨info,_,_,_,_,outcome,_⟩ := relayChunk_frame ctx s source destination e input
    have relayed : (relayChunk ctx s source destination e input).2.conns.holder = s.conns.holder := by
      rw [outcome]
      exact set_holder s.conns e info
    unfold doProxying
    split
    · dsimp only
      split
      · rw [drop_holder,relayed]
      · exact relayed
    · rfl
  unfold relay proxyFromClientToServer proxyFromServerToClient
  split
  · split
    · exact proxied _ _
    · exact proxied _ _
  · rfl

-- The array is made anew when it is smaller than the chain has become. Each
-- index that is written stays below its capacity.
theorem snapshot_fits (fitting : Fitting c) : Fitting (snapshot c).2 ∧
    (0 < c.numberOfEntries → ∃ capacity, (snapshot c).2.expiringHolder = some capacity ∧ c.numberOfEntries ≤ capacity) := by
  unfold snapshot
  split
  · cases held : c.expiringHolder with
    | none =>
        refine ⟨fun capacity same => (Option.some.inj same).symm,fun _ => ⟨c.numberOfEntries,rfl,Int.le_refl _⟩⟩
    | some capacity =>
        have size := fitting capacity held
        by_cases small : c.sizeOfExpiringHolder < c.numberOfEntries
        · simp only [small,if_true]
          exact ⟨fun capacity same => (Option.some.inj same).symm,fun _ => ⟨c.numberOfEntries,rfl,Int.le_refl _⟩⟩
        · simp only [small,if_false]
          exact ⟨fitting,fun _ => ⟨capacity,held,by omega⟩⟩
  · rename_i empty
    exact ⟨fitting,fun positive => absurd positive empty⟩

theorem step_fitting (ctx : Context σ α) (fitting : Fitting s.conns) (event : Event) :
    Fitting (step ctx s event).conns := by
  cases event with
  | accept input => exact fitting.congr (accept_holder ctx s input)
  | relay e fromClient input => exact fitting.congr (relay_holder ctx s e fromClient input)
  | cleanIdle now timeout =>
      exact (snapshot_fits fitting).1.congr (sweep_holder ctx now timeout (snapshot s.conns).1 _)
  | expiring now => exact fitting
  | closeIdle now => exact fitting
  | setDefaultChannel channel =>
      obtain ⟨_,same⟩ := setDefaultChannel_frame ctx s channel
      rw [step,same]
      exact fitting
  | setFallbackChannel channel =>
      obtain ⟨_,same⟩ := setFallbackChannel_frame ctx s channel
      rw [step,same]
      exact fitting

theorem run_fitting (ctx : Context σ α) (fitting : Fitting s.conns) (events : List Event) :
    Fitting (Machine.run (step ctx) s events).conns := by
  induction events generalizing s with
  | nil => exact fitting
  | cons event rest ih => exact ih (step_fitting ctx fitting event)

def closeDescriptors (c : Connections) (sockets : Sockets) (ended : List Nat) : Sockets :=
  ended.foldl (fun sockets e => (sockets.close (c.memory e).clientFd).close (c.memory e).serverFd) sockets

def removeHandlers (c : Connections) (ev : EventLoopData Handler (Option Nat)) (ended : List Nat) :
    EventLoopData Handler (Option Nat) :=
  ended.foldl (fun ev e => (evRemoveEvent (evRemoveEvent ev (c.memory e).serverHandle).2 (c.memory e).clientHandle).2) ev

-- The connections of `ended` are closed, each once and as an idle one. Those of
-- `kept` stay, in their order.
structure Swept (s next : Proxy σ α) (kept ended : List Nat) : Prop where
  shape : ∃ pool, ConnShape next.conns kept [] pool
  data : ∀ e ∈ kept, (next.conns.memory e).data = (s.conns.memory e).data
  closings : next.closings = s.closings ++ ended.map fun e => closingOf (s.conns.memory e) true
  sockets : next.sockets = closeDescriptors s.conns s.sockets ended
  ev : next.ev = removeHandlers s.conns s.ev ended

theorem isIdle_data (same : (c.memory e).data = (c'.memory e).data) (now : Timeval) (timeout : ℚ) :
    isIdle c now timeout e = isIdle c' now timeout e := by
  have recent : (c.memory e).recent = (c'.memory e).recent := by rw [eq_of_data same]
  rw [isIdle,isIdle,recent]

theorem closeDescriptors_data (same : ∀ e ∈ ended, (c.memory e).data = (c'.memory e).data) (sockets : Sockets) :
    closeDescriptors c sockets ended = closeDescriptors c' sockets ended := by
  refine List.foldl_ext _ _ _ fun sockets e member => ?_
  have client : (c.memory e).clientFd = (c'.memory e).clientFd := by
    rw [eq_of_data (same e member)]
  have server : (c.memory e).serverFd = (c'.memory e).serverFd := by
    rw [eq_of_data (same e member)]
  rw [client,server]

theorem removeHandlers_data (same : ∀ e ∈ ended, (c.memory e).data = (c'.memory e).data)
    (ev : EventLoopData Handler (Option Nat)) : removeHandlers c ev ended = removeHandlers c' ev ended := by
  refine List.foldl_ext _ _ _ fun ev e member => ?_
  have client : (c.memory e).clientHandle = (c'.memory e).clientHandle := by
    rw [eq_of_data (same e member)]
  have server : (c.memory e).serverHandle = (c'.memory e).serverHandle := by
    rw [eq_of_data (same e member)]
  rw [client,server]

theorem Swept.none (shape : ConnShape s.conns chain [] pool) : Swept s s chain [] :=
  ⟨⟨pool,shape⟩,fun _ _ => rfl,by simp,rfl,rfl⟩

theorem Swept.drop (ctx : Context σ α) (shape : ConnShape s.conns (before ++ e :: after) [] pool)
    (swept : Swept (dropConnection ctx s e true) next kept ended) (stays : ∀ a ∈ kept, a ∈ before ++ after)
    (later : ∀ a ∈ ended, a ∈ before ++ after) : Swept s next kept (e :: ended) := by
  obtain ⟨_,memory,sockets,ev,closings,_⟩ := drop_spec ctx s true shape
  have same : ∀ a ∈ before ++ after, ((dropConnection ctx s e true).conns.memory a).data = (s.conns.memory a).data :=
    fun a member => memory a (shape.middle_apart member)
  constructor
  case shape => exact swept.shape
  case data => exact fun a member => (swept.data a member).trans (same a (stays a member))
  case closings =>
    rw [swept.closings,closings,List.append_assoc]
    have agree : (ended.map fun a => closingOf ((dropConnection ctx s e true).conns.memory a) true) =
        ended.map fun a => closingOf (s.conns.memory a) true :=
      List.map_congr_left fun a member => closingOf_data (same a (later a member)) true
    rw [agree]
    rfl
  case sockets =>
    rw [swept.sockets,closeDescriptors_data fun a member => same a (later a member),sockets]
    rfl
  case ev =>
    rw [swept.ev,removeHandlers_data fun a member => same a (later a member),ev]
    rfl

-- `done` has been tested. What is closed before an entry is tested leaves it as
-- it was.
theorem sweep_swept (ctx : Context σ α) (now : Timeval) (timeout : ℚ) (todo : List Nat)
    (shape : ConnShape s.conns (done ++ todo) [] pool) :
    Swept s (todo.foldl (sweepIdle ctx now timeout) s) (done ++ todo.filter fun e => !isIdle s.conns now timeout e)
      (todo.filter (isIdle s.conns now timeout)) := by
  induction todo generalizing s done pool with
  | nil => simpa using Swept.none shape
  | cons e rest ih =>
      rw [List.foldl_cons,sweepIdle]
      cases idle : isIdle s.conns now timeout e with
      | false =>
          rw [if_neg Bool.false_ne_true,List.filter_cons_of_pos (by simp [idle]),List.filter_cons_of_neg (by simp [idle])]
          have next := ih (show ConnShape s.conns ((done ++ [e]) ++ rest) [] pool by simpa using shape)
          rwa [List.append_assoc] at next
      | true =>
          rw [if_pos rfl,List.filter_cons_of_neg (by simp [idle]),List.filter_cons_of_pos idle]
          obtain ⟨left,memory,_⟩ := drop_spec ctx s true shape
          have same : ∀ a ∈ rest, isIdle (dropConnection ctx s e true).conns now timeout a =
              isIdle s.conns now timeout a := fun a member =>
            isIdle_data (memory a (shape.middle_apart (List.mem_append_right _ member))) now timeout
          have next := ih left
          rw [List.filter_congr same,
            List.filter_congr (q := fun a => !isIdle s.conns now timeout a) fun a member => by rw [same a member]] at next
          refine next.drop ctx shape (fun a member => ?_) fun a member =>
            List.mem_append_right _ (List.mem_of_mem_filter member)
          rcases List.mem_append.mp member with old | new
          · exact List.mem_append_left _ old
          · exact List.mem_append_right _ (List.mem_of_mem_filter new)

theorem cleanIdle_swept (ctx : Context σ α) (now : Timeval) (timeout : ℚ) (shape : ConnShape s.conns chain [] pool) :
    Swept s (cleanIdleConnections ctx s now timeout) (chain.filter fun e => !isIdle s.conns now timeout e)
      (chain.filter (isIdle s.conns now timeout)) := by
  obtain ⟨entries,shape',memory,_⟩ := snapshot_spec shape
  have data : ∀ e, ((snapshot s.conns).2.memory e).data = (s.conns.memory e).data := fun e => by rw [memory]
  have swept := @sweep_swept σ α {s with conns := (snapshot s.conns).2} pool [] ctx now timeout chain shape'
  have same : isIdle (snapshot s.conns).2 now timeout = isIdle s.conns now timeout :=
    funext fun e => isIdle_data (data e) now timeout
  simp only [same,List.nil_append] at swept
  have run : cleanIdleConnections ctx s now timeout =
      (snapshot s.conns).1.foldl (sweepIdle ctx now timeout) {s with conns := (snapshot s.conns).2} := rfl
  rw [run,entries]
  constructor
  case shape => exact swept.shape
  case data => exact fun e member => (swept.data e member).trans (data e)
  case closings =>
    refine swept.closings.trans (congrArg _ (List.map_congr_left fun e _ => ?_))
    exact closingOf_data (data e) true
  case sockets => exact swept.sockets.trans (closeDescriptors_data (fun e _ => data e) s.sockets)
  case ev => exact swept.ev.trans (removeHandlers_data (fun e _ => data e) s.ev)

-- One sweep of any state that a run leads to. The closed connections are those
-- of the chain that have been silent for more than the timeout; the snapshot is
-- written inside of its array, whatever sweeps were before; and a timeout of -1
-- leaves no connection, unless the clock is behind one.
theorem idle_sweep_exact (ctx : Context σ α) (listener : Nat) (memory : Nat → ConnectionInfo) (blacklist : Table)
    (db : σ) (analyzer : α) (defaultServer onFailedChannel : Int) (events : List Event) (now : Timeval) (timeout : ℚ) :
    let s := Machine.run (step ctx) (proxyMain listener memory blacklist db analyzer defaultServer onFailedChannel)
      events
    let next := cleanIdleConnections ctx s now timeout
    let idle := fun e => decide (timeout < seconds now - seconds (s.conns.memory e).recent)
    ∃ chain pool pool', Represented s.conns chain pool ∧
      Represented next.conns (chain.filter fun e => !idle e) pool' ∧
      (∀ e ∈ chain, idle e = false → (next.conns.memory e).data = (s.conns.memory e).data) ∧
      next.closings = s.closings ++ (chain.filter idle).map (fun e => closingOf (s.conns.memory e) true) ∧
      (next.closings.map Closing.connectionId).Nodup ∧
      next.sockets = closeDescriptors s.conns s.sockets (chain.filter idle) ∧
      next.ev = removeHandlers s.conns s.ev (chain.filter idle) ∧
      (∀ n < (snapshot s.conns).1.length, ∃ capacity, (snapshot s.conns).2.expiringHolder = some capacity ∧ n < capacity) ∧
      (timeout = -1 → (∀ e ∈ chain, seconds (s.conns.memory e).recent ≤ seconds now) → next.conns.infos = none) := by
  intro s next idle
  obtain ⟨chain,pool,owned,_⟩ := (accounted_invariant False ctx listener).run
    (initial_accounted False listener memory blacklist db analyzer defaultServer onFailedChannel) events
    (Machine.along_mono (fun _ _ _ asked => asked.elim) (Machine.along_true events))
  have same : isIdle s.conns now timeout = idle := funext fun e => by rw [isIdle,elapsedTime_eq]
  have swept := cleanIdle_swept ctx now timeout owned.shape
  rw [show Machine.run (step ctx) _ events = s from rfl] at swept
  rw [same] at swept
  obtain ⟨pool',shape⟩ := swept.shape
  have fitting : Fitting s.conns := run_fitting ctx (fun _ held => by cases held) events
  refine ⟨chain,pool,pool',owned.shape.represented,shape.represented,?_,swept.closings,?_,swept.sockets,swept.ev,?_,?_⟩
  · intro e member stays
    exact swept.data e (List.mem_filter.mpr ⟨member,by simp [stays]⟩)
  · have ended : ((chain.filter idle).map fun e => closingOf (s.conns.memory e) true).map Closing.connectionId =
        idsOf s.conns (chain.filter idle) := by
      rw [List.map_map]
      rfl
    rw [swept.closings,List.map_append,ended]
    refine (List.perm_append_comm.nodup_iff).mp (owned.numbered.sublist ?_)
    exact List.Sublist.append_right (List.filter_sublist.map _) _
  · intro n below
    obtain ⟨entries,_⟩ := snapshot_spec owned.shape
    have counted := owned.shape.counted
    have inside : (n : Int) < s.conns.numberOfEntries := by
      rw [counted]
      exact_mod_cast (entries ▸ below)
    obtain ⟨capacity,held,fits⟩ := (snapshot_fits fitting).2 (by omega)
    exact ⟨capacity,held,by omega⟩
  · intro minus before
    have absent : (chain.filter fun e => !idle e) = [] := by
      refine List.filter_eq_nil_iff.mpr fun e member => ?_
      have later := before e member
      simp only [idle,minus,Bool.not_eq_true,Bool.not_eq_false',decide_eq_true_eq]
      linarith
    rw [absent] at shape
    exact shape.linked

end TcpProxy.Proxying
