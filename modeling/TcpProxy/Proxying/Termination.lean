import TcpProxy.Proxying.Agreement
import TcpProxy.Proxying.IdleSweep
import TcpProxy.Proxying.RelayIntegrity

namespace TcpProxy.Proxying
open AutoBlacklist LinkedChain Events

variable {σ α : Type} {ctx : Context σ α} {s : Proxy σ α} {listener : Nat} {chain pool remaining : List Nat}

-- The index that the event loop gives to the listener.
def listenerIndex (listener : Nat) : Int :=
  (evAddEvent (newEventLoop Handler.mainListener (none : Option Nat)) listener .mainListener none true).1

def proxyTerminated (ctx : Context σ α) (s : Proxy σ α) (sockfd index : Int) (tv : Timeval) : Proxy σ α :=
  let s := cleanIdleConnections ctx s tv (-1)
  {s with ev := (evRemoveEvent s.ev index).2,sockets := s.sockets.close sockfd}

-- The connections of `remaining` are still there, and of every other one there is a
-- record; nothing has been closed twice.
structure Ended (s next : Proxy σ α) (remaining : List Nat) : Prop where
  linked : Links next.conns.nextOf next.conns.infos remaining
  kept : ∀ e ∈ remaining, (next.conns.memory e).data = (s.conns.memory e).data
  listed : (next.openings.map Opening.connectionId).Perm
    (idsOf s.conns remaining ++ next.closings.map Closing.connectionId)
  once : next.sockets.badCloses = []

-- Their time is a second or more ahead of the clock that the sweep is given.
def ahead (c : Connections) (tv : Timeval) (e : Nat) : Bool := decide (seconds tv+1 ≤ seconds (c.memory e).recent)

theorem isIdle_ahead (c : Connections) (tv : Timeval) (e : Nat) : isIdle c tv (-1) e = !ahead c tv e := by
  rw [isIdle,elapsedTime_eq,ahead,← decide_not,decide_eq_decide,not_le]
  constructor
  · intro idle
    linarith
  · intro before
    linarith

theorem swept_ahead (ctx : Context σ α) (tv : Timeval) (shape : ConnShape s.conns chain [] pool) :
    Swept s (cleanIdleConnections ctx s tv (-1)) (chain.filter (ahead s.conns tv))
      (chain.filter fun e => !ahead s.conns tv e) := by
  have swept := cleanIdle_swept ctx tv (-1) shape
  have same : isIdle s.conns tv (-1) = fun e => !ahead s.conns tv e := funext (isIdle_ahead s.conns tv)
  simpa only [same,Bool.not_not] using swept

theorem Invariant.ends {allowed : Proxy σ α → Event → Prop} {valid : Proxy σ α → List Nat → List Nat → Prop}
    (rule : Invariant ctx allowed valid) {start : Proxy σ α} (initial : valid start [] []) (events : List Event)
    (along : Machine.Along (Proxying.step ctx) allowed start events) (tv : Timeval)
    (may : allowed (Machine.run (Proxying.step ctx) start events) (.cleanIdle tv (-1)))
    (linked : Links (Machine.run (Proxying.step ctx) start events).conns.nextOf
      (Machine.run (Proxying.step ctx) start events).conns.infos chain) :
    ∃ pool, valid (cleanIdleConnections ctx (Machine.run (Proxying.step ctx) start events) tv (-1))
      (chain.filter (ahead (Machine.run (Proxying.step ctx) start events).conns tv)) pool := by
  obtain ⟨chain',pool,before⟩ := rule.run initial events along
  obtain rfl := links_unique (rule.shape before).linked linked
  obtain ⟨remaining,pool',after⟩ := rule.step before may
  obtain ⟨_,shape⟩ := (swept_ahead ctx tv (rule.shape before)).shape
  obtain rfl := links_unique (rule.shape after).linked shape.linked
  exact ⟨pool',after⟩

theorem listener_closed (valid : Accounted True listener s remaining pool) (fd : Int) :
    (s.sockets.close listener).table fd ≠ none ↔ fd ∈ descriptorsOf s.conns remaining := by
  obtain ⟨owned,covered⟩ := valid
  obtain ⟨k,present⟩ := Option.ne_none_iff_exists'.mp (owned.opened listener List.mem_cons_self)
  have apart := (List.nodup_cons.mp owned.distinct).1
  rw [close_open present]
  by_cases same : fd = listener
  · subst same
    simpa using apart
  · simp only [Function.update_of_ne same]
    constructor
    · intro opened
      exact (List.mem_cons.mp (covered trivial fd opened)).resolve_left same
    · exact fun member => owned.opened fd (List.mem_cons_of_mem _ member)

theorem listener_closes (owned : Owned listener s remaining pool) : (s.sockets.close listener).badCloses = [] := by
  obtain ⟨k,present⟩ := Option.ne_none_iff_exists'.mp (owned.opened listener List.mem_cons_self)
  rw [close_open present]
  exact owned.closes

theorem listener_removed (valid : Mapped listener s remaining pool) :
    Represents (evRemoveEvent s.ev (listenerIndex listener)).2 (rowsOf s.conns remaining) := by
  have unshared := valid.rows.unshared
  rw [List.map_cons,List.nodup_cons] at unshared
  have removed := remove_represents valid.rows (show (listenerRow listener).1 ∈ _ by simp)
  rwa [withoutIndex_cons _ unshared.1] at removed

theorem represents_nothing {data : EventLoopData Handler (Option Nat)} (rows : Represents data []) :
    data.maxEvents = 0 ∧ data.numOfEvents = 0 := by
  refine ⟨?_,rows.counted⟩
  by_contra positive
  exact List.not_mem_nil (rows.trimmed (Nat.pos_of_ne_zero positive))

-- `opened` asks that every name resolves, `slots` that every registration is
-- accepted: then nothing else is open, or registered, than the connections left.
structure Terminated (ctx : Context σ α) (listener : Nat) (start : Proxy σ α) (events : List Event)
    (s next : Proxy σ α) (remaining : List Nat) : Prop where
  ended : Ended s next remaining
  opened : Machine.Along (step ctx) (Resolving ctx) start events →
    ∀ fd, next.sockets.table fd ≠ none ↔ fd ∈ descriptorsOf s.conns remaining
  slots : Machine.Along (step ctx) (Registrable ctx) start events → Represents next.ev (rowsOf s.conns remaining)

-- The proxy ends after any run. Only connections that the clock is a second or
-- more behind are left, and where there is none, no descriptor and no slot.
theorem proxy_terminates (ctx : Context σ α) (listener : Nat) (memory : Nat → ConnectionInfo) (blacklist : Table)
    (db : σ) (analyzer : α) (defaultServer onFailedChannel : Int) (events : List Event) (tv : Timeval) :
    let start := proxyMain listener memory blacklist db analyzer defaultServer onFailedChannel
    let s := Machine.run (step ctx) start events
    let next := proxyTerminated ctx s listener (listenerIndex listener) tv
    ∃ chain, Links s.conns.nextOf s.conns.infos chain ∧
      Terminated ctx listener start events s next (chain.filter (ahead s.conns tv)) ∧
      (next.conns.infos = none ↔ ∀ e ∈ chain, seconds (s.conns.memory e).recent < seconds tv+1) ∧
      (next.conns.infos = none →
        (Machine.Along (step ctx) (Resolving ctx) start events → ∀ fd, next.sockets.table fd = none) ∧
        (Machine.Along (step ctx) (Registrable ctx) start events → next.ev.maxEvents = 0 ∧ next.ev.numOfEvents = 0)) := by
  intro start s next
  obtain ⟨chain,pool,owned,_⟩ := (accounted_invariant False ctx listener).run
    (initial_accounted False listener memory blacklist db analyzer defaultServer onFailedChannel) events
    (Machine.along_mono (fun _ _ _ asked => asked.elim) (Machine.along_true events))
  have linked : Links s.conns.nextOf s.conns.infos chain := owned.shape.linked
  have swept := swept_ahead ctx tv owned.shape
  rw [show Machine.run (step ctx) _ events = s from rfl] at swept
  obtain ⟨_,shape⟩ := swept.shape
  obtain ⟨_,faithful⟩ := (faithful_invariant ctx listener).ends
    (initial_faithful listener memory blacklist db analyzer defaultServer onFailedChannel) events
    (Machine.along_true events) tv trivial linked
  have ended : Ended s next (chain.filter (ahead s.conns tv)) := by
    refine ⟨shape.linked,swept.data,?_,listener_closes faithful.owned⟩
    rw [← idsOf_congr swept.data]
    exact faithful.listed
  have isOpen : Machine.Along (step ctx) (Resolving ctx) start events →
      ∀ fd, next.sockets.table fd ≠ none ↔ fd ∈ descriptorsOf s.conns (chain.filter (ahead s.conns tv)) := by
    intro resolving fd
    obtain ⟨_,accounted⟩ := (accounted_invariant True ctx listener).ends
      (initial_accounted True listener memory blacklist db analyzer defaultServer onFailedChannel) events
      (Machine.along_mono (fun _ _ resolves _ => resolves) resolving) tv (fun _ => trivial) linked
    rw [← descriptorsOf_congr swept.data]
    exact listener_closed accounted fd
  have slots : Machine.Along (step ctx) (Registrable ctx) start events →
      Represents next.ev (rowsOf s.conns (chain.filter (ahead s.conns tv))) := by
    intro registrable
    obtain ⟨_,mapped⟩ := (mapped_invariant ctx listener).ends
      (initial_mapped listener memory blacklist db analyzer defaultServer onFailedChannel) events registrable tv trivial linked
    rw [← rowsOf_congr swept.data]
    exact listener_removed mapped
  have nothing : next.conns.infos = none ↔ chain.filter (ahead s.conns tv) = [] := by
    constructor
    · intro absent
      exact links_unique ended.linked (absent ▸ show Links next.conns.nextOf none [] from rfl)
    · intro absent
      have empty := ended.linked
      rw [absent] at empty
      exact empty
  refine ⟨chain,linked,⟨ended,isOpen,slots⟩,?_,?_⟩
  · rw [nothing,List.filter_eq_nil_iff]
    simp only [ahead,decide_eq_true_eq,not_le]
  · intro absent
    rw [nothing.mp absent] at isOpen slots
    refine ⟨fun resolving fd => ?_,fun registrable => represents_nothing (slots registrable)⟩
    by_contra opened
    exact List.not_mem_nil ((isOpen resolving fd).mp opened)

end TcpProxy.Proxying
