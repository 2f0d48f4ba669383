import TcpProxy.Proxying.RecordKeeping
import TcpProxy.Proxying.RequestLimit

namespace TcpProxy.Proxying
open AutoBlacklist LinkedChain Database

variable {σ α : Type} {ctx : Context σ α} {s : Proxy σ α} {listener : Nat} {chain pool : List Nat}
  {stored : List (Int × Nat)}

def boundAtClose (sn bytes count : Int) (idle : Bool) : List Parameter :=
  [.int (toInt32 bytes),.int count,.string (if idle then "timeout" else "normal"),.int sn]

theorem closeEvent_binds (settings : Settings) (plugin : Plugin α) (s : Proxy DbService α) (idle : Bool)
    (flag : (s.conns.memory e).inChain = false)
    (authorised : (closingOf (s.conns.memory e) idle).sn = some sn) :
    let c := closingOf (s.conns.memory e) idle
    let next := closeEvent (installation settings plugin) s e idle
    next.closings = s.closings ++ [c] ∧
    next.db = dbServiceDone
      (updateOnce s.db .connectionClose (boundAtClose sn c.bytesReceived c.requestCount c.idle)).2 := by
  intro c next
  simp only [next,closeEvent,flag,authorised]
  exact ⟨rfl,rfl⟩

def Event.isSweep : Event → Bool
  | .cleanIdle _ _ => true
  | _ => false

-- The number and the insert_id of the connection that was attached between two
-- states, as its entry has them.
def attachedIn (s next : Proxy σ α) : Option (Int × Nat) :=
  if next.openings = s.openings then none
  else next.conns.infos.map fun e => ((next.conns.memory e).connectionId,(next.conns.memory e).insertId)

def insertIds (ctx : Context σ α) (start : Proxy σ α) (events : List Event) : List (Int × Nat) :=
  Machine.trace (step ctx) (fun s event => attachedIn s (step ctx s event)) start events

-- Every connection carries the insert_id of its own attachment to its end.
structure Booked (stored : List (Int × Nat)) (s : Proxy σ α) (chain pool : List Nat) : Prop where
  shape : ConnShape s.conns chain [] pool
  numbers : stored.map Prod.fst = s.openings.map Opening.connectionId
  attached : ∀ e ∈ chain, ((s.conns.memory e).connectionId,(s.conns.memory e).insertId) ∈ stored
  closed : ∀ c ∈ s.closings, ∀ sn, c.sn = some sn → ∃ n : Nat, (c.connectionId,n) ∈ stored ∧ sn = toInt32 n

theorem drop_booked (ctx : Context σ α) (idle : Bool) (valid : Booked stored s (before ++ e :: after) pool) :
    Booked stored (dropConnection ctx s e idle) (before ++ after) (e :: pool) := by
  obtain ⟨shape,data,_,_,closings,openings,_⟩ := drop_spec ctx s idle valid.shape
  refine ⟨shape,by rw [openings]; exact valid.numbers,?_,?_⟩
  · intro a member
    rw [eq_of_data (data a (valid.shape.middle_apart member))]
    refine valid.attached a ?_
    rcases List.mem_append.mp member with left | right
    · exact List.mem_append_left _ left
    · exact List.mem_append_right _ (List.mem_cons_of_mem _ right)
  · intro c member sn authorised
    rw [closings] at member
    rcases List.mem_append.mp member with old | new
    · exact valid.closed c old sn authorised
    · obtain rfl := List.mem_singleton.mp new
      obtain ⟨_,_,same⟩ := Option.map_eq_some_iff.mp authorised
      exact ⟨(s.conns.memory e).insertId,valid.attached e (by simp),same.symm⟩

theorem relayChunk_booked (ctx : Context σ α) (source destination : Int) (e : Nat) (input : RelayInput)
    (valid : Booked stored s chain pool) : Booked stored (relayChunk ctx s source destination e input).2 chain pool := by
  obtain ⟨info,sockets,db,analyzer,chunks,outcome,fields,_⟩ := relayChunk_frame ctx s source destination e input
  rw [outcome]
  refine ⟨?_,valid.numbers,?_,valid.closed⟩
  · exact valid.shape.set_data e info (by rw [fields]) (by rw [fields]) (by rw [fields])
  · intro a member
    by_cases equal : a = e
    · subst a
      rw [set_self,fields]
      exact valid.attached e member
    · rw [set_other _ _ equal]
      exact valid.attached a member

theorem booked_invariant (ctx : Context σ α) (stored : List (Int × Nat)) :
    Invariant ctx (fun _ event => ∀ input, event ≠ .accept input) (Booked stored) where
  shape valid := valid.shape
  accept _ busy := absurd rfl (busy _)
  relay valid _ inside := relay_keeps _ _ valid.shape inside
    (fun _ _ => relayChunk_booked ctx _ _ _ _ valid) (drop_booked ctx false)
  drop valid := drop_booked ctx true valid
  other valid _ _ _ _ _ _ _ :=
    ⟨valid.shape.keep rfl rfl rfl rfl (fun _ _ => ⟨rfl,rfl,rfl⟩),valid.numbers,valid.attached,valid.closed⟩

theorem accept_booked (ctx : Context σ α) (input : AcceptInput) (valid : Booked stored s chain pool) :
    ∃ chain' pool', Booked (stored ++ (attachedIn s (mainListener ctx s input)).toList) (mainListener ctx s input)
      chain' pool' := by
  rcases accept_cases ctx s input with
    ⟨sockets,db,blacklist,counter,fds,outcome,_⟩ | ⟨sockets,db,blacklist,fdc,proxyFd,admission,remoteIp,outcome,_⟩
  · rw [outcome]
    refine ⟨chain,pool,?_⟩
    rw [attachedIn,if_pos rfl,Option.toList_none,List.append_nil]
    exact ⟨valid.shape,valid.numbers,valid.attached,valid.closed⟩
  · obtain ⟨⟨rest,shape⟩,outside,data,fields,_⟩ := establish_spec ctx
      {s with sockets := sockets,db := db,blacklist := blacklist,connectionCounter := s.connectionCounter+1}
      fdc proxyFd (s.connectionCounter+1) admission remoteIp input valid.shape
    obtain ⟨_,_,_,closings,_,openings⟩ := establish_frame ctx
      {s with sockets := sockets,db := db,blacklist := blacklist,connectionCounter := s.connectionCounter+1}
      fdc proxyFd (s.connectionCounter+1) admission remoteIp input
    rw [← outcome] at shape data fields closings openings
    generalize mainListener ctx s input = next at *
    generalize (allocateConnectionInfo s.conns).1 = e at *
    have different : ¬ next.openings = s.openings := by
      rw [openings]
      simp
    have first : next.conns.infos = some e := links_head shape.linked
    have number : (next.conns.memory e).connectionId = s.connectionCounter+1 := by rw [fields]
    rw [attachedIn,if_neg different,first,Option.map_some,Option.toList_some,number]
    refine ⟨e :: chain,rest,shape,?_,?_,?_⟩
    · rw [openings,List.map_append,List.map_append,valid.numbers]
      rfl
    · intro a member
      rcases List.mem_cons.mp member with rfl | old
      · rw [number]
        exact List.mem_append_right _ (List.mem_singleton.mpr rfl)
      · rw [eq_of_data (data a fun equal => outside (equal ▸ old))]
        exact List.mem_append_left _ (valid.attached a old)
    · intro c member sn authorised
      rw [closings] at member
      obtain ⟨n,before,same⟩ := valid.closed c member sn authorised
      exact ⟨n,List.mem_append_left _ before,same⟩

theorem step_closings (ctx : Context σ α) (s : Proxy σ α) (event : Event) :
    ∃ ended, (step ctx s event).closings = s.closings ++ ended ∧ ∀ c ∈ ended, c.idle = event.isSweep := by
  cases event with
  | accept input =>
      refine ⟨[],?_,by simp⟩
      rcases accept_cases ctx s input with
        ⟨_,_,_,_,_,outcome,_⟩ | ⟨_,_,_,_,_,_,_,outcome,_⟩
      · rw [step,outcome,List.append_nil]
      · rw [step,outcome,(establish_frame _ _ _ _ _ _ _ _).2.2.2.1,List.append_nil]
  | relay e fromClient input => exact (relay_finishing ctx s e fromClient input).closings
  | cleanIdle now timeout => exact (cleanIdle_finishing ctx s now timeout).closings
  | expiring now => exact ⟨[],by simp [step],by simp⟩
  | closeIdle now => exact ⟨[],by simp [step],by simp⟩
  | setDefaultChannel channel =>
      obtain ⟨defaultServer,same⟩ := setDefaultChannel_frame ctx s channel
      rw [step,same]
      exact ⟨[],by simp,by simp⟩
  | setFallbackChannel channel =>
      obtain ⟨onFailedChannel,same⟩ := setFallbackChannel_frame ctx s channel
      rw [step,same]
      exact ⟨[],by simp,by simp⟩

theorem step_openings (ctx : Context σ α) (s : Proxy σ α) (event : Event) (quiet : ∀ input, event ≠ .accept input) :
    (step ctx s event).openings = s.openings := by
  cases event with
  | accept input => exact absurd rfl (quiet input)
  | relay e fromClient input => exact (relay_finishing ctx s e fromClient input).openings
  | cleanIdle now timeout => exact (cleanIdle_finishing ctx s now timeout).openings
  | expiring now => rfl
  | closeIdle now => rfl
  | setDefaultChannel channel =>
      obtain ⟨defaultServer,same⟩ := setDefaultChannel_frame ctx s channel
      rw [step,same]
  | setFallbackChannel channel =>
      obtain ⟨onFailedChannel,same⟩ := setFallbackChannel_frame ctx s channel
      rw [step,same]

theorem step_booked (ctx : Context σ α) (event : Event) (valid : Booked stored s chain pool) :
    ∃ chain' pool', Booked (stored ++ (attachedIn s (step ctx s event)).toList) (step ctx s event) chain' pool' := by
  have quiet : (∀ input, event ≠ .accept input) →
      ∃ chain' pool', Booked (stored ++ (attachedIn s (step ctx s event)).toList) (step ctx s event) chain' pool' := by
    intro other
    rw [attachedIn,if_pos (step_openings ctx s event other),Option.toList_none,List.append_nil]
    exact (booked_invariant ctx stored).step valid other
  cases event with
  | accept input => exact accept_booked ctx input valid
  | relay e fromClient input => exact quiet (by simp)
  | cleanIdle now timeout => exact quiet (by simp)
  | expiring now => exact quiet (by simp)
  | closeIdle now => exact quiet (by simp)
  | setDefaultChannel channel => exact quiet (by simp)
  | setFallbackChannel channel => exact quiet (by simp)

-- A connection that the last event of a run has closed, its two sockets, and
-- the insert_id that was stored when it was attached.
structure ClosedBy (ctx : Context σ α) (start : Proxy σ α) (earlier : List Event) (event : Event) (c : Closing)
    (sn : Int) (a b n : Nat) : Prop where
  ended : c ∈ (Machine.run (step ctx) start (earlier ++ [event])).closings.drop
    (Machine.run (step ctx) start earlier).closings.length
  authorised : c.sn = some sn
  sockets : ⟨c.connectionId,some a,some b⟩ ∈ (Machine.run (step ctx) start (earlier ++ [event])).openings
  stored : (c.connectionId,n) ∈ insertIds ctx start (earlier ++ [event])

def figures (s : Proxy σ α) (event : Event) (connectionId : Int) (a n : Nat) : List Parameter :=
  [.int (s.sockets.streams a).sent.length,.int (clientChunks s connectionId),
    .string (if event.isSweep then "timeout" else "normal"),.int n]

-- None of the three numbers needs more than an int.
def Fits (s : Proxy σ α) (connectionId : Int) (a n : Nat) : Prop :=
  (s.sockets.streams a).sent.length < 2^31 ∧ clientChunks s connectionId < 2^31 ∧ n < 2^31

instance (s : Proxy σ α) (connectionId : Int) (a n : Nat) : Decidable (Fits s connectionId a n) :=
  inferInstanceAs (Decidable (_ ∧ _ ∧ _))

theorem toInt32_iff (n : Nat) : toInt32 n = n ↔ n < 2^31 := by
  constructor
  · intro same
    have bound := toInt32_lt n
    omega
  · intro small
    exact toInt32_eq (by omega) (by omega)

-- bytes goes through an ssize_t before it is cut down to an int.
theorem toInt32_toInt64 (x : Int) : toInt32 (toInt64 x) = toInt32 x :=
  Int.bmod_bmod_of_dvd (by decide)

theorem bound_iff (tally : Tallied s a b c) (idle : c.idle = event.isSweep) (n : Nat) :
    boundAtClose (toInt32 n) c.bytesReceived c.requestCount c.idle = figures s event c.connectionId a n ↔
      Fits s c.connectionId a n := by
  simp only [boundAtClose,figures,Fits,tally.bytesReceived,tally.requestCount,toInt32_toInt64,idle,clientChunks]
  simp only [List.cons.injEq,Parameter.int.injEq,toInt32_iff,and_true,true_and]
  omega

-- The statement of connection_close gets the figures exactly if they fit: all
-- four parameters are set as ints or strings.
theorem close_parameters_iff (ctx : Context σ α) (listener : Nat) (memory : Nat → ConnectionInfo) (blacklist : Table)
    (db : σ) (analyzer : α) (defaultServer onFailedChannel : Int) (earlier : List Event) (event : Event) :
    let start := proxyMain listener memory blacklist db analyzer defaultServer onFailedChannel
    let s := Machine.run (step ctx) start earlier
    let next := Machine.run (step ctx) start (earlier ++ [event])
    (∀ c ∈ next.closings.drop s.closings.length, ∀ sn, c.sn = some sn →
      ∃ a b n, ClosedBy ctx start earlier event c sn a b n) ∧
    ∀ c sn a b n, ClosedBy ctx start earlier event c sn a b n →
      (boundAtClose sn c.bytesReceived c.requestCount c.idle = figures next event c.connectionId a n ↔
        Fits next c.connectionId a n) := by
  intro start s next
  obtain ⟨chain,pool,faithful⟩ := (faithful_invariant ctx listener).run
    (initial_faithful listener memory blacklist db analyzer defaultServer onFailedChannel) (earlier ++ [event])
    (Machine.along_true _)
  obtain ⟨chain',pool',booked⟩ : ∃ chain pool, Booked (insertIds ctx start (earlier ++ [event])) next chain pool := by
    refine Machine.run_history (fun events s => ∃ chain pool, Booked (insertIds ctx start events) s chain pool)
      ⟨[],[],new_connShape memory,rfl,fun _ member => absurd member List.not_mem_nil,
        fun _ member => absurd member List.not_mem_nil⟩ ?_ (earlier ++ [event]) (Machine.along_true _)
    rintro before last ⟨_,_,valid⟩ _
    rw [insertIds,Machine.trace_concat]
    exact step_booked ctx last valid
  obtain ⟨ended,closings,idle⟩ := step_closings ctx s event
  have new : next.closings.drop s.closings.length = ended := by
    rw [show next = step ctx s event from Machine.run_concat ..,closings,List.drop_left]
  constructor
  · intro c member sn authorised
    have closed := List.mem_of_mem_drop member
    obtain ⟨a,b,opening,_⟩ := faithful.closed c closed
    obtain ⟨n,stored,_⟩ := booked.closed c closed sn authorised
    exact ⟨a,b,n,member,authorised,opening,stored⟩
  · intro c sn a b n closedBy
    have closed := List.mem_of_mem_drop closedBy.ended
    obtain ⟨a',b',opening,tally⟩ := faithful.closed c closed
    obtain ⟨n',stored,same⟩ := booked.closed c closed sn closedBy.authorised
    -- Openings and ids are numbered alike, and no number is used twice.
    have once : (next.openings.map Opening.connectionId).Nodup := faithful.listed.nodup_iff.mpr faithful.owned.numbered
    have mine := faithful.opening_unique closedBy.sockets opening rfl
    obtain rfl : a = a' := Option.some.inj (congrArg Opening.client mine)
    obtain rfl : b = b' := Option.some.inj (congrArg Opening.server mine)
    rw [← booked.numbers] at once
    have entry := List.inj_on_of_nodup_map once closedBy.stored stored rfl
    obtain rfl : n = n' := congrArg Prod.snd entry
    rw [same]
    exact bound_iff tally (idle c (new ▸ closedBy.ended)) n

theorem close_parameters_iff_one_byte :
    boundAtClose 7 1 0 false =
      figures (Machine.run (step (oneServer "10.0.0.2")) freshProxy
        [.accept (visitor 5 6),.relay 0 false oneByte,.relay 0 true ⟨⟨0,0⟩,[],[]⟩]) (.relay 0 true ⟨⟨0,0⟩,[],[]⟩) 1 1 7 :=
  ((close_parameters_iff (oneServer "10.0.0.2") 3 (fun _ => default) (newAutoBlacklistService 7 120 fun _ => default)
    () () 0 0 [.accept (visitor 5 6),.relay 0 false oneByte] (.relay 0 true ⟨⟨0,0⟩,[],[]⟩)).2 ⟨1,0,0,1,1,some 7,false⟩
      7 1 2 7 ⟨by decide +kernel,rfl,by decide +kernel,by decide +kernel⟩).mpr (by decide +kernel)

-- The row of the visit is number 2^31, and the plugin does nothing.
def lateVisit : Context DbService Unit × Proxy DbService Unit :=
  let user : ResultSet := ⟨[⟨fun column => if column = 1 then 1 else 0,fun _ => some "user"⟩],0⟩
  (installation (oneServer "10.0.0.2").settings ⟨fun a => (none,a),fun a _ => a,fun a _ _ _ _ => (a,[])⟩,
    proxyMain 3 (fun _ => default) (newAutoBlacklistService 7 120 fun _ => default)
      (newDatabaseService true (fun _ => some "") 3600 (2^31-1) fun _ => ⟨⟨0,0⟩,true,true,true,1,none,0,[some user]⟩)
      () 0 0)

theorem large_insert_id_bound_negative :
    ¬ ∀ c sn a b n,
      ClosedBy lateVisit.1 lateVisit.2 [.accept (visitor 5 6)] (.relay 0 true ⟨⟨0,0⟩,[],[]⟩) c sn a b n →
      boundAtClose sn c.bytesReceived c.requestCount c.idle =
        figures (Machine.run (step lateVisit.1) lateVisit.2 [.accept (visitor 5 6),.relay 0 true ⟨⟨0,0⟩,[],[]⟩])
          (.relay 0 true ⟨⟨0,0⟩,[],[]⟩) c.connectionId a n := by
  intro all
  have bound := all ⟨1,0,0,0,0,some (-2^31),false⟩ (-2^31) 1 2 (2^31)
    ⟨by decide +kernel,rfl,by decide +kernel,by decide +kernel⟩
  exact absurd bound (by decide +kernel)

end TcpProxy.Proxying
