import TcpProxy.Proxying.Descriptors

namespace TcpProxy.Proxying
open Events AutoBlacklist LinkedChain

variable {σ α : Type} {ctx : Context σ α} {s : Proxy σ α} {listener : Nat} {chain pool : List Nat}

theorem write_spec (s : Sockets) (offered : List UInt8) (answer : Int) (present : s.table fd = some k)
    (accepted : 0 < (s.write fd offered answer).1) :
    ∃ n : Nat, (s.write fd offered answer).1 = n ∧ n ≤ offered.length ∧
      (s.write fd offered answer).2.streams =
        Function.update s.streams k ⟨(s.streams k).received,(s.streams k).sent ++ offered.take n⟩ := by
  simp only [Sockets.write,present] at accepted ⊢
  split at accepted
  · rename_i positive
    rw [if_pos positive]
    exact ⟨_,rfl,List.length_take_le' _ _,by rw [List.length_take,← List.take_eq_take_min]⟩
  · rename_i negative
    exact absurd accepted negative

theorem write_refused (s : Sockets) (fd : Int) (byte : UInt8) (left : List UInt8) (answer : Int)
    (refused : ¬ 0 < (s.write fd (byte :: left) answer).1) : (s.write fd (byte :: left) answer).2 = s := by
  cases present : s.table fd with
  | none => simp [Sockets.write,present]
  | some k =>
      simp only [Sockets.write,present] at refused ⊢
      split
      · rename_i positive
        rw [if_pos positive] at refused
        simp only [List.length_take,List.length_cons] at refused
        omega
      · rfl

-- The loop appends a prefix of what it was given, all of it unless a write
-- failed, and answers its length.
theorem writeLoop_spec (destination : Int) (answers : List Int) (s : Sockets) (left : List UInt8)
    (present : s.table destination = some k) :
    let done := writeLoop destination answers s left
    done.1.1 ≤ left.length ∧ (done.1.2 = false → done.1.1 = left.length) ∧
    done.2.streams =
      Function.update s.streams k ⟨(s.streams k).received,(s.streams k).sent ++ left.take done.1.1⟩ := by
  induction answers generalizing s left with
  | nil =>
      cases left with
      | nil => simp [writeLoop]
      | cons byte left => simp [writeLoop]
  | cons answer answers ih =>
      cases left with
      | nil => simp [writeLoop]
      | cons byte left =>
          simp only [writeLoop]
          split
          · rename_i accepted
            obtain ⟨n,length,within,streams⟩ := write_spec s (byte :: left) answer present accepted
            have table : (s.write destination (byte :: left) answer).2.table destination = some k := by
              rw [(write_same s destination (byte :: left) answer).table]
              exact present
            obtain ⟨bound,whole,rest⟩ := ih _ ((byte :: left).drop n) table
            rw [List.length_drop] at bound whole
            simp only [length,Int.toNat_natCast]
            generalize writeLoop destination answers (s.write destination (byte :: left) answer).2
              ((byte :: left).drop n) = done at bound whole rest ⊢
            obtain ⟨⟨total,failed⟩,after⟩ := done
            dsimp only at bound whole rest ⊢
            refine ⟨by omega,fun ended => by have := whole ended; omega,?_⟩
            rw [rest,streams]
            simp only [Function.update_self,Function.update_idem,List.append_assoc]
            rw [← List.take_add]
          · rename_i refused
            rw [write_refused s destination byte left answer refused]
            simp

-- One chunk from socket j to socket k: `data` was read, `n` bytes of it were
-- written.
def moved (streams : Nat → Stream) (j k : Nat) (data : List UInt8) (n : Nat) : Nat → Stream :=
  Function.update (Function.update streams j ⟨(streams j).received ++ data,(streams j).sent⟩) k
    ⟨(streams k).received,(streams k).sent ++ data.take n⟩

theorem moved_pair (streams : Nat → Stream) (data : List UInt8) (different : j ≠ k) (within : n ≤ data.length)
    (there : (streams k).sent = (streams j).received) (back : (streams j).sent = (streams k).received) :
    let after := moved streams j k data n
    (after k).sent <+: (after j).received ∧ (after j).sent = (after k).received ∧
    (n = data.length → (after k).sent = (after j).received) ∧
    (after k).sent.length = (streams k).sent.length+n ∧ (after j).sent = (streams j).sent := by
  have source : moved streams j k data n j = ⟨(streams j).received ++ data,(streams j).sent⟩ := by
    simp [moved,Function.update_of_ne different]
  have target : moved streams j k data n k = ⟨(streams k).received,(streams k).sent ++ data.take n⟩ := by
    simp [moved]
  dsimp only
  rw [source,target]
  refine ⟨?_,back,?_,?_,rfl⟩
  · rw [there]
    exact (List.prefix_append_right_inj _).mpr (List.take_prefix n data)
  · intro whole
    simp [there,whole]
  · simp [within]

theorem moved_other (streams : Nat → Stream) (data : List UInt8) (one : i ≠ j) (two : i ≠ k) :
    moved streams j k data n i = streams i := by
  simp [moved,Function.update_of_ne one,Function.update_of_ne two]

theorem read_spec (s : Sockets) (chunk : List UInt8) (present : s.table fd = some j) :
    (s.read fd chunk).2.streams =
      Function.update s.streams j ⟨(s.streams j).received ++ (s.read fd chunk).1,(s.streams j).sent⟩ := by
  simp [Sockets.read,present]

theorem relayChunk_spec (ctx : Context σ α) (s : Proxy σ α) (e : Nat) (input : RelayInput)
    (origin : s.sockets.table source = some j) (target : s.sockets.table destination = some k) (different : j ≠ k) :
    let result := relayChunk ctx s source destination e input
    let info := s.conns.memory e
    let next := result.2.conns.memory e
    let fromClient : Bool := info.clientFd = source
    ∃ data n, n ≤ data.length ∧ (result.1 = false → n = data.length) ∧
      result.2.sockets.streams = moved s.sockets.streams j k data n ∧
      ((n = 0 ∧ result.2.chunks = s.chunks ∧ next = {info with recent := next.recent}) ∨
       (result.2.chunks = s.chunks ++ [(info.connectionId,fromClient)] ∧
        next = if fromClient then
            {info with recent := next.recent, bytesSent := toInt64 (info.bytesSent+n),
                       requestCount := toInt32 (info.requestCount+1)}
          else
            {info with recent := next.recent, bytesReceived := toInt64 (info.bytesReceived+n),
                       responseCount := toInt32 (info.responseCount+1)})) := by
  intro result info next fromClient
  have streams := read_spec s.sockets input.chunk origin
  have quiet : ∀ data, moved s.sockets.streams j k data 0 =
      Function.update s.sockets.streams j ⟨(s.sockets.streams j).received ++ data,(s.sockets.streams j).sent⟩ := by
    intro data
    refine Function.update_eq_self_iff.mpr ?_
    simp [Function.update_of_ne (Ne.symm different)]
  simp only [result,next,relayChunk]
  split
  · rename_i empty
    exact ⟨_,0,Nat.zero_le _,by simp,streams.trans (quiet _).symm,.inl ⟨rfl,rfl,by simp [info]⟩⟩
  · split
    · exact ⟨_,0,Nat.zero_le _,by simp,streams.trans (quiet _).symm,.inl ⟨rfl,rfl,by simp [info]⟩⟩
    · have table : (s.sockets.read source input.chunk).2.table destination = some k := by
        rw [(read_same s.sockets source input.chunk).table]
        exact target
      obtain ⟨within,whole,written⟩ := writeLoop_spec destination input.writes (s.sockets.read source input.chunk).2
        (s.sockets.read source input.chunk).1 table
      refine ⟨(s.sockets.read source input.chunk).1,_,within,whole,?_,.inr ⟨?_,?_⟩⟩
      · simp only [passOn]
        rw [written,streams,Function.update_of_ne (Ne.symm different)]
        rfl
      · by_cases client : (s.conns.memory e).clientFd = source
        · simp [passOn,info,fromClient,client]
        · simp [passOn,info,fromClient,client]
      · by_cases client : (s.conns.memory e).clientFd = source
        · simp [passOn,info,fromClient,client]
        · simp [passOn,info,fromClient,client]

-- The figures of a connection with client socket a and server socket b are
-- those of the bytes and chunks that really went through it.
structure Tallied (s : Proxy σ α) (a b : Nat) (c : Closing) : Prop where
  bytesSent : c.bytesSent = toInt64 (s.sockets.streams b).sent.length
  requestCount : c.requestCount = toInt32 (s.chunks.count (c.connectionId,true))
  bytesReceived : c.bytesReceived = toInt64 (s.sockets.streams a).sent.length
  responseCount : c.responseCount = toInt32 (s.chunks.count (c.connectionId,false))

structure Whole (streams : Nat → Stream) (a b : Nat) : Prop where
  toServer : (streams b).sent = (streams a).received
  toClient : (streams a).sent = (streams b).received

structure Prefixes (streams : Nat → Stream) (a b : Nat) : Prop where
  toServer : (streams b).sent <+: (streams a).received
  toClient : (streams a).sent <+: (streams b).received

theorem Whole.congr (whole : Whole streams a b) (client : other a = streams a) (server : other b = streams b) :
    Whole other a b :=
  ⟨by rw [client,server]; exact whole.toServer,by rw [client,server]; exact whole.toClient⟩

theorem Prefixes.congr (prefixes : Prefixes streams a b) (client : other a = streams a) (server : other b = streams b) :
    Prefixes other a b :=
  ⟨by rw [client,server]; exact prefixes.toServer,by rw [client,server]; exact prefixes.toClient⟩

def sourceOf (info : ConnectionInfo) (fromClient : Bool) : Int :=
  if fromClient then info.clientFd else info.serverFd
def destinationOf (info : ConnectionInfo) (fromClient : Bool) : Int :=
  if fromClient then info.serverFd else info.clientFd

-- A chunk that goes nowhere leaves the figures; one that is passed on adds to
-- those of its direction.
theorem tally_quiet (tally : Tallied s a b (closingOf info false)) (chunks : next.chunks = s.chunks)
    (same : after = {info with recent := after.recent})
    (server : (next.sockets.streams b).sent.length = (s.sockets.streams b).sent.length)
    (client : (next.sockets.streams a).sent.length = (s.sockets.streams a).sent.length) :
    Tallied next a b (closingOf after false) := by
  rw [same]
  exact ⟨by rw [server]; exact tally.bytesSent,by rw [chunks]; exact tally.requestCount,
    by rw [client]; exact tally.bytesReceived,by rw [chunks]; exact tally.responseCount⟩

theorem tally_request (tally : Tallied s a b (closingOf info false))
    (chunks : next.chunks = s.chunks ++ [(info.connectionId,true)])
    (same : after = {info with recent := after.recent, bytesSent := toInt64 (info.bytesSent+(n : Nat)),
                               requestCount := toInt32 (info.requestCount+1)})
    (server : (next.sockets.streams b).sent.length = (s.sockets.streams b).sent.length+n)
    (client : (next.sockets.streams a).sent.length = (s.sockets.streams a).sent.length) :
    Tallied next a b (closingOf after false) := by
  have bytes := tally.bytesSent
  have count := tally.requestCount
  simp only [closingOf] at bytes count
  rw [same]
  refine ⟨?_,?_,by rw [client]; exact tally.bytesReceived,?_⟩
  · rw [server]
    simp only [closingOf,bytes,toInt64_add,Nat.cast_add]
  · rw [chunks]
    simp only [closingOf,count,toInt32_add,List.count_append,List.count_singleton_self,Nat.cast_add,Nat.cast_one]
  · rw [chunks]
    simpa [closingOf,List.count_append] using tally.responseCount

theorem tally_response (tally : Tallied s a b (closingOf info false))
    (chunks : next.chunks = s.chunks ++ [(info.connectionId,false)])
    (same : after = {info with recent := after.recent, bytesReceived := toInt64 (info.bytesReceived+(n : Nat)),
                               responseCount := toInt32 (info.responseCount+1)})
    (server : (next.sockets.streams b).sent.length = (s.sockets.streams b).sent.length)
    (client : (next.sockets.streams a).sent.length = (s.sockets.streams a).sent.length+n) :
    Tallied next a b (closingOf after false) := by
  have bytes := tally.bytesReceived
  have count := tally.responseCount
  simp only [closingOf] at bytes count
  rw [same]
  refine ⟨by rw [server]; exact tally.bytesSent,?_,?_,?_⟩
  · rw [chunks]
    simpa [closingOf,List.count_append] using tally.requestCount
  · rw [client]
    simp only [closingOf,bytes,toInt64_add,Nat.cast_add]
  · rw [chunks]
    simp only [closingOf,count,toInt32_add,List.count_append,List.count_singleton_self,Nat.cast_add,Nat.cast_one]

theorem relayChunk_effect (ctx : Context σ α) (s : Proxy σ α) (e : Nat) (fromClient : Bool) (input : RelayInput)
    (client : s.sockets.table (s.conns.memory e).clientFd = some a)
    (server : s.sockets.table (s.conns.memory e).serverFd = some b) (different : a ≠ b)
    (tally : Tallied s a b (closingOf (s.conns.memory e) false)) (whole : Whole s.sockets.streams a b) :
    let info := s.conns.memory e
    let result := relayChunk ctx s (sourceOf info fromClient) (destinationOf info fromClient) e input
    Prefixes result.2.sockets.streams a b ∧ (result.1 = false → Whole result.2.sockets.streams a b) ∧
    Tallied result.2 a b (closingOf (result.2.conns.memory e) false) ∧
    (∀ i, i ≠ a → i ≠ b → result.2.sockets.streams i = s.sockets.streams i) ∧
    (∃ more, result.2.chunks = s.chunks ++ more ∧ ∀ chunk ∈ more, chunk.1 = info.connectionId) := by
  intro info result
  have apart : ¬ info.clientFd = info.serverFd := by
    intro equal
    rw [show (s.conns.memory e).clientFd = (s.conns.memory e).serverFd from equal] at client
    exact different (Option.some.inj (client.symm.trans server))
  cases fromClient with
  | true =>
      obtain ⟨data,n,within,all,streams,figures⟩ := relayChunk_spec ctx s e input client server different
      obtain ⟨there,back,complete,length,kept⟩ :=
        moved_pair s.sockets.streams data different within whole.toServer whole.toClient
      rw [← streams] at there back complete length kept
      have quiet : ∀ i, i ≠ a → i ≠ b → result.2.sockets.streams i = s.sockets.streams i := by
        intro i one two
        rw [show result.2.sockets.streams = _ from streams]
        exact moved_other _ _ one two
      refine ⟨⟨there,back ▸ List.prefix_rfl⟩,fun ended => ⟨complete (all ended),back⟩,?_⟩
      rcases figures with ⟨rfl,chunks,same⟩ | ⟨chunks,same⟩
      · exact ⟨tally_quiet tally chunks same length (congrArg List.length kept),quiet,[],
          chunks.trans (List.append_nil _).symm,by simp⟩
      · simp only [decide_true,if_true] at chunks same
        exact ⟨tally_request tally chunks same length (congrArg List.length kept),quiet,_,chunks,by simp [info]⟩
  | false =>
      obtain ⟨data,n,within,all,streams,figures⟩ :=
        relayChunk_spec ctx s e input server client (Ne.symm different)
      obtain ⟨there,back,complete,length,kept⟩ :=
        moved_pair s.sockets.streams data (Ne.symm different) within whole.toClient whole.toServer
      rw [← streams] at there back complete length kept
      have quiet : ∀ i, i ≠ a → i ≠ b → result.2.sockets.streams i = s.sockets.streams i := by
        intro i one two
        rw [show result.2.sockets.streams = _ from streams]
        exact moved_other _ _ two one
      refine ⟨⟨back ▸ List.prefix_rfl,there⟩,fun ended => ⟨back,complete (all ended)⟩,?_⟩
      rcases figures with ⟨rfl,chunks,same⟩ | ⟨chunks,same⟩
      · exact ⟨tally_quiet tally chunks same (congrArg List.length kept) length,quiet,[],
          chunks.trans (List.append_nil _).symm,by simp⟩
      · have other : decide ((s.conns.memory e).clientFd = (s.conns.memory e).serverFd) = false := by simpa using apart
        simp only [other,Bool.false_eq_true,if_false] at chunks same
        exact ⟨tally_response tally chunks same (congrArg List.length kept) length,quiet,_,chunks,by simp [info]⟩

-- `broken` is a connection that is about to be closed because a write to it
-- failed or its limit was reached: it has passed on only a part.
structure Faithful (listener : Nat) (broken : Option Nat) (s : Proxy σ α) (chain pool : List Nat) : Prop where
  owned : Owned listener s chain pool
  listed : (s.openings.map Opening.connectionId).Perm
    (idsOf s.conns chain ++ s.closings.map Closing.connectionId)
  apart : (s.openings.flatMap fun o => [o.client,o.server]).Nodup
  relayed : ∀ o ∈ s.openings, ∃ a b, o.client = some a ∧ o.server = some b ∧
    a < s.sockets.created ∧ b < s.sockets.created ∧ Prefixes s.sockets.streams a b
  attached : ∀ e ∈ chain, ∃ a b, ⟨(s.conns.memory e).connectionId,some a,some b⟩ ∈ s.openings ∧
    s.sockets.table (s.conns.memory e).clientFd = some a ∧ s.sockets.table (s.conns.memory e).serverFd = some b ∧
    Tallied s a b (closingOf (s.conns.memory e) false) ∧ (broken ≠ some e → Whole s.sockets.streams a b)
  closed : ∀ c ∈ s.closings, ∃ a b, ⟨c.connectionId,some a,some b⟩ ∈ s.openings ∧ Tallied s a b c
  dated : ∀ chunk ∈ s.chunks, chunk.1 ≤ s.connectionCounter

theorem openings_apart {openings : List Opening} (apart : (openings.flatMap fun o => [o.client,o.server]).Nodup)
    (one : o ∈ openings) (two : o' ∈ openings) (left : x ∈ [o.client,o.server]) (right : x ∈ [o'.client,o'.server]) :
    o = o' := by
  by_contra different
  have symmetric : Std.Symm (Function.onFun List.Disjoint fun o : Opening => [o.client,o.server]) :=
    ⟨fun _ _ disjoint _ first second => disjoint second first⟩
  exact (List.nodup_flatMap.mp apart).2.forall one two different left right

theorem openings_ends {openings : List Opening} (apart : (openings.flatMap fun o => [o.client,o.server]).Nodup)
    (member : ⟨number,some a,some b⟩ ∈ openings) : a ≠ b := by
  have once := (List.nodup_flatMap.mp apart).1 _ member
  simpa using once

theorem tally_other (tally : Tallied s a b c) (client : next.sockets.streams a = s.sockets.streams a)
    (server : next.sockets.streams b = s.sockets.streams b) (chunks : next.chunks = s.chunks ++ more)
    (foreign : ∀ chunk ∈ more, chunk.1 ≠ c.connectionId) : Tallied next a b c := by
  have count : ∀ direction, next.chunks.count (c.connectionId,direction) = s.chunks.count (c.connectionId,direction) := by
    intro direction
    rw [chunks,List.count_append,List.count_eq_zero.mpr (fun member => foreign _ member rfl),Nat.add_zero]
  exact ⟨by rw [server]; exact tally.bytesSent,by rw [count]; exact tally.requestCount,
    by rw [client]; exact tally.bytesReceived,by rw [count]; exact tally.responseCount⟩

theorem Faithful.opening_unique (valid : Faithful listener broken s chain pool) (one : o ∈ s.openings)
    (two : o' ∈ s.openings) (same : o.connectionId = o'.connectionId) : o = o' :=
  List.inj_on_of_nodup_map (valid.listed.nodup_iff.mpr valid.owned.numbered) one two same

theorem Owned.number_unique (owned : Owned listener s chain pool) (one : e ∈ chain) (two : a ∈ chain)
    (same : (s.conns.memory a).connectionId = (s.conns.memory e).connectionId) : a = e :=
  List.inj_on_of_nodup_map (List.Nodup.of_append_left owned.numbered) two one same

theorem Owned.number_closed (owned : Owned listener s chain pool) (inside : e ∈ chain) (done : c ∈ s.closings) :
    c.connectionId ≠ (s.conns.memory e).connectionId := by
  intro same
  have separate := (List.nodup_append.mp owned.numbered).2.2
  exact separate _ (List.mem_map_of_mem inside) _ (List.mem_map_of_mem done) same.symm

theorem relayChunk_faithful (ctx : Context σ α) (fromClient : Bool) (input : RelayInput) (inside : e ∈ chain)
    (valid : Faithful listener none s chain pool)
    (resultAt : relayChunk ctx s (sourceOf (s.conns.memory e) fromClient) (destinationOf (s.conns.memory e) fromClient)
      e input = (close,next)) : Faithful listener (if close then some e else none) next chain pool := by
  obtain ⟨a,b,opening,client,server,tally,whole⟩ := valid.attached e inside
  have different := openings_ends valid.apart opening
  have effect := relayChunk_effect ctx s e fromClient input client server different tally (whole (by simp))
  have frame := relayChunk_frame ctx s (sourceOf (s.conns.memory e) fromClient)
    (destinationOf (s.conns.memory e) fromClient) e input
  have owned := (relayChunk_accounted False ctx (sourceOf (s.conns.memory e) fromClient)
    (destinationOf (s.conns.memory e) fromClient) e input ⟨valid.owned,False.elim⟩).1
  rw [resultAt] at owned
  simp only [resultAt] at effect frame
  obtain ⟨prefixes,complete,tallied,quiet,more,chunks,own⟩ := effect
  obtain ⟨info',sockets,db,analyzer,chunks',outcome,fields,same⟩ := frame
  generalize infoAt : s.conns.memory e = info at *
  have foreign : ∀ o ∈ s.openings, o.connectionId ≠ info.connectionId → ∀ i, some i ∈ [o.client,o.server] →
      next.sockets.streams i = s.sockets.streams i := by
    intro o member other i present
    refine quiet i ?_ ?_
    · rintro rfl
      exact other (congrArg Opening.connectionId (openings_apart valid.apart member opening present (by simp)))
    · rintro rfl
      exact other (congrArg Opening.connectionId (openings_apart valid.apart member opening present (by simp)))
  have openings : next.openings = s.openings := by rw [outcome]
  have closings : next.closings = s.closings := by rw [outcome]
  have counter : next.connectionCounter = s.connectionCounter := by rw [outcome]
  have conns : next.conns = s.conns.set e info' := by rw [outcome]
  have created : next.sockets.created = s.sockets.created := by rw [outcome]; exact same.created
  have table : next.sockets.table = s.sockets.table := by rw [outcome]; exact same.table
  have number : (next.conns.memory e).connectionId = info.connectionId := by rw [conns,set_self,fields]
  have ids := (touch_data chain (infoAt ▸ fields)).2
  refine ⟨owned,?_,openings ▸ valid.apart,?_,?_,?_,?_⟩
  · rw [openings,closings,conns,ids]
    exact valid.listed
  · intro o member
    rw [openings] at member
    rw [created]
    obtain ⟨c,d,clientAt,serverAt,low,high,before⟩ := valid.relayed o member
    by_cases mine : o.connectionId = info.connectionId
    · obtain rfl := valid.opening_unique member opening mine
      obtain rfl : a = c := Option.some.inj clientAt
      obtain rfl : b = d := Option.some.inj serverAt
      exact ⟨a,b,rfl,rfl,low,high,prefixes⟩
    · have one := foreign o member mine c (by simp [clientAt])
      have two := foreign o member mine d (by simp [serverAt])
      exact ⟨c,d,clientAt,serverAt,low,high,before.congr one two⟩
  · intro k member
    rw [openings,table]
    by_cases mine : k = e
    · subst k
      refine ⟨a,b,number ▸ opening,?_,?_,tallied,fun sound => complete ?_⟩
      · rw [conns,set_self,fields]; exact client
      · rw [conns,set_self,fields]; exact server
      · simpa using sound
    · obtain ⟨c,d,other,clientAt,serverAt,before,kept⟩ := valid.attached k member
      have apartIds : (s.conns.memory k).connectionId ≠ info.connectionId :=
        fun equal => mine (valid.owned.number_unique inside member (infoAt ▸ equal))
      have one := foreign _ other apartIds c (by simp)
      have two := foreign _ other apartIds d (by simp)
      rw [conns,set_other _ _ mine]
      refine ⟨c,d,other,clientAt,serverAt,tally_other before one two chunks ?_,fun _ => (kept (by simp)).congr one two⟩
      intro chunk present equal
      exact apartIds (equal.symm.trans (own chunk present))
  · intro c member
    rw [closings] at member
    rw [openings]
    obtain ⟨p,q,other,before⟩ := valid.closed c member
    have apartIds := infoAt ▸ valid.owned.number_closed inside member
    refine ⟨p,q,other,tally_other before (foreign _ other apartIds p (by simp)) (foreign _ other apartIds q (by simp))
      chunks ?_⟩
    intro chunk present equal
    exact apartIds (equal.symm.trans (own chunk present))
  · intro chunk member
    rw [chunks] at member
    rw [counter]
    rcases List.mem_append.mp member with old | new
    · exact valid.dated chunk old
    · rw [own chunk new]
      exact valid.owned.known _ (List.mem_append_left _ (List.mem_map.mpr ⟨e,inside,by rw [infoAt]⟩))

theorem close_streams (s : Sockets) (fd : Int) :
    (s.close fd).streams = s.streams ∧ (s.close fd).created = s.created ∧
      ∀ other, other ≠ fd → (s.close fd).table other = s.table other := by
  cases present : s.table fd with
  | none => simp [Sockets.close,present]
  | some k =>
      rw [close_open present]
      exact ⟨rfl,rfl,fun other different => by simp [Function.update_of_ne different]⟩

theorem drop_faithful (ctx : Context σ α) (idle : Bool)
    (valid : Faithful listener broken s (before ++ e :: after) pool) (only : broken = none ∨ broken = some e) :
    Faithful listener none (dropConnection ctx s e idle) (before ++ after) (e :: pool) := by
  have owned := (drop_accounted False ctx idle ⟨valid.owned,False.elim⟩).1
  obtain ⟨shape,data,sockets,_,closings,openings,chunks,counter,_⟩ := drop_spec ctx s idle valid.owned.shape
  have apart : ∀ a ∈ before ++ after, a ≠ e := fun a member => valid.owned.shape.middle_apart member
  have streams : (dropConnection ctx s e idle).sockets.streams = s.sockets.streams := by
    rw [sockets,(close_streams _ _).1,(close_streams _ _).1]
  have created : (dropConnection ctx s e idle).sockets.created = s.sockets.created := by
    rw [sockets,(close_streams _ _).2.1,(close_streams _ _).2.1]
  have keeps : ∀ {a b c}, Tallied s a b c → Tallied (dropConnection ctx s e idle) a b c := by
    intro a b c tally
    exact tally_other tally (by rw [streams]) (by rw [streams]) (chunks.trans (List.append_nil _).symm) (by simp)
  generalize dropConnection ctx s e idle = next at *
  refine ⟨owned,?_,openings ▸ valid.apart,?_,?_,?_,?_⟩
  · rw [openings,closings,idsOf_congr (fun a member => data a (apart a member))]
    exact valid.listed.trans (renumbered s.conns before after e s.closings idle)
  · rw [openings,created,streams]
    exact valid.relayed
  · intro a member
    have old : a ∈ before ++ e :: after := by
      rcases List.mem_append.mp member with left | right
      · exact List.mem_append_left _ left
      · exact List.mem_append_right _ (List.mem_cons_of_mem _ right)
    obtain ⟨p,q,opening,client,server,tally,whole⟩ := valid.attached a old
    have own := data a (apart a member)
    have same := eq_of_data own
    have clientFd : (next.conns.memory a).clientFd = (s.conns.memory a).clientFd := by rw [same]
    have serverFd : (next.conns.memory a).serverFd = (s.conns.memory a).serverFd := by rw [same]
    have number : (next.conns.memory a).connectionId = (s.conns.memory a).connectionId := by rw [same]
    have table : ∀ fd, fd = (s.conns.memory a).clientFd ∨ fd = (s.conns.memory a).serverFd →
        next.sockets.table fd = s.sockets.table fd := by
      intro fd mine
      have present : fd ∈ descriptorsOf s.conns (before ++ after) :=
        List.mem_flatMap.mpr ⟨a,member,by simpa using mine⟩
      obtain ⟨one,two⟩ := valid.owned.descriptors_apart.2 fd (List.mem_cons_of_mem _ present)
      rw [sockets,(close_streams _ _).2.2 fd two,(close_streams _ _).2.2 fd one]
    refine ⟨p,q,?_,?_,?_,?_,fun _ => ?_⟩
    · rw [openings,number]; exact opening
    · rw [clientFd,table _ (.inl rfl)]; exact client
    · rw [serverFd,table _ (.inr rfl)]; exact server
    · rw [closingOf_data own]; exact keeps tally
    · rw [streams]
      refine whole ?_
      rcases only with rfl | rfl
      · simp
      · simpa using Ne.symm (apart a member)
  · intro c member
    rw [closings] at member
    rw [openings]
    rcases List.mem_append.mp member with old | new
    · obtain ⟨p,q,opening,tally⟩ := valid.closed c old
      exact ⟨p,q,opening,keeps tally⟩
    · obtain rfl : c = closingOf (s.conns.memory e) idle := by simpa using new
      obtain ⟨p,q,opening,_,_,tally,_⟩ := valid.attached e (by simp)
      have last := keeps tally
      exact ⟨p,q,opening,last.bytesSent,last.requestCount,last.bytesReceived,last.responseCount⟩
  · rw [chunks,counter]
    exact valid.dated

theorem Faithful.opened_streams (valid : Faithful listener broken s chain pool) (path : Opened s.sockets sockets fds)
    (member : ⟨number,some a,some b⟩ ∈ s.openings) :
    sockets.streams a = s.sockets.streams a ∧ sockets.streams b = s.sockets.streams b := by
  obtain ⟨c,d,clientAt,serverAt,low,high,_⟩ := valid.relayed _ member
  obtain rfl : a = c := Option.some.inj clientAt
  obtain rfl : b = d := Option.some.inj serverAt
  exact ⟨path.streams a low,path.streams b high⟩

theorem unattached_faithful (valid : Faithful listener none s chain pool) (path : Opened s.sockets next.sockets fds)
    (owned : Owned listener next chain pool) (conns : next.conns = s.conns) (openings : next.openings = s.openings)
    (closings : next.closings = s.closings) (chunks : next.chunks = s.chunks)
    (later : s.connectionCounter ≤ next.connectionCounter) : Faithful listener none next chain pool := by
  have keeps : ∀ {a b c number}, ⟨number,some a,some b⟩ ∈ s.openings → Tallied s a b c → Tallied next a b c := by
    intro a b c number member tally
    obtain ⟨one,two⟩ := valid.opened_streams path member
    exact tally_other tally one two (chunks.trans (List.append_nil _).symm) (by simp)
  refine ⟨owned,?_,openings ▸ valid.apart,?_,?_,?_,?_⟩
  · rw [openings,closings,conns]
    exact valid.listed
  · intro o member
    rw [openings] at member
    obtain ⟨a,b,clientAt,serverAt,low,high,before⟩ := valid.relayed o member
    exact ⟨a,b,clientAt,serverAt,Nat.lt_of_lt_of_le low path.created,Nat.lt_of_lt_of_le high path.created,
      before.congr (path.streams a low) (path.streams b high)⟩
  · intro e member
    obtain ⟨a,b,opening,client,server,tally,whole⟩ := valid.attached e member
    obtain ⟨one,two⟩ := valid.opened_streams path opening
    rw [openings,conns]
    exact ⟨a,b,opening,path.kept _ _ client,path.kept _ _ server,keeps opening tally,fun _ =>
      (whole (by simp)).congr one two⟩
  · intro c member
    rw [closings] at member
    obtain ⟨a,b,opening,tally⟩ := valid.closed c member
    rw [openings]
    exact ⟨a,b,opening,keeps opening tally⟩
  · intro chunk member
    rw [chunks] at member
    exact Int.le_trans (valid.dated chunk member) later

theorem attached_faithful (valid : Faithful listener none s chain pool) (owned : Owned listener next (e :: chain) rest)
    (outside : e ∉ chain) (data : ∀ k, k ≠ e → (next.conns.memory k).data = (s.conns.memory k).data)
    (fields : next.conns.memory e = {next.conns.memory e with
      connectionId := number, clientFd := fdc, serverFd := proxyFd,
      requestCount := 0, responseCount := 0, bytesSent := 0, bytesReceived := 0})
    (sockets : next.sockets = s.sockets) (closings : next.closings = s.closings) (chunks : next.chunks = s.chunks)
    (counter : next.connectionCounter = s.connectionCounter)
    (openings : next.openings = s.openings ++ [⟨number,some a,some b⟩])
    (client : s.sockets.table fdc = some a) (server : s.sockets.table proxyFd = some b) (different : a ≠ b)
    (unused : ∀ o ∈ s.openings, ∀ i, some i ∈ [o.client,o.server] → i ≠ a ∧ i ≠ b)
    (known : a < s.sockets.created ∧ b < s.sockets.created)
    (empty : s.sockets.streams a = ⟨[],[]⟩ ∧ s.sockets.streams b = ⟨[],[]⟩)
    (new : ∀ chunk ∈ s.chunks, chunk.1 ≠ number) : Faithful listener none next (e :: chain) rest := by
  have apart : ∀ k ∈ chain, k ≠ e := fun k member equal => outside (equal ▸ member)
  have whole : Whole s.sockets.streams a b := ⟨by rw [empty.1,empty.2],by rw [empty.1,empty.2]⟩
  have keeps : ∀ {p q c}, Tallied s p q c → Tallied next p q c := by
    intro p q c tally
    exact tally_other tally (by rw [sockets]) (by rw [sockets]) (chunks.trans (List.append_nil _).symm) (by simp)
  refine ⟨owned,?_,?_,?_,?_,?_,?_⟩
  · have ids : idsOf next.conns (e :: chain) = number :: idsOf s.conns chain := by
      rw [← idsOf_congr (fun k member => data k (apart k member))]
      simp only [idsOf,List.map_cons]
      rw [fields]
    rw [openings,closings,ids,List.map_append]
    exact (List.perm_append_singleton _ _).trans (valid.listed.cons _)
  · rw [openings,List.flatMap_append]
    refine List.nodup_append.mpr ⟨valid.apart,by simpa using different,?_⟩
    intro x old y fresh equal
    obtain ⟨o,member,present⟩ := List.mem_flatMap.mp old
    subst equal
    have mine : x = some a ∨ x = some b := by simpa using fresh
    rcases mine with rfl | rfl
    · exact (unused o member a present).1 rfl
    · exact (unused o member b present).2 rfl
  · intro o member
    rw [openings] at member
    rw [sockets]
    rcases List.mem_append.mp member with old | fresh
    · exact valid.relayed o old
    · obtain rfl : o = ⟨number,some a,some b⟩ := by simpa using fresh
      exact ⟨a,b,rfl,rfl,known.1,known.2,whole.toServer ▸ List.prefix_rfl,whole.toClient ▸ List.prefix_rfl⟩
  · intro k member
    rw [openings,sockets]
    rcases List.mem_cons.mp member with rfl | old
    · refine ⟨a,b,?_,?_,?_,?_,fun _ => whole⟩
      · rw [fields]; simp
      · rw [fields]; exact client
      · rw [fields]; exact server
      · have absent : ∀ direction, s.chunks.count (number,direction) = 0 :=
          fun direction => List.count_eq_zero.mpr fun present => new _ present rfl
        rw [fields]
        refine ⟨?_,?_,?_,?_⟩
        · rw [sockets,empty.2]; rfl
        · simp only [closingOf]; rw [chunks,absent]; rfl
        · rw [sockets,empty.1]; rfl
        · simp only [closingOf]; rw [chunks,absent]; rfl
    · obtain ⟨p,q,opening,clientAt,serverAt,tally,kept⟩ := valid.attached k old
      have own := data k (apart k old)
      rw [closingOf_data own]
      have same := eq_of_data own
      refine ⟨p,q,?_,?_,?_,keeps tally,kept⟩
      · rw [same]; exact List.mem_append_left _ opening
      · rw [same]; exact clientAt
      · rw [same]; exact serverAt
  · intro c member
    rw [closings] at member
    obtain ⟨p,q,opening,tally⟩ := valid.closed c member
    rw [openings]
    exact ⟨p,q,List.mem_append_left _ opening,keeps tally⟩
  · rw [chunks,counter]
    exact valid.dated

theorem accept_faithful (ctx : Context σ α) (input : AcceptInput) (valid : Faithful listener none s chain pool) :
    ∃ chain' pool', Faithful listener none (mainListener ctx s input) chain' pool' := by
  obtain ⟨chain',pool',⟨owned,_⟩,_⟩ := accept_accounted False ctx input ⟨valid.owned,False.elim⟩ False.elim
  rcases accept_cases ctx s input with
    ⟨sockets,db,blacklist,counter,fds,outcome,later,path,_,_⟩ |
    ⟨sockets,db,blacklist,fdc,proxyFd,admission,remoteIp,outcome,path,_,_⟩
  · rw [outcome]
    exact ⟨chain,pool,unattached_faithful valid path (valid.owned.opening path later db blacklist) rfl rfl rfl rfl later⟩
  · have later : s.connectionCounter ≤ s.connectionCounter+1 := by omega
    have before := unattached_faithful valid path (valid.owned.opening path later db blacklist) rfl rfl rfl rfl later
    obtain ⟨⟨rest,shape⟩,outside,data,fields,_⟩ := establish_spec ctx
      {s with sockets := sockets,db := db,blacklist := blacklist,connectionCounter := s.connectionCounter+1}
      fdc proxyFd (s.connectionCounter+1) admission remoteIp input valid.owned.shape
    obtain ⟨sameSockets,_,counter,closings,chunks,openings⟩ := establish_frame ctx
      {s with sockets := sockets,db := db,blacklist := blacklist,connectionCounter := s.connectionCounter+1}
      fdc proxyFd (s.connectionCounter+1) admission remoteIp input
    rw [← outcome] at shape data fields sameSockets counter closings chunks openings
    generalize (allocateConnectionInfo s.conns).1 = e at shape outside data fields
    generalize mainListener ctx s input = next at *
    obtain rfl := links_unique owned.shape.linked shape.linked
    obtain ⟨a,clientAt,clientHigh,clientLow,clientEmpty⟩ := path.opened fdc (by simp)
    obtain ⟨b,serverAt,serverHigh,serverLow,serverEmpty⟩ := path.opened proxyFd (by simp)
    rw [clientAt,serverAt] at openings
    have different : a ≠ b := by
      rintro rfl
      have same := (path.sound valid.owned.sockets).single fdc proxyFd a clientAt serverAt
      exact absurd same (by simpa using path.once)
    refine ⟨e :: chain,pool',attached_faithful before owned outside data (by rw [fields]) sameSockets closings chunks
      counter openings clientAt serverAt different ?_ ⟨clientLow,serverLow⟩ ⟨clientEmpty,serverEmpty⟩ ?_⟩
    · intro o member i present
      obtain ⟨c,d,one,two,low,high,_⟩ := valid.relayed o member
      have old : i < s.sockets.created := by
        rcases List.mem_cons.mp present with equal | last
        · obtain rfl : i = c := Option.some.inj (equal.trans one)
          exact low
        · obtain rfl : i = d := Option.some.inj ((List.mem_singleton.mp last).trans two)
          exact high
      exact ⟨by omega,by omega⟩
    · intro chunk member equal
      have bound := valid.dated chunk member
      omega

theorem doProxying_faithful (ctx : Context σ α) (fromClient : Bool) (input : RelayInput) (inside : e ∈ chain)
    (valid : Faithful listener none s chain pool) :
    ∃ chain' pool', Faithful listener none (doProxying ctx s (sourceOf (s.conns.memory e) fromClient)
      (destinationOf (s.conns.memory e) fromClient) e input) chain' pool' := by
  cases resultAt : relayChunk ctx s (sourceOf (s.conns.memory e) fromClient)
      (destinationOf (s.conns.memory e) fromClient) e input with
  | mk close next =>
      have relayed := relayChunk_faithful ctx fromClient input inside valid resultAt
      simp only [doProxying,valid.owned.shape.attached e inside,if_true,resultAt]
      cases close with
      | true =>
          obtain ⟨before,after,rfl⟩ := List.append_of_mem inside
          exact ⟨_,_,drop_faithful ctx false relayed (.inr rfl)⟩
      | false => exact ⟨chain,pool,relayed⟩

theorem faithful_invariant (ctx : Context σ α) (listener : Nat) :
    Invariant ctx (fun _ _ => True) (Faithful listener none) where
  shape valid := valid.owned.shape
  accept valid _ := accept_faithful ctx _ valid
  relay {_ _ _ _ fromClient _} valid _ inside := by
    have below := valid.owned.shape.below (List.mem_append_left _ inside)
    cases fromClient with
    | true =>
        simp only [Proxying.relay,below,if_true,proxyFromClientToServer]
        exact doProxying_faithful ctx true _ inside valid
    | false =>
        simp only [Proxying.relay,below,if_true,proxyFromServerToClient]
        exact doProxying_faithful ctx false _ inside valid
  drop valid := drop_faithful ctx true valid (.inl rfl)
  other {_ _ _} valid holder size db blacklist defaultServer onFailedChannel used :=
    ⟨((accounted_invariant False ctx listener).other ⟨valid.owned,False.elim⟩ holder size db blacklist defaultServer
        onFailedChannel used).1,
      valid.listed,valid.apart,valid.relayed,
      fun e member => by
        obtain ⟨a,b,opening,client,server,tally,whole⟩ := valid.attached e member
        exact ⟨a,b,opening,client,server,⟨tally.1,tally.2,tally.3,tally.4⟩,whole⟩,
      fun c member => by
        obtain ⟨a,b,opening,tally⟩ := valid.closed c member
        exact ⟨a,b,opening,⟨tally.1,tally.2,tally.3,tally.4⟩⟩,
      valid.dated⟩

theorem initial_faithful (listener : Nat) (memory : Nat → ConnectionInfo) (blacklist : Table) (db : σ)
    (analyzer : α) (defaultServer onFailedChannel : Int) :
    Faithful listener none (proxyMain listener memory blacklist db analyzer defaultServer onFailedChannel) [] [] :=
  ⟨(initial_accounted False listener memory blacklist db analyzer defaultServer onFailedChannel).1,
    by simp [proxyMain,idsOf],by simp [proxyMain],by simp [proxyMain],by simp,by simp [proxyMain],by simp [proxyMain]⟩

-- The machine's integers hold the figures, and are the figures themselves as
-- long as these fit.
structure Accurate (s : Proxy σ α) (a b : Nat) (c : Closing) : Prop extends Tallied s a b c where
  sent : (s.sockets.streams b).sent.length < 2^63 → c.bytesSent = (s.sockets.streams b).sent.length
  received : (s.sockets.streams a).sent.length < 2^63 → c.bytesReceived = (s.sockets.streams a).sent.length
  requests : s.chunks.count (c.connectionId,true) < 2^31 → c.requestCount = s.chunks.count (c.connectionId,true)
  responses : s.chunks.count (c.connectionId,false) < 2^31 → c.responseCount = s.chunks.count (c.connectionId,false)

theorem Tallied.accurate (tally : Tallied s a b c) : Accurate s a b c := by
  refine ⟨tally,fun small => ?_,fun small => ?_,fun small => ?_,fun small => ?_⟩
  · exact tally.bytesSent.trans (toInt64_eq (by omega) (by omega))
  · exact tally.bytesReceived.trans (toInt64_eq (by omega) (by omega))
  · exact tally.requestCount.trans (toInt32_eq (by omega) (by omega))
  · exact tally.responseCount.trans (toInt32_eq (by omega) (by omega))

-- Over every run and for every connection ever attached: no socket belongs to
-- two connections, each side got a prefix of what the other sent, all of it
-- while the connection is in the chain, and the figures in its entry, and
-- later in the record of its end, are the true ones.
theorem relay_integrity (ctx : Context σ α) (listener : Nat) (memory : Nat → ConnectionInfo) (blacklist : Table)
    (db : σ) (analyzer : α) (defaultServer onFailedChannel : Int) (events : List Event) :
    let s := Machine.run (step ctx) (proxyMain listener memory blacklist db analyzer defaultServer onFailedChannel)
      events
    (s.openings.flatMap fun o => [o.client,o.server]).Nodup ∧
    ∃ chain, Links s.conns.nextOf s.conns.infos chain ∧
    (∀ e ∈ chain, ∃ o ∈ s.openings, o.connectionId = (s.conns.memory e).connectionId ∧
      o.client = s.sockets.table (s.conns.memory e).clientFd ∧
      o.server = s.sockets.table (s.conns.memory e).serverFd) ∧
    ∀ o ∈ s.openings, ∃ a b, o.client = some a ∧ o.server = some b ∧
      (s.sockets.streams b).sent <+: (s.sockets.streams a).received ∧
      (s.sockets.streams a).sent <+: (s.sockets.streams b).received ∧
      (∀ e ∈ chain, (s.conns.memory e).connectionId = o.connectionId →
        (s.sockets.streams b).sent = (s.sockets.streams a).received ∧
        (s.sockets.streams a).sent = (s.sockets.streams b).received ∧
        Accurate s a b (closingOf (s.conns.memory e) false)) ∧
      (∀ c ∈ s.closings, c.connectionId = o.connectionId → Accurate s a b c) := by
  intro s
  obtain ⟨chain,pool,valid⟩ := (faithful_invariant ctx listener).run
    (initial_faithful listener memory blacklist db analyzer defaultServer onFailedChannel) events
    (Machine.along_true events)
  refine ⟨valid.apart,chain,valid.owned.shape.linked,?_,?_⟩
  · intro e member
    obtain ⟨a,b,opening,client,server,_⟩ := valid.attached e member
    exact ⟨_,opening,rfl,client.symm,server.symm⟩
  · intro o member
    obtain ⟨a,b,clientAt,serverAt,_,_,prefixes⟩ := valid.relayed o member
    have whole : o = ⟨o.connectionId,some a,some b⟩ := by rw [← clientAt,← serverAt]
    -- A connection number leads to one pair of sockets only.
    have mine : ∀ {c d}, ⟨o.connectionId,some c,some d⟩ ∈ s.openings → c = a ∧ d = b := by
      intro c d other
      have same := (valid.opening_unique member other rfl).symm.trans whole
      exact ⟨Option.some.inj (congrArg Opening.client same),Option.some.inj (congrArg Opening.server same)⟩
    refine ⟨a,b,clientAt,serverAt,prefixes.toServer,prefixes.toClient,?_,?_⟩
    · intro e inside same
      obtain ⟨c,d,opening,_,_,tally,complete⟩ := valid.attached e inside
      rw [same] at opening
      obtain ⟨rfl,rfl⟩ := mine opening
      exact ⟨(complete (by simp)).toServer,(complete (by simp)).toClient,tally.accurate⟩
    · intro c ended same
      obtain ⟨p,q,opening,tally⟩ := valid.closed c ended
      rw [same] at opening
      obtain ⟨rfl,rfl⟩ := mine opening
      exact tally.accurate

end TcpProxy.Proxying
