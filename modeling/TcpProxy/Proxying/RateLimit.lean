import TcpProxy.AutoBlacklist.History
import TcpProxy.Proxying.Steps

namespace TcpProxy.Proxying
open AutoBlacklist

variable {σ α : Type} {ctx : Context σ α} {s : Proxy σ α}

structure Attempt where
  address : UInt32
  now : Timeval
  admission : Admission
deriving DecidableEq, Repr

def Attempt.forwarded (a : Attempt) : Bool := 0 ≤ a.admission.channel

def Attempt.within (frequency : Int) (address : UInt32) (low high : Int) (a : Attempt) : Bool :=
  a.address = address ∧ low ≤ a.now.sec / frequency ∧ a.now.sec / frequency ≤ high

def attemptOf (ctx : Context σ α) (s : Proxy σ α) : Event → Option Attempt
  | .accept input =>
    if (s.sockets.create input.accept).1 = -1 then none
    else match input.peer with
      | none => none
      | some peer =>
        if peer.isV4 then some ⟨peer.address.w3,input.now,(admitPeer ctx (arrived s input) input.now peer).1⟩ else none
  | _ => none

theorem attemptOf_accept (attempt : attemptOf ctx s (.accept input) = some a) :
    (s.sockets.create input.accept).1 ≠ -1 ∧ ∃ peer, input.peer = some peer ∧ peer.isV4 ∧
      a = ⟨peer.address.w3,input.now,(admitPeer ctx (arrived s input) input.now peer).1⟩ := by
  simp only [attemptOf] at attempt
  split at attempt
  · cases attempt
  · rename_i taken
    cases peerAt : input.peer with
    | none => simp [peerAt] at attempt
    | some peer =>
        simp only [peerAt] at attempt
        cases v4 : peer.isV4 with
        | false => simp [v4] at attempt
        | true =>
            simp only [v4,if_true,Option.some.injEq] at attempt
            exact ⟨taken,peer,rfl,v4,attempt.symm⟩

def attempts (ctx : Context σ α) (s : Proxy σ α) (events : List Event) : List Attempt :=
  Machine.trace (step ctx) (attemptOf ctx) s events

-- Attempts of one address whose slot lies between two slots, and those of them
-- that accepting_request forwarded.
def attemptsIn (frequency : Int) (address : UInt32) (low high : Int) (done : List Attempt) : Nat :=
  done.countP fun a => a.within frequency address low high

def forwardedIn (frequency : Int) (address : UInt32) (low high : Int) (done : List Attempt) : Nat :=
  done.countP fun a => a.within frequency address low high && a.forwarded

def Event.clock : Event → Option Timeval
  | .accept input => some input.now
  | .expiring now => some now
  | _ => none

structure Clocked (frequency : Int) (events : List Event) : Prop where
  ordered : (events.filterMap Event.clock).Pairwise fun one two => one.sec ≤ two.sec
  started : ∀ now ∈ events.filterMap Event.clock, 0 ≤ now.sec
  representable : ∀ now ∈ events.filterMap Event.clock, now.sec / frequency < 2^31

-- The operation on the blacklist table that an event amounts to.
def operationOf (ctx : Context σ α) (s : Proxy σ α) : Event → Option Operation
  | .accept input =>
    (attemptOf ctx s (.accept input)).bind fun a =>
      if a.admission.entry.isSome then some (.findAndIncrease a.now a.address) else none
  | .expiring now => some (.expiring now)
  | _ => none

-- What the proxy writes into an entry it was given: a success, the time of a
-- notice. No count depends on either.
structure Touched (t next : Table) : Prop where
  setup : SameSetup t next
  allocated : next.allocated = t.allocated
  entries : next.entries = t.entries
  released : next.releasePool = t.releasePool
  link : ∀ e, (next.memory e).next = (t.memory e).next
  ipaddr : ∀ e, (next.memory e).ipaddr = (t.memory e).ipaddr
  slots : ∀ e, (next.memory e).accessCount = (t.memory e).accessCount
  counter : ∀ e, (next.memory e).counter = (t.memory e).counter

theorem Touched.refl (t : Table) : Touched t t :=
  ⟨SameSetup.refl t,rfl,rfl,rfl,fun _ => rfl,fun _ => rfl,fun _ => rfl,fun _ => rfl⟩

theorem touched_setEntry (t : Table) (e : Nat) (entry : IpAccessEntry) (link : entry.next = (t.memory e).next)
    (ipaddr : entry.ipaddr = (t.memory e).ipaddr) (slots : entry.accessCount = (t.memory e).accessCount)
    (counter : entry.counter = (t.memory e).counter) : Touched t (t.setEntry e entry) := by
  have own : ∀ a, a = e → (t.setEntry e entry).memory a = entry := fun a same => same ▸ setEntry_self t e entry
  refine ⟨⟨rfl,rfl⟩,rfl,rfl,rfl,fun a => ?_,fun a => ?_,fun a => ?_,fun a => ?_⟩ <;>
    by_cases same : a = e
  all_goals first
    | rw [own a same,same]; assumption
    | rw [setEntry_other t entry same]

theorem countSuccess_touched (t : Table) (e : Nat) : Touched t (countSuccess t e) :=
  touched_setEntry t e _ rfl rfl rfl rfl

theorem noticeBlocked_touched (t : Table) (now : Timeval) (e : Nat) : Touched t (noticeBlocked t now e) := by
  unfold noticeBlocked
  split
  · exact touched_setEntry t e _ rfl rfl rfl rfl
  · exact Touched.refl t

theorem Touched.exact (touched : Touched t next) (precise : Exact frequency ops clock t) :
    Exact frequency ops clock next := by
  obtain ⟨chains,pool,shape,known⟩ := precise
  refine ⟨chains,pool,shape.keep touched.setup touched.allocated touched.entries touched.released
    fun e => ⟨touched.link e,touched.ipaddr e⟩,fun ip => ?_⟩
  obtain ⟨last,low,high,state⟩ := known ip
  exact ⟨last,low,high,state.of_counts touched.setup touched.ipaddr touched.slots touched.counter⟩

-- Deciding about an attempt: authorised, refused unseen, counted, or from an
-- address that is not counted.
theorem limitAccess_spec (ctx : Context σ α) (s : Proxy σ α) (remoteIp : String) (now : Timeval)
    (address : UInt32) (blacklisted : Bool) (channel : Int) (blocked : blacklisted → channel < 0) :
    let found := findAndIncrease s.blacklist now address
    let limited := limitAccess ctx s remoteIp now address blacklisted channel
    limited.2.blacklist = found.2 ∧ limited.1.entry = some found.1 ∧
    ((∀ v, limited.1.vip = some v → v = 0) → 0 ≤ limited.1.channel →
      (found.2.memory found.1).counter ≤ ctx.settings.connectionThreshold) := by
  intro found limited
  dsimp only [limited,limitAccess]
  split
  · rename_i black
    exact ⟨rfl,rfl,fun _ opened => absurd (blocked black) (by dsimp only at opened; omega)⟩
  · refine ⟨rfl,rfl,?_⟩
    dsimp only
    intro ordinary opened
    by_cases above : ctx.settings.connectionThreshold < (found.2.memory found.1).counter
    · -- Above the threshold only a non-zero answer of check_vip lets it pass.
      exfalso
      simp only [checkThreshold,found] at above ordinary opened
      simp only [above,if_true] at ordinary opened
      split at ordinary
      · rename_i zero
        simp [zero] at opened
      · rename_i important
        exact important (ordinary _ rfl)
    · exact Int.not_lt.mp above

theorem admitPeer_cases (ctx : Context σ α) (s : Proxy σ α) (now : Timeval) (peer : Peer) :
    let admitted := admitPeer ctx s now peer
    let found := findAndIncrease s.blacklist now peer.address.w3
    (admitted.1.entry = none ∧ admitted.2.blacklist = s.blacklist ∧
      (peer.isV4 → admitted.1.requestInDb = none →
        checkRemoteIpInWhitelist ctx.settings (inetNtop peer.address) = false ∧ admitted.1.channel < 0)) ∨
    (peer.isV4 ∧ admitted.1.entry = some found.1 ∧ admitted.2.blacklist = found.2 ∧
      checkRemoteIpInWhitelist ctx.settings (inetNtop peer.address) = true ∧
      ((∀ v, admitted.1.vip = some v → v = 0) → 0 ≤ admitted.1.channel →
        (found.2.memory found.1).counter ≤ ctx.settings.connectionThreshold)) := by
  intro admitted found
  dsimp only [admitted,admitPeer]
  split
  · exact .inl ⟨rfl,rfl,fun _ missing => by simp at missing⟩
  · split
    · rename_i listed
      split
      · rename_i v4
        have blocked : ∀ black : Bool, black → (if black then -1 else s.defaultServer) < 0 := by
          intro black isBlack
          rw [if_pos isBlack]
          omega
        obtain ⟨table,entry,limit⟩ := limitAccess_spec ctx
          {s with db := (ctx.db.connectionBlacklisted (ctx.db.checkAvailable s.db (inetNtop peer.address)).2
            (inetNtop peer.address)).2} (inetNtop peer.address) now peer.address.w3 _ _
          (blocked (0 < (ctx.db.connectionBlacklisted (ctx.db.checkAvailable s.db (inetNtop peer.address)).2
            (inetNtop peer.address)).1))
        exact .inr ⟨v4,entry,table,listed,limit⟩
      · rename_i v6
        exact .inl ⟨rfl,rfl,fun v4 => absurd v4 v6⟩
    · rename_i unlisted
      exact .inl ⟨rfl,rfl,fun _ _ => ⟨by simpa using unlisted,by simp⟩⟩

theorem forward_touched (ctx : Context σ α) (s : Proxy σ α) (fdc connectionId : Int) (admission : Admission)
    (remoteIp : String) (input : AcceptInput) :
    Touched s.blacklist (forward ctx s fdc connectionId admission remoteIp input).blacklist := by
  obtain ⟨table,touch,outcome⟩ := forward_cases ctx s fdc connectionId admission remoteIp input
  have kept : (forward ctx s fdc connectionId admission remoteIp input).blacklist = table := by
    rw [outcome]
    dsimp only
    split
    · exact (establish_frame _ _ _ _ _ _ _ _).2.1
    · rfl
  rw [kept]
  rcases touch with rfl | ⟨e,rfl⟩
  · exact Touched.refl _
  · exact countSuccess_touched _ e

theorem refuse_touched (ctx : Context σ α) (s : Proxy σ α) (fdc : Int) (admission : Admission) (remoteIp : String)
    (now : Timeval) : Touched s.blacklist (refuse ctx s fdc admission remoteIp now).blacklist := by
  unfold refuse
  dsimp only
  split
  · split
    · exact noticeBlocked_touched _ _ _
    · exact Touched.refl _
  · exact Touched.refl _

def counted (ctx : Context σ α) (s : Proxy σ α) (event : Event) : Table :=
  match operationOf ctx s event with
  | some op => operate s.blacklist op
  | none => s.blacklist

theorem accept_touched (ctx : Context σ α) (s : Proxy σ α) (input : AcceptInput) :
    Touched (counted ctx s (.accept input)) (mainListener ctx s input).blacklist := by
  by_cases refused : (s.sockets.create input.accept).1 = -1
  · simpa [counted,operationOf,attemptOf,mainListener,refused] using Touched.refl _
  · have taken : mainListener ctx s input = acceptingRequest ctx (arrived s input)
        (s.sockets.create input.accept).1 (s.connectionCounter+1) input := by
      simp only [mainListener,if_neg refused,arrived]
    rw [taken]
    cases peerAt : input.peer with
    | none => simpa [counted,operationOf,attemptOf,refused,acceptingRequest,peerAt] using Touched.refl _
    | some peer =>
        have admitted : Touched (admitPeer ctx (arrived s input) input.now peer).2.blacklist
            (acceptingRequest ctx (arrived s input) (s.sockets.create input.accept).1 (s.connectionCounter+1)
              input).blacklist := by
          simp only [acceptingRequest,peerAt]
          split
          · exact forward_touched _ _ _ _ _ _ _
          · exact refuse_touched _ _ _ _ _ _
        rcases admitPeer_cases ctx (arrived s input) input.now peer with ⟨entry,table,_⟩ | ⟨v4,entry,table,_⟩
        · rw [table] at admitted
          cases v4 : peer.isV4 with
          | false => simpa [counted,operationOf,attemptOf,refused,peerAt,v4] using admitted
          | true => simpa [counted,operationOf,attemptOf,refused,peerAt,v4,entry] using admitted
        · rw [table] at admitted
          simpa [counted,operationOf,attemptOf,refused,peerAt,v4,entry,operate] using admitted

theorem step_touched (ctx : Context σ α) (s : Proxy σ α) (event : Event) :
    Touched (counted ctx s event) (step ctx s event).blacklist := by
  cases event with
  | accept input => exact accept_touched ctx s input
  | relay e fromClient input =>
      simp only [step,(relay_finishing ctx s e fromClient input).blacklist]
      exact Touched.refl _
  | cleanIdle now timeout =>
      simp only [step,(cleanIdle_finishing ctx s now timeout).blacklist]
      exact Touched.refl _
  | expiring now => exact Touched.refl _
  | closeIdle now => exact Touched.refl _
  | setDefaultChannel channel =>
      obtain ⟨defaultServer,same⟩ := setDefaultChannel_frame ctx s channel
      rw [step,same]
      exact Touched.refl _
  | setFallbackChannel channel =>
      obtain ⟨onFailedChannel,same⟩ := setFallbackChannel_frame ctx s channel
      rw [step,same]
      exact Touched.refl _

theorem operationOf_clock (operation : operationOf ctx s event = some op) : event.clock = some op.now := by
  cases event with
  | accept input =>
      obtain ⟨a,attempt,operationAt⟩ := Option.bind_eq_some_iff.mp operation
      obtain ⟨_,_,_,_,rfl⟩ := attemptOf_accept attempt
      split at operationAt
      · cases operationAt
        rfl
      · cases operationAt
  | expiring now =>
      cases operation
      rfl
  | relay _ _ _ => cases operation
  | cleanIdle _ _ => cases operation
  | closeIdle _ => cases operation
  | setDefaultChannel _ => cases operation
  | setFallbackChannel _ => cases operation

theorem Clocked.before (clocked : Clocked frequency (earlier ++ later)) : Clocked frequency earlier := by
  have part : List.Sublist (earlier.filterMap Event.clock) ((earlier ++ later).filterMap Event.clock) :=
    (List.sublist_append_left earlier later).filterMap _
  exact ⟨clocked.ordered.sublist part,fun now member => clocked.started now (part.subset member),
    fun now member => clocked.representable now (part.subset member)⟩

theorem Clocked.last (clocked : Clocked frequency (earlier ++ [event])) (place : event.clock = some now) :
    0 ≤ now.sec ∧ now.sec / frequency < 2^31 ∧ ∀ one ∈ earlier.filterMap Event.clock, one.sec ≤ now.sec := by
  have times : (earlier ++ [event]).filterMap Event.clock = earlier.filterMap Event.clock ++ [now] := by
    simp [place]
  have ordered := clocked.ordered
  rw [times] at ordered
  refine ⟨clocked.started now (by simp [times]),clocked.representable now (by simp [times]),?_⟩
  intro one member
  exact (List.pairwise_append.mp ordered).2.2 one member now (by simp)

theorem attemptOf_clock (attempt : attemptOf ctx s event = some a) : event.clock = some a.now := by
  cases event with
  | accept input =>
      obtain ⟨_,_,_,_,rfl⟩ := attemptOf_accept attempt
      rfl
  | relay _ _ _ => cases attempt
  | cleanIdle _ _ => cases attempt
  | expiring _ => cases attempt
  | closeIdle _ => cases attempt
  | setDefaultChannel _ => cases attempt
  | setFallbackChannel _ => cases attempt

theorem attempts_clock (events : List Event) (member : a ∈ attempts ctx s events) :
    a.now ∈ events.filterMap Event.clock := by
  induction events generalizing s with
  | nil => cases member
  | cons event rest ih =>
      rcases List.mem_append.mp member with here | there
      · have clock := attemptOf_clock (Option.mem_toList.mp here)
        simp [clock]
      · have later := ih there
        rw [List.filterMap_cons]
        split
        · exact later
        · exact List.mem_cons_of_mem _ later

-- The proxy's table is the table of the calls and sweeps that took place.
theorem run_exact_counts {hashSize monitorPeriod : Int32} {entries : Nat → IpAccessEntry} (ctx : Context σ α)
    (fresh : s.blacklist = newAutoBlacklistService hashSize monitorPeriod entries) (sized : 0 < hashSize.toInt)
    (positive : 0 < (monitorPeriod / 12).toInt) (events : List Event)
    (clocked : Clocked (monitorPeriod / 12).toInt events) (nonneg : 0 ≤ clock)
    (reached : ∀ now ∈ events.filterMap Event.clock, now.sec / (monitorPeriod / 12).toInt ≤ clock) :
    Exact (monitorPeriod / 12).toInt (Machine.trace (step ctx) (operationOf ctx) s events) clock
      (Machine.run (step ctx) s events).blacklist ∧
    (Machine.run (step ctx) s events).blacklist.frequencyInSeconds = monitorPeriod / 12 := by
  induction events using List.reverseRecOn generalizing clock with
  | nil =>
      simp only [Machine.run_nil,fresh]
      exact ⟨new_exact hashSize monitorPeriod entries sized nonneg,rfl⟩
  | append_singleton earlier event ih =>
      rw [Machine.run_concat,Machine.trace_concat]
      have touched := step_touched ctx (Machine.run (step ctx) s earlier) event
      cases operation : operationOf ctx (Machine.run (step ctx) s earlier) event with
      | none =>
          obtain ⟨valid,frequency⟩ := ih clocked.before nonneg
            (fun now member => reached now (by simp [List.filterMap_append,List.mem_append,member]))
          simp only [counted,operation] at touched
          simp only [Option.toList_none,List.append_nil]
          exact ⟨touched.exact valid,touched.setup.frequency.trans frequency⟩
      | some op =>
          obtain ⟨started,representable,past⟩ := clocked.last (operationOf_clock operation)
          obtain ⟨valid,frequency⟩ := ih clocked.before
            (Int.ediv_nonneg started (Int.le_of_lt positive))
            (fun now member => Int.ediv_le_ediv positive (past now member))
          have limit := reached op.now (by simp [operationOf_clock operation])
          simp only [counted,operation] at touched
          generalize Machine.run (step ctx) s earlier = before at *
          rw [← frequency] at valid positive representable limit ⊢
          obtain ⟨after,same⟩ := operate_exact positive op started representable valid
          exact ⟨touched.exact (after.later limit),touched.setup.frequency.trans same.frequency⟩

-- An attempt that is not authorised in the database is counted when its
-- address is on the whitelist, and only then has a chance to be forwarded.
theorem attempt_outcome (attempt : attemptOf ctx s event = some a) (unknown : a.admission.requestInDb = none) :
    (checkRemoteIpInWhitelist ctx.settings (inetNtop ⟨0,0,0xffff0000,a.address⟩) = false ∧
      a.forwarded = false) ∨
    (checkRemoteIpInWhitelist ctx.settings (inetNtop ⟨0,0,0xffff0000,a.address⟩) = true ∧
      operationOf ctx s event = some (.findAndIncrease a.now a.address) ∧
      ((∀ v, a.admission.vip = some v → v = 0) → a.forwarded →
        ((findAndIncrease s.blacklist a.now a.address).2.memory
          (findAndIncrease s.blacklist a.now a.address).1).counter ≤ ctx.settings.connectionThreshold)) := by
  cases event with
  | accept input =>
      obtain ⟨taken,peer,peerAt,v4,rfl⟩ := attemptOf_accept attempt
      have mapped : peer.address = ⟨0,0,0xffff0000,peer.address.w3⟩ := by
        obtain ⟨inet6,w0,w1,w2,w3⟩ := peer
        simp only [Peer.isV4,Bool.and_eq_true,beq_iff_eq] at v4
        obtain ⟨⟨⟨_,rfl⟩,rfl⟩,rfl⟩ := v4
        rfl
      have either := admitPeer_cases ctx (arrived s input) input.now peer
      rw [mapped] at either
      rcases either with ⟨_,_,refused⟩ | ⟨_,entry,_,listed,limit⟩
      · obtain ⟨unlisted,negative⟩ := refused v4 unknown
        exact .inl ⟨unlisted,by simpa [Attempt.forwarded] using negative⟩
      · refine .inr ⟨listed,by simp [operationOf,attempt,entry],fun ordinary opened => ?_⟩
        exact limit ordinary (by simpa [Attempt.forwarded] using opened)
  | relay _ _ _ => cases attempt
  | cleanIdle _ _ => cases attempt
  | expiring _ => cases attempt
  | closeIdle _ => cases attempt
  | setDefaultChannel _ => cases attempt
  | setFallbackChannel _ => cases attempt

section Ordinary
variable {address : UInt32}

theorem call_of_attempt (listed : checkRemoteIpInWhitelist ctx.settings (inetNtop ⟨0,0,0xffff0000,address⟩) = true)
    (unknown : ∀ a ∈ (attemptOf ctx s event).toList, a.address = address → a.admission.requestInDb = none)
    (frequency low high : Int) :
    callsIn frequency address low high (operationOf ctx s event).toList =
      attemptsIn frequency address low high (attemptOf ctx s event).toList := by
  cases event with
  | accept input =>
      cases attempt : attemptOf ctx s (.accept input) with
      | none => simp [operationOf,attempt,callsIn,attemptsIn]
      | some a =>
          by_cases same : a.address = address
          · rcases attempt_outcome attempt (unknown a (by simp [attempt]) same) with ⟨unlisted,_⟩ | ⟨_,operation,_⟩
            · rw [same,listed] at unlisted
              cases unlisted
            · simp [operation,callsIn,attemptsIn,Attempt.within,same]
          · simp only [operationOf,attempt,Option.bind_some]
            split
            · simp [callsIn,attemptsIn,Attempt.within,same]
            · simp [callsIn,attemptsIn,Attempt.within,same]
  | expiring now => simp [operationOf,attemptOf,callsIn,attemptsIn]
  | relay _ _ _ => rfl
  | cleanIdle _ _ => rfl
  | closeIdle _ => rfl
  | setDefaultChannel _ => rfl
  | setFallbackChannel _ => rfl

-- Of an address on the whitelist every attempt is a call, refused or not.
theorem calls_are_attempts
    (listed : checkRemoteIpInWhitelist ctx.settings (inetNtop ⟨0,0,0xffff0000,address⟩) = true)
    (frequency low high : Int) (events : List Event)
    (unknown : ∀ a ∈ attempts ctx s events, a.address = address → a.admission.requestInDb = none) :
    callsIn frequency address low high (Machine.trace (step ctx) (operationOf ctx) s events) =
      attemptsIn frequency address low high (attempts ctx s events) := by
  induction events generalizing s with
  | nil => rfl
  | cons event rest ih =>
      have whole : attempts ctx s (event :: rest) =
        (attemptOf ctx s event).toList ++ attempts ctx (step ctx s event) rest := rfl
      rw [whole] at unknown ⊢
      have here := call_of_attempt listed
        (fun a member => unknown a (List.mem_append_left _ member)) frequency low high
      have there := ih fun a member => unknown a (List.mem_append_right _ member)
      simp only [callsIn,attemptsIn,Machine.trace,List.countP_append] at here there ⊢
      omega

variable {hashSize monitorPeriod : Int32} {entries : Nat → IpAccessEntry}

def Ordinary (address : UInt32) (done : List Attempt) : Prop :=
  ∀ a ∈ done, a.address = address → a.admission.requestInDb = none ∧ ∀ v ∈ a.admission.vip, v = 0

instance (address : UInt32) (done : List Attempt) : Decidable (Ordinary address done) :=
  inferInstanceAs (Decidable (∀ a ∈ done, a.address = address → a.admission.requestInDb = none ∧
    ∀ v ∈ a.admission.vip, v = 0))

theorem forwarded_window (fresh : s.blacklist = newAutoBlacklistService hashSize monitorPeriod entries)
    (sized : 0 < hashSize.toInt) (positive : 0 < (monitorPeriod / 12).toInt)
    (clocked : Clocked (monitorPeriod / 12).toInt (earlier ++ [event]))
    (ordinary : Ordinary address (attempts ctx s (earlier ++ [event])))
    (attempt : attemptOf ctx (Machine.run (step ctx) s earlier) event = some a) (own : a.address = address)
    (forwarded : a.forwarded) :
    attemptsIn (monitorPeriod / 12).toInt address (a.now.sec / (monitorPeriod / 12).toInt - 11)
      (a.now.sec / (monitorPeriod / 12).toInt) (attempts ctx s (earlier ++ [event])) ≤
        ctx.settings.connectionThreshold := by
  have present : a ∈ attempts ctx s (earlier ++ [event]) := by
    simp [attempts,Machine.trace_concat,attempt]
  obtain ⟨unknown,unimportant⟩ := ordinary a present own
  rcases attempt_outcome attempt unknown with ⟨_,refused⟩ | ⟨listed,operation,limit⟩
  · rw [refused] at forwarded
    cases forwarded
  · obtain ⟨started,representable,past⟩ := clocked.last (operationOf_clock operation)
    obtain ⟨valid,frequency⟩ := run_exact_counts ctx fresh sized positive earlier clocked.before
      (Int.ediv_nonneg started (Int.le_of_lt positive)) (fun now member => Int.ediv_le_ediv positive (past now member))
    have bound := limit unimportant forwarded
    rw [own] at listed operation bound
    rw [← calls_are_attempts listed _ _ _ _ (fun b member same => (ordinary b member same).1),
      Machine.trace_concat,operation]
    rw [← frequency] at valid positive representable ⊢
    have counted := (exact_counts positive started representable valid address).2.1
    exact counted.symm.le.trans bound

theorem forwarded_limit (fresh : s.blacklist = newAutoBlacklistService hashSize monitorPeriod entries)
    (sized : 0 < hashSize.toInt) (positive : 0 < (monitorPeriod / 12).toInt) (events : List Event)
    (clocked : Clocked (monitorPeriod / 12).toInt events) (ordinary : Ordinary address (attempts ctx s events))
    (first : Int) :
    (forwardedIn (monitorPeriod / 12).toInt address first (first+11) (attempts ctx s events) : Int) ≤
      max 0 ctx.settings.connectionThreshold := by
  induction events using List.reverseRecOn with
  | nil => exact le_max_left 0 _
  | append_singleton earlier event ih =>
      have whole : attempts ctx s (earlier ++ [event]) =
          attempts ctx s earlier ++ (attemptOf ctx (Machine.run (step ctx) s earlier) event).toList :=
        Machine.trace_concat _ earlier event
      have before := ih clocked.before fun a member => ordinary a (by rw [whole]; exact List.mem_append_left _ member)
      cases attempt : attemptOf ctx (Machine.run (step ctx) s earlier) event with
      | none =>
          rw [whole,attempt]
          simpa using before
      | some a =>
          by_cases counts : (a.within (monitorPeriod / 12).toInt address first (first+11) && a.forwarded) = true
          · obtain ⟨within,forwarded⟩ := Bool.and_eq_true_iff.mp counts
            have inside : a.address = address ∧ first ≤ a.now.sec / (monitorPeriod / 12).toInt ∧
                a.now.sec / (monitorPeriod / 12).toInt ≤ first+11 := by simpa [Attempt.within] using within
            have window := forwarded_window fresh sized positive clocked ordinary attempt inside.1 forwarded
            refine le_trans ?_ (window.trans (le_max_right _ _))
            refine Int.ofNat_le.mpr (List.countP_mono_left fun b member both => ?_)
            obtain ⟨mine,_⟩ := Bool.and_eq_true_iff.mp both
            obtain ⟨same,low,_⟩ : b.address = address ∧ first ≤ b.now.sec / (monitorPeriod / 12).toInt ∧
                b.now.sec / (monitorPeriod / 12).toInt ≤ first+11 := by simpa only [Attempt.within,decide_eq_true_eq] using mine
            have notLater : b.now.sec ≤ a.now.sec := by
              have time := attempts_clock (earlier ++ [event]) member
              rw [List.filterMap_append,List.mem_append] at time
              rcases time with old | last
              · exact (clocked.last (attemptOf_clock attempt)).2.2 _ old
              · have now : b.now = a.now := by simpa [attemptOf_clock attempt] using last
                rw [now]
            have slots := Int.ediv_le_ediv positive notLater
            simp only [Attempt.within,decide_eq_true_eq]
            exact ⟨same,by omega,slots⟩
          · have same : forwardedIn (monitorPeriod / 12).toInt address first (first+11)
                (attempts ctx s (earlier ++ [event])) =
                  forwardedIn (monitorPeriod / 12).toInt address first (first+11) (attempts ctx s earlier) := by
              rw [whole,attempt]
              simp only [forwardedIn,List.countP_append,Option.toList_some,List.countP_singleton,counts]
              rfl
            rw [same]
            exact before

end Ordinary

theorem attempt_branch (attempt : attemptOf ctx s (.accept input) = some a) : ∃ peer, input.peer = some peer ∧
    TakesBranch ctx (arrived s input) (s.sockets.create input.accept).1 (s.connectionCounter+1) input peer a.forwarded
      (step ctx s (.accept input)) := by
  obtain ⟨taken,peer,peerAt,_,rfl⟩ := attemptOf_accept attempt
  have listened : step ctx s (.accept input) =
      acceptingRequest ctx (arrived s input) (s.sockets.create input.accept).1 (s.connectionCounter+1) input := by
    simp only [step,mainListener,if_neg taken,arrived]
  refine ⟨peer,peerAt,?_⟩
  rw [listened]
  simpa only [Attempt.forwarded,decide_eq_true_eq] using acceptingRequest_branch ctx (arrived s input) _ _ input peerAt

-- One attempt in two minutes is allowed: of three, the first is forwarded, the
-- second is refused, and the sweep does not make room for the third.
def oneAttempt : Context Unit Unit where
  settings := ⟨fun _ => ⟨"10.0.0.2",1688⟩,1,1,100,6,86400,["::ffff:127."]⟩
  db := {authorising with checkAvailable := fun db _ => (none,db)}
  packetAnalyzer := ⟨fun a => (none,a),fun a _ => a,fun a db _ _ _ => (a,db)⟩

end TcpProxy.Proxying
